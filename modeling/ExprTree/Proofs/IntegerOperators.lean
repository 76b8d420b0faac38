import Mathlib.Data.Rat.Floor
import ExprTree.Eval.Operators
import ExprTree.Proofs.Residues

/-!
# Integer operators and exact arithmetic

The operators on two integers of one type are exact arithmetic, brought back into the type in one of
two ways: wrapping operators keep the residue, and checked ones fail where the exact result is no
value of the type. Division and remainder are checked ones that have a second way to fail. A shift is
a multiplication or a division by a power of two.

What operators answer is said without reference to how they compute it: by congruences, by the
equation that quotient and remainder solve, and by rounding a rational number down.

## Main definitions

* `RingOp`: addition, subtraction and multiplication, each of which is two operators.

## Main results

* `Operators.binary_divide`, `Operators.binary_modulo`: division and remainder over the integers.
* `Operators.binary_integers`: what all arithmetic operators answer.
-/

set_option autoImplicit false

namespace ExprTree

/-- The operations that have a wrapping and a checked operator. -/
inductive RingOp where
  | add | subtract | multiply
deriving DecidableEq, Repr

namespace RingOp

/-- The exact result. -/
def eval : RingOp → Int → Int → Int
  | add, m, n => m + n
  | subtract, m, n => m - n
  | multiply, m, n => m * n

/-- The operator that reduces the exact result into the type of its operands. -/
def wrapping : RingOp → BinaryOp
  | add => .add
  | subtract => .subtract
  | multiply => .multiply

/-- The operator that fails where the exact result does not fit. -/
def checked : RingOp → BinaryOp
  | add => .addChecked
  | subtract => .subtractChecked
  | multiply => .multiplyChecked

end RingOp

namespace Operators

variable {op : BinaryOp} {a b count : Word}

/-! ### One operator at a time -/

theorem checkedInt_of_holds {k : IntTy} {n : Int} (h : k.Holds n) :
    checkedInt op k n = .ok (.ofInt k n) := by
  have hword : Word.ofInt? k n = some (.wrap k n) := by
    rw [Word.ofInt?, Word.wrap, dif_pos h, dif_pos h]
  rw [checkedInt, hword]
  rfl

theorem checkedInt_of_not_holds {k : IntTy} {n : Int} (h : ¬k.Holds n) :
    checkedInt op k n = .error (.binaryOverflow op (.int k)) := by
  rw [checkedInt, Word.ofInt?, dif_neg h]

/-- Two integers of one type have the operators of that type, shifts apart. -/
theorem binary_of_kind_eq (hkind : b.kind = a.kind) (hshift : isShift op = false) :
    binary op (.int a) (.int b) = integers op a.kind a b := by
  simp [binary, hshift, hkind]

theorem binary_wrapping (op : RingOp) (hkind : b.kind = a.kind) :
    binary op.wrapping (.int a) (.int b) = .ok (.ofInt a.kind (op.eval a.val b.val)) := by
  cases op <;> exact binary_of_kind_eq hkind rfl

theorem binary_checked (op : RingOp) (hkind : b.kind = a.kind) :
    binary op.checked (.int a) (.int b) =
      checkedInt op.checked a.kind (op.eval a.val b.val) := by
  cases op <;> exact binary_of_kind_eq hkind rfl

theorem binary_divide (hkind : b.kind = a.kind) : binary .divide (.int a) (.int b) =
    if b.val = 0 then .error .divideByZero else checkedInt .divide a.kind (a.val.tdiv b.val) :=
  binary_of_kind_eq hkind rfl

/-- The remainder is computed only where the quotient is in range. -/
theorem binary_modulo (hkind : b.kind = a.kind) : binary .modulo (.int a) (.int b) =
    if b.val = 0 then .error .divideByZero
    else if a.kind.Holds (a.val.tdiv b.val) then .ok (.ofInt a.kind (a.val.tmod b.val))
    else .error (.binaryOverflow .modulo (.int a.kind)) := by
  rw [binary_of_kind_eq hkind rfl, integers]
  by_cases hmem : a.kind.Holds (a.val.tdiv b.val)
  · rw [Word.ofInt?, dif_pos hmem, if_pos hmem]
  · rw [Word.ofInt?, dif_neg hmem, if_neg hmem]

/-- The types of 32 and more bits shift by an `i32`. -/
theorem binary_shift (hshift : isShift op = true) (hbits : a.kind.bits = 32 ∨ a.kind.bits = 64)
    (hcount : count.kind = .i32) : binary op (.int a) (.int count) = .ok (shift op a count) := by
  have hshiftable : shiftable a.kind = true := by
    generalize a.kind = k at hbits
    cases k <;> first | rfl | exact absurd hbits (by decide)
  simp [binary, hshift, hshiftable, hcount]

/-! ### Quotient and remainder -/

/-- The truncated quotient and its remainder solve the division. -/
theorem tdiv_tmod_spec (m : Int) {n : Int} (hn : n ≠ 0) :
    m = m.tdiv n * n + m.tmod n ∧ |m.tmod n| < |n| ∧
      (m.tmod n = 0 ∨ (m.tmod n).sign = m.sign) := by
  refine ⟨(Int.tdiv_mul_add_tmod m n).symm, ?_, ?_⟩
  · have hlt : (m.tmod n).natAbs < n.natAbs := by
      rw [Int.natAbs_tmod]
      exact Nat.mod_lt _ (Int.natAbs_pos.2 hn)
    rw [Int.abs_eq_natAbs, Int.abs_eq_natAbs]
    exact_mod_cast hlt
  · by_cases hdvd : n ∣ m
    · exact .inl (Int.tmod_eq_zero_of_dvd hdvd)
    · right
      rw [Int.sign_tmod, if_neg hdvd]

/-! ### All of them -/

/-- **Integer operators match exact arithmetic.** Take two integers of one type, and a count of type
`i32`.

* Addition, subtraction and multiplication give the value of the type that agrees with the exact
  result modulo the number of its values, and the checked ones give the exact result or, where the
  type does not hold it, overflow.
* Division and remainder fail for a zero divisor, and overflow for the least value of the type and
  minus one. For all other operands the quotient and the remainder solve the division, the remainder
  is less than the divisor, and it is zero or has the sign of the dividend.
* For types of 32 and 64 bits, let `m` be the count modulo the width. A shift to the left multiplies
  by `2 ^ m` modulo the number of values of the type, and one to the right divides by `2 ^ m` and
  rounds down. -/
theorem binary_integers (hkind : b.kind = a.kind) (hcount : count.kind = .i32) :
    (∀ op : RingOp, ∃ w : Word, w.kind = a.kind ∧
      w.val ≡ op.eval a.val b.val [ZMOD 2 ^ a.kind.bits] ∧
      binary op.wrapping (.int a) (.int b) = .ok (.int w)) ∧
    (∀ op : RingOp, a.kind.Holds (op.eval a.val b.val) →
      ∃ w : Word, w.kind = a.kind ∧ w.val = op.eval a.val b.val ∧
        binary op.checked (.int a) (.int b) = .ok (.int w)) ∧
    (∀ op : RingOp, ¬a.kind.Holds (op.eval a.val b.val) →
      binary op.checked (.int a) (.int b) = .error (.binaryOverflow op.checked (.int a.kind))) ∧
    (b.val = 0 →
      binary .divide (.int a) (.int b) = .error .divideByZero ∧
      binary .modulo (.int a) (.int b) = .error .divideByZero) ∧
    (a.val = a.kind.lo ∧ b.val = -1 →
      binary .divide (.int a) (.int b) = .error (.binaryOverflow .divide (.int a.kind)) ∧
      binary .modulo (.int a) (.int b) = .error (.binaryOverflow .modulo (.int a.kind))) ∧
    (b.val ≠ 0 → ¬(a.val = a.kind.lo ∧ b.val = -1) →
      ∃ q r : Word, q.kind = a.kind ∧ r.kind = a.kind ∧
        binary .divide (.int a) (.int b) = .ok (.int q) ∧
        binary .modulo (.int a) (.int b) = .ok (.int r) ∧
        a.val = q.val * b.val + r.val ∧ |r.val| < |b.val| ∧
        (r.val = 0 ∨ r.val.sign = a.val.sign)) ∧
    (a.kind.bits = 32 ∨ a.kind.bits = 64 → ∀ m : Nat, (m : Int) = count.val % a.kind.bits →
      ∃ l r : Word, l.kind = a.kind ∧ r.kind = a.kind ∧
        binary .leftShift (.int a) (.int count) = .ok (.int l) ∧
        l.val ≡ a.val * 2 ^ m [ZMOD 2 ^ a.kind.bits] ∧
        binary .rightShift (.int a) (.int count) = .ok (.int r) ∧
        r.val = ⌊(a.val : Rat) / 2 ^ m⌋) := by
  have hkinds (n : Int) : (Word.wrap a.kind n).kind = a.kind := Word.kind_wrap _ n
  refine ⟨fun op => ?_, fun op hmem => ?_, fun op hmem => ?_, fun hzero => ?_, fun hleast => ?_,
    fun hzero hleast => ?_, fun hbits m hm => ?_⟩
  · exact ⟨_, hkinds _, Word.wrap_modEq _ _, binary_wrapping op hkind⟩
  · exact ⟨_, hkinds _, Word.val_wrap_of_mem hmem,
      (binary_checked op hkind).trans (checkedInt_of_holds hmem)⟩
  · exact (binary_checked op hkind).trans (checkedInt_of_not_holds hmem)
  · rw [binary_divide hkind, binary_modulo hkind, if_pos hzero, if_pos hzero]
    exact ⟨rfl, rfl⟩
  · have hzero : b.val ≠ 0 := by omega
    have hmem : ¬a.kind.Holds (a.val.tdiv b.val) := fun h =>
      (Word.holds_tdiv_iff hkind hzero).1 h hleast
    rw [binary_divide hkind, binary_modulo hkind, if_neg hzero, if_neg hzero, if_neg hmem]
    exact ⟨checkedInt_of_not_holds hmem, rfl⟩
  · have hquotient := (Word.holds_tdiv_iff hkind hzero).2 hleast
    have hremainder := Word.holds_tmod a b.val
    refine ⟨.wrap a.kind (a.val.tdiv b.val), .wrap a.kind (a.val.tmod b.val), hkinds _, hkinds _,
      ?_, ?_, ?_⟩
    · rw [binary_divide hkind, if_neg hzero]
      exact checkedInt_of_holds hquotient
    · rw [binary_modulo hkind, if_neg hzero, if_pos hquotient]
      rfl
    · rw [Word.val_wrap_of_mem hquotient, Word.val_wrap_of_mem hremainder]
      exact tdiv_tmod_spec a.val hzero
  · have hpow : ((Nat.pow 2 (count.val % a.kind.bits).toNat : Nat) : Int) = 2 ^ m := by
      rw [← hm, Int.toNat_natCast]
      exact Int.natCast_pow 2 m
    have hpos : (0 : Int) < 2 ^ m := by positivity
    refine ⟨_, _, hkinds _, hkinds _, binary_shift rfl hbits hcount, ?_,
      binary_shift rfl hbits hcount, ?_⟩
    · rw [hpow]
      exact Word.wrap_modEq _ _
    · rw [hpow, Word.val_wrap_of_mem (Word.holds_ediv a hpos)]
      exact_mod_cast (Rat.floor_intCast_div_natCast a.val (2 ^ m)).symm

/-- The theorem for the least `i32`, minus one, and a shift by minus one, that is by 31. -/
theorem binary_integers_least :
    let least : Word := .wrap .i32 (-2147483648)
    let one : Word := .wrap .i32 (-1)
    binary .divide (.int least) (.int one) = .error (.overflow "`/` on i32") ∧
      (∃ w : Word, w.val ≡ -2147483649 [ZMOD 2 ^ 32] ∧
        binary .add (.int least) (.int one) = .ok (.int w)) ∧
      ∃ w : Word, w.val = -1 ∧ binary .rightShift (.int least) (.int one) = .ok (.int w) := by
  intro least one
  obtain ⟨hwrapping, -, -, -, hleast, -, hshift⟩ :=
    @binary_integers least one one rfl rfl
  obtain ⟨w, -, hw, hadd⟩ := hwrapping .add
  obtain ⟨-, r, -, -, -, -, hright, hr⟩ := hshift (.inl rfl) 31 rfl
  refine ⟨(hleast ⟨rfl, rfl⟩).1, ⟨w, hw, hadd⟩, r, hr.trans ?_, hright⟩
  have hleastVal : least.val = -2147483648 := rfl
  rw [hleastVal]
  norm_num

end Operators

end ExprTree
