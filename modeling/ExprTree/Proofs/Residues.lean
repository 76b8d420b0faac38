import Mathlib.Algebra.Order.Ring.Int
import Mathlib.Data.Int.ModEq
import ExprTree.Word

/-!
# Words among the integers

Reducing an integer into a type picks the one value of the type that agrees with it modulo the number
of values. Where the exact result of an operation on words is a value of the type already, nothing is
reduced. That is so for remainders and for shifts to the right, and for quotients with one exception:
the least value of a signed type has no opposite, so its quotient by minus one is out of range.

## Main definitions

* `IntTy.Holds`: the integers that are values of a type.

## Main results

* `Word.wrap_modEq`, `Word.wrap_eq_iff`: reduction keeps the residue, and that determines it.
* `Word.holds_tdiv_iff`: when a quotient is in range.
* `Word.holds_tmod`, `Word.holds_ediv`: remainders and shifts to the right are.
-/

set_option autoImplicit false

namespace ExprTree

namespace IntTy

/-- Whether the type has a value for an integer. -/
abbrev Holds (k : IntTy) (n : Int) : Prop := k.lo ≤ n ∧ n ≤ k.hi

theorem natCast_modulus (k : IntTy) : (k.modulus : Int) = 2 ^ k.bits := by
  rw [k.modulus_eq]
  exact Int.natCast_pow 2 k.bits

theorem lo_nonpos (k : IntTy) : k.lo ≤ 0 := by
  cases k <;> decide

theorem hi_pos (k : IntTy) : 0 < k.hi := by
  cases k <;> decide

/-- A type has no negative values, or one more of them than positive ones. -/
theorem lo_eq_zero_or (k : IntTy) : k.lo = 0 ∨ k.lo = -k.hi - 1 := by
  cases k <;> decide

end IntTy

namespace Word

variable {a b : Word}

/-! ### Reduction -/

/-- Reduction into a type keeps the residue. -/
theorem wrap_modEq (k : IntTy) (n : Int) : (wrap k n).val ≡ n [ZMOD 2 ^ k.bits] := by
  rw [val_wrap, ← k.natCast_modulus]
  simpa using (Int.mod_modEq (n - k.lo) k.modulus).add_right k.lo

/-- There is one word of a type for every residue. -/
theorem wrap_eq_iff {k : IntTy} {n : Int} {w : Word} :
    wrap k n = w ↔ w.kind = k ∧ w.val ≡ n [ZMOD 2 ^ k.bits] := by
  constructor
  · rintro rfl
    exact ⟨kind_wrap k n, wrap_modEq k n⟩
  · rintro ⟨rfl, hn⟩
    have hlow : (w.val - w.kind.lo) % w.kind.modulus = w.val - w.kind.lo := by
      have hrange := w.inRange
      have hhi := w.kind.hi_eq
      exact Int.emod_eq_of_lt (by omega) (by omega)
    have hresidue : (n - w.kind.lo) % w.kind.modulus = (w.val - w.kind.lo) % w.kind.modulus := by
      rw [w.kind.natCast_modulus]
      exact (hn.sub_right w.kind.lo).symm
    refine ext_val (kind_wrap w.kind n) ?_
    rw [val_wrap, hresidue, hlow, Int.sub_add_cancel]

/-! ### Exact results -/

/-- A quotient of two words of a type is a value of the type, unless the dividend is the least value
of the type and the divisor minus one. -/
theorem holds_tdiv_iff (hkind : b.kind = a.kind) (hb : b.val ≠ 0) :
    a.kind.Holds (a.val.tdiv b.val) ↔ ¬(a.val = a.kind.lo ∧ b.val = -1) := by
  have ha := a.inRange
  have hbRange := b.inRange
  rw [hkind] at hbRange
  have hhi := a.kind.hi_pos
  have hlo := a.kind.lo_eq_zero_or
  by_cases hunit : b.val.natAbs = 1
  · rcases Int.natAbs_eq_iff.1 hunit with h | h
    · rw [h, Nat.cast_one, Int.tdiv_one]
      omega
    · rw [h, Nat.cast_one, Int.tdiv_neg, Int.tdiv_one]
      omega
  · -- A divisor of magnitude two or more brings the quotient below half of the dividend.
    have hquotient : (a.val.tdiv b.val).natAbs ≤ a.val.natAbs / 2 := by
      rw [Int.natAbs_tdiv]
      exact Nat.div_le_div_left (by omega) (by decide)
    have hsign : 0 ≤ a.val → 0 ≤ b.val → 0 ≤ a.val.tdiv b.val := Int.tdiv_nonneg
    omega

/-- A remainder lies between zero and the dividend. -/
theorem holds_tmod (a : Word) (n : Int) : a.kind.Holds (a.val.tmod n) := by
  have ha := a.inRange
  have hhi := a.kind.hi_pos
  have hlo := a.kind.lo_nonpos
  have hle : (a.val.tmod n).natAbs ≤ a.val.natAbs := by
    rw [Int.natAbs_tmod]
    exact Nat.mod_le _ _
  have hnonneg : 0 ≤ a.val → 0 ≤ a.val.tmod n := Int.tmod_nonneg n
  have hnonpos : 0 ≤ -a.val → 0 ≤ -a.val.tmod n := by
    rw [← Int.neg_tmod]
    exact Int.tmod_nonneg n
  omega

/-- Dividing by a positive number, whichever way it rounds, does not lead out of a type. -/
theorem holds_ediv (a : Word) {n : Int} (hn : 0 < n) : a.kind.Holds (a.val / n) := by
  have ha := a.inRange
  constructor
  · rw [Int.le_ediv_iff_mul_le hn]
    exact (mul_le_of_one_le_right a.kind.lo_nonpos hn).trans ha.1
  · have hle : a.val / n ≤ a.kind.hi / n := Int.ediv_le_ediv hn ha.2
    exact hle.trans (Int.ediv_le_self n a.kind.hi_pos.le)

end Word

end ExprTree
