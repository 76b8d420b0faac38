/-!
# Fixed-width integers

The eight integer types of the language and their values. A `Word` carries its type and the
integer it stands for, together with the proof that the type can hold it, so arithmetic is done
on `Int` and only the way back into a type needs a rule: `wrap` keeps the low bits, `ofInt?`
refuses what does not fit.

## Main definitions

* `IntTy`: the integer types, with `bits`, `signed`, `lo` and `hi`.
* `Word`: an integer of a given type.
* `Word.wrap`, `Word.ofInt?`: reduction modulo `2 ^ bits`, and the range check.

## Main results

* `Word.val_wrap`: what reduction is, as a remainder.
* `Word.val_wrap_of_mem`: a value in range is its own reduction.
* `Word.wrap_val`: wrapping the value of a word gives the word back.
-/

set_option autoImplicit false

namespace ExprTree

/-- The fixed-width integer types. -/
inductive IntTy where
  | i8 | u8 | i16 | u16 | i32 | u32 | i64 | u64
deriving DecidableEq, Hashable, Repr

namespace IntTy

/-- Number of bits of the type. -/
def bits : IntTy → Nat
  | i8 | u8 => 8
  | i16 | u16 => 16
  | i32 | u32 => 32
  | i64 | u64 => 64

/-- Whether the type has negative values. -/
def signed : IntTy → Bool
  | i8 | i16 | i32 | i64 => true
  | u8 | u16 | u32 | u64 => false

/-- The number of values of the type. -/
def modulus : IntTy → Nat
  | i8 | u8 => 256
  | i16 | u16 => 65536
  | i32 | u32 => 4294967296
  | i64 | u64 => 18446744073709551616

/-- The least value of the type. -/
def lo : IntTy → Int
  | i8 => -128
  | i16 => -32768
  | i32 => -2147483648
  | i64 => -9223372036854775808
  | u8 | u16 | u32 | u64 => 0

/-- The greatest value of the type. -/
def hi : IntTy → Int
  | i8 => 127
  | u8 => 255
  | i16 => 32767
  | u16 => 65535
  | i32 => 2147483647
  | u32 => 4294967295
  | i64 => 9223372036854775807
  | u64 => 18446744073709551615

/-- The name of the type in printed text. -/
def text : IntTy → String
  | i8 => "i8"
  | u8 => "u8"
  | i16 => "i16"
  | u16 => "u16"
  | i32 => "i32"
  | u32 => "u32"
  | i64 => "i64"
  | u64 => "u64"

/-- A type has a value for each pattern of its bits. -/
theorem modulus_eq (k : IntTy) : k.modulus = Nat.pow 2 k.bits := by
  cases k <;> rfl

/-- Half of the values of a signed type are negative, and none of an unsigned one. -/
theorem lo_eq (k : IntTy) :
    k.lo = if k.signed then -((Nat.pow 2 (k.bits - 1) : Nat) : Int) else 0 := by
  cases k <;> rfl

/-- The values of a type follow each other without a gap. -/
theorem hi_eq (k : IntTy) : k.hi = k.lo + k.modulus - 1 := by
  cases k <;> rfl

theorem modulus_pos (k : IntTy) : 0 < (k.modulus : Int) := by
  cases k <;> decide

end IntTy

/-- An integer of one of the fixed-width types. -/
structure Word where
  kind : IntTy
  val : Int
  inRange : kind.lo ≤ val ∧ val ≤ kind.hi
deriving DecidableEq

namespace Word

/-- The integer of type `k` that agrees with `n` modulo `2 ^ k.bits`. It is `n` itself if the type
can hold `n`. -/
def wrap (k : IntTy) (n : Int) : Word :=
  if h : k.lo ≤ n ∧ n ≤ k.hi then ⟨k, n, h⟩
  else
    ⟨k, (n - k.lo) % k.modulus + k.lo, by
      have h := k.modulus_pos
      have := Int.emod_nonneg (n - k.lo) (Int.ne_of_gt h)
      have := Int.emod_lt_of_pos (n - k.lo) h
      rw [k.hi_eq]
      omega⟩

/-- The integer `n` as a value of type `k`, if `k` can hold it. -/
def ofInt? (k : IntTy) (n : Int) : Option Word :=
  if h : k.lo ≤ n ∧ n ≤ k.hi then some ⟨k, n, h⟩ else none

/-- Two words of one type with one value are the same word. -/
theorem ext_val {a b : Word} (hk : a.kind = b.kind) (hv : a.val = b.val) : a = b := by
  cases a
  cases b
  cases hk
  cases hv
  rfl

@[simp] theorem kind_wrap (k : IntTy) (n : Int) : (wrap k n).kind = k := by
  unfold wrap
  split <;> rfl

theorem val_wrap_of_mem {k : IntTy} {n : Int} (h : k.lo ≤ n ∧ n ≤ k.hi) :
    (wrap k n).val = n := by
  simp [wrap, h]

theorem val_wrap (k : IntTy) (n : Int) : (wrap k n).val = (n - k.lo) % k.modulus + k.lo := by
  by_cases h : k.lo ≤ n ∧ n ≤ k.hi
  · have : (n - k.lo) % k.modulus = n - k.lo :=
      Int.emod_eq_of_lt (by omega) (by have := k.hi_eq; omega)
    rw [val_wrap_of_mem h, this]
    omega
  · simp [wrap, h]

@[simp] theorem wrap_val (w : Word) : wrap w.kind w.val = w :=
  ext_val (kind_wrap w.kind w.val) (val_wrap_of_mem w.inRange)

/-! ### Bit patterns -/

/-- The two's complement bit pattern of a word. -/
def pattern (w : Word) : Nat := (w.val % w.kind.modulus).toNat

/-- The word of type `k` with the given bit pattern; surplus high bits are dropped. -/
def ofPattern (k : IntTy) (bits : Nat) : Word := wrap k bits

/-- Every bit flipped. In two's complement that is `-n - 1`. -/
def complement (w : Word) : Word := wrap w.kind (-w.val - 1)

/-- Shift left, dropping the bits that leave the word. The count is taken modulo the width. -/
def shiftLeft (w : Word) (count : Int) : Word :=
  wrap w.kind (w.val * Nat.pow 2 (count % w.kind.bits).toNat)

/-- Shift right, rounding towards negative infinity. The count is taken modulo the width. -/
def shiftRight (w : Word) (count : Int) : Word :=
  wrap w.kind (w.val / Nat.pow 2 (count % w.kind.bits).toNat)

/-- Decimal text of a word. -/
def text (w : Word) : String := toString w.val

end Word

end ExprTree
