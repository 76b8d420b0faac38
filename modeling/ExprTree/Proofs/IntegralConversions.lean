import ExprTree.Proofs.ConvertedValues

/-!
# Conversions of integers

Integers, characters and enum values are converted to the integer types and to `char` by way of the
integer that they stand for. The result is the one value of the target that is congruent to it modulo
two to the number of bits. A character has 16 bits here, whatever the characters are that values hold:
those beyond the 16 bits are never a result, and where the bits are a surrogate there is no result.

A checked conversion is the unchecked one in the range of the target, and fails outside of it. The
range of `char` includes the surrogates, so they are no overflow.

## Main definitions

* `Convert.Narrowing`: what the unchecked conversion of an integer to a target has to answer.

## Main results

* `Convert.narrow_eq_iff`: it does, and nothing else would do.
* `Convert.convert_integer`: which conversions are narrowings.
* `Convert.convert_integral`: integral conversion is arithmetic modulo the width.
-/

set_option autoImplicit false

namespace ExprTree

namespace Convert

variable {v : Value} {source : Ty} {t : IntegralTarget} {n : Int} {checked : Bool}

/-- The answers to the conversion of a value that stands for the integer `n`: a value of the target
that is congruent to `n` modulo two to its number of bits, or the failure for a surrogate. -/
inductive Narrowing (v : Value) (n : Int) : IntegralTarget → Except EvalError Value → Prop
  | int (w : Word) (hw : w.val ≡ n [ZMOD 2 ^ w.kind.bits]) :
      Narrowing v n (.int w.kind) (.ok (.int w))
  | char (c : Char) (hlt : c.toNat < 2 ^ 16) (hc : (c.toNat : Int) ≡ n [ZMOD 2 ^ 16]) :
      Narrowing v n .char (.ok (.char c))
  | surrogate (unit : Nat) (hlo : 0xD800 ≤ unit) (hhi : unit ≤ 0xDFFF)
      (hunit : (unit : Int) ≡ n [ZMOD 2 ^ 16]) : Narrowing v n .char (.error (.badCast v .char))

/-- The value of 16 bits without a sign that narrowing to a character starts from. -/
theorem val_wrap_u16 (n : Int) : (Word.wrap .u16 n).val = n % 2 ^ 16 := by
  rw [Word.val_wrap]
  simp [IntTy.lo, IntTy.modulus]

theorem toNat_wrap_u16_lt (n : Int) : (Word.wrap .u16 n).val.toNat < 2 ^ 16 := by
  rw [val_wrap_u16]
  omega

theorem toNat_wrap_u16_eq_iff {unit : Nat} (hlt : unit < 2 ^ 16) :
    (Word.wrap .u16 n).val.toNat = unit ↔ (unit : Int) ≡ n [ZMOD 2 ^ 16] := by
  rw [val_wrap_u16, Int.ModEq]
  omega

/-- The narrowing of an integer to a target is what it has to be, and that is determined. -/
theorem narrow_eq_iff {result : Except EvalError Value} :
    narrow v t n = result ↔ Narrowing v n t result := by
  cases t with
  | int k =>
    constructor
    · rintro rfl
      have hkind := Word.kind_wrap k n
      have narrowing : Narrowing v n (.int (Word.wrap k n).kind) (.ok (.ofInt k n)) :=
        .int (Word.wrap k n) (by rw [hkind]; exact Word.wrap_modEq k n)
      rwa [hkind] at narrowing
    · rintro ⟨w, hw⟩
      rw [narrow, Value.ofInt, Word.wrap_eq_iff.2 ⟨rfl, hw⟩]
  | char =>
    constructor
    · rintro rfl
      have hunit := (toNat_wrap_u16_eq_iff (toNat_wrap_u16_lt n)).1 rfl
      have hlt := toNat_wrap_u16_lt n
      rw [narrow]
      generalize (Word.wrap .u16 n).val.toNat = unit at hunit hlt
      split
      · next hvalid =>
        have hchar : (Char.ofNat unit).toNat = unit := by
          rw [Char.ofNat, dif_pos hvalid]
          rfl
        exact .char _ (by rwa [hchar]) (by rwa [hchar])
      · next hvalid => exact .surrogate unit (by omega) (by omega) hunit
    · intro h
      cases h with
      | char c hlt hc =>
        have hvalid : c.toNat.isValidChar := c.valid
        rw [narrow, (toNat_wrap_u16_eq_iff hlt).2 hc, if_pos hvalid, Char.ofNat_toNat]
      | surrogate unit hlo hhi hunit =>
        rw [narrow, (toNat_wrap_u16_eq_iff (by omega)).2 hunit, if_neg (by omega)]

theorem toIntegral_integer (hn : v.integer? = some n) :
    toIntegral v t checked = integral v t n checked := by
  unfold toIntegral
  split
  · cases hn
  · cases hn
  · rw [hn]

theorem isNull_of_integer (hn : v.integer? = some n) : v.isNull = false := by
  cases v with
  | null => cases hn
  | _ => rfl

/-- A conversion between value types looks at the value alone. -/
theorem convert_value {target : Ty} (hv : v.isNull = false)
    (hsource : source.core.isValueType = true) (hvalue : target.isValueType = true)
    (hnullable : target.isNullable = false) :
    convert v source target checked = convertValue v target checked := by
  have hsource : source.nonNullable.isValueType = true :=
    Ty.isValueType_of_core (by rwa [Ty.core_nonNullable])
  rw [convert_plain hv hnullable, if_pos hvalue, if_pos hsource]

/-- A value that stands for an integer is converted by way of it, unless it has the type already. -/
theorem convert_integer (hn : v.integer? = some n) (hsource : source.core.isValueType = true)
    (hty : v.runtimeTy ≠ some t.ty) : convert v source t.ty checked = integral v t n checked := by
  have htarget : t.ty.isValueType = true ∧ t.ty.isNullable = false := by
    cases t <;> exact ⟨rfl, rfl⟩
  rw [convert_value (isNull_of_integer hn) hsource htarget.1 htarget.2, ← toIntegral_integer hn]
  unfold convertValue
  rw [if_neg hty]
  cases t <;> rfl

/-- An integer type that holds the integer gets it. -/
theorem convert_of_holds {k : IntTy} (hn : v.integer? = some n)
    (hsource : source.core.isValueType = true) (hk : k.Holds n) :
    convert v source (.int k) checked = .ok (.ofInt k n) := by
  by_cases hty : v.runtimeTy = some (.int k)
  · rw [convert_of_isInstanceOf source checked rfl (Value.isInstanceOf_of_runtimeTy hty)]
    cases v with
    | int w =>
      cases hn
      cases hty
      rw [Value.ofInt, Word.wrap_val]
    | char | ofEnum => cases hty
    | _ => cases hn
  · exact (convert_integer (t := .int k) hn hsource hty).trans (integral_of_holds hk)

/-- **Integral conversion is arithmetic modulo the width.** Take any value that stands for an integer
`n`, as integers, characters and enum values do, and let its static type be a primitive, an enum or a
nullable wrapper of those. For every integer type and for `char`, unless it is the type of the value
itself,

* the unchecked conversion answers with the value of the target that is congruent to `n` modulo two to
  the width, or for `char`, if the 16 bits are a surrogate, fails with an invalid cast;
* the checked one answers the same if `n` is in the range of the target, and overflows if it is not;
* a nullable wrapper around the target changes nothing.

So an integer that is converted to a type that can represent it, and back, is the same again. -/
theorem convert_integral (hn : v.integer? = some n) (hsource : source.core.isValueType = true) :
    (∀ t : IntegralTarget, v.runtimeTy ≠ some t.ty →
      (∀ result, convert v source t.ty false = result ↔ Narrowing v n t result) ∧
      (t.range.Holds n → convert v source t.ty true = convert v source t.ty false) ∧
      (¬t.range.Holds n → convert v source t.ty true = .error (.conversionOverflow v t.ty)) ∧
      ∀ checked, convert v source (.nullable t.ty) checked = convert v source t.ty checked) ∧
    ∀ (w : Word) (k : IntTy) (source' : Ty) (checked checked' : Bool), v = .int w →
      k.Holds w.val → source'.core.isValueType = true →
      (convert v source (.int k) checked >>= (convert · source' (.int w.kind) checked')) =
        .ok v := by
  refine ⟨fun t hty => ⟨fun result => ?_, fun hholds => ?_, fun hholds => ?_, fun checked => ?_⟩,
    fun w k source' checked checked' hv hk hsource' => ?_⟩
  · rw [convert_integer hn hsource hty]
    exact narrow_eq_iff
  · rw [convert_integer hn hsource hty, convert_integer hn hsource hty, integral_of_holds hholds,
      integral_of_holds hholds]
  · rw [convert_integer hn hsource hty, integral_of_not_holds hholds]
  · rw [convert_nullable (isNull_of_integer hn), convert_integer hn hsource hty]
    exact convert_integer hn (by rwa [Ty.core_nonNullable]) hty
  · subst hv
    rw [convert_of_holds rfl hsource hk]
    change convert (.ofInt k w.val) source' (.int w.kind) checked' = _
    rw [convert_of_holds (n := w.val) (by rw [Value.ofInt, Value.integer?, Word.val_wrap_of_mem hk])
      hsource' w.inRange, Value.ofInt, Word.wrap_val]

/-- The theorem for minus 10240, whose low 16 bits are a surrogate, and the targets `u8` and `char`,
and there and back with `i64`. -/
theorem convert_integral_surrogate :
    let v : Value := .int (.wrap .i32 (-10240))
    let source : Ty := .nullable (.int .i32)
    v.integer? = some (-10240) ∧ source.core.isValueType = true ∧
      convert v source (.int .u8) false = .ok (.ofInt .u8 0) ∧
      convert v source (.int .u8) true = .error (.overflow "conversion of -10240 to u8") ∧
      convert v source .char false = .error (.invalidCast "-10240" .char) ∧
      (convert v source (.int .i64) true >>= (convert · (.int .i64) (.int .i32) true)) = .ok v := by
  intro v source
  obtain ⟨htarget, hback⟩ := @convert_integral v source (-10240) rfl rfl
  obtain ⟨hnarrow, -, hoverflow, -⟩ := htarget (.int .u8) nofun
  obtain ⟨hchar, -⟩ := htarget .char nofun
  refine ⟨rfl, rfl, (hnarrow _).2 ?_, hoverflow (by decide), (hchar _).2 ?_,
    hback (.wrap .i32 (-10240)) .i64 (.int .i64) true true rfl (by decide) rfl⟩
  · exact .int (.wrap .u8 0) (by decide)
  · exact .surrogate 0xD800 (by decide) (by decide) (by decide)

end Convert

end ExprTree
