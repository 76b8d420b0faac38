import ExprTree.Proofs.Casts
import ExprTree.Proofs.Failures
import ExprTree.Proofs.Residues

/-!
# Converted values

A conversion answers with an instance of its target or fails, and the checked conversions are the ones
that fail more often. What a checked conversion answers with, the unchecked one answers with as well.
That is plain for integers, where the check stands before everything else. A floating-point number
takes two ways: checked, its integer part has to fit, and unchecked it is brought between the bounds
of the target first. Between the bounds nothing has to be brought.

So a result has to be looked at in the unchecked case only.

## Main results

* `Convert.convertValue_unchecked`, `Convert.convert_unchecked`: checked conversions are unchecked
  ones that may fail.
* `Convert.runtimeTy_of_convertValue`: what is converted has the type it is converted to.
* `Convert.convert_sound`: what conversions answer, and how they fail.
-/

set_option autoImplicit false

namespace ExprTree

namespace Ty

variable {t : Ty}

theorem exists_of_isNullable (h : t.isNullable = true) : ∃ inner, t = nullable inner := by
  cases t with
  | nullable inner => exact ⟨inner, rfl⟩
  | _ => cases h

end Ty

namespace Convert

variable {v w : Value} {source target : Ty} {checked : Bool}

/-! ### Checked and unchecked -/

theorem fits_iff {t : IntegralTarget} {n : Int} : fits t n = true ↔ t.range.Holds n := by
  rw [fits, Bool.and_eq_true, decide_eq_true_iff, decide_eq_true_iff]

theorem integral_of_holds {t : IntegralTarget} {n : Int} (h : t.range.Holds n) :
    integral v t n checked = narrow v t n := by
  rw [integral, fits_iff.2 h, Bool.not_true, Bool.and_false, if_neg Bool.false_ne_true]

theorem integral_of_not_holds {t : IntegralTarget} {n : Int} (h : ¬t.range.Holds n) :
    integral v t n true = .error (.conversionOverflow v t.ty) := by
  have hfits : fits t n = false := by
    rw [← Bool.not_eq_true, fits_iff]
    exact h
  rw [integral, hfits]
  rfl

theorem integral_unchecked {t : IntegralTarget} {n : Int} (h : integral v t n checked = .ok w) :
    integral v t n false = .ok w := by
  unfold integral at h
  split at h
  · cases h
  · exact h

/-- Bringing an integer between the bounds of a type leaves it alone where it is a value of it. -/
theorem clamp_of_holds {k : IntTy} {n : Int} (h : k.Holds n) : max k.lo (min k.hi n) = n := by
  omega

theorem fromFloat_unchecked {format : Binary.Format} {bits : Nat} {t : IntegralTarget}
    (h : fromFloat v format bits t checked = .ok w) : fromFloat v format bits t false = .ok w := by
  cases checked with
  | false => exact h
  | true =>
    cases hpart : format.integerPart bits with
    | none =>
      rw [fromFloat, hpart] at h
      cases h
    | some n =>
      rw [fromFloat, hpart] at h
      change integral v t n true = .ok w at h
      have hsaturated : saturated format bits = n := by
        rw [saturated, hpart]
      have hholds : t.range.Holds n := by
        by_contra hholds
        rw [integral_of_not_holds hholds] at h
        cases h
      rw [fromFloat, if_neg Bool.false_ne_true, hsaturated, clamp_of_holds hholds]
      exact integral_unchecked h

theorem toIntegral_unchecked {t : IntegralTarget} (h : toIntegral v t checked = .ok w) :
    toIntegral v t false = .ok w := by
  unfold toIntegral at h ⊢
  split at h
  · exact fromFloat_unchecked h
  · exact fromFloat_unchecked h
  · split at h
    · exact integral_unchecked h
    · cases h

/-- A value of another type converts to an enum by way of the type that the enum rests on. -/
theorem convertValue_ofEnum_eq_ok {d : EnumDef} (hty : v.runtimeTy ≠ some (.ofEnum d)) :
    convertValue v (.ofEnum d) checked = .ok w ↔
      ∃ u, convertUnderlying v d checked = .ok u ∧ toEnum u d = .ok w := by
  rw [convertValue, if_neg hty]
  exact Outcome.bind_eq_ok_iff

mutual

/-- What a checked conversion of a value answers with, the unchecked one answers with. -/
theorem convertValue_unchecked (v w : Value) (target : Ty) (checked : Bool)
    (h : convertValue v target checked = .ok w) : convertValue v target false = .ok w := by
  by_cases hty : v.runtimeTy = some target
  · rwa [convertValue_self hty] at h ⊢
  · cases target with
    | ofEnum d =>
      obtain ⟨u, hu, hw⟩ := (convertValue_ofEnum_eq_ok hty).1 h
      exact (convertValue_ofEnum_eq_ok hty).2
        ⟨u, convertUnderlying_unchecked v u d checked hu, hw⟩
    | int | char =>
      rw [convertValue, if_neg hty] at h ⊢
      exact toIntegral_unchecked h
    | _ =>
      unfold convertValue at h ⊢
      rwa [if_neg hty] at h ⊢
termination_by structural target

theorem convertUnderlying_unchecked (v w : Value) (d : EnumDef) (checked : Bool)
    (h : convertUnderlying v d checked = .ok w) : convertUnderlying v d false = .ok w := by
  cases d with
  | mk _ _ underlying _ => exact convertValue_unchecked v w underlying checked h
termination_by structural d

end

theorem convert_plain_unchecked (hv : v.isNull = false) (hnullable : target.isNullable = false)
    (h : convert v source target checked = .ok w) : convert v source target false = .ok w := by
  rw [convert_plain hv hnullable] at h ⊢
  by_cases hvalue : target.isValueType = true
  · rw [if_pos hvalue] at h ⊢
    by_cases hsource : source.nonNullable.isValueType = true
    · rw [if_pos hsource] at h ⊢
      exact convertValue_unchecked v w target checked h
    · rwa [if_neg hsource] at h ⊢
  · rwa [if_neg hvalue] at h ⊢

/-- What a checked conversion answers with, the unchecked one answers with. -/
theorem convert_unchecked (v w : Value) (source target : Ty) (checked : Bool)
    (h : convert v source target checked = .ok w) : convert v source target false = .ok w := by
  cases hv : v.isNull with
  | true =>
    obtain rfl := Value.eq_null_of_isNull hv
    rwa [convert_null] at h ⊢
  | false =>
    cases target with
    | nullable inner =>
      rw [convert_nullable hv] at h ⊢
      exact convert_unchecked v w source.nonNullable inner checked h
    | _ => exact convert_plain_unchecked hv rfl h
termination_by structural target

/-! ### Results -/

theorem runtimeTy_of_narrow {t : IntegralTarget} {n : Int} (h : narrow v t n = .ok w) :
    w.runtimeTy = some t.ty := by
  cases t with
  | int k =>
    cases h
    simp [Value.ofInt, Value.runtimeTy, IntegralTarget.ty]
  | char =>
    simp only [narrow] at h
    split at h
    · cases h
      rfl
    · cases h

theorem runtimeTy_of_toIntegral {t : IntegralTarget} (h : toIntegral v t false = .ok w) :
    w.runtimeTy = some t.ty := by
  unfold toIntegral at h
  split at h
  · exact runtimeTy_of_narrow h
  · exact runtimeTy_of_narrow h
  · split at h
    · exact runtimeTy_of_narrow h
    · cases h

/-- What is converted has the type that it is converted to. -/
theorem runtimeTy_of_convertValue (h : convertValue v target checked = .ok w) :
    w.runtimeTy = some target := by
  have h := convertValue_unchecked v w target checked h
  by_cases hty : v.runtimeTy = some target
  · rw [convertValue_self hty] at h
    cases h
    exact hty
  · cases target with
    | ofEnum d =>
      obtain ⟨u, -, hw⟩ := (convertValue_ofEnum_eq_ok hty).1 h
      unfold toEnum at hw
      split at hw <;> cases hw
      rfl
    | f32 =>
      simp only [convertValue, if_neg hty, toSingle] at h
      split at h <;> cases h
      rfl
    | f64 =>
      simp only [convertValue, if_neg hty, toDouble] at h
      split at h <;> cases h
      rfl
    | int | char =>
      rw [convertValue, if_neg hty] at h
      exact runtimeTy_of_toIntegral h
    | _ =>
      unfold convertValue at h
      rw [if_neg hty] at h
      cases h

theorem isInstanceOf_of_convert_plain (hnullable : target.isNullable = false)
    (h : convert v source target checked = .ok w) : w.isInstanceOf target = true := by
  cases hv : v.isNull with
  | true =>
    obtain rfl := Value.eq_null_of_isNull hv
    rw [convert_null] at h
    split at h
    · next hcan => cases h; exact hcan
    · cases h
  | false =>
    rw [convert_plain hv hnullable] at h
    split at h
    · split at h
      · exact Value.isInstanceOf_of_runtimeTy (runtimeTy_of_convertValue h)
      · unfold unbox at h
        split at h
        · next hty => cases h; exact Value.isInstanceOf_of_runtimeTy hty
        · cases h
    · split at h
      · next hinstance => cases h; exact hinstance
      · cases h

/-- **Conversions are sound.** Take any value, any static type of it, and any target with nothing
nullable around a type that has null already. What the conversion answers with is an instance of the
target, and if it was checked then the unchecked conversion answers with the same. If it fails then
the value could not be converted, or the conversion is a checked one that overflowed. -/
theorem convert_sound (v : Value) (source : Ty) (hproper : target.isProper = true) :
    (∀ checked w, convert v source target checked = .ok w → w.isInstanceOf target = true) ∧
      (∀ w, convert v source target true = .ok w → convert v source target false = .ok w) ∧
      ∀ checked e, convert v source target checked = .error e →
        (∃ value t, e = .invalidCast value t) ∨ checked = true ∧ ∃ what, e = .overflow what := by
  refine ⟨fun checked w h => ?_, fun w => convert_unchecked v w source target true,
    fun checked e h => ?_⟩
  · cases hnullable : target.isNullable with
    | false => exact isInstanceOf_of_convert_plain hnullable h
    | true =>
      obtain ⟨inner, rfl⟩ := Ty.exists_of_isNullable hnullable
      cases hv : v.isNull with
      | true =>
        obtain rfl := Value.eq_null_of_isNull hv
        cases (convert_null source (.nullable inner) checked).symm.trans h
        rfl
      | false =>
        rw [convert_nullable hv] at h
        exact Value.isInstanceOf_of_accepts hproper (Ty.accepts_nullable.2 (.inr rfl))
          (isInstanceOf_of_convert_plain (Ty.value_of_proper_nullable hproper).2 h)
  · have hfails := Outcome.FailsOnly.iff_forall.1 (convert_failsOnly v source target checked) e h
    cases e with
    | invalidCast value t => exact .inl ⟨value, t, rfl⟩
    | overflow what => exact .inr ⟨hfails, what, rfl⟩
    | _ => exact hfails.elim

/-- The theorem for the floating-point number 150 and the target `u8?`. -/
theorem convert_sound_float :
    let v : Value := .f32 0x43160000
    let target : Ty := .nullable (.int .u8)
    target.isProper = true ∧ convert v .f32 target true = .ok (.ofInt .u8 150) ∧
      convert v .f32 target false = .ok (.ofInt .u8 150) ∧
      (Value.ofInt .u8 150).isInstanceOf target = true := by
  intro v target
  have hchecked : convert v .f32 target true = .ok (.ofInt .u8 150) := rfl
  have hsound := convert_sound v .f32 (rfl : target.isProper = true)
  exact ⟨rfl, hchecked, hsound.2.1 _ hchecked, hsound.1 true _ hchecked⟩

end Convert

end ExprTree
