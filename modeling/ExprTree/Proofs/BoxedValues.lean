import ExprTree.Proofs.ConvertedValues
import ExprTree.Proofs.Lowering

/-!
# Casts of boxed values

A value whose static type is `object` can be cast by a conversion, checked or not, by the cast that
answers null, and it can be tested. Compiled code has one cast more, the read of an argument, which
leaves the conversion out where the argument is an instance of the type to begin with.

Instances are found by assignability, and conversions go by cases on the target and unbox only a value
of exactly that type. The two agree because a value type without a nullable wrapper accepts only
itself, and since no value has a nullable type. A quoted expression could have one, but not a quoted
lambda.

## Main definitions

* `Value.QuotesFunction`: values that are no quoted expression of another type than a function type.

## Main results

* `Convert.convert_object`: the conversion of a boxed value is the test whether it is an instance.
* `Expr.readSlot_eq_convert`: the read of an argument is its conversion.
* `Convert.boxed_casts`: the four casts agree.
-/

set_option autoImplicit false

namespace ExprTree

namespace Ty

variable {t : Ty}

theorem nonNullable_of_not_nullable (h : t.isNullable = false) : t.nonNullable = t := by
  cases t <;> first | rfl | cases h

end Ty

namespace Value

variable {v : Value} {t : Ty}

/-- Whether the value is a quoted expression of a function type, as quoted lambdas are, or no quoted
expression at all. -/
def QuotesFunction : Value → Prop
  | lambda e => ∃ ps r, e.ty = .func ps r
  | _ => True

theorem not_nullable_of_runtimeTy (hquote : v.QuotesFunction) (h : v.runtimeTy = some t) :
    t.isNullable = false := by
  cases v with
  | null => cases h
  | lambda e =>
    obtain ⟨ps, r, hty⟩ := hquote
    cases h
    rw [hty]
    rfl
  | _ => cases h; rfl

theorem ne_null_iff : v ≠ .null ↔ v.isNull = false := by
  cases v <;> simp [isNull]

/-- Only null and the values of a value type are instances of its nullable type. -/
theorem isInstanceOf_nullable_iff (hquote : v.QuotesFunction) (hv : v.isNull = false) :
    v.isInstanceOf (.nullable t) = true ↔ v.runtimeTy = some t := by
  unfold isInstanceOf
  cases hty : v.runtimeTy with
  | none =>
    rw [runtimeTy_eq_none_iff, hv] at hty
    cases hty
  | some s =>
    have hs := not_nullable_of_runtimeTy hquote hty
    rw [Option.some.injEq]
    refine Ty.accepts_nullable.trans (or_iff_right ?_)
    rintro rfl
    cases hs

end Value

namespace Convert

variable {v : Value} {target : Ty}

/-- The conversion of a boxed value is the test whether it is an instance of the target. -/
theorem convert_object (hquote : v.QuotesFunction) (hproper : target.isProper = true)
    (checked : Bool) : convert v .object target checked =
      if v.isInstanceOf target then .ok v else .error (.badCast v target.nonNullable) := by
  cases hv : v.isNull with
  | true =>
    obtain rfl := Value.eq_null_of_isNull hv
    rw [convert_null]
    cases hcan : target.canBeNull with
    | true => exact (if_pos hcan).symm
    | false =>
      have hnullable : target.isNullable = false := by cases target <;> first | rfl | cases hcan
      rw [Ty.nonNullable_of_not_nullable hnullable]
      exact (if_neg (by simp [Value.isInstanceOf, Value.runtimeTy, hcan])).symm
  | false =>
    cases hnullable : target.isNullable with
    | true =>
      obtain ⟨inner, rfl⟩ := Ty.exists_of_isNullable hnullable
      obtain ⟨hvalue, hinner⟩ := Ty.value_of_proper_nullable hproper
      rw [convert_nullable hv, convert_plain hv hinner, if_pos hvalue]
      change unbox v inner = _
      unfold unbox
      simp only [Value.isInstanceOf_nullable_iff hquote hv]
      rfl
    | false =>
      rw [convert_plain hv hnullable, Ty.nonNullable_of_not_nullable hnullable]
      split
      · next hvalue => exact unbox_eq hvalue hnullable
      · rfl

end Convert

namespace Expr

/-- The read of an argument is its conversion: where that is left out it would do nothing. -/
theorem readSlot_eq_convert {i : Nat} {target : Ty} {env : Env} {v : Value}
    (hv : env.args[i]? = some v) (hquote : v.QuotesFunction) (hproper : target.isProper = true) :
    readSlot i target env = liftM (Convert.convert v .object target false) := by
  rw [readSlot_of_arg hv]
  split
  · next hinstance =>
    rw [Convert.convert_object hquote hproper, if_pos hinstance]
    rfl
  · rfl

end Expr

namespace Convert

variable {v : Value} {target : Ty}

/-- **The casts of a boxed value agree.** Take any value but a quoted expression that is of no function
type, and any target with nothing nullable around a type that has null already. Checked or not, the
conversion from `object` answers with the value exactly if it is an instance of the target, and fails
with an invalid cast if it is not. The cast that answers null gives the value if it is an instance,
and null if not, and the test holds for the instances except null. In compiled code, a node that
converts an argument to the target comes to exactly what the conversion comes to. -/
theorem boxed_casts (hquote : v.QuotesFunction) (hproper : target.isProper = true) :
    (∀ checked, convert v .object target checked = .ok v ↔ v.isInstanceOf target = true) ∧
      (∀ checked, v.isInstanceOf target = false →
        ∃ t, convert v .object target checked = .error (.badCast v t)) ∧
      (v.isInstanceOf target = true → typeAs v target = v) ∧
      (v.isInstanceOf target = false → typeAs v target = .null) ∧
      (typeIs v target = true ↔ v.isInstanceOf target = true ∧ v ≠ .null) ∧
      ∀ (reflector : Reflector) (args : ParamId) (e : Expr) (i : Nat) (env : Env),
        e.convertedSlot? args = some i → e.ty = target → env.args[i]? = some v →
        ∃ code, e.lower reflector args = .ok code ∧
          ∀ host w, (code env).outcome host w = (convert v .object target false, w) := by
  refine ⟨fun checked => ?_, fun checked hinstance => ?_, fun hinstance => ?_,
    fun hinstance => ?_, ?_, fun reflector args e i env hslot hty hv => ?_⟩
  · rw [convert_object hquote hproper]
    split
    · next hinstance => exact iff_of_true rfl hinstance
    · next hinstance => exact iff_of_false nofun hinstance
  · rw [convert_object hquote hproper, hinstance]
    exact ⟨target.nonNullable, rfl⟩
  · rw [typeAs, if_pos hinstance]
  · rw [typeAs, hinstance]
    rfl
  · rw [typeIs, Bool.and_eq_true, Bool.not_eq_true', Value.ne_null_iff, and_comm]
  · subst hty
    refine ⟨_, Expr.lower_of_convertedSlot? hslot, fun host w => ?_⟩
    rw [Expr.readSlot_eq_convert hv hquote hproper, EvalM.outcome_ofExcept]

/-- The theorem for the number 7 and the target `i32?`. -/
theorem boxed_casts_optional :
    let v : Value := .ofInt .i32 7
    let target : Ty := .nullable (.int .i32)
    let args : Param := ⟨0, 0, "args", .array .object⟩
    let slot : Expr :=
      .index ⟨1, .object⟩ (.parameter args) none [.constant ⟨2, .int .i32⟩ (.ofInt .i32 0)]
    let e : Expr := .unary ⟨3, target⟩ .convert true none slot
    v.QuotesFunction ∧ target.isProper = true ∧ convert v .object target true = .ok v ∧
      typeAs v target = v ∧ typeIs v target = true ∧
      ∃ code, e.lower .native args.id = .ok code ∧
        ∀ host w, (code ⟨#[v], []⟩).outcome host w = (.ok v, w) := by
  intro v target args slot e
  have hinstance : v.isInstanceOf target = true := by decide
  obtain ⟨hconvert, -, htypeAs, -, htypeIs, hread⟩ :=
    @boxed_casts v target trivial rfl
  obtain ⟨code, hcode, hrun⟩ := hread .native args.id e 0 ⟨#[v], []⟩ rfl rfl rfl
  refine ⟨trivial, rfl, (hconvert true).2 hinstance, htypeAs hinstance,
    htypeIs.2 ⟨hinstance, nofun⟩, code, hcode, fun host w => ?_⟩
  rw [hrun, (hconvert false).2 hinstance]

end Convert

end ExprTree
