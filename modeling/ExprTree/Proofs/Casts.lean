import Mathlib.Logic.Function.Iterate
import ExprTree.Eval.Step
import ExprTree.Proofs.Hierarchy

/-!
# Casts that do nothing

A value that is an instance of a type stays what it is when it is cast to a type that accepts the
first one. This rests on assignability being transitive, which it is up to nullable types: `T?`
wraps only a `T` that cannot hold null already, or else `T?` accepts a `T` but not what a `T`
accepts.

Whether a conversion unboxes depends on the static type of its operand. Between a type and one that
it accepts this makes a difference for `object` only, the one reference type that accepts values. There
a more specific type does no harm: what was unboxed is a value of the target, and converts to itself.

## Main definitions

* `Ty.isProper`: types with nothing nullable around a type that has null already.
* `Ty.StandsFor`: types of an operand that conversions may have in the place of another.

## Main results

* `Ty.accepts_trans`: assignability to a proper type is transitive.
* `Convert.convert_null`, `Convert.convert_nullable`, `Convert.convert_plain`: the ways a conversion
  takes.
* `Step.applyUnary_of_isInstanceOf`: a cast of an instance gives it back.
* `Step.applyUnary_source`: the static types that a conversion cannot tell apart.
* `Ty.standsFor_iff`: a type stands for another exactly if conversions succeed from it where they do
  from the other.
* `Ty.standsFor_of_accepts`: a type that is assignable to another stands for it.
-/

set_option autoImplicit false

namespace ExprTree

namespace Ty

/-- Whether nothing nullable is wrapped around a type that has null already. -/
def isProper : Ty → Bool
  | nullable t => !t.canBeNull
  | array t => t.isProper
  | _ => true

/-- What a proper nullable type wraps is a value type and no wrapper itself. -/
theorem value_of_proper_nullable {t : Ty} (h : (nullable t).isProper = true) :
    t.isValueType = true ∧ t.isNullable = false := by
  cases t <;> first | exact ⟨rfl, rfl⟩ | cases h

theorem accepts_nullable {t source : Ty} :
    (nullable t).accepts source = true ↔ source = nullable t ∨ source = t := by
  unfold accepts
  simp only [Bool.or_eq_true, decide_eq_true_eq]
  exact or_congr eq_comm eq_comm

theorem accepts_ofClass {c : ClassDef} {source : Ty} :
    (ofClass c).accepts source = true ↔ ∃ d, source = ofClass d ∧ c ∈ d.supertypes := by
  unfold accepts
  cases source with
  | ofClass d =>
    simp only [Bool.or_eq_true, decide_eq_true_eq, ofClass.injEq, ClassDef.derivesFrom_iff]
    constructor
    · rintro (rfl | hc)
      · exact ⟨c, rfl, ClassDef.mem_supertypes_self c⟩
      · exact ⟨d, rfl, hc⟩
    · rintro ⟨d, hd, hc⟩
      exact .inr (hd ▸ hc)
  | _ => simp

theorem accepts_array {t source : Ty} :
    (array t).accepts source = true ↔ source = array t ∨
      ∃ s, source = array s ∧ s.isValueType = false ∧ t.accepts s = true := by
  rw [accepts.eq_def]
  cases source with
  | array s =>
    simp only [Bool.or_eq_true, decide_eq_true_eq, Bool.and_eq_true, Bool.not_eq_true', array.injEq]
    refine or_congr eq_comm ⟨fun h => ⟨s, rfl, h⟩, ?_⟩
    rintro ⟨s', hs, h⟩
    exact hs ▸ h
  | _ => simp

/-- A type that is no class, array, `object` or nullable type accepts only itself. -/
theorem eq_of_accepts {t source : Ty}
    (ht : (t.isValueType = true ∧ t.isNullable = false) ∨ t = str ∨ ∃ ps r, t = func ps r)
    (h : t.accepts source = true) : source = t := by
  unfold accepts at h
  cases t <;> simp_all [isValueType, isNullable]

theorem canBeNull_of_accepts {t source : Ty} (h : t.accepts source = true)
    (hsource : source.canBeNull = true) : t.canBeNull = true := by
  cases t with
  | void | bool | char | int | f32 | f64 | ofEnum =>
    obtain rfl := eq_of_accepts (.inl ⟨rfl, rfl⟩) h
    exact hsource
  | _ => rfl

/-- Assignability to a proper type is transitive. -/
theorem accepts_trans : {s t u : Ty} → s.isProper = true → s.accepts t = true →
    t.accepts u = true → s.accepts u = true
  | void, t, u, _, hst, htu | bool, t, u, _, hst, htu | char, t, u, _, hst, htu
  | int _, t, u, _, hst, htu | f32, t, u, _, hst, htu | f64, t, u, _, hst, htu
  | ofEnum _, t, u, _, hst, htu => by
    obtain rfl := eq_of_accepts (.inl ⟨rfl, rfl⟩) hst
    exact htu
  | str, t, u, _, hst, htu => by
    obtain rfl := eq_of_accepts (.inr (.inl rfl)) hst
    exact htu
  | func ps r, t, u, _, hst, htu => by
    obtain rfl := eq_of_accepts (.inr (.inr ⟨ps, r, rfl⟩)) hst
    exact htu
  | object, _, _, _, _, _ => object_accepts _
  | nullable s, t, u, hs, hst, htu => by
    rcases accepts_nullable.1 hst with rfl | rfl
    · exact htu
    · exact accepts_nullable.2 (.inr (eq_of_accepts (.inl (value_of_proper_nullable hs)) htu))
  | ofClass c, t, u, _, hst, htu => by
    obtain ⟨d, rfl, hd⟩ := accepts_ofClass.1 hst
    obtain ⟨d', rfl, hd'⟩ := accepts_ofClass.1 htu
    exact accepts_ofClass.2 ⟨d', rfl, ClassDef.supertypes_trans hd' hd⟩
  | array s, t, u, hs, hst, htu => by
    rcases accepts_array.1 hst with rfl | ⟨t, rfl, ht, hst⟩
    · exact htu
    · rcases accepts_array.1 htu with rfl | ⟨u, rfl, hu, htu⟩
      · exact accepts_array.2 (.inr ⟨t, rfl, ht, hst⟩)
      · exact accepts_array.2 (.inr ⟨u, rfl, hu, accepts_trans hs hst htu⟩)

/-- Between two types of which the first accepts the second, only `object` and nullable types are of
another kind than what they accept. -/
theorem eq_or_reference_of_accepts {t source : Ty} (hobject : t ≠ object)
    (hnullable : t.isNullable = false) (h : t.accepts source = true) :
    source = t ∨ t.isValueType = false ∧ source.isValueType = false := by
  cases t with
  | void | bool | char | int | f32 | f64 | ofEnum =>
    exact .inl (eq_of_accepts (.inl ⟨rfl, rfl⟩) h)
  | str => exact .inl (eq_of_accepts (.inr (.inl rfl)) h)
  | func ps r => exact .inl (eq_of_accepts (.inr (.inr ⟨ps, r, rfl⟩)) h)
  | object => exact (hobject rfl).elim
  | nullable => cases hnullable
  | ofClass c =>
    obtain ⟨d, rfl, -⟩ := accepts_ofClass.1 h
    exact .inr ⟨rfl, rfl⟩
  | array t =>
    rcases accepts_array.1 h with rfl | ⟨s, rfl, -⟩
    · exact .inl rfl
    · exact .inr ⟨rfl, rfl⟩

theorem nonNullable_of_reference {t : Ty} (h : t.isValueType = false) : t.nonNullable = t := by
  cases t <;> first | rfl | cases h

end Ty

/-! ### Values -/

namespace Value

theorem runtimeTy_eq_none_iff {v : Value} : v.runtimeTy = none ↔ v.isNull = true := by
  cases v <;> simp [runtimeTy, isNull]

theorem eq_null_of_isNull {v : Value} (h : v.isNull = true) : v = .null := by
  cases v <;> first | rfl | cases h

theorem isInstanceOf_of_runtimeTy {v : Value} {t : Ty} (h : v.runtimeTy = some t) :
    v.isInstanceOf t = true := by
  rw [isInstanceOf, h]
  exact Ty.accepts_self t

/-- The instances of a value type, without a nullable wrapper, have exactly that type. -/
theorem isInstanceOf_value_iff {v : Value} {t : Ty} (hvalue : t.isValueType = true)
    (hnullable : t.isNullable = false) : v.isInstanceOf t = true ↔ v.runtimeTy = some t := by
  refine ⟨fun h => ?_, isInstanceOf_of_runtimeTy⟩
  unfold isInstanceOf at h
  cases hty : v.runtimeTy with
  | some u =>
    rw [hty] at h
    rw [Ty.eq_of_accepts (.inl ⟨hvalue, hnullable⟩) h]
  | none =>
    rw [hty] at h
    have hcan : t.canBeNull = false := by
      cases t <;> simp_all [Ty.isValueType, Ty.isNullable, Ty.canBeNull]
    rw [hcan] at h
    cases h

/-- An instance of a type is one of every proper type that accepts it. -/
theorem isInstanceOf_of_accepts {v : Value} {s t : Ty} (hs : s.isProper = true)
    (hst : s.accepts t = true) (h : v.isInstanceOf t = true) : v.isInstanceOf s = true := by
  unfold isInstanceOf at h ⊢
  cases hv : v.runtimeTy with
  | some u =>
    rw [hv] at h
    exact Ty.accepts_trans hs hst h
  | none =>
    rw [hv] at h
    exact Ty.canBeNull_of_accepts hst h

end Value

/-! ### Conversions -/

namespace Convert

variable {v : Value} {target : Ty}

/-- Null converts to the types that have it. -/
theorem convert_null (source target : Ty) (checked : Bool) :
    convert .null source target checked =
      if target.canBeNull then .ok .null else .error (.badCast .null target) := by
  unfold convert
  cases target <;> rfl

/-- Anything else converts to `T?` as it does to `T`. -/
theorem convert_nullable (hv : v.isNull = false) (source inner : Ty) (checked : Bool) :
    convert v source (.nullable inner) checked = convert v source.nonNullable inner checked := by
  rw [convert, hv]
  rfl

/-- Without a nullable wrapper, a value is tested for a reference type, and for a value type it is
unboxed or converted. -/
theorem convert_plain (hv : v.isNull = false) (hnullable : target.isNullable = false) (source : Ty)
    (checked : Bool) : convert v source target checked =
      if target.isValueType then
        if source.nonNullable.isValueType then convertValue v target checked else unbox v target
      else if v.isInstanceOf target then .ok v else .error (.badCast v target) := by
  unfold convert
  cases target with
  | nullable => cases hnullable
  | _ => cases source.nonNullable.isValueType <;> simp [hv, Ty.isValueType]

theorem unbox_eq (hvalue : target.isValueType = true) (hnullable : target.isNullable = false) :
    unbox v target =
      if v.isInstanceOf target then .ok v else .error (.badCast v target) := by
  unfold unbox
  simp only [Value.isInstanceOf_value_iff hvalue hnullable]

theorem convertValue_self (hty : v.runtimeTy = some target) (checked : Bool) :
    convertValue v target checked = .ok v := by
  unfold convertValue
  exact if_pos hty

/-- A value that is an instance of a type converts to itself. -/
theorem convert_of_isInstanceOf {v : Value} {target : Ty} (source : Ty) (checked : Bool)
    (hnullable : target.isNullable = false) (h : v.isInstanceOf target = true) :
    convert v source target checked = .ok v := by
  cases hv : v.isNull with
  | true =>
    obtain rfl := Value.eq_null_of_isNull hv
    rw [convert_null]
    exact if_pos h
  | false =>
    rw [convert_plain hv hnullable, if_pos h]
    split
    · next hvalue =>
      rw [unbox_eq hvalue hnullable, if_pos h,
        convertValue_self ((Value.isInstanceOf_value_iff hvalue hnullable).1 h), ite_self]
    · rfl

/-- A conversion to a reference type does not look at the type of its operand. -/
theorem convert_to_reference {target : Ty} (h : target.isValueType = false) (v : Value) (s t : Ty)
    (checked : Bool) : convert v s target checked = convert v t target checked := by
  cases target with
  | str | object | array | ofClass | func => unfold convert; rfl
  | _ => cases h

/-- A conversion cannot tell two reference types of its operand apart. -/
theorem convert_source {s t : Ty} (hs : s.isValueType = false) (ht : t.isValueType = false)
    (v : Value) (checked : Bool) :
    (target : Ty) → convert v s target checked = convert v t target checked
  | .nullable inner => by
    unfold convert
    rw [Ty.nonNullable_of_reference hs, Ty.nonNullable_of_reference ht,
      convert_source hs ht v checked inner]
  | .void | .bool | .char | .int _ | .f32 | .f64 | .str | .object | .array _ | .ofEnum _
  | .ofClass _ | .func .. => by
    unfold convert
    simp only [Ty.nonNullable_of_reference hs, Ty.nonNullable_of_reference ht, hs, ht]

end Convert

namespace Step

/-- A cast of an instance gives it back. -/
theorem applyUnary_of_isInstanceOf {op : UnaryOp} (hop : op = .convert ∨ op = .typeAs)
    (lifted : Bool) (source : Ty) {target : Ty} {v : Value} (hnullable : target.isNullable = false)
    (h : v.isInstanceOf target = true) : applyUnary op lifted source target v = .ok v := by
  rcases hop with rfl | rfl
  · exact Convert.convert_of_isInstanceOf source false hnullable h
  · simp [applyUnary, Convert.typeAs, h]

/-- Casts to types that hold truth values leave them alone, `bool?` included. -/
theorem applyUnary_bool {op : UnaryOp} (hop : op = .convert ∨ op = .typeAs) (lifted : Bool)
    (source : Ty) {target : Ty} (h : target.accepts .bool = true) (b : Bool) :
    applyUnary op lifted source target (.bool b) = .ok (.bool b) := by
  cases hnullable : target.isNullable with
  | false => exact applyUnary_of_isInstanceOf hop lifted source hnullable h
  | true =>
    cases target with
    | nullable t =>
      rcases hop with rfl | rfl
      · rcases Ty.accepts_nullable.1 h with heq | rfl
        · cases heq
        · exact applyUnary_of_isInstanceOf (.inl rfl) lifted source.nonNullable rfl h
      · simp [applyUnary, Convert.typeAs, Value.isInstanceOf, Value.runtimeTy, h]
    | _ => cases hnullable

/-- A unary operator tells two types of its operand apart only if it converts to a value type and
one of the two is no reference type. -/
theorem applyUnary_source {op : UnaryOp} {s t target : Ty} (lifted : Bool)
    (h : op = .convert ∨ op = .convertChecked → target.isValueType = true →
      s = t ∨ s.isValueType = false ∧ t.isValueType = false) (v : Value) :
    applyUnary op lifted s target v = applyUnary op lifted t target v := by
  have converted (hop : op = .convert ∨ op = .convertChecked) (checked : Bool) :
      Convert.convert v s target checked = Convert.convert v t target checked := by
    cases hvalue : target.isValueType with
    | false => rw [Convert.convert_to_reference hvalue v s t]
    | true =>
      rcases h hop hvalue with rfl | ⟨hs, ht⟩
      · rfl
      · exact Convert.convert_source hs ht v checked target
  cases op with
  | convert => exact converted (.inl rfl) false
  | convertChecked => exact converted (.inr rfl) true
  | _ => rfl

end Step

/-! ### More specific operands -/

namespace Ty

/-- Wherever `s` is a value type, with any number of nullable wrappers taken off, `t` is one, too. A
conversion from `t` then unboxes only where one from `s` does. -/
def StandsFor (t s : Ty) : Prop :=
  ∀ n : Nat, (nonNullable^[n + 1] s).isValueType = true → (nonNullable^[n + 1] t).isValueType = true

variable {s t : Ty}

protected theorem StandsFor.refl (t : Ty) : t.StandsFor t := fun _ h => h

theorem StandsFor.nonNullable (h : t.StandsFor s) : t.nonNullable.StandsFor s.nonNullable := by
  intro n hn
  rw [← Function.iterate_succ_apply] at hn ⊢
  exact h (n + 1) hn

/-- Anything stands for a reference type, from which values are unboxed. -/
theorem standsFor_of_reference (hs : s.isValueType = false) : t.StandsFor s := by
  intro n hn
  have kept : Ty.nonNullable^[n + 1] s = s :=
    Function.iterate_fixed (nonNullable_of_reference hs) (n + 1)
  rw [kept, hs] at hn
  cases hn

/-- The type inside all nullable wrappers. -/
def core : Ty → Ty
  | nullable t => t.core
  | t => t

/-- Around a value type all wrappers are value types. -/
theorem isValueType_of_core : {t : Ty} → t.core.isValueType = true → t.isValueType = true
  | nullable _, _ => rfl
  | void, h | bool, h | char, h | int _, h | f32, h | f64, h | str, h | object, h | array _, h
  | ofEnum _, h | ofClass _, h | func .., h => h

theorem core_nonNullable (t : Ty) : t.nonNullable.core = t.core := by
  cases t <;> rfl

/-- Whether two or more nullable wrappers hide a reference type. -/
def hidesReference : Ty → Bool
  | nullable t => t.isNullable && !t.core.isValueType
  | _ => false

/-- A type that is assignable to another stands for it, unless that one hides a reference type. -/
theorem standsFor_of_accepts (h : s.accepts t = true) (hs : s.hidesReference = false) :
    t.StandsFor s := by
  cases hvalue : s.isValueType with
  | false => exact standsFor_of_reference hvalue
  | true =>
    cases hnullable : s.isNullable with
    | false =>
      obtain rfl := eq_of_accepts (.inl ⟨hvalue, hnullable⟩) h
      exact .refl t
    | true =>
      cases s with
      | nullable i =>
        rcases accepts_nullable.1 h with rfl | rfl
        · exact .refl _
        · -- What is left under the wrapper is a value type however often it is unwrapped, or does
          -- not change any more.
          intro n hn
          rw [Function.iterate_succ_apply] at hn
          change (Ty.nonNullable^[n] t).isValueType = true at hn
          cases ht : t.isNullable with
          | true =>
            have hcore : t.core.isValueType = true := by simpa [hidesReference, ht] using hs
            refine isValueType_of_core ?_
            have same : (Ty.nonNullable^[n + 1] t).core = t.core := by
              clear hn
              induction n with
              | zero => exact core_nonNullable t
              | succ n ih => rw [Function.iterate_succ_apply', core_nonNullable, ih]
            rwa [same]
          | false =>
            have kept : t.nonNullable = t := by cases t <;> first | rfl | cases ht
            rwa [Function.iterate_succ_apply, kept]
      | _ => cases hnullable

end Ty

namespace Convert

/-- What can be unboxed converts to itself. -/
theorem convertValue_of_unbox {v u : Value} {target : Ty} (checked : Bool)
    (h : unbox v target = .ok u) : convertValue v target checked = .ok u := by
  unfold unbox at h
  split at h
  · next hty =>
    cases h
    unfold convertValue
    simp [hty]
  · cases h

/-- What a value converts to from a type, it converts to from one that stands for that. -/
theorem convert_ok_of_standsFor {s t : Ty} (h : t.StandsFor s) {v u : Value} {checked : Bool} :
    (target : Ty) → convert v s target checked = .ok u → convert v t target checked = .ok u
  | .nullable inner => by
    unfold convert
    split
    · exact id
    · exact convert_ok_of_standsFor h.nonNullable inner
  | .void | .bool | .char | .int _ | .f32 | .f64 | .str | .object | .array _ | .ofEnum _
  | .ofClass _ | .func .. => by
    have hvalue : s.nonNullable.isValueType = true → t.nonNullable.isValueType = true := h 0
    unfold convert
    split
    · exact id
    split
    · exact id
    cases hs : s.nonNullable.isValueType with
    | true =>
      rw [hvalue hs]
      exact id
    | false =>
      cases t.nonNullable.isValueType with
      | true => exact convertValue_of_unbox checked
      | false => exact id

/-- A conversion to a nullable type takes the wrappers off both types. -/
theorem convert_iterate_nullable {v : Value} (hv : v.isNull = false) (source target : Ty)
    (checked : Bool) (n : Nat) : convert v source (Ty.nullable^[n] target) checked =
      convert v (Ty.nonNullable^[n] source) target checked := by
  induction n generalizing source with
  | zero => rfl
  | succ n ih =>
    rw [Function.iterate_succ_apply', Function.iterate_succ_apply, ← ih, convert_nullable hv]

end Convert

/-- A type stands for another exactly if everything that converts from the other converts from it, to
the same value. -/
theorem Ty.standsFor_iff {s t : Ty} : t.StandsFor s ↔ ∀ v target checked u,
    Convert.convert v s target checked = .ok u → Convert.convert v t target checked = .ok u := by
  refine ⟨fun h v target checked u => Convert.convert_ok_of_standsFor h target, fun h n hn => ?_⟩
  by_contra hvalue
  -- A number converts to another type of numbers from a value type, but cannot be unboxed as it.
  let v : Value := .ofInt .i32 0
  let target : Ty := .int .i64
  rw [Bool.not_eq_true] at hvalue
  rw [Function.iterate_succ_apply'] at hn hvalue
  have convert_eq (source : Ty) : Convert.convert v source (Ty.nullable^[n] target) false =
      if !(Ty.nonNullable^[n] source).nonNullable.isValueType then Convert.unbox v target
      else Convert.convertValue v target false := by
    rw [Convert.convert_iterate_nullable rfl]
    rfl
  have converted : Convert.convertValue v target false = .ok (.ofInt .i64 0) := rfl
  have refused : Convert.unbox v target = .error (.badCast v target) := rfl
  have outcome := h v (Ty.nullable^[n] target) false (.ofInt .i64 0)
  rw [convert_eq, convert_eq, hn, hvalue, converted, refused] at outcome
  cases outcome rfl

/-- What an operator makes of an operand of a type, it makes of one whose type stands for that. -/
theorem Step.applyUnary_ok_of_standsFor {op : UnaryOp} {lifted : Bool} {s t target : Ty}
    (h : t.StandsFor s) {v u : Value} (hv : applyUnary op lifted s target v = .ok u) :
    applyUnary op lifted t target v = .ok u := by
  cases op with
  | convert | convertChecked => exact Convert.convert_ok_of_standsFor h target hv
  | _ => exact hv

end ExprTree
