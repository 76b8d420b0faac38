import ExprTree.Eval.Typed
import ExprTree.Proofs.BoxedValues
import ExprTree.Proofs.Simulation

/-!
# Native values and the instances of their type

A native type stands for a static type, and its values for instances of it. From an instance to a native
value and back nothing changes, and nearly every instance is one. Two kinds are not: the null that is an
instance of `str`, since native strings are all there, and a quoted expression, which is an instance of
the type that the expression has and of that type made nullable. Only values as they are, optional or
not, take in quotes.

In the other direction an optional type has one null for all that is not there. A present value that
is itself null comes back absent, so an optional type around one that has null already tells less than
its values do.

A lambda as a native function fails where the lambda does, and otherwise only on a result that no native
value stands for.

## Main definitions

* `NativeTy.Takes`: the instances that are not left out of a native type.
* `NativeTy.Discernible`: native values whose presence shows.

## Main results

* `NativeTy.toValue_of_ofValue`, `NativeTy.exists_ofValue_iff`: the native values of a type are exactly
  the instances that it takes.
* `NativeTy.ofValue_toValue`: discernible values come back.
* `NativeTy.roundTrip`: the two directions, and lambdas as native functions.
-/

set_option autoImplicit false

namespace ExprTree

/-! ### Instances of nullable types -/

namespace Value

variable {v : Value} {t : Ty}

theorem isInstanceOf_object (v : Value) : v.isInstanceOf .object = true := by
  unfold isInstanceOf
  cases v.runtimeTy with
  | none => rfl
  | some t => exact Ty.object_accepts t

theorem null_isInstanceOf_toNullable (t : Ty) : Value.null.isInstanceOf t.toNullable = true := by
  unfold Ty.toNullable
  split
  · next h => exact h
  · rfl

theorem isInstanceOf_toNullable (h : v.isInstanceOf t = true) :
    v.isInstanceOf t.toNullable = true := by
  unfold Ty.toNullable
  split
  · exact h
  · next hnull =>
    have hproper : (Ty.nullable t).isProper = true := by simpa [Ty.isProper] using hnull
    exact isInstanceOf_of_accepts hproper (Ty.accepts_nullable.2 (.inr rfl)) h

/-- A value that is there is an instance of `T?` only by being one of `T`. -/
theorem isInstanceOf_of_toNullable (hquote : t ≠ .object → v.QuotesFunction)
    (hv : v.isNull = false) (h : v.isInstanceOf t.toNullable = true) : v.isInstanceOf t = true := by
  unfold Ty.toNullable at h
  split at h
  · exact h
  · next hnull =>
    have hobject : t ≠ .object := fun hty => hnull (hty ▸ rfl)
    exact isInstanceOf_of_runtimeTy ((isInstanceOf_nullable_iff (hquote hobject) hv).1 h)

theorem isInstanceOf_str_iff (hv : v ≠ .null) :
    v.isInstanceOf .str = true ↔ v.runtimeTy = some .str := by
  refine ⟨fun h => ?_, isInstanceOf_of_runtimeTy⟩
  cases hty : v.runtimeTy with
  | none => exact (hv (eq_null_of_isNull (runtimeTy_eq_none_iff.1 hty))).elim
  | some t =>
    rw [isInstanceOf, hty] at h
    rw [Ty.eq_of_accepts (.inr (.inl rfl)) h]

theorem exists_func_of_quotesFunction {e : Expr} (hquote : (lambda e).QuotesFunction)
    (h : (lambda e).runtimeTy = some t) : ∃ ps r, t = .func ps r :=
  Option.some.inj h ▸ hquote

end Value

namespace NativeTy

variable {t : NativeTy} {v : Value}

/-! ### From values to native values and back -/

/-- Whether an instance of its type is not left out of a native type. Strings leave out null. All but
values as they are leave out quoted expressions. Those of a function type are no instances to begin
with. -/
def Takes (t : NativeTy) (v : Value) : Prop :=
  (t = string → v ≠ .null) ∧ (t.ty ≠ .object → v.QuotesFunction)

theorem ofValue_option (hv : v.isNull = false) :
    (option t).ofValue v = (t.ofValue v).map some :=
  if_neg (Bool.not_eq_true _ ▸ hv)

theorem toValue_of_ofValue {x : t.Carrier} (h : t.ofValue v = .ok x) : t.toValue x = v := by
  induction t with
  | option t ih =>
    cases hv : v.isNull with
    | true =>
      obtain rfl := Value.eq_null_of_isNull hv
      cases h
      rfl
    | false =>
      rw [ofValue_option hv] at h
      cases hx : t.ofValue v with
      | error => rw [hx] at h; cases h
      | ok y =>
        rw [hx] at h
        cases h
        exact ih hx
  | int k =>
    cases v with
    | int w =>
      simp only [ofValue] at h
      split at h <;> cases h
      rfl
    | _ => cases h
  | value => cases h; rfl
  | _ => cases v <;> first | (cases h; rfl) | cases h

theorem toValue_isInstanceOf (x : t.Carrier) : (t.toValue x).isInstanceOf t.ty = true := by
  induction t with
  | option t ih =>
    cases x with
    | none => exact Value.null_isInstanceOf_toNullable _
    | some x => exact Value.isInstanceOf_toNullable (ih x)
  | int k =>
    obtain ⟨w, rfl⟩ := x
    exact Value.isInstanceOf_of_runtimeTy rfl
  | value => exact Value.isInstanceOf_object _
  | _ => exact Value.isInstanceOf_of_runtimeTy rfl

/-- Native values quote function types alone, unless they are values as they are. -/
theorem quotesFunction_toValue (h : t.ty ≠ .object) (x : t.Carrier) :
    (t.toValue x).QuotesFunction := by
  induction t with
  | option t ih =>
    cases x with
    | none => trivial
    | some x => exact ih (fun hty => h (by rw [ty, hty]; rfl)) x
  | value => exact (h rfl).elim
  | _ => trivial

theorem ty_eq_object_of_option (h : (option t).ty = .object) : t.ty = .object := by
  unfold ty Ty.toNullable at h
  split at h
  · exact h
  · cases h

theorem exists_ofValue (h : v.isInstanceOf t.ty = true) (htakes : t.Takes v) :
    ∃ x, t.ofValue v = .ok x := by
  induction t with
  | value => exact ⟨v, rfl⟩
  | option t ih =>
    cases hv : v.isNull with
    | true => exact ⟨none, if_pos hv⟩
    | false =>
      have hquote : t.ty ≠ .object → v.QuotesFunction :=
        fun hty => htakes.2 (mt ty_eq_object_of_option hty)
      have hinner : v.isInstanceOf t.ty = true :=
        Value.isInstanceOf_of_toNullable hquote hv h
      obtain ⟨x, hx⟩ := ih hinner ⟨fun _ => Value.ne_null_iff.2 hv, hquote⟩
      exact ⟨some x, by rw [ofValue_option hv, hx]; rfl⟩
  | string =>
    have hty := (Value.isInstanceOf_str_iff (htakes.1 rfl)).1 h
    cases v with
    | lambda e =>
      obtain ⟨_, _, ⟨⟩⟩ := Value.exists_func_of_quotesFunction (htakes.2 nofun) hty
    | _ => cases hty <;> exact ⟨_, rfl⟩
  | _ =>
    have hty := (Value.isInstanceOf_value_iff rfl rfl).1 h
    cases v with
    | lambda e =>
      obtain ⟨_, _, ⟨⟩⟩ := Value.exists_func_of_quotesFunction (htakes.2 nofun) hty
    | _ => cases hty <;> first | exact ⟨_, rfl⟩ | exact ⟨⟨_, rfl⟩, dif_pos rfl⟩

/-- The native values of a type are exactly the instances that it takes. -/
theorem exists_ofValue_iff :
    (∃ x, t.ofValue v = .ok x) ↔ v.isInstanceOf t.ty = true ∧ t.Takes v := by
  refine ⟨?_, fun ⟨h, htakes⟩ => exists_ofValue h htakes⟩
  rintro ⟨x, hx⟩
  obtain rfl := toValue_of_ofValue hx
  exact ⟨toValue_isInstanceOf x, fun ht => by subst ht; nofun, fun h => quotesFunction_toValue h x⟩

/-! ### From native values to values and back -/

/-- Whether a present value is told from an absent one: it is not null itself. -/
def Discernible : (t : NativeTy) → t.Carrier → Prop
  | option t, some x => t.toValue x ≠ .null
  | _, _ => True

theorem ofValue_toValue {x : t.Carrier} (h : t.Discernible x) : t.ofValue (t.toValue x) = .ok x := by
  induction t with
  | option t ih =>
    cases x with
    | none => rfl
    | some x =>
      have hinner : t.Discernible x := by
        cases t with
        | option t =>
          cases x with
          | none => exact (h rfl).elim
          | some x => exact h
        | _ => trivial
      rw [toValue, ofValue_option (Value.ne_null_iff.1 h), ih hinner]
      rfl
  | int k => exact dif_pos x.2
  | _ => rfl

end NativeTy

/-! ### Lambdas as native functions -/

namespace Shape

variable {s : Shape}

/-- A callable as a native function comes to what the callable comes to, failures included, as long as
its results are native values. -/
theorem outcome_adapt {callable : Callable} {args : Args s.params} {host : Host} {w : World}
    (h : ∀ v, ((callable (argsToValues s.params args)).outcome host w).1 = .ok v →
      ∃ x, s.ret.ofValue v = .ok x) :
    Prod.map (Except.map s.ret.toValue) id ((s.adapt callable args).outcome host w) =
      (callable (argsToValues s.params args)).outcome host w := by
  unfold adapt
  rw [EvalM.outcome_bind]
  rcases hplain : (callable (argsToValues s.params args)).outcome host w with ⟨_ | v, w'⟩
  · rfl
  · obtain ⟨x, hx⟩ := h v (by rw [hplain])
    change Prod.map _ id ((liftM (s.ret.ofValue v) : EvalM s.ret.Carrier).outcome host w') = _
    rw [EvalM.outcome_ofExcept, hx, ← NativeTy.toValue_of_ofValue hx]
    rfl

end Shape

theorem Evaluator.typed_eq {σ : Type} (evaluator : Evaluator σ) {s : Shape} {l : Lambda}
    (h : l.signature = s.signature) : evaluator.typed s l = s.adapt <$> evaluator.callable l := by
  unfold typed
  rw [if_pos h]
  rfl

/-- **Native types map their values to instances and back without loss.** Every native value is an
instance of the static type, and comes back if it is discernible. The other way round, a native type
has those instances that it takes, and gives each of them back as it was. So a lambda that an evaluator
can call is called at the shape of its signature as it is, to the same results, the same failures
and the same effects, if all it returns are instances of its type that the native type takes. -/
theorem NativeTy.roundTrip (t : NativeTy) :
    (∀ x : t.Carrier, (t.toValue x).isInstanceOf t.ty = true ∧
      (t.Discernible x → t.ofValue (t.toValue x) = .ok x)) ∧
    (∀ v : Value, ((∃ x, t.ofValue v = .ok x) ↔ v.isInstanceOf t.ty = true ∧ t.Takes v) ∧
      ∀ x, t.ofValue v = .ok x → t.toValue x = v) ∧
    ∀ {σ : Type} (evaluator : Evaluator σ) (params : List NativeTy) (l : Lambda),
      l.signature = Shape.signature ⟨params, t⟩ →
      evaluator.typed ⟨params, t⟩ l = Shape.adapt ⟨params, t⟩ <$> evaluator.callable l ∧
      ∀ (callable : Callable) (args : Shape.Args params) (host : Host) (w : World),
        (∀ v, ((callable (Shape.argsToValues params args)).outcome host w).1 = .ok v →
          v.isInstanceOf l.signature.ret = true ∧ t.Takes v) →
        Prod.map (Except.map t.toValue) id
            ((Shape.adapt ⟨params, t⟩ callable args).outcome host w) =
          (callable (Shape.argsToValues params args)).outcome host w := by
  refine ⟨fun x => ⟨toValue_isInstanceOf x, ofValue_toValue⟩,
    fun v => ⟨exists_ofValue_iff, fun _ => toValue_of_ofValue⟩, fun evaluator params l hsig =>
    ⟨evaluator.typed_eq hsig, fun callable args host w h =>
      Shape.outcome_adapt (s := ⟨params, t⟩) fun v hv => ?_⟩⟩
  rw [hsig] at h
  exact exists_ofValue_iff.2 (h v hv)

/-- The theorem for an optional integer, and for a lambda that returns the one it is given. -/
theorem NativeTy.roundTrip_optional_integer :
    let t : NativeTy := .option (.int .i32)
    let x : t.Carrier := some ⟨.wrap .i32 5, rfl⟩
    let v : Value := .int (.wrap .i32 5)
    let n : Param := ⟨0, 0, "n", .nullable (.int .i32)⟩
    let l : Lambda := ⟨[n], .parameter n⟩
    let s : Shape := ⟨[t], t⟩
    let host : Host := ⟨fun _ => none⟩
    t.Discernible x ∧ t.ofValue (t.toValue x) = .ok x ∧
      v.isInstanceOf t.ty = true ∧ t.Takes v ∧ (∃ y, t.ofValue v = .ok y ∧ t.toValue y = v) ∧
      l.signature = s.signature ∧
      Prod.map (Except.map t.toValue) id
          ((s.adapt (l.interpret .native) (x, ())).outcome host {}) = (.ok v, {}) := by
  intro t x v n l s host
  obtain ⟨hback, hfrom, hcall⟩ := roundTrip t
  have hx : t.Discernible x := nofun
  have hv : v.isInstanceOf t.ty = true ∧ t.Takes v := ⟨by decide, nofun, fun _ => trivial⟩
  obtain ⟨y, hy⟩ := (hfrom v).1.2 hv
  have hsig : l.signature = s.signature := rfl
  have hrun : (l.interpret .native (Shape.argsToValues [t] (x, ()))).outcome host {} = (.ok v, {}) :=
    rfl
  have hreturns := (hcall (.interpreting .native : Evaluator Unit) [t] l hsig).2
    (l.interpret .native) (x, ()) host {} fun u hu => by
      rw [hrun] at hu
      cases hu
      exact hv
  exact ⟨hx, (hback x).2 hx, hv.1, hv.2, ⟨y, hy, (hfrom v).2 y hy⟩, hsig, hreturns.trans hrun⟩

/-- What the theorem leaves out: the null of a string, the quote of an integer, also where integers
are optional and the quote is not of the very type, and an optional value that is there but null. -/
theorem NativeTy.roundTrip_exceptions :
    let quote : Value := .lambda (.constant ⟨0, .int .i32⟩ (.int (.wrap .i32 1)))
    let t : NativeTy := .option (.option (.int .i32))
    let x : t.Carrier := some none
    Value.null.isInstanceOf string.ty = true ∧ string.ofValue .null = .error (.badCast .null .str) ∧
      quote.isInstanceOf (int .i32).ty = true ∧
      (int .i32).ofValue quote = .error (.badCast quote (.int .i32)) ∧
      quote.isInstanceOf (option (int .i32)).ty = true ∧
      (option (int .i32)).ofValue quote = .error (.badCast quote (.int .i32)) ∧
      t.ofValue (t.toValue x) = .ok none ∧ x ≠ none :=
  ⟨rfl, rfl, by decide, rfl, by decide, rfl, rfl, nofun⟩

end ExprTree
