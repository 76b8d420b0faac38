import Mathlib.Data.List.Forall2
import ExprTree.Eval.Step

/-!
# Evaluations that agree

Two evaluations agree when they give related values or fail with the same root cause, and leave
related worlds behind. Which values and which worlds are related depends on what is compared: equal
values and equal worlds for two evaluators that have to do the same, and coarser relations where one
side has done some of the work before.

The meaning of a node is put together by the functions of `Step`. Each of them takes parts that
agree to a whole that agrees, and that is all that comparisons of evaluators need to know of them.

## Main definitions

* `EvalM.outcome`: what an evaluation comes to from a world.
* `Outcome.Agree`: related values, or failures with the same root cause.
* `EvalM.Simulates`: evaluations agree from related worlds.
* `Value.Congruence`: relations between values that nothing in `Step` can tell apart.

## Main results

* `EvalM.Simulates.bind`: agreement goes through sequencing.
* `Step.all_simulates`, `Step.call_simulates`, and so on: one lemma for each function of `Step`.
-/

set_option autoImplicit false

namespace ExprTree

/-! ### Outcomes -/

/-- Values that are related, or failures with the same root cause. -/
def Outcome.Agree {α β : Type} (R : α → β → Prop) : Except EvalError α → Except EvalError β → Prop
  | .ok a, .ok b => R a b
  | .error e, .error e' => e.rootCause = e'.rootCause
  | _, _ => False

theorem Outcome.Agree.imp {α β : Type} {R S : α → β → Prop} (h : ∀ a b, R a b → S a b)
    {x : Except EvalError α} {y : Except EvalError β} (hxy : Agree R x y) : Agree S x y := by
  cases x <;> cases y <;> first | exact h _ _ hxy | exact hxy

theorem Outcome.Agree.refl {α : Type} {R : α → α → Prop} (h : ∀ a, R a a)
    (x : Except EvalError α) : Agree R x x := by
  cases x with
  | ok a => exact h a
  | error e => exact Eq.refl e.rootCause

theorem Outcome.Agree.bind {α β γ δ : Type} {R : α → β → Prop} {S : γ → δ → Prop}
    {x : Except EvalError α} {y : Except EvalError β} {f : α → Except EvalError γ}
    {g : β → Except EvalError δ} (hxy : Agree R x y) (hf : ∀ a b, R a b → Agree S (f a) (g b)) :
    Agree S (x >>= f) (y >>= g) := by
  cases x <;> cases y
  case ok.ok => exact hf _ _ hxy
  case error.error => exact hxy
  all_goals exact hxy.elim

@[simp] theorem EvalError.rootCause_atNode (site : Expr) (e : EvalError) :
    (e.atNode site).rootCause = e.rootCause := by
  cases e <;> rfl

namespace EvalM

variable {α β γ δ : Type}

/-- What an evaluation comes to against a host, from a world. -/
def outcome (x : EvalM α) (host : Host) (w : World) : Except EvalError α × World := (x host).run w

theorem outcome_bind (x : EvalM α) (f : α → EvalM β) (host : Host) (w : World) :
    (x >>= f).outcome host w =
      match x.outcome host w with
      | (.ok a, w) => (f a).outcome host w
      | (.error e, w) => (.error e, w) := by
  unfold outcome
  change (match (x host).run w with
    | (r, w) => (ExceptT.bindCont (fun a => f a host) r) w) = _
  rcases (x host).run w with ⟨_ | _, _⟩ <;> rfl

theorem outcome_ofExcept (r : Except EvalError α) (host : Host) (w : World) :
    (liftM r : EvalM α).outcome host w = (r, w) := by
  cases r <;> rfl

theorem outcome_located (site : Expr) (x : EvalM α) (host : Host) (w : World) :
    (located site x).outcome host w =
      ((x.outcome host w).1.mapError (·.atNode site), (x.outcome host w).2) :=
  rfl

theorem outcome_ofHost (x : Host → HostM α) (host : Host) (w : World) :
    (ofHost x).outcome host w =
      (((x host).run w).1.mapError fun e => .host e.message, ((x host).run w).2) :=
  rfl

/-! ### Agreement -/

variable {host : Host} {W : World → World → Prop}

/-- From related worlds both evaluations come to outcomes that agree, in worlds that are related
again. -/
def Simulates (host : Host) (W : World → World → Prop) (R : α → β → Prop) (x : EvalM α)
    (y : EvalM β) : Prop :=
  ∀ w w', W w w' → Outcome.Agree R (x.outcome host w).1 (y.outcome host w').1 ∧
    W (x.outcome host w).2 (y.outcome host w').2

namespace Simulates

variable {R : α → β → Prop} {S : γ → δ → Prop} {x : EvalM α} {y : EvalM β}

theorem of_eq {R : α → α → Prop} (hR : ∀ a, R a a) (x : EvalM α) : Simulates host Eq R x x := by
  rintro w _ rfl
  exact ⟨.refl hR _, rfl⟩

theorem pure {a : α} {b : β} (h : R a b) : Simulates host W R (pure a) (pure b) :=
  fun _ _ hw => ⟨h, hw⟩

theorem throw {e e' : EvalError} (h : e.rootCause = e'.rootCause) :
    Simulates host W R (throw e) (throw e') :=
  fun _ _ hw => ⟨h, hw⟩

theorem ofExcept {r : Except EvalError α} {r' : Except EvalError β} (h : Outcome.Agree R r r') :
    Simulates host W R (liftM r) (liftM r') := by
  intro w w' hw
  rw [outcome_ofExcept, outcome_ofExcept]
  exact ⟨h, hw⟩

theorem bind {f : α → EvalM γ} {g : β → EvalM δ} (hx : Simulates host W R x y)
    (hf : ∀ a b, R a b → Simulates host W S (f a) (g b)) :
    Simulates host W S (x >>= f) (y >>= g) := by
  intro w w' hw
  obtain ⟨hagree, hw₁⟩ := hx w w' hw
  rw [outcome_bind, outcome_bind]
  rcases hxo : x.outcome host w with ⟨_ | a, w₁⟩ <;>
    rcases hyo : y.outcome host w' with ⟨_ | b, w₁'⟩ <;> rw [hxo, hyo] at hagree hw₁
  case error.error => exact ⟨hagree, hw₁⟩
  case ok.ok => exact hf a b hagree w₁ w₁' hw₁
  all_goals exact hagree.elim

theorem imp {R' : α → β → Prop} (h : ∀ a b, R a b → R' a b) (hx : Simulates host W R x y) :
    Simulates host W R' x y :=
  fun w w' hw => ⟨(hx w w' hw).1.imp h, (hx w w' hw).2⟩

/-- Recording where a failure arose does not change its root cause. -/
theorem located_left (site : Expr) (hx : Simulates host W R x y) :
    Simulates host W R (located site x) y := by
  intro w w' hw
  obtain ⟨hagree, hw₁⟩ := hx w w' hw
  rw [outcome_located]
  refine ⟨?_, hw₁⟩
  cases hxo : (x.outcome host w).1 <;> cases hyo : (y.outcome host w').1 <;> rw [hxo, hyo] at hagree
  case error.error e e' => exact (EvalError.rootCause_atNode site e).trans hagree
  all_goals exact hagree

theorem located_right (site : Expr) (hx : Simulates host W R x y) :
    Simulates host W R x (located site y) := by
  intro w w' hw
  obtain ⟨hagree, hw₁⟩ := hx w w' hw
  rw [outcome_located]
  refine ⟨?_, hw₁⟩
  cases hxo : (x.outcome host w).1 <;> cases hyo : (y.outcome host w').1 <;> rw [hxo, hyo] at hagree
  case error.error e e' => exact hagree.trans (EvalError.rootCause_atNode site e').symm
  all_goals exact hagree

end Simulates

end EvalM

/-! ### Values that cannot be told apart -/

namespace Value

/-- The captured failure, if the value is one. -/
def failure? : Value → Option Deferred
  | error d => some d
  | _ => none

/-- The class of an object, which calls on it dispatch on. -/
def class? : Value → Option ClassDef
  | object _ c _ => some c
  | _ => none

/-- A relation between values that nothing a node does can tell apart: what it asks of related
values has one answer, and what it makes of them is related again. -/
structure Congruence (R : Value → Value → Prop) : Prop where
  refl : ∀ v, R v v
  class? : ∀ {v w}, R v w → v.class? = w.class?
  isNull : ∀ {v w}, R v w → v.isNull = w.isNull
  bool? : ∀ {v w}, R v w → v.bool? = w.bool?
  failure? : ∀ {v w}, R v w → v.failure? = w.failure?
  text : ∀ {v w}, R v w → v.text = w.text
  isInstanceOf : ∀ {v w}, R v w → ∀ t, v.isInstanceOf t = w.isInstanceOf t
  array : ∀ {vs ws}, List.Forall₂ R vs ws → ∀ t, R (.array t vs) (.array t ws)
  arrayElement : ∀ {v w i j}, R v w → R i j →
    Outcome.Agree R (Operators.arrayElement v i) (Operators.arrayElement w j)
  applyUnary : ∀ {v w}, R v w → ∀ op lifted source target,
    Outcome.Agree R (Step.applyUnary op lifted source target v)
      (Step.applyUnary op lifted source target w)

/-- Equal values cannot be told apart. -/
theorem congruence_eq : Congruence Eq where
  refl _ := rfl
  class? h := congrArg Value.class? h
  isNull h := congrArg isNull h
  bool? h := congrArg Value.bool? h
  failure? h := congrArg failure? h
  text h := congrArg Value.text h
  isInstanceOf h t := congrArg (·.isInstanceOf t) h
  array h t := by rw [List.forall₂_eq_eq_eq] at h; rw [h]
  arrayElement := by rintro v _ i _ rfl rfl; exact .refl (fun _ => rfl) _
  applyUnary := by rintro v _ rfl op lifted source target; exact .refl (fun _ => rfl) _

theorem bool?_eq_some_iff {v : Value} {b : Bool} : v.bool? = some b ↔ v = .bool b := by
  cases v <;> simp [bool?]

theorem beq_bool (v : Value) (b : Bool) : (v == .bool b) = decide (v.bool? = some b) := by
  change beq v (.bool b) = _
  cases v <;> simp [beq, bool?]

end Value

namespace Reflector

/-- Members reached with related receivers and arguments give outcomes that agree. -/
structure Respects (reflector : Reflector) (host : Host) (W : World → World → Prop)
    (R : Value → Value → Prop) : Prop where
  invoke : ∀ m {r r' args args'}, Option.Rel R r r' → List.Forall₂ R args args' →
    EvalM.Simulates host W R (reflector.invoke m r args) (reflector.invoke m r' args')
  read : ∀ d {r r'}, Option.Rel R r r' →
    EvalM.Simulates host W R (reflector.read d r) (reflector.read d r')
  construct : ∀ c {args args'}, List.Forall₂ R args args' →
    EvalM.Simulates host W R (reflector.construct c args) (reflector.construct c args')

theorem respects_eq (reflector : Reflector) (host : Host) : reflector.Respects host Eq Eq where
  invoke m r r' args args' hr hargs := by
    have hr : r = r' := by cases hr <;> simp_all
    rw [List.forall₂_eq_eq_eq] at hargs
    rw [hr, hargs]
    exact .of_eq (fun _ => rfl) _
  read d r r' hr := by
    have hr : r = r' := by cases hr <;> simp_all
    rw [hr]
    exact .of_eq (fun _ => rfl) _
  construct c args args' hargs := by
    rw [List.forall₂_eq_eq_eq] at hargs
    rw [hargs]
    exact .of_eq (fun _ => rfl) _

end Reflector

/-! ### The functions of `Step` -/

namespace Step

open EvalM

variable {host : Host} {W : World → World → Prop} {R : Value → Value → Prop}
  {reflector : Reflector}

theorem all_simulates {xs ys : List (EvalM Value)}
    (h : List.Forall₂ (Simulates host W R) xs ys) :
    Simulates host W (List.Forall₂ R) (all xs) (all ys) := by
  induction h with
  | nil => exact .pure .nil
  | cons hx _ ih => exact hx.bind fun v w hv => ih.bind fun vs ws hvs => .pure (.cons hv hvs)

/-- What a built-in operator makes of its operands. -/
def builtinResult (op : BinaryOp) (lifting : Lifting) (l r : Value) : Except EvalError Value :=
  if lifting.lifted && (l.isNull || r.isNull) then .ok (Operators.liftedNull op lifting l r)
  else Operators.binary op l r

theorem builtin_eq (op : BinaryOp) (lifting : Lifting) (left right : EvalM Value) :
    builtin op lifting left right =
      left >>= fun l => right >>= fun r => liftM (builtinResult op lifting l r) := by
  unfold builtin builtinResult
  congr 1
  funext l
  congr 1
  funext r
  split <;> rfl

/-- The operands of a built-in operator may have to be related more closely than its results. -/
theorem builtin_simulates {P Q : Value → Value → Prop} {op : BinaryOp} {lifting : Lifting}
    {l l' r r' : EvalM Value} (hl : Simulates host W P l l') (hr : Simulates host W Q r r')
    (hop : ∀ {v v' w w'}, P v v' → Q w w' →
      Outcome.Agree R (builtinResult op lifting v w) (builtinResult op lifting v' w')) :
    Simulates host W R (builtin op lifting l r) (builtin op lifting l' r') := by
  rw [builtin_eq, builtin_eq]
  exact hl.bind fun v v' hv => hr.bind fun w w' hw => .ofExcept (hop hv hw)

theorem andAlso_eq (v w : Value) :
    Operators.andAlso v w =
      if v.bool? = some true then w else if w.bool? = some false then .bool false else .null := by
  unfold Operators.andAlso
  split <;> simp_all [Value.bool?_eq_some_iff]

theorem orElse_eq (v w : Value) :
    Operators.orElse v w =
      if v.bool? = some false then w else if w.bool? = some true then .bool true else .null := by
  unfold Operators.orElse
  split <;> simp_all [Value.bool?_eq_some_iff]

theorem andAlso_simulates (hR : Value.Congruence R) {l l' r r' : EvalM Value}
    (hl : Simulates host W R l l') (hr : Simulates host W R r r') :
    Simulates host W R (andAlso l r) (andAlso l' r') := by
  refine hl.bind fun v v' hv => ?_
  rw [Value.beq_bool, Value.beq_bool, hR.bool? hv]
  split
  · exact .pure hv
  · refine hr.bind fun w w' hw => .pure ?_
    rw [andAlso_eq, andAlso_eq, hR.bool? hv, hR.bool? hw]
    split
    · exact hw
    · exact hR.refl _

theorem orElse_simulates (hR : Value.Congruence R) {l l' r r' : EvalM Value}
    (hl : Simulates host W R l l') (hr : Simulates host W R r r') :
    Simulates host W R (orElse l r) (orElse l' r') := by
  refine hl.bind fun v v' hv => ?_
  rw [Value.beq_bool, Value.beq_bool, hR.bool? hv]
  split
  · exact .pure hv
  · refine hr.bind fun w w' hw => .pure ?_
    rw [orElse_eq, orElse_eq, hR.bool? hv, hR.bool? hw]
    split
    · exact hw
    · exact hR.refl _

/-- The left operand may have to be related more closely, as it is what a conversion is applied to. -/
theorem coalesce_simulates (hR : Value.Congruence R) {Q : Value → Value → Prop}
    (hQ : ∀ v v', Q v v' → R v v') {l l' r r' : EvalM Value} {c c' : Value → EvalM Value}
    (hl : Simulates host W Q l l') (hr : Simulates host W R r r')
    (hc : ∀ v v', Q v v' → v.isNull = false → Simulates host W R (c v) (c' v')) :
    Simulates host W R (coalesce l r c) (coalesce l' r' c') := by
  refine hl.bind fun v v' hv => ?_
  rw [← hR.isNull (hQ v v' hv)]
  split
  · exact hr
  · next hnull => exact hc v v' hv (Bool.eq_false_iff.2 hnull)

theorem binaryMethod_simulates (hr : reflector.Respects host W R) (m : MethodDef)
    {x x' y y' : EvalM Value} (hx : Simulates host W R x x') (hy : Simulates host W R y y') :
    Simulates host W R (binaryMethod reflector m x y) (binaryMethod reflector m x' y') :=
  hx.bind fun _ _ hv => hy.bind fun _ _ hw => hr.invoke m .none (.cons hv (.cons hw .nil))

/-- The static type of the operand may differ where the operator does not tell. -/
theorem unary_simulates (hR : Value.Congruence R) (hr : reflector.Respects host W R)
    (op : UnaryOp) (lifted : Bool) (method : Option MethodDef) {source source' : Ty} (target : Ty)
    (hsource : method = none → ∀ v,
      applyUnary op lifted source target v = applyUnary op lifted source' target v)
    {x x' : EvalM Value} (hx : Simulates host W R x x') :
    Simulates host W R (unary reflector op lifted method source target x)
      (unary reflector op lifted method source' target x') := by
  refine hx.bind fun v v' hv => ?_
  cases method with
  | none =>
    dsimp only
    rw [hsource rfl]
    exact .ofExcept (hR.applyUnary hv op lifted source' target)
  | some m =>
    simp only [hR.isNull hv]
    split
    · exact .pure (hR.refl _)
    · exact hr.invoke m .none (.cons hv .nil)

theorem conditional_eq (testTy : Ty) (test x y : EvalM Value) :
    conditional testTy test x y = test >>= fun v =>
      match v.bool? with
      | some true => x
      | some false => y
      | none => throw (EvalError.invalidCast v.text testTy) := by
  unfold conditional
  congr 1
  funext v
  cases v with
  | bool b => cases b <;> rfl
  | _ => rfl

theorem conditional_simulates (hR : Value.Congruence R) (testTy : Ty)
    {t t' x x' y y' : EvalM Value} (ht : Simulates host W R t t') (hx : Simulates host W R x x')
    (hy : Simulates host W R y y') :
    Simulates host W R (conditional testTy t x y) (conditional testTy t' x' y') := by
  rw [conditional_eq, conditional_eq]
  refine ht.bind fun v v' hv => ?_
  rw [hR.bool? hv, hR.text hv]
  split
  · exact hx
  · exact hy
  · exact .throw rfl

/-- Receivers may have to be related more closely than results. -/
theorem receiver_simulates {Q : Value → Value → Prop} (hQ : ∀ v v', Q v v' → v.isNull = v'.isNull)
    (context : String) {x x' : EvalM Value} (hx : Simulates host W Q x x') :
    Simulates host W (fun v v' => Q v v' ∧ v.isNull = false) (receiver context x)
      (receiver context x') := by
  refine hx.bind fun v v' hv => ?_
  rw [← hQ v v' hv]
  split
  · exact .throw rfl
  · next hnull => exact .pure ⟨hv, Bool.eq_false_iff.2 hnull⟩

theorem receiver?_simulates {Q : Value → Value → Prop}
    (hQ : ∀ v v', Q v v' → v.isNull = v'.isNull) (context : String) {x x' : EvalM Value}
    (hx : Simulates host W Q x x') :
    Simulates host W (fun r r' => ∃ v v', r = some v ∧ r' = some v' ∧ Q v v' ∧ v.isNull = false)
      (receiver? context (some x)) (receiver? context (some x')) :=
  (receiver_simulates hQ context hx).bind fun v v' hv => .pure ⟨v, v', rfl, rfl, hv⟩

/-- Reads of members of one name agree if they do on every receiver. -/
theorem member_simulates_of_read {Q : Value → Value → Prop}
    (hQ : ∀ v v', Q v v' → v.isNull = v'.isNull) {d d' : MemberDef} (hname : d.name = d'.name)
    {x x' : EvalM Value} (hx : Simulates host W Q x x')
    (hread : ∀ v v', Q v v' → v.isNull = false →
      Simulates host W R (reflector.read d (some v)) (reflector.read d' (some v'))) :
    Simulates host W R (member reflector d (some x)) (member reflector d' (some x')) := by
  unfold member
  rw [hname]
  refine (receiver?_simulates hQ _ hx).bind ?_
  rintro _ _ ⟨v, v', rfl, rfl, hv, hnull⟩
  exact hread v v' hv hnull

/-- Calls of methods of one name agree if they do on every receiver and related arguments. -/
theorem call_simulates_of_invoke {Q : Value → Value → Prop}
    (hQ : ∀ v v', Q v v' → v.isNull = v'.isNull) {m m' : MethodDef} (hname : m.name = m'.name)
    {x x' : EvalM Value} (hx : Simulates host W Q x x') {ys ys' : List (EvalM Value)}
    (hys : List.Forall₂ (Simulates host W R) ys ys')
    (hinvoke : ∀ v v' vs vs', Q v v' → v.isNull = false → List.Forall₂ R vs vs' →
      Simulates host W R (reflector.invoke m (some v) vs) (reflector.invoke m' (some v') vs')) :
    Simulates host W R (call reflector m (some x) ys) (call reflector m' (some x') ys') := by
  unfold call
  rw [hname]
  refine (receiver?_simulates hQ _ hx).bind ?_
  rintro _ _ ⟨v, v', rfl, rfl, hv, hnull⟩
  exact (all_simulates hys).bind fun vs vs' hvs => hinvoke v v' vs vs' hv hnull hvs

theorem member_simulates (hR : Value.Congruence R) (hr : reflector.Respects host W R)
    (d : MemberDef) {x x' : Option (EvalM Value)} (hx : Option.Rel (Simulates host W R) x x') :
    Simulates host W R (member reflector d x) (member reflector d x') := by
  cases hx with
  | none => exact (Simulates.pure (R := Option.Rel R) .none).bind fun _ _ hv => hr.read d hv
  | some hx =>
    exact member_simulates_of_read (fun _ _ => hR.isNull) rfl hx fun v v' hv _ => hr.read d (.some hv)

theorem call_simulates (hR : Value.Congruence R) (hr : reflector.Respects host W R)
    (m : MethodDef) {x x' : Option (EvalM Value)} {ys ys' : List (EvalM Value)}
    (hx : Option.Rel (Simulates host W R) x x') (hys : List.Forall₂ (Simulates host W R) ys ys') :
    Simulates host W R (call reflector m x ys) (call reflector m x' ys') := by
  cases hx with
  | none =>
    exact (Simulates.pure (R := Option.Rel R) .none).bind fun _ _ hv =>
      (all_simulates hys).bind fun _ _ hvs => hr.invoke m hv hvs
  | some hx =>
    exact call_simulates_of_invoke (fun _ _ => hR.isNull) rfl hx hys fun _ _ _ _ hv _ hvs =>
      hr.invoke m (.some hv) hvs

theorem construct_simulates (hr : reflector.Respects host W R) (c : CtorDef)
    {xs xs' : List (EvalM Value)} (hxs : List.Forall₂ (Simulates host W R) xs xs') :
    Simulates host W R (construct reflector c xs) (construct reflector c xs') :=
  (all_simulates hxs).bind fun _ _ hvs => hr.construct c hvs

theorem newArray_simulates (hR : Value.Congruence R) (element : Ty)
    {xs xs' : List (EvalM Value)} (hxs : List.Forall₂ (Simulates host W R) xs xs') :
    Simulates host W R (newArray element xs) (newArray element xs') :=
  (all_simulates hxs).bind fun _ _ hvs => .pure (hR.array hvs element)

theorem indexer_simulates (hR : Value.Congruence R) (hr : reflector.Respects host W R)
    (m : MethodDef) {x x' : EvalM Value} {ys ys' : List (EvalM Value)}
    (hx : Simulates host W R x x') (hys : List.Forall₂ (Simulates host W R) ys ys') :
    Simulates host W R (indexer reflector m x ys) (indexer reflector m x' ys') :=
  (receiver_simulates (fun _ _ => hR.isNull) _ hx).bind fun _ _ hv =>
    (all_simulates hys).bind fun _ _ hvs => hr.invoke m (.some hv.1) hvs

theorem element_simulates (hR : Value.Congruence R) {x x' : EvalM Value}
    {ys ys' : List (EvalM Value)} (hx : Simulates host W R x x')
    (hys : List.Forall₂ (Simulates host W R) ys ys') :
    Simulates host W R (element x ys) (element x' ys') := by
  refine (receiver_simulates (fun _ _ => hR.isNull) _ hx).bind fun v v' ⟨hv, _⟩ => ?_
  cases hys with
  | nil => exact .throw rfl
  | cons hy hrest =>
    cases hrest with
    | nil => exact hy.bind fun i i' hi => .ofExcept (hR.arrayElement hv hi)
    | cons _ _ => exact .throw rfl

theorem typeIs_simulates (hR : Value.Congruence R) (target : Ty) {x x' : EvalM Value}
    (hx : Simulates host W R x x') :
    Simulates host W R (typeIs target x) (typeIs target x') := by
  refine hx.bind fun v v' hv => .pure ?_
  rw [Convert.typeIs, Convert.typeIs, hR.isNull hv, hR.isInstanceOf hv]
  exact hR.refl _

theorem raise_eq (payload : EvalM Value) :
    raise payload = payload >>= fun v =>
      match v.failure? with
      | some d => throw (EvalError.raised d)
      | none => throw (EvalError.unsupported ("raising " ++ v.text)) := by
  unfold raise
  congr 1
  funext v
  cases v <;> rfl

theorem raise_simulates (hR : Value.Congruence R) {x x' : EvalM Value}
    (hx : Simulates host W R x x') : Simulates host W R (raise x) (raise x') := by
  rw [raise_eq, raise_eq]
  refine hx.bind fun v v' hv => ?_
  rw [hR.failure? hv, hR.text hv]
  split <;> exact .throw rfl

end Step

end ExprTree
