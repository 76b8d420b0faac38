import ExprTree.Proofs.Casts
import ExprTree.Proofs.Interpretation

/-!
# Evaluations that succeed where others do

A rewrite may leave out operands, and with them the failures that they end in. The tree that comes out
then agrees with the tree that went in only where that one comes to a value. `EvalM.Carries` is this
half of `EvalM.Simulates`: it says nothing of what becomes of a failure.

## Main definitions

* `EvalM.Carries`: what one evaluation comes to the other comes to as well.
* `EvalM.MayGive`: the values that an evaluation comes to.
* `Expr.TypesCarry`: what a conversion makes of a value it makes of it by another static type.

## Main results

* `EvalM.Carries.bind`: values are carried over through sequencing.
* `Expr.meaning_carries`, `Expr.interpret_carries`: nodes that are alike carry values over if their
  operands do.
-/

set_option autoImplicit false

namespace ExprTree

namespace EvalM

variable {α β : Type} {host : Host} {W : World → World → Prop}

theorem outcome_bind_ok {x : EvalM α} {f : α → EvalM β} {w u : World} {b : β} :
    (x >>= f).outcome host w = (.ok b, u) ↔
      ∃ a t, x.outcome host w = (.ok a, t) ∧ (f a).outcome host t = (.ok b, u) := by
  rw [outcome_bind]
  rcases x.outcome host w with ⟨_ | a, t⟩ <;> simp

theorem outcome_located_ok {site : Expr} {x : EvalM α} {w u : World} {a : α} :
    (located site x).outcome host w = (.ok a, u) ↔ x.outcome host w = (.ok a, u) := by
  rw [outcome_located]
  rcases x.outcome host w with ⟨_ | a, t⟩ <;> simp [Except.mapError]

/-- A value that an evaluation comes to from a world that is related to some world. -/
def MayGive (host : Host) (W : World → World → Prop) (x : EvalM α) (a : α) : Prop :=
  ∃ w w' u, W w w' ∧ x.outcome host w = (.ok a, u)

/-- From related worlds, what the first evaluation comes to the second comes to as well, in worlds
that are related again. -/
def Carries (host : Host) (W : World → World → Prop) (x y : EvalM α) : Prop :=
  ∀ w w' a u, W w w' → x.outcome host w = (.ok a, u) → ∃ u', y.outcome host w' = (.ok a, u') ∧ W u u'

theorem Simulates.carries {x y : EvalM α} (h : Simulates host W Eq x y) : Carries host W x y := by
  intro w w' a u hw hx
  obtain ⟨hagree, hu⟩ := h w w' hw
  rw [hx] at hagree hu
  rcases hy : y.outcome host w' with ⟨_ | b, u'⟩ <;> rw [hy] at hagree hu
  · exact hagree.elim
  · obtain rfl : a = b := hagree
    exact ⟨u', rfl, hu⟩

namespace Carries

variable {x y : EvalM α}

theorem pure (a : α) : Carries host W (pure a) (pure a) :=
  (Simulates.pure rfl).carries

theorem ofExcept_imp {r r' : Except EvalError α} (h : ∀ a, r = .ok a → r' = .ok a) :
    Carries host W (liftM r) (liftM r') := by
  intro w w' a u hw hr
  rw [outcome_ofExcept] at hr
  cases hr
  exact ⟨w', by rw [outcome_ofExcept, h a rfl], hw⟩

theorem ofExcept (r : Except EvalError α) : Carries host W (liftM r) (liftM r) :=
  .ofExcept_imp fun _ => id

/-- A failure has no value to carry over. -/
theorem throw (e : EvalError) (y : EvalM α) : Carries host W (throw e) y := by
  intro w w' a u _ hx
  cases hx

theorem bind {f g : α → EvalM β} (hx : Carries host W x y)
    (hf : ∀ a, MayGive host W x a → Carries host W (f a) (g a)) :
    Carries host W (x >>= f) (y >>= g) := by
  intro w w' b u hw hb
  obtain ⟨a, t, ha, hb⟩ := outcome_bind_ok.1 hb
  obtain ⟨t', ha', ht⟩ := hx w w' a t hw ha
  obtain ⟨u', hb', hu⟩ := hf a ⟨w, w', t, hw, ha⟩ t t' b u ht hb
  exact ⟨u', outcome_bind_ok.2 ⟨a, t', ha', hb'⟩, hu⟩

theorem located_left (site : Expr) (h : Carries host W x y) : Carries host W (located site x) y :=
  fun w w' a u hw hx => h w w' a u hw (outcome_located_ok.1 hx)

theorem located_right (site : Expr) (h : Carries host W x y) : Carries host W x (located site y) := by
  intro w w' a u hw hx
  obtain ⟨u', hy, hu⟩ := h w w' a u hw hx
  exact ⟨u', outcome_located_ok.2 hy, hu⟩

end Carries

end EvalM

open EvalM

variable {host : Host} {W : World → World → Prop} {reflector : Reflector}

/-! ### Parts of nodes -/

namespace Reflector.Respects

variable (h : reflector.Respects host W Eq)
include h

theorem carries_invoke (m : MethodDef) (r : Option Value) (args : List Value) :
    Carries host W (reflector.invoke m r args) (reflector.invoke m r args) :=
  (h.invoke m (by cases r <;> constructor; rfl) (List.forall₂_same.2 fun _ _ => rfl)).carries

theorem carries_read (m : MemberDef) (r : Option Value) :
    Carries host W (reflector.read m r) (reflector.read m r) :=
  (h.read m (by cases r <;> constructor; rfl)).carries

theorem carries_construct (c : CtorDef) (args : List Value) :
    Carries host W (reflector.construct c args) (reflector.construct c args) :=
  (h.construct c (List.forall₂_same.2 fun _ _ => rfl)).carries

end Reflector.Respects

namespace Step

theorem all_carries {xs ys : List (EvalM Value)} (h : List.Forall₂ (Carries host W) xs ys) :
    Carries host W (all xs) (all ys) := by
  induction h with
  | nil => exact .pure []
  | cons hx _ ih => exact hx.bind fun v _ => ih.bind fun vs _ => .pure (v :: vs)

theorem receiver_carries (context : String) {x y : EvalM Value} (h : Carries host W x y) :
    Carries host W (receiver context x) (receiver context y) := by
  refine h.bind fun v _ => ?_
  split
  · exact .throw _ _
  · exact .pure v

theorem receiver?_carries (context : String) {x y : Option (EvalM Value)}
    (h : Option.Rel (Carries host W) x y) :
    Carries host W (receiver? context x) (receiver? context y) := by
  cases h with
  | none => exact .pure none
  | some h => exact (receiver_carries context h).bind fun v _ => .pure (some v)

variable {l l' r r' : EvalM Value} (hl : Carries host W l l') (hr : Carries host W r r')
include hl

theorem raise_carries : Carries host W (raise l) (raise l') := by
  rw [raise_eq, raise_eq]
  refine hl.bind fun v _ => ?_
  split <;> exact .throw _ _

include hr

theorem builtin_carries (op : BinaryOp) (lifting : Lifting) :
    Carries host W (builtin op lifting l r) (builtin op lifting l' r') := by
  rw [builtin_eq, builtin_eq]
  exact hl.bind fun v _ => hr.bind fun v' _ => .ofExcept _

theorem andAlso_carries : Carries host W (andAlso l r) (andAlso l' r') := by
  refine hl.bind fun v _ => ?_
  split
  · exact .pure v
  · exact hr.bind fun v' _ => .pure _

theorem orElse_carries : Carries host W (orElse l r) (orElse l' r') := by
  refine hl.bind fun v _ => ?_
  split
  · exact .pure v
  · exact hr.bind fun v' _ => .pure _

/-- What is passed on is a value of the left operand. -/
theorem coalesce_carries {pass pass' : Value → EvalM Value}
    (hpass : ∀ v, MayGive host W l v → v.isNull = false → Carries host W (pass v) (pass' v)) :
    Carries host W (coalesce l r pass) (coalesce l' r' pass') := by
  refine hl.bind fun v hv => ?_
  split
  · exact hr
  · next hnull => exact hpass v hv (Bool.eq_false_iff.2 hnull)

/-- The type of the test is seen in failures only. -/
theorem conditional_carries (ty ty' : Ty) {t t' : EvalM Value} (ht : Carries host W t t') :
    Carries host W (conditional ty t l r) (conditional ty' t' l' r') := by
  rw [conditional_eq, conditional_eq]
  refine ht.bind fun v _ => ?_
  split
  · exact hl
  · exact hr
  · exact .throw _ _

end Step

/-! ### Nodes -/

namespace Expr

/-- What an operator makes of a value, it makes of it by the static type that the operand of the other
node has. -/
def TypesCarry : Expr → Expr → Prop
  | unary s op lifted none x, unary _ _ _ _ x' => ∀ v u,
    Step.applyUnary op lifted x.ty s.ty v = .ok u → Step.applyUnary op lifted x'.ty s.ty v = .ok u
  | _, _ => True

theorem Parallel.typesCarry {S : Expr → Expr → Prop}
    {B : List Param → List Param → Expr → Expr → Prop} {e e' : Expr} (h : Parallel S B e e')
    (hty : ∀ c ∈ e.operands, ∀ c', S c c' → c'.ty.StandsFor c.ty) : TypesCarry e e' := by
  cases h with
  | unary op lifted method hx =>
    have hx := hty _ List.mem_cons_self _ hx
    cases method with
    | some m => trivial
    | none => exact fun v u => Step.applyUnary_ok_of_standsFor hx
  | _ => trivial

/-- Nodes that are alike carry values over if their operands do. What is passed on to a conversion is a
value of the left operand. -/
theorem meaning_carries {S : Expr → Expr → Prop} {B : List Param → List Param → Expr → Expr → Prop}
    {e e' : Expr} {value value' : Expr → EvalM Value} {pass pass' : Value → EvalM Value}
    (hreflector : reflector.Respects host W Eq) (h : Parallel S B e e') (htypes : TypesCarry e e')
    (hlambda : e.lambda? = none)
    (hoperands : List.Forall₂ (fun c c' => Carries host W (value c) (value' c')) e.operands
      e'.operands)
    (hpass : ∀ {s lifting l r c}, e = .binary s .coalesce lifting none l r c →
      ∀ v, MayGive host W (value l) v → v.isNull = false → Carries host W (pass v) (pass' v)) :
    Carries host W (e.meaning reflector value pass) (e'.meaning reflector value' pass') := by
  have all {as as' : List Expr}
      (has : List.Forall₂ (fun c c' => Carries host W (value c) (value' c')) as as') :
      Carries host W (Step.all (as.map value)) (Step.all (as'.map value')) := by
    refine Step.all_carries ?_
    rwa [List.forall₂_map_left_iff, List.forall₂_map_right_iff]
  cases h with
  | constant s v => exact .pure v
  | parameter p => exact .throw _ _
  | binary op lifting method _ _ _ =>
    rcases hoperands with _ | ⟨hl, _ | ⟨hr, _⟩⟩
    cases method with
    | some m =>
      exact hl.bind fun v _ => hr.bind fun v' _ => hreflector.carries_invoke m none [v, v']
    | none =>
      cases hop : op.isShortCircuit with
      | true =>
        rcases eq_of_isShortCircuit hop with rfl | rfl | rfl
        · exact Step.andAlso_carries hl hr
        · exact Step.orElse_carries hl hr
        · exact Step.coalesce_carries hl hr (hpass rfl)
      | false =>
        rw [meaning_binary_builtin _ _ _ _ hop, meaning_binary_builtin _ _ _ _ hop]
        exact Step.builtin_carries hl hr op lifting
  | unary op lifted method _ =>
    rcases hoperands with _ | ⟨hx, _⟩
    refine hx.bind fun v _ => ?_
    cases method with
    | none => exact .ofExcept_imp (htypes v)
    | some m =>
      dsimp only
      split
      · exact .pure Value.null
      · exact hreflector.carries_invoke m none [v]
  | conditional _ _ _ =>
    rcases hoperands with _ | ⟨ht, _ | ⟨hx, _ | ⟨hy, _⟩⟩⟩
    exact Step.conditional_carries hx hy _ _ ht
  | member hr d =>
    cases hr with
    | none =>
      refine Carries.bind (Step.receiver?_carries _ .none) fun v _ => ?_
      exact hreflector.carries_read d v
    | some _ =>
      rcases hoperands with _ | ⟨hr, _⟩
      have receiver := Step.receiver?_carries ("access to " ++ codeQuoted d.name) (.some hr)
      exact receiver.bind fun v _ => hreflector.carries_read d v
  | call hr method _ =>
    cases hr with
    | none =>
      refine Carries.bind (Step.receiver?_carries _ .none) fun v _ => ?_
      exact (all hoperands).bind fun vs _ => hreflector.carries_invoke method v vs
    | some _ =>
      rcases hoperands with _ | ⟨hr, has⟩
      have receiver := Step.receiver?_carries ("call to " ++ codeQuoted method.name) (.some hr)
      exact receiver.bind fun v _ => (all has).bind fun vs _ =>
        hreflector.carries_invoke method v vs
  | new ctor _ => exact (all hoperands).bind fun vs _ => hreflector.carries_construct ctor vs
  | newArray element _ => exact (all hoperands).bind fun vs _ => .pure (Value.array element vs)
  | index _ indexer _ =>
    rcases hoperands with _ | ⟨hr, has⟩
    have receiver := Step.receiver_carries "index access" hr
    cases indexer with
    | some m =>
      exact receiver.bind fun v _ => (all has).bind fun vs _ =>
        hreflector.carries_invoke m (some v) vs
    | none =>
      refine receiver.bind fun v _ => ?_
      rcases has with _ | ⟨hi, _ | ⟨_, _⟩⟩
      · exact .throw _ _
      · exact hi.bind fun i _ => .ofExcept _
      · exact .throw _ _
  | typeIs _ target =>
    rcases hoperands with _ | ⟨hx, _⟩
    exact hx.bind fun v _ => .pure _
  | lambda _ => cases hlambda
  | raise _ =>
    rcases hoperands with _ | ⟨hx, _⟩
    exact Step.raise_carries hx
  | extension kind _ => exact .throw _ _

/-- Interpretations of two nodes that are alike carry values over if those of their operands do. The
static types of operands may change as far as conversions of them go on to succeed. -/
theorem interpret_carries {S : Expr → Expr → Prop}
    {B : List Param → List Param → Expr → Expr → Prop} {e e' : Expr} {frame frame' : Frame}
    (hreflector : reflector.Respects host W Eq) (h : Parallel S B e e') (htypes : TypesCarry e e')
    (hlambda : e.lambda? = none)
    (hparameter : ∀ p, e = .parameter p → frame.get? p.id = frame'.get? p.id)
    (hoperands : ∀ c ∈ e.operands, ∀ c', S c c' →
      Carries host W (c.interpret reflector frame) (c'.interpret reflector frame'))
    (hpass : ∀ {s lifting l r c}, e = .binary s .coalesce lifting none l r c →
      ∀ v, MayGive host W (l.interpret reflector frame) v → v.isNull = false →
        Carries host W (convertLeft reflector frame e.conversion? v)
          (convertLeft reflector frame' e'.conversion? v)) :
    Carries host W (e.interpret reflector frame) (e'.interpret reflector frame') := by
  cases hp : e.parameter? with
  | some p =>
    cases h with
    | parameter p =>
      unfold interpret
      refine .located_left _ (.located_right _ ?_)
      dsimp only
      rw [hparameter p rfl]
      cases frame'.get? p.id with
      | some v => exact .pure v
      | none => exact .throw _ _
    | _ => cases hp
  | none =>
    have hp' : e'.parameter? = none := by cases h <;> first | rfl | cases hp
    rw [interpret_eq _ _ hp, interpret_eq _ _ hp']
    refine .located_left _ (.located_right _ ?_)
    refine meaning_carries hreflector h htypes hlambda ?_ hpass
    exact forall₂_imp_of_mem (h.operands hlambda) fun c hc c' _ hS => hoperands c hc c' hS

end Expr

end ExprTree
