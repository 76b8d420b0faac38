import ExprTree.Proofs.ArgumentSlots
import ExprTree.Proofs.Failures

/-!
# What evaluation keeps

An invariant of the world that the members keep is kept by every evaluation, and if members fail only
as they may, so does every evaluation. Both are said at once by `EvalM.Keeps`, and it goes through
sequencing, through the functions of `Step`, and from them to interpreted trees and to lowered code.

Only the members that the nodes of a tree refer to matter, so what is asked of members is asked of
those. Two kinds of nodes can fail with more than what operations report: a parameter that is not
bound, and a placeholder, which raises whatever it was given. The first is ruled out by scopes, the
second has to be asked for.

## Main definitions

* `EvalM.Keeps`: an invariant is kept, and failures have expected root causes.
* `MemberRef`, `Expr.refersTo`: the member that a node refers to.
* `Expr.isRaise`: placeholders.
* `Expr.Tame`: what is asked of a node.

## Main results

* `Expr.meaning_keeps`: a node keeps what its operands keep.
* `Expr.interpret_keeps`: interpretation in a frame that binds what is free.
* `Expr.code_keeps`: lowered code in an environment that binds what is free.
-/

set_option autoImplicit false

namespace ExprTree

open Outcome

/-! ### Evaluations -/

namespace EvalM

variable {α β : Type} {host : Host} {I : World → Prop} {E : EvalError → Prop}

/-- From a world where `I` holds the evaluation leaves one where it holds, and if it fails, `E` holds
of the root cause. -/
def Keeps (host : Host) (I : World → Prop) (E : EvalError → Prop) (x : EvalM α) : Prop :=
  ∀ w, I w → I (x.outcome host w).2 ∧ FailsOnly (fun e => E e.rootCause) (x.outcome host w).1

namespace Keeps

theorem rootCause {x : EvalM α} (h : Keeps host I E x) {w : World} (hw : I w) {err : EvalError}
    (herr : (x.outcome host w).1 = .error err) : E err.rootCause := by
  have hfails := (h w hw).2
  rwa [herr] at hfails

theorem pure (a : α) : Keeps host I E (pure a) := fun _ hw => ⟨hw, trivial⟩

theorem throw {e : EvalError} (h : E e.rootCause) : Keeps host I E (throw e : EvalM α) :=
  fun _ hw => ⟨hw, h⟩

theorem ofExcept {r : Except EvalError α} (h : FailsOnly (fun e => E e.rootCause) r) :
    Keeps host I E (liftM r) := by
  intro w hw
  rw [outcome_ofExcept]
  exact ⟨hw, h⟩

theorem bind {x : EvalM α} {f : α → EvalM β} (hx : Keeps host I E x)
    (hf : ∀ a, Keeps host I E (f a)) : Keeps host I E (x >>= f) := by
  intro w hw
  obtain ⟨hkept, hfails⟩ := hx w hw
  rw [outcome_bind]
  rcases hxo : x.outcome host w with ⟨e | a, w'⟩ <;> rw [hxo] at hkept hfails
  · exact ⟨hkept, hfails⟩
  · exact hf a w' hkept

/-- Host code fails with failures of its own. -/
theorem ofHost (hE : ∀ e : EvalError, e.IsOperational → E e) {x : Host → HostM α}
    (hx : ∀ w, I w → I ((x host).run w).2) : Keeps host I E (ofHost x) := by
  intro w hw
  rw [outcome_ofHost]
  refine ⟨hx w hw, ?_⟩
  cases ((x host).run w).1 with
  | ok a => trivial
  | error e => exact hE (.host e.message) trivial

/-- Recording where a failure arose does not change its root cause. -/
theorem located {x : EvalM α} (site : Expr) (hx : Keeps host I E x) :
    Keeps host I E (located site x) := by
  intro w hw
  obtain ⟨hkept, hfails⟩ := hx w hw
  rw [outcome_located]
  refine ⟨hkept, ?_⟩
  cases hxo : (x.outcome host w).1 with
  | ok a => trivial
  | error e =>
    rw [hxo] at hfails
    change E (e.atNode site).rootCause
    rwa [EvalError.rootCause_atNode]

end Keeps

end EvalM

open EvalM

/-! ### The functions of `Step` -/

namespace Step

variable {host : Host} {I : World → Prop} {E : EvalError → Prop} {reflector : Reflector}

section

variable (hE : ∀ e : EvalError, e.IsOperational → E e)
include hE

theorem throw_keeps {α : Type} {e : EvalError} (h : e.IsOperational) :
    Keeps host I E (throw e : EvalM α) := by
  refine .throw ?_
  rw [h.rootCause_eq]
  exact hE e h

theorem ofExcept_keeps {α : Type} {r : Except EvalError α}
    (h : FailsOnly EvalError.IsOperational r) : Keeps host I E (liftM r) :=
  .ofExcept (h.imp fun e he => by
    rw [he.rootCause_eq]
    exact hE e he)

theorem builtin_keeps (op : BinaryOp) (lifting : Lifting) {l r : EvalM Value}
    (hl : Keeps host I E l) (hr : Keeps host I E r) :
    Keeps host I E (builtin op lifting l r) := by
  rw [builtin_eq]
  exact hl.bind fun v => hr.bind fun w => ofExcept_keeps hE (builtinResult_failsOnly op lifting v w)

theorem unary_keeps (op : UnaryOp) (lifted : Bool) (method : Option MethodDef) (source target : Ty)
    {x : EvalM Value} (hx : Keeps host I E x)
    (hmethod : ∀ m ∈ method, ∀ r args, Keeps host I E (reflector.invoke m r args)) :
    Keeps host I E (unary reflector op lifted method source target x) := by
  refine hx.bind fun v => ?_
  cases method with
  | none => exact ofExcept_keeps hE (applyUnary_failsOnly op lifted source target v)
  | some m =>
    dsimp only
    split
    · exact .pure _
    · exact hmethod m rfl none [v]

theorem conditional_keeps (testTy : Ty) {t x y : EvalM Value} (ht : Keeps host I E t)
    (hx : Keeps host I E x) (hy : Keeps host I E y) :
    Keeps host I E (conditional testTy t x y) := by
  rw [conditional_eq]
  refine ht.bind fun v => ?_
  split
  · exact hx
  · exact hy
  · exact throw_keeps hE trivial

theorem receiver_keeps (context : String) {x : EvalM Value} (hx : Keeps host I E x) :
    Keeps host I E (receiver context x) := by
  refine hx.bind fun v => ?_
  split
  · exact throw_keeps hE trivial
  · exact .pure _

theorem receiver?_keeps (context : String) {x : Option (EvalM Value)}
    (hx : ∀ y ∈ x, Keeps host I E y) : Keeps host I E (receiver? context x) := by
  cases x with
  | none => exact .pure none
  | some x => exact (receiver_keeps hE context (hx x rfl)).bind fun v => .pure (some v)

end

theorem all_keeps {xs : List (EvalM Value)} (h : ∀ x ∈ xs, Keeps host I E x) :
    Keeps host I E (all xs) := by
  induction xs with
  | nil => exact .pure []
  | cons x xs ih =>
    rw [List.forall_mem_cons] at h
    exact h.1.bind fun v => (ih h.2).bind fun vs => .pure (v :: vs)

theorem andAlso_keeps {l r : EvalM Value} (hl : Keeps host I E l) (hr : Keeps host I E r) :
    Keeps host I E (andAlso l r) := by
  refine hl.bind fun v => ?_
  split
  · exact .pure v
  · exact hr.bind fun w => .pure _

theorem orElse_keeps {l r : EvalM Value} (hl : Keeps host I E l) (hr : Keeps host I E r) :
    Keeps host I E (orElse l r) := by
  refine hl.bind fun v => ?_
  split
  · exact .pure v
  · exact hr.bind fun w => .pure _

theorem coalesce_keeps {l r : EvalM Value} {c : Value → EvalM Value} (hl : Keeps host I E l)
    (hr : Keeps host I E r) (hc : ∀ v, Keeps host I E (c v)) :
    Keeps host I E (coalesce l r c) := by
  refine hl.bind fun v => ?_
  split
  · exact hr
  · exact hc v

theorem element_keeps (hE : ∀ e : EvalError, e.IsOperational → E e) {x : EvalM Value}
    {ys : List (EvalM Value)} (hx : Keeps host I E x) (hys : ∀ y ∈ ys, Keeps host I E y) :
    Keeps host I E (element x ys) := by
  refine (receiver_keeps hE _ hx).bind fun v => ?_
  split
  · next y => exact (hys y List.mem_cons_self).bind fun i =>
      ofExcept_keeps hE (Operators.arrayElement_failsOnly v i)
  · exact throw_keeps hE trivial

theorem raise_keeps (hE : ∀ e : EvalError, e.IsOperational → E e)
    (hraised : ∀ d, E (EvalError.raised d).rootCause) {x : EvalM Value} (hx : Keeps host I E x) :
    Keeps host I E (raise x) := by
  refine hx.bind fun v => ?_
  split
  · exact .throw (hraised _)
  · exact throw_keeps hE trivial

end Step

/-- A binding leaves what else is bound. -/
theorem Frame.get?_cons_ne_none {frame : Frame} {p id : ParamId} (v : Value)
    (h : id ≠ p → frame.get? id ≠ none) : Frame.get? ((p, v) :: frame) id ≠ none := by
  by_cases hp : id = p
  · rw [hp, get?_cons_self]
    exact Option.some_ne_none v
  · rw [get?_cons_of_ne hp]
    exact h hp

/-! ### Nodes -/

/-- A member that a node refers to. -/
inductive MemberRef where
  | method (m : MethodDef)
  | member (d : MemberDef)
  | ctor (c : CtorDef)

/-- The member that a node refers to: what it reads, calls or constructs, or the method that
implements its operator, conversion or indexer. -/
def Expr.refersTo : Expr → Option MemberRef
  | binary _ _ _ method .. => method.map .method
  | unary _ _ _ method _ => method.map .method
  | member _ _ d => some (.member d)
  | call _ _ method _ => some (.method method)
  | new _ ctor _ => some (.ctor ctor)
  | index _ _ indexer _ => indexer.map .method
  | _ => none

/-- Whether a node is a placeholder for a captured failure. -/
def Expr.isRaise : Expr → Bool
  | raise .. => true
  | _ => false

/-- What reaching a member keeps. -/
def Reflector.KeepsAt (reflector : Reflector) (host : Host) (I : World → Prop)
    (E : EvalError → Prop) : MemberRef → Prop
  | .method m => ∀ r args, Keeps host I E (reflector.invoke m r args)
  | .member d => ∀ r, Keeps host I E (reflector.read d r)
  | .ctor c => ∀ args, Keeps host I E (reflector.construct c args)

namespace Expr

variable {host : Host} {I : World → Prop} {E : EvalError → Prop} {reflector : Reflector} {e : Expr}

/-- What is asked of a node: the member that it refers to keeps the invariant, and if it is a
placeholder, it may raise anything. -/
structure Tame (reflector : Reflector) (host : Host) (I : World → Prop) (E : EvalError → Prop)
    (e : Expr) : Prop where
  member : ∀ ref ∈ e.refersTo, reflector.KeepsAt host I E ref
  raise : e.isRaise = true → ∀ d, E (EvalError.raised d).rootCause

theorem Parallel.tame {S : Expr → Expr → Prop} {B : List Param → List Param → Expr → Expr → Prop}
    {e' : Expr} (h : Parallel S B e e') (htame : e.Tame reflector host I E) :
    e'.Tame reflector host I E := by
  cases h <;> exact ⟨htame.member, htame.raise⟩

/-- A node keeps what its operands, the member that it refers to and its conversion keep. -/
theorem meaning_keeps (hE : ∀ e : EvalError, e.IsOperational → E e)
    {value : Expr → EvalM Value} {pass : Value → EvalM Value} (htame : e.Tame reflector host I E)
    (hparameter : e.parameter? = none) (hoperands : ∀ c ∈ e.operands, Keeps host I E (value c))
    (hpass : ∀ v, Keeps host I E (pass v)) :
    Keeps host I E (e.meaning reflector value pass) := by
  have all {as : List Expr} (has : as ⊆ e.operands) :
      ∀ x ∈ as.map value, Keeps host I E x := by
    rintro _ hx
    obtain ⟨c, hc, rfl⟩ := List.mem_map.1 hx
    exact hoperands c (has hc)
  have option {r : Option Expr} (hr : r.toList ⊆ e.operands) :
      ∀ x ∈ r.map value, Keeps host I E x := by
    rintro _ hx
    obtain ⟨c, rfl, rfl⟩ := Option.map_eq_some_iff.1 hx
    exact hoperands c (hr (by simp))
  cases e with
  | constant s v => exact .pure v
  | parameter p => cases hparameter
  | binary s op lifting method l r c =>
    have hl := hoperands l (by simp [operands])
    have hr := hoperands r (by simp [operands])
    cases method with
    | some m => exact hl.bind fun v => hr.bind fun w => htame.member _ rfl none [v, w]
    | none =>
      cases hop : op.isShortCircuit with
      | true =>
        rcases eq_of_isShortCircuit hop with rfl | rfl | rfl
        · exact Step.andAlso_keeps hl hr
        · exact Step.orElse_keeps hl hr
        · exact Step.coalesce_keeps hl hr hpass
      | false =>
        rw [meaning_binary_builtin _ _ _ _ hop]
        exact Step.builtin_keeps hE op lifting hl hr
  | unary s op lifted method x =>
    refine Step.unary_keeps hE op lifted method _ _ (hoperands x (by simp [operands, children])) ?_
    rintro m rfl
    exact htame.member _ rfl
  | conditional s t x y =>
    exact Step.conditional_keeps hE _ (hoperands t (by simp [operands, children]))
      (hoperands x (by simp [operands, children])) (hoperands y (by simp [operands, children]))
  | member s r d =>
    exact (Step.receiver?_keeps hE _ (option (by simp [operands, children]))).bind
      fun v => htame.member _ rfl v
  | call s r method as =>
    exact (Step.receiver?_keeps hE _ (option (by simp [operands, children]))).bind
      fun v => (Step.all_keeps (all (by simp [operands, children]))).bind
      fun vs => htame.member _ rfl v vs
  | new s ctor as =>
    exact (Step.all_keeps (all (by simp [operands, children]))).bind fun vs => htame.member _ rfl vs
  | newArray s element as =>
    exact (Step.all_keeps (all (by simp [operands, children]))).bind fun vs => .pure _
  | index s r indexer as =>
    have hr := hoperands r (by simp [operands, children])
    cases indexer with
    | some m =>
      exact (Step.receiver_keeps hE _ hr).bind fun v =>
        (Step.all_keeps (all (by simp [operands, children]))).bind
        fun vs => htame.member _ rfl (some v) vs
    | none => exact Step.element_keeps hE hr (all (by simp [operands, children]))
  | typeIs s x target => exact (hoperands x (by simp [operands, children])).bind fun v => .pure _
  | lambda s ps b => exact .pure _
  | raise s x =>
    exact Step.raise_keeps hE (htame.raise rfl) (hoperands x (by simp [operands, children]))
  | extension s kind as => exact Step.throw_keeps hE trivial

/-! ### Interpretation -/

/-- What is evaluated with a node is a part of the tree. -/
theorem mem_preOrder_of_mem_lowered {c : Expr} (hc : c ∈ e.lowered) : c ∈ e.preOrder := by
  rcases mem_lowered.1 hc with hc | ⟨l, hl, rfl⟩
  · exact mem_preOrder_of_mem_children (mem_children_of_mem_operands hc)
  · obtain ⟨s, hconversion⟩ := exists_conversion hl
    have hlambda := mem_preOrder_of_mem_children (mem_children_of_mem_conversion? hconversion)
    exact mem_preOrder_trans hlambda (mem_preOrder_of_mem_children List.mem_cons_self)

/-- What is asked of all nodes of a tree is asked of those of what is evaluated with it. -/
theorem tame_lowered (h : ∀ x ∈ e.preOrder, x.Tame reflector host I E) :
    ∀ c ∈ e.lowered, ∀ x ∈ c.preOrder, x.Tame reflector host I E :=
  fun _ hc x hx => h x (mem_preOrder_trans (mem_preOrder_of_mem_lowered hc) hx)

/-- What is free in an operand is free in the node. -/
theorem freeOccurrences_operand {bound : List ParamId} (hlambda : e.lambda? = none) {c : Expr}
    (hc : c ∈ e.operands) : c.freeOccurrences bound ⊆ e.freeOccurrences bound := by
  have subset := freeOccurrences_subset bound (mem_children_of_mem_operands hc)
  rwa [boundBelow_of_lambda? hlambda] at subset

/-- What is free in the body of a conversion is free in the node or a parameter of the conversion. -/
theorem freeOccurrences_conversion {bound : List ParamId} (hlambda : e.lambda? = none) {l : Lambda}
    (hl : l ∈ e.conversion?.bind lambda?) :
    l.body.freeOccurrences (l.params.map Param.id ++ bound) ⊆ e.freeOccurrences bound := by
  obtain ⟨s, hconversion⟩ := exists_conversion hl
  have hbody : l.body ∈ (lambda s l.params l.body).children := List.mem_cons_self
  have subset := freeOccurrences_subset bound (mem_children_of_mem_conversion? hconversion)
  rw [boundBelow_of_lambda? hlambda] at subset
  exact List.Subset.trans (freeOccurrences_subset bound hbody) subset

/-- Interpretation keeps what the nodes of a tree keep. The parameters that are not bound in the frame
may be missing. -/
theorem interpret_keeps (hE : ∀ e : EvalError, e.IsOperational → E e) {bound : List ParamId}
    {frame : Frame} (htame : ∀ x ∈ e.preOrder, x.Tame reflector host I E)
    (hfree : ∀ p ∈ e.freeOccurrences bound, E (.unboundParameter p.name))
    (hframe : ∀ id ∈ bound, frame.get? id ≠ none) :
    Keeps host I E (e.interpret reflector frame) := by
  induction e using induction_lowered generalizing bound frame with
  | step e ih =>
    cases hp : e.parameter? with
    | some p =>
      obtain rfl := eq_of_parameter? hp
      unfold interpret
      dsimp only
      cases hget : frame.get? p.id with
      | some v => exact .located _ (.pure v)
      | none =>
        have hunbound : p.id ∉ bound := fun hmem => hframe p.id hmem hget
        rw [freeOccurrences_parameter, if_neg hunbound, List.forall_mem_singleton] at hfree
        exact .located _ (.throw hfree)
    | none =>
      cases hl : e.lambda? with
      | some l =>
        obtain ⟨s, rfl⟩ := eq_of_lambda? hl
        unfold interpret
        exact .located _ (.pure _)
      | none =>
        have ih (c : Expr) (hc : c ∈ e.lowered) := @ih c hc
        rw [interpret_eq _ _ hp]
        refine .located e (meaning_keeps hE (htame e (mem_preOrder_self e)) hp (fun c hc => ?_)
          fun v => ?_)
        · have hc' := mem_lowered.2 (.inl hc)
          have hfree' := fun p hp => hfree p (freeOccurrences_operand hl hc hp)
          exact ih c hc' (tame_lowered htame c hc') hfree' hframe
        · unfold convertLeft
          split
          · next l hconversion =>
            split
            · next hlength =>
              have hbody := mem_lowered.2 (.inr ⟨l, hconversion, rfl⟩)
              have hfree' := fun p hp => hfree p (freeOccurrences_conversion hl hconversion hp)
              obtain ⟨p, hparams⟩ := List.length_eq_one_iff.1 hlength
              rw [hparams] at hfree' ⊢
              refine ih _ hbody (tame_lowered htame _ hbody) hfree' fun id hid => ?_
              exact Frame.get?_cons_ne_none v fun hne => hframe id (List.mem_of_ne_of_mem hne hid)
            · exact Step.throw_keeps hE trivial
          · exact .pure v

/-! ### Lowered code -/

section

variable (hE : ∀ e : EvalError, e.IsOperational → E e) {args : ParamId}

/-- A quote is made by minting. -/
theorem quote_keeps (hI : ∀ w supply, I w → I { w with supply }) (args : ParamId) (e : Expr)
    (env : Env) : Keeps host I E (quote args e env) := by
  unfold quote
  split
  · exact .pure _
  · have hook (d : Expr) (answer : WorldM Rewritten)
        (h : ((captured args env d).map fun v => do return .changed (← mkConstant v d.ty)) =
          some answer) (w : World) (_ : True) :
        mintingView.From w answer fun _ _ => True := by
      obtain ⟨v, -, rfl⟩ := Option.map_eq_some_iff.1 h
      exact (StateView.From.mkConstant (V := mintingView) trivial v d.ty).bind
        fun _ _ _ _ => .pure trivial
    intro w hw
    obtain ⟨⟨supply, hsupply⟩, -⟩ := StateView.from_rewrite_replaced (V := mintingView) (s := w)
      (T := fun _ _ _ => True) (fun _ _ _ h => h) hook e trivial
    have hkept := hI w supply hw
    rw [← hsupply] at hkept
    exact ⟨hkept, trivial⟩

include hE

theorem readSlot_keeps (i : Nat) (target : Ty) (env : Env) :
    Keeps host I E (readSlot i target env) := by
  have arg : FailsOnly EvalError.IsOperational (env.arg i) := by
    unfold Env.arg
    split <;> trivial
  refine (Step.ofExcept_keeps hE arg).bind fun v => ?_
  split
  · exact .pure v
  · refine Step.ofExcept_keeps hE ((Convert.convert_failsOnly v .object target false).imp ?_)
    exact fun _ => Convert.isOperational_of_mayFail

/-- Lowered code keeps what the nodes of a tree keep. The parameters that are not bound in the
environment may be missing, the array of arguments apart. -/
theorem code_keeps (hI : ∀ w supply, I w → I { w with supply }) {bound : List ParamId} {env : Env}
    (htame : ∀ x ∈ e.preOrder, x.Tame reflector host I E) (hlowers : e.Lowers reflector args)
    (hfree : ∀ p ∈ e.freeOccurrences bound, E (.unboundParameter p.name))
    (hlocals : ∀ id ∈ bound, id ≠ args → env.locals.get? id ≠ none) :
    Keeps host I E (e.code reflector args env) := by
  induction e using induction_lowered generalizing bound env with
  | step e ih =>
    have ih (c : Expr) (hc : c ∈ e.lowered) := @ih c hc
    cases hp : e.parameter? with
    | some p =>
      obtain rfl := eq_of_parameter? hp
      by_cases hargs : p.id = args
      · rw [code, lower, if_pos hargs]
        exact .pure _
      · rw [code_parameter hargs]
        cases hget : env.locals.get? p.id with
        | some v => exact .pure v
        | none =>
          have hunbound : p.id ∉ bound := fun hmem => hlocals p.id hmem hargs hget
          rw [freeOccurrences_parameter, if_neg hunbound, List.forall_mem_singleton] at hfree
          exact .throw hfree
    | none =>
      cases hl : e.lambda? with
      | some l =>
        rw [code, lower_lambda (by rw [hl]; rfl)]
        exact quote_keeps hI args e env
      | none =>
        cases hslot : e.convertedSlot? args with
        | some i =>
          rw [code, lower_of_convertedSlot? hslot]
          exact readSlot_keeps hE i e.ty env
        | none =>
          have hplain : e.isPlain args = true := by simp [isPlain, hp, hl, hslot]
          have hlowered := (lowers_of_lowers hplain hlowers).2
          rw [code_eq hplain hlowers, plainCode]
          refine meaning_keeps hE (htame e (mem_preOrder_self e)) hp (fun c hc => ?_) fun v => ?_
          · have hc' := mem_lowered.2 (.inl hc)
            have hfree' := fun p hp => hfree p (freeOccurrences_operand hl hc hp)
            exact ih c hc' (tame_lowered htame c hc') (hlowered c hc') hfree' hlocals
          · unfold passLeft
            split
            · next p body hconversion =>
              have hbody := mem_lowered.2 (.inr ⟨_, hconversion, rfl⟩)
              have hfree' := fun p hp => hfree p (freeOccurrences_conversion hl hconversion hp)
              refine ih _ hbody (tame_lowered htame _ hbody) (hlowered _ hbody) hfree' ?_
              intro id hid hargs
              exact Frame.get?_cons_ne_none v fun hne =>
                hlocals id (List.mem_of_ne_of_mem hne hid) hargs
            · exact Step.throw_keeps hE trivial
            · exact .pure v

end

end Expr

end ExprTree
