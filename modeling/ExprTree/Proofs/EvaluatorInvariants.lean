import ExprTree.Eval.Evaluator
import ExprTree.Proofs.Compilation
import ExprTree.Proofs.Invariants
import ExprTree.Proofs.Templates

/-!
# What evaluators keep

Evaluators keep what the nodes of a tree keep. The interpreter binds the arguments of a call in a
frame. Compiled code has no frame for them: the calling convention puts a slot in the place of each
parameter of the lambda, so what is left to be bound is what the conversions in the lambda declare.
In both cases the parameters that may be missing are those that are free in the lambda.

Making a callable fails for what cannot be run, and mints; it runs no member.

## Main definitions

* `Outcome.Ends`: an expected result, or an expected failure.
* `EvaluatorM.Keeps`: an invariant is kept, and the result or the failure is an expected one.

## Main results

* `ArgumentArray.Slotted.freeOccurrences_subset`: the calling convention leaves nothing unbound.
* `Lambda.interpret_keeps`, `Backend.closures_keeps`: what callables keep.
* `Evaluator.interpreting_keeps`, `Evaluator.compiling_keeps`: what the evaluation of a tree keeps.
-/

set_option autoImplicit false

namespace ExprTree

open Outcome EvalM

/-- A result that `Q` holds of, or a failure with a root cause that `E` holds of. -/
def Outcome.Ends {α : Type} (Q : α → Prop) (E : EvalError → Prop) : Except EvalError α → Prop
  | .ok a => Q a
  | .error e => E e.rootCause

/-! ### Frames -/

namespace Frame

/-- What is pushed is bound, and so is what was. -/
theorem get?_push_ne_none {pairs : List (Param × Value)} {frame : Frame} {id : ParamId}
    (h : (∃ pv ∈ pairs, pv.1.id = id) ∨ frame.get? id ≠ none) :
    (frame.push pairs).get? id ≠ none := by
  induction pairs generalizing frame with
  | nil => exact h.resolve_left (by simp)
  | cons pv pairs ih =>
    have pushed : (∃ pv ∈ pairs, pv.1.id = id) ∨
        Frame.get? ((pv.1.id, pv.2) :: frame) id ≠ none := by
      by_cases hlater : ∃ pv ∈ pairs, pv.1.id = id
      · exact .inl hlater
      refine .inr (get?_cons_ne_none _ fun hne => ?_)
      refine h.resolve_left ?_
      rintro ⟨pv', hmem, hid⟩
      rcases List.mem_cons.1 hmem with rfl | hmem
      · exact hne hid.symm
      · exact hlater ⟨pv', hmem, hid⟩
    exact ih pushed

/-- The parameters of a lambda that is called with as many arguments are bound. -/
theorem get?_bind_ne_none {params : List Param} {args : List Value} {id : ParamId}
    (hlength : args.length = params.length) (h : id ∈ params.map Param.id) :
    (Frame.bind [] params args).get? id ≠ none := by
  obtain ⟨p, hp, rfl⟩ := List.mem_map.1 h
  rw [← List.map_fst_zip (Nat.le_of_eq hlength.symm)] at hp
  obtain ⟨pv, hpv, rfl⟩ := List.mem_map.1 hp
  exact get?_push_ne_none (.inl ⟨pv, hpv, rfl⟩)

end Frame

/-! ### The calling convention -/

namespace ArgumentArray

variable {args : Param} {places : Positions} {e e' : Expr}

/-- All parameters in a slot are the array. -/
theorem IsSlot.freeOccurrences_eq_nil {i : Nat} {ty : Ty} (h : IsSlot args i ty e)
    {bound : List ParamId} (hargs : args.id ∈ bound) : e.freeOccurrences bound = [] := by
  obtain ⟨n, lifted, s, s', rfl⟩ := h
  have array : (Expr.parameter args).freeOccurrences bound = [] := by
    rw [Expr.freeOccurrences_parameter, if_pos hargs]
  have position (s : Stamp) (v : Value) : (Expr.constant s v).freeOccurrences bound = [] := by
    rw [Expr.freeOccurrences_eq]
    rfl
  have element : (Expr.index s (.parameter args) none
      [.constant s' (.ofInt .i32 i)]).freeOccurrences bound = [] := by
    rw [Expr.freeOccurrences_eq]
    simp [Expr.children, Expr.boundBelow, array, position]
  rw [Expr.freeOccurrences_eq]
  simp [Expr.children, Expr.boundBelow, element]

/-- In a tree with slots in the place of parameters nothing is free but what was, and has no slot. -/
theorem Slotted.freeOccurrences_subset {bound bound' : List ParamId} (h : Slotted args places e e')
    (hbound : ∀ id ∈ bound, places[id]? ≠ none ∨ id ∈ bound') (hargs : args.id ∈ bound') :
    e'.freeOccurrences bound' ⊆ e.freeOccurrences bound := by
  induction e using Expr.induction_children generalizing e' bound bound' with
  | step e ih =>
    by_cases hplace : HasPlace places e
    · obtain ⟨i, ty, -, hslot⟩ := Slotted.exists_slot h hplace
      rw [hslot.freeOccurrences_eq_nil hargs]
      exact List.nil_subset _
    have parallel := (h.parallel hplace).1
    cases hp : e.parameter? with
    | some p =>
      obtain rfl := Expr.eq_of_parameter? hp
      obtain rfl := Slotted.eq_parameter h (not_not.1 hplace)
      rw [Expr.freeOccurrences_parameter, Expr.freeOccurrences_parameter]
      split
      · exact List.nil_subset _
      · next hunbound =>
        rw [if_neg fun hmem => hunbound ((hbound p.id hmem).resolve_left hplace)]
        exact List.Subset.refl _
    | none =>
      have hp' : e'.parameter? = none := by cases parallel <;> first | rfl | cases hp
      have hbelow : ∀ id ∈ e.boundBelow bound, places[id]? ≠ none ∨ id ∈ e.boundBelow bound' := by
        rw [Expr.boundBelow_eq, Expr.boundBelow_eq]
        intro id hid
        rcases List.mem_append.1 hid with hid | hid
        · exact .inr (List.mem_append_left _ hid)
        · exact (hbound id hid).imp_right (List.mem_append_right _)
      have hargs' : args.id ∈ e.boundBelow bound' := by
        rw [Expr.boundBelow_eq]
        exact List.mem_append_right _ hargs
      have children : ∀ d ∈ e'.children,
          d.freeOccurrences (e.boundBelow bound') ⊆ e.freeOccurrences bound :=
        forall_right_of_forall₂ (parallel.children fun _ _ _ _ hb => hb.2) fun c hc d hcd =>
          List.Subset.trans (ih c hc hcd hbelow hargs') (Expr.freeOccurrences_subset _ hc)
      rw [parallel.boundBelow_eq] at children
      rw [Expr.freeOccurrences_eq e']
      split
      · cases hp'
      · intro p hp
        obtain ⟨d, hd, hp⟩ := List.mem_flatMap.1 hp
        exact children d hd hp

variable {reflector : Reflector} {host : Host} {I : World → Prop} {E : EvalError → Prop}

theorem IsSlot.tame {i : Nat} {ty : Ty} (h : IsSlot args i ty e) :
    ∀ x ∈ e.preOrder, x.Tame reflector host I E := by
  obtain ⟨n, lifted, s, s', rfl⟩ := h
  simp only [Expr.preOrder_eq, Expr.children, List.flatMap_cons, List.flatMap_nil, List.append_nil,
    List.cons_append, List.nil_append, List.forall_mem_cons]
  refine ⟨?_, ?_, ?_, ?_, by simp⟩ <;>
    exact ⟨fun _ h => (Option.some_ne_none _ h.symm).elim, fun h => (Bool.false_ne_true h).elim⟩

/-- Slots ask nothing of members. -/
theorem Slotted.tame (h : Slotted args places e e')
    (htame : ∀ x ∈ e.preOrder, x.Tame reflector host I E) :
    ∀ x ∈ e'.preOrder, x.Tame reflector host I E :=
  h.forall_preOrder (fun parallel => parallel.tame) (fun ⟨_, _, _, hslot⟩ => hslot.tame) htame

end ArgumentArray

/-! ### Callables -/

variable {host : Host} {I : World → Prop} {E : EvalError → Prop}

/-- A lambda that is interpreted keeps what the nodes of its body keep. -/
theorem Lambda.interpret_keeps {reflector : Reflector} {l : Lambda}
    (hE : ∀ e : EvalError, e.IsOperational → E e)
    (htame : ∀ x ∈ l.body.preOrder, x.Tame reflector host I E)
    (hfree : ∀ p ∈ l.body.freeOccurrences l.paramIds, E (.unboundParameter p.name))
    (args : List Value) : Keeps host I E (l.interpret reflector args) := by
  unfold Lambda.interpret
  split
  · next hlength =>
    exact Expr.interpret_keeps hE htame hfree fun id hid => Frame.get?_bind_ne_none hlength hid
  · exact Step.throw_keeps hE trivial

/-- A lambda is compiled to a callable that keeps what the nodes of its body keep, if it can be
compiled. -/
theorem Backend.closures_keeps {l : Lambda} (hE : ∀ e : EvalError, e.IsOperational → E e)
    (hI : ∀ w supply, I w → I { w with supply })
    (htame : ∀ x ∈ l.body.preOrder, x.Tame .native host I E)
    (hfree : ∀ p ∈ l.body.freeOccurrences l.paramIds, E (.unboundParameter p.name)) (s : Supply) :
    Ends (fun callable => ∀ args, Keeps host I E (callable args)) E
      ((closures.compile l.body l.params).run s).1 := by
  obtain ⟨s', hrun⟩ := closures_compile_run l.body l.params s
  have slotted := slotted_arrayBody l.body l.params s
  have hfails := Expr.lower_failsOnly .native s.next (arrayBody l.body l.params s)
  rw [hrun]
  cases hcode : (arrayBody l.body l.params s).lower .native s.next with
  | error err =>
    rw [hcode] at hfails
    change E err.rootCause
    rw [EvalError.IsOperational.rootCause_eq hfails]
    exact hE err hfails
  | ok code =>
    intro args
    have code_eq : (arrayBody l.body l.params s).code .native s.next = code := by
      rw [Expr.code, hcode]
    have places : ∀ id ∈ l.paramIds,
        (ArgumentArray.positions (l.params.map .parameter))[id]? ≠ none ∨ id ∈ [s.next] := by
      intro id hid
      obtain ⟨p, hp, hpid⟩ := List.mem_map.1 hid
      exact .inl fun hnone => ArgumentArray.ne_of_position_eq_none hnone p hp hpid
    have subset := ArgumentArray.Slotted.freeOccurrences_subset slotted places List.mem_cons_self
    change Keeps host _ _ (callableOf l.params.length code args)
    unfold callableOf
    split
    · rw [← code_eq]
      exact Expr.code_keeps hE hI (ArgumentArray.Slotted.tame slotted htame) ⟨code, hcode⟩
        (fun p hp => hfree p (subset hp)) fun id hid hne => (hne (List.mem_singleton.1 hid)).elim
    · exact Step.throw_keeps hE trivial

/-! ### Evaluators -/

namespace EvaluatorM

variable {σ α β : Type} {J : σ → Prop} {Q : α → Prop} {R : β → Prop}

/-- From a state where `J` holds and a world where `I` holds the computation leaves such a state and
such a world. If it comes to a result `Q` holds of it, and if it fails `E` holds of the root cause. -/
def Keeps (host : Host) (J : σ → Prop) (I : World → Prop) (E : EvalError → Prop) (Q : α → Prop)
    (x : EvaluatorM σ α) : Prop :=
  ∀ st w, J st → I w → J ((x host).run st w).1.2 ∧ I ((x host).run st w).2 ∧
    Ends Q E ((x host).run st w).1.1

theorem Keeps.bind {x : EvaluatorM σ α} {f : α → EvaluatorM σ β} (hx : Keeps host J I E Q x)
    (hf : ∀ a, Q a → Keeps host J I E R (f a)) : Keeps host J I E R (x >>= f) := by
  intro st w hst hw
  have kept := hx st w hst hw
  rw [bind_run]
  rcases hrun : (x host).run st w with ⟨⟨e | a, st'⟩, w'⟩ <;> rw [hrun] at kept
  · exact kept
  · exact hf a kept.2.2 st' w' kept.1 kept.2.1

theorem Keeps.ofEval {x : EvalM α} (h : EvalM.Keeps host I E x) :
    Keeps host J I E (fun _ => True) (ofEval x) := by
  intro st w hst hw
  obtain ⟨hkept, hfails⟩ := h w hw
  refine ⟨hst, hkept, ?_⟩
  change Ends _ _ (x.outcome host w).1
  cases hx : (x.outcome host w).1 with
  | ok a => trivial
  | error e => rwa [hx] at hfails

theorem Keeps.ofExcept {r : Except EvalError α} (h : Ends Q E r) :
    Keeps host J I E Q (liftM r : EvaluatorM σ α) := by
  intro st w hst hw
  cases r <;> exact ⟨hst, hw, h⟩

/-- Compilation leaves nothing behind but identities that were minted. -/
theorem Keeps.ofCompile (hI : ∀ w supply, I w → I { w with supply })
    {x : ExceptT EvalError (StateM Supply) α} (h : ∀ s, Ends Q E (x.run s).1) :
    Keeps host J I E Q (ofCompile x) :=
  fun _ w hst hw => ⟨hst, hI w _ hw, h w.supply⟩

end EvaluatorM

namespace Expr

variable {e : Expr}

theorem ensureClosed_ends (hfree : ∀ p ∈ e.freeOccurrences [], E (.unboundParameter p.name)) :
    Ends (fun _ => True) E e.ensureClosed := by
  rw [ensureClosed_eq]
  split
  · trivial
  · next p ps heq => exact hfree p (heq ▸ List.mem_cons_self)

/-- What is accepted as closed has no free parameters. -/
theorem freeOccurrences_of_ensureClosed (h : e.ensureClosed = .ok ()) :
    e.freeOccurrences [] = [] := by
  rw [ensureClosed_eq] at h
  split at h
  · assumption
  · cases h

end Expr

namespace Evaluator

variable {σ : Type} {J : σ → Prop} {e : Expr}

/-- Interpreting a tree keeps what its nodes keep. -/
theorem interpreting_keeps {reflector : Reflector} (hE : ∀ e : EvalError, e.IsOperational → E e)
    (htame : ∀ x ∈ e.preOrder, x.Tame reflector host I E)
    (hfree : ∀ p ∈ e.freeOccurrences [], E (.unboundParameter p.name)) :
    ((interpreting reflector).evaluate e).Keeps host J I E fun _ => True := by
  have hclosed := Expr.ensureClosed_ends hfree
  have checked : EvalM.Keeps host I E (liftM e.ensureClosed) := by
    refine .ofExcept ?_
    cases hresult : e.ensureClosed with
    | ok _ => trivial
    | error err => rwa [hresult] at hclosed
  exact .ofEval (checked.bind fun _ => Expr.interpret_keeps hE htame hfree (by simp))

/-- Compiling a lambda makes a callable that keeps what the nodes of the body keep. -/
theorem compiling_callable_keeps {l : Lambda} (hE : ∀ e : EvalError, e.IsOperational → E e)
    (hI : ∀ w supply, I w → I { w with supply })
    (htame : ∀ x ∈ l.body.preOrder, x.Tame .native host I E)
    (hfree : ∀ p ∈ l.body.freeOccurrences l.paramIds, E (.unboundParameter p.name)) :
    ((compiling .closures).callable l).Keeps host J I E fun callable =>
      ∀ args, Keeps host I E (callable args) :=
  .ofCompile hI (Backend.closures_keeps hE hI htame hfree)

/-- Compiling and running a tree keeps what its nodes keep. -/
theorem compiling_keeps (hE : ∀ e : EvalError, e.IsOperational → E e)
    (hI : ∀ w supply, I w → I { w with supply })
    (htame : ∀ x ∈ e.preOrder, x.Tame .native host I E)
    (hfree : ∀ p ∈ e.freeOccurrences [], E (.unboundParameter p.name)) :
    ((compiling .closures).evaluate e).Keeps host J I E fun _ => True := by
  change EvaluatorM.Keeps host J I E _ (liftM e.ensureClosed >>= fun _ =>
    (compiling .closures).callable ⟨[], e⟩ >>= fun callable => .ofEval (callable []))
  exact (EvaluatorM.Keeps.ofExcept (Expr.ensureClosed_ends hfree)).bind fun _ _ =>
    (compiling_callable_keeps (l := ⟨[], e⟩) hE hI htame hfree).bind fun _ keeps =>
      .ofEval (keeps [])

end Evaluator

end ExprTree
