import ExprTree.Eval.Partial
import ExprTree.Proofs.FreeParameters
import ExprTree.Proofs.PureHost
import ExprTree.Proofs.QuoteFree

/-!
# Folding keeps the meaning of a tree

Partial evaluation computes what it can ahead of time. A candidate holds no parameter, so it comes
to the same in every frame; against a pure host it comes to the same in every world that dispatches
alike, and its value can stand where it stood. A candidate that fails leaves a placeholder, which
raises the failure when it is executed and not before. Every other node is rebuilt over its folded
children, and static types stay, so what depends on them does not change.

A quoted lambda is a value, and a folded one is another value. The theorem is therefore about trees
whose only lambdas are conversions.

## Main definitions

* `Expr.SameMeaning`: two trees of one type whose interpretations agree.

## Main results

* `Expr.candidate_simulates`: a candidate comes to the same in every frame and world.
* `Lambda.partialEval_agrees`: **folding keeps the meaning of a lambda**.
-/

set_option autoImplicit false

namespace ExprTree

open EvalM

namespace Expr

variable {e c : Expr}

/-! ### Candidates -/

theorem isCandidate_iff {predicate : Expr → Bool} :
    e.isCandidate predicate = true ↔ (∀ c ∈ e.children, c.isCandidate predicate = true) ∧
      e.parameter? = none ∧ predicate e = true := by
  rw [isCandidate, fold_eq]
  simp [isCandidateOver, and_assoc]

theorem lambda?_of_isCandidate (h : e.isCandidate foldable = true) : e.lambda? = none := by
  have hf := (isCandidate_iff.1 h).2.2
  cases e <;> first | rfl | cases hf

/-- A candidate refers to no parameter. -/
theorem isClosed_of_isCandidate {predicate : Expr → Bool} (h : e.isCandidate predicate = true) :
    e.isClosed = true := by
  have free (bound : List ParamId) : e.freeOccurrences bound = [] := by
    induction e using induction_children generalizing bound with
    | step e ih =>
      obtain ⟨hchildren, hparameter, -⟩ := isCandidate_iff.1 h
      rw [freeOccurrences_eq]
      split
      · cases hparameter
      · exact List.flatMap_eq_nil_iff.2 fun c hc => ih c hc (hchildren c hc) _
  exact List.isEmpty_iff.2 (free [])

variable {host : Host} {d : Dispatch}

/-- A candidate comes to the same in every frame, wherever dispatch is the same. -/
theorem candidate_simulates (hpure : host.IsPure) {predicate : Expr → Bool}
    (h : e.isCandidate predicate = true) (frame frame' : Frame) :
    Simulates host (World.Dispatching d) Eq (e.interpret .native frame)
      (e.interpret .native frame') :=
  interpret_closed (Reflector.native_respects Value.congruence_eq (hpure.over_eq.respects d))
    (isClosed_of_isCandidate h) frame frame'

/-! ### What folding makes of a tree -/

/-- Two trees of one type whose interpretations agree in every frame, wherever dispatch is the
same. -/
def SameMeaning (host : Host) (d : Dispatch) (e e' : Expr) : Prop :=
  e.ty = e'.ty ∧ ∀ frame, Simulates host (World.Dispatching d) Eq (e.interpret .native frame)
    (e'.interpret .native frame)

/-- What folding makes of a tree: a tree of the same meaning, or, of a conversion, a lambda over the
same parameters whose body has the same meaning. -/
inductive Folded (host : Host) (d : Dispatch) : Expr → Expr → Prop
  | tree {e e' : Expr} (he : e.lambda? = none) (he' : e'.lambda? = none)
      (h : e.onlyConversions = true → SameMeaning host d e e') : Folded host d e e'
  | lambda {n n' : NodeId} {t : Ty} {ps : List Param} {b b' : Expr}
      (hb : b.onlyConversions = true → SameMeaning host d b b') :
      Folded host d (.lambda ⟨n, t⟩ ps b) (.lambda ⟨n', t⟩ ps b')

theorem Folded.sameMeaning {e' : Expr} (h : Folded host d e e') (he : e.onlyConversions = true) :
    SameMeaning host d e e' := by
  cases h with
  | tree _ _ h => exact h he
  | lambda _ => simp [onlyConversions, lambda?] at he

/-- A node over folded children is folded. -/
theorem folded_of_parallel (hpure : host.IsPure) {e' : Expr}
    (h : Parallel (Folded host d) (SameParams (Folded host d)) e e') : Folded host d e e' := by
  cases hl : e.lambda? with
  | some l =>
    cases h with
    | lambda hb =>
      obtain ⟨rfl, hb⟩ := hb
      exact .lambda fun hq => hb.sameMeaning hq
    | _ => cases hl
  | none =>
    have hl' : e'.lambda? = none := by cases h <;> first | rfl | cases hl
    refine .tree hl hl' fun hq => ⟨h.ty_eq, fun frame => ?_⟩
    refine interpret_simulates Value.congruence_eq
      (Reflector.native_respects Value.congruence_eq (hpure.over_eq.respects d)) ?_ h hl ?_ ?_ ?_
    · rintro op lifting v _ w _ rfl rfl
      exact .refl (fun _ => rfl) _
    · rintro p -
      cases frame.get? p.id with
      | none => exact .none
      | some v => exact .some rfl
    · intro c hc c' hcc
      have hcc := hcc.sameMeaning (onlyConversions_operand hq hc)
      exact ⟨hcc.1, hcc.2 frame⟩
    · intro c hc c' hcc
      cases hcc with
      | tree hc hc' _ => exact .other hc hc'
      | lambda hb =>
        refine .lambda ⟨rfl, fun _ v _ hv => ?_⟩
        cases hv
        exact (hb (onlyConversions_body hq hc)).2 _

/-! ### The rewrite -/

variable {σ : Type} {predicate : Expr → Bool} {evaluator : Evaluator σ}

/-- Partial evaluation computes candidates and rebuilds other nodes. -/
theorem partialEval_eq (e : Expr) :
    e.partialEval evaluator predicate =
      if e.isCandidate predicate then precompute evaluator e
      else e.mapChildren (e.children.map (partialEval evaluator predicate)) := by
  let both := fold fun e below => partialEvalOver evaluator predicate e (below ())
  have both_eq (e : Expr) : both e = partialEvalOver evaluator predicate e (e.children.map both) :=
    fold_eq _ e
  have candidate (e : Expr) : (both e).1 = e.isCandidate predicate := by
    induction e using induction_children with
    | step e ih =>
      rw [both_eq, isCandidate, fold_eq]
      simp only [partialEvalOver, List.map_map]
      exact congrArg _ (List.map_congr_left ih)
  have rewrite : (both e).2 = if (both e).1 then precompute evaluator e
      else e.mapChildren ((e.children.map both).map Prod.snd) := by
    rw [both_eq]
    rfl
  simp only [candidate, List.map_map] at rewrite
  exact rewrite

/-- Computing a candidate leaves it as it is, or leaves a constant or a placeholder. -/
theorem from_precompute_of {V : StateView (RewriteM σ)} {s : V.State}
    {P : Except EvalError Value → Prop} {Q : Expr → Prop}
    (hkept : e.constant?.isSome = true → Q e)
    (hattempt : V.From s (RewriteM.attempt (evaluator.evaluate e)) fun t r => V.Inv t ∧ P r)
    (hvalue : ∀ v n, P (.ok v) → Q (.constant ⟨n, e.ty⟩ v))
    (hfailure : ∀ cause i n k, P (.error cause) →
      Q (.raise ⟨n, e.ty⟩ (.constant ⟨k, .object⟩ (.error (.mk i (.eval cause)))))) :
    V.From s (precompute evaluator e) fun _ r => Q (r.on e) := by
  unfold precompute
  split
  · next hconstant => exact .pure (hkept hconstant)
  refine hattempt.bind fun t r _ ⟨ht, hr⟩ => ?_
  cases r with
  | ok v =>
    refine (StateView.From.mkConstant ht v e.ty).bind fun _ _ _ ⟨n, hn⟩ => .pure ?_
    rw [Rewritten.on_changed, hn]
    exact hvalue v n hr
  | error cause =>
    refine (StateView.From.mint ht).bind fun u i htu _ => ?_
    refine (StateView.From.mkRaise (V.inv_of_le ht htu) (.mk i (.eval cause)) e.ty).bind
      fun _ _ _ ⟨n, k, hn⟩ => .pure ?_
    rw [Rewritten.on_changed, hn]
    exact hfailure cause i n k hr

/-- What partial evaluation makes of a tree, if candidates can be computed and other nodes can be put
together from what was made of their children. -/
theorem from_partialEval_of {V : StateView (RewriteM σ)} {J : Expr → Prop}
    {T : Expr → Expr → Prop} (hchildren : ∀ e, J e → ∀ c ∈ e.children, J c)
    (hcandidate : ∀ e, J e → e.isCandidate predicate = true → ∀ s, V.Inv s →
      V.From s (precompute evaluator e) fun _ r => T e (r.on e))
    (hother : ∀ e e', e.isCandidate predicate = false → Parallel T (SameParams T) e e' → T e e')
    {e : Expr} (he : J e) {s : V.State} (hs : V.Inv s) :
    V.From s (e.partialEval evaluator predicate) fun _ r => T e (r.on e) := by
  induction e using induction_children generalizing s with
  | step e ih =>
    rw [partialEval_eq]
    split
    · next hcandidate' => exact hcandidate e he hcandidate' s hs
    · next hcandidate' =>
      have children : List.Forall₂
          (fun old x => ∀ t, V.Inv t → V.From t x fun _ r => T old (r.on old))
          e.children (e.children.map (partialEval evaluator predicate)) := by
        rw [List.forall₂_map_right_iff, List.forall₂_same]
        exact fun c hc t ht => ih c hc (hchildren e he c hc) ht
      have stable : V.Stable fun _ => T := fun _ _ _ h => h
      exact (StateView.From.mapChildren stable hs children).imp fun _ r _ h =>
        hother e (r.on e) (Bool.eq_false_iff.2 hcandidate') h

/-- Partial evaluation as state passing. Dispatch stays what it is. -/
def dispatchView (host : Host) (σ : Type) (d : Dispatch) : StateView (RewriteM σ) where
  State := σ × World
  run x s := (((x host).run s.1 s.2).1.1, ((x host).run s.1 s.2).1.2, ((x host).run s.1 s.2).2)
  run_pure _ _ := rfl
  run_bind _ _ _ := rfl
  Inv s := s.2.dispatch = d
  le s t := t.2.dispatch = s.2.dispatch
  le_refl _ := rfl
  le_trans h h' := h'.trans h
  inv_of_le h h' := h'.trans h
  le_mint _ := rfl

/-- A tree that comes to one outcome everywhere means the same as one that does nothing else. -/
theorem sameMeaning_of_outcome {e' : Expr} {r : Except EvalError Value} (hty : e.ty = e'.ty)
    (he : ∀ frame w, w.dispatch = d →
      Outcome.Agree Eq ((e.interpret .native frame).outcome host w).1 r ∧
        ((e.interpret .native frame).outcome host w).2.dispatch = d)
    (he' : ∀ frame w, ∃ r', (e'.interpret .native frame).outcome host w = (r', w) ∧
      Outcome.Agree Eq r r') :
    SameMeaning host d e e' := by
  refine ⟨hty, fun frame w w' ⟨hw, hw'⟩ => ?_⟩
  obtain ⟨hagree, hkept⟩ := he frame w hw
  obtain ⟨r', hrun, hagree'⟩ := he' frame w'
  rw [hrun]
  refine ⟨?_, hkept, hw'⟩
  cases hx : ((e.interpret .native frame).outcome host w).1 <;> rw [hx] at hagree <;> cases r <;>
    cases r' <;> first
      | exact hagree.elim
      | exact hagree'.elim
      | exact Eq.trans hagree hagree'

theorem outcome_constant (s : Stamp) (v : Value) (frame : Frame) (w : World) :
    ((constant s v).interpret .native frame).outcome host w = (.ok v, w) := by
  unfold interpret
  rfl

theorem outcome_placeholder (s s' : Stamp) (i : FailureId) (cause : EvalError) (frame : Frame)
    (w : World) :
    ((raise s (.constant s' (.error (.mk i (.eval cause))))).interpret .native frame).outcome host w =
      (.error (cause.atNode (raise s (.constant s' (.error (.mk i (.eval cause)))))), w) := by
  unfold interpret
  dsimp only
  unfold interpret
  rfl

/-- Computing a candidate leaves a tree of the same meaning. -/
theorem from_precompute (hpure : host.IsPure) (he : e.isCandidate foldable = true)
    (s : σ × World) (hs : s.2.dispatch = d) :
    (dispatchView host σ d).From s (precompute (.interpreting .native) e) fun _ r =>
      Folded host d e (r.on e) := by
  have hl := lambda?_of_isCandidate he
  have closed := ensureClosed_of_isClosed (isClosed_of_isCandidate he)
  have run_attempt : (dispatchView host σ d).run
      (RewriteM.attempt ((Evaluator.interpreting .native).evaluate e)) s =
        (((e.interpret .native []).outcome host s.2).1,
          (s.1, ((e.interpret .native []).outcome host s.2).2)) := by
    unfold Evaluator.interpreting
    dsimp only
    rw [closed]
    rfl
  have everywhere (frame : Frame) (w : World) (hw : w.dispatch = d) :=
    candidate_simulates (d := d) hpure he frame [] w s.2 ⟨hw, hs⟩
  have attempted : (dispatchView host σ d).From s
      (RewriteM.attempt ((Evaluator.interpreting .native).evaluate e)) fun t r =>
        t.2.dispatch = d ∧ r = ((e.interpret .native []).outcome host s.2).1 := by
    unfold StateView.From
    rw [run_attempt]
    have kept := (everywhere [] s.2 hs).2.2
    exact ⟨kept.trans hs.symm, kept, rfl⟩
  refine from_precompute_of (fun _ => .tree hl hl fun _ => ⟨rfl, fun frame => ?_⟩) attempted
    (fun v n hr => .tree hl rfl fun _ => ?_) fun cause i n k hr => .tree hl rfl fun _ => ?_
  · exact candidate_simulates hpure he frame frame
  · refine sameMeaning_of_outcome (r := .ok v) rfl (fun frame w hw => ?_) fun frame w => ?_
    · rw [hr]
      exact ⟨(everywhere frame w hw).1, (everywhere frame w hw).2.1⟩
    · exact ⟨_, outcome_constant _ _ _ _, rfl⟩
  · refine sameMeaning_of_outcome (r := .error cause) rfl (fun frame w hw => ?_) fun frame w => ?_
    · rw [hr]
      exact ⟨(everywhere frame w hw).1, (everywhere frame w hw).2.1⟩
    · exact ⟨_, outcome_placeholder _ _ _ _ _ _, (EvalError.rootCause_atNode _ cause).symm⟩

/-- What partial evaluation makes of a tree. -/
theorem from_partialEval (hpure : host.IsPure) (e : Expr) (s : σ × World) (hs : s.2.dispatch = d) :
    (dispatchView host σ d).From s (e.partialEval (.interpreting .native) foldable) fun _ r =>
      Folded host d e (r.on e) :=
  from_partialEval_of (J := fun _ => True) (fun _ _ _ _ => trivial)
    (fun _ _ he s hs => from_precompute hpure he s hs) (fun _ _ _ h => folded_of_parallel hpure h)
    trivial hs

/-- Partial evaluation as state passing, of which nothing is asked. -/
def anyView (host : Host) (σ : Type) : StateView (RewriteM σ) where
  State := σ × World
  run x s := (((x host).run s.1 s.2).1.1, ((x host).run s.1 s.2).1.2, ((x host).run s.1 s.2).2)
  run_pure _ _ := rfl
  run_bind _ _ _ := rfl
  Inv _ := True
  le _ _ := True
  le_refl _ := trivial
  le_trans _ _ := trivial
  inv_of_le _ _ := trivial
  le_mint _ := trivial

/-- Partial evaluation keeps the static type of a tree, whatever evaluates it and whatever is to be
folded. -/
theorem ty_partialEval (evaluator : Evaluator σ) (predicate : Expr → Bool) (e : Expr) (host : Host)
    (st : σ) (w : World) :
    (((e.partialEval evaluator predicate host).run st w).1.1.on e).ty = e.ty := by
  have computed (e : Expr) (s : σ × World) :
      (anyView host σ).From s (precompute evaluator e) fun _ r => (r.on e).ty = e.ty :=
    from_precompute_of (P := fun _ => True) (Q := fun e' => e'.ty = e.ty) (fun _ => rfl)
      ⟨trivial, trivial, trivial⟩ (fun _ _ _ => rfl) fun _ _ _ _ _ => rfl
  have keeps : (anyView host σ).From (st, w) (e.partialEval evaluator predicate)
      fun _ r => (r.on e).ty = e.ty :=
    from_partialEval_of (J := fun _ => True) (T := fun e e' => e'.ty = e.ty)
      (fun _ _ _ _ => trivial) (fun e _ _ s _ => computed e s) (fun _ _ _ h => h.ty_eq.symm) trivial
      trivial
  exact keeps.2

end Expr

/-! ### Lambdas -/

/-- **Folding keeps the meaning of a lambda.** It keeps the static type of the body. If the only
nested lambdas are conversions and the code of the host is pure, it keeps the dispatch of the world
as well, and in worlds that dispatch as the one it was folded in the folded lambda gives on every
argument list the value that the lambda gives, or fails with the same root cause. -/
theorem Lambda.partialEval_agrees {σ : Type} (l : Lambda) (host : Host) (st : σ) (w₀ : World) :
    let ((r, _), w₁) := (l.partialEval (.interpreting .native) Expr.foldable host).run st w₀
    let folded := l.withBody (r.on l.body)
    folded.body.ty = l.body.ty ∧
    (l.body.onlyConversions = true → host.IsPure →
      w₁.dispatch = w₀.dispatch ∧
      ∀ (args : List Value) (w w' : World), w.dispatch = w₀.dispatch → w'.dispatch = w₀.dispatch →
        Outcome.Agree Eq ((l.interpret .native args).outcome host w).1
          ((folded.interpret .native args).outcome host w').1) := by
  refine ⟨Expr.ty_partialEval _ _ l.body host st w₀, fun hl hpure => ?_⟩
  obtain ⟨kept, folded⟩ := Expr.from_partialEval (d := w₀.dispatch) hpure l.body (st, w₀) rfl
  have meaning := folded.sameMeaning hl
  refine ⟨kept, fun args w w' hw hw' => ?_⟩
  unfold Lambda.interpret
  change Outcome.Agree Eq (EvalM.outcome (if args.length = l.params.length then _ else _) host w).1
    (EvalM.outcome (if args.length = l.params.length then _ else _) host w').1
  split
  · exact (meaning.2 _ w w' ⟨hw, hw'⟩).1
  · exact rfl

/-- The theorem for `x => x + (6 / 0)`, called with one argument: the quotient fails when it is
folded, and the failure is raised where it was. -/
theorem Lambda.partialEval_agrees_quotient :
    let int (n : NodeId) (k : Int) : Expr := .constant ⟨n, .int .i32⟩ (.ofInt .i32 k)
    let x : Param := ⟨0, 0, "x", .int .i32⟩
    let quotient : Expr := .binary ⟨3, .int .i32⟩ .divide {} none (int 1 6) (int 2 0) none
    let l : Lambda := ⟨[x], .binary ⟨4, .int .i32⟩ .add {} none (.parameter x) quotient none⟩
    let host : Host := ⟨fun _ => none⟩
    let folded := ((l.partialEval (.interpreting .native) Expr.foldable host).run () {}).1.1
    (folded.on l.body).ty = .int .i32 ∧
    Outcome.Agree Eq ((l.interpret .native [.ofInt .i32 1]).outcome host {}).1
      (((l.withBody (folded.on l.body)).interpret .native [.ofInt .i32 1]).outcome host {}).1 := by
  intro int x quotient l host folded
  have agrees := Lambda.partialEval_agrees l host () {}
  have pure : host.IsPure := fun _ _ hbody => by cases hbody
  exact ⟨agrees.1, (agrees.2 (by decide) pure).2 _ {} {} rfl rfl⟩

end ExprTree
