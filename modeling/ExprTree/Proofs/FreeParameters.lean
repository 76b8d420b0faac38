import ExprTree.Proofs.Interpretation
import ExprTree.Proofs.Scopes

/-!
# Evaluation reads free parameters only

What a tree comes to depends on the frame for its free parameters. Two frames that agree on these may
differ in everything else, and for a closed tree the frame does not matter at all. A conversion that is
applied declares a parameter, so on the way down the frames agree on what has been declared around a
tree as well.

The list of free parameters names each node once, so to read it for the parameters that are free one
has to know that a node is one parameter.

## Main definitions

* `Frame.AgreeOn`: two frames that a tree cannot tell apart.
* `Expr.SharesParameters`: trees in which a parameter node is one parameter.

## Main results

* `Expr.interpret_eq_of_agreeOn`: frames that agree on the free parameters of a tree give it one
  interpretation.
* `Expr.interpret_closed`: a closed tree comes to the same in every frame.
* `Expr.interpret_reads_free`: **evaluation reads free parameters only**.
-/

set_option autoImplicit false

namespace ExprTree

open EvalM

/-! ### Frames that a tree cannot tell apart -/

/-- Two frames bind the parameters that are free in a tree to the same values, and those that are
declared around it. -/
structure Frame.AgreeOn (bound : List ParamId) (e : Expr) (frame frame' : Frame) : Prop where
  around : ∀ id ∈ bound, frame.get? id = frame'.get? id
  free : ∀ p ∈ e.freeOccurrences bound, frame.get? p.id = frame'.get? p.id

namespace Frame.AgreeOn

variable {bound : List ParamId} {e c b : Expr} {s : Stamp} {p : Param} {frame frame' : Frame}

/-- Any two frames agree on a closed tree. -/
theorem of_isClosed (h : e.isClosed = true) (frame frame' : Frame) : AgreeOn [] e frame frame' := by
  refine ⟨List.forall_mem_nil _, ?_⟩
  rw [List.isEmpty_iff.1 h]
  exact List.forall_mem_nil _

/-- What is free in a child is free in the node, unless that is a lambda. -/
theorem child (h : AgreeOn bound e frame frame') (hlambda : e.lambda? = none)
    (hc : c ∈ e.children) : AgreeOn bound c frame frame' := by
  refine ⟨h.around, fun q hq => h.free q ?_⟩
  have subset := Expr.freeOccurrences_subset bound hc
  rw [Expr.boundBelow_of_lambda? hlambda] at subset
  exact subset hq

/-- A parameter is free, or declared around. -/
theorem get?_parameter (h : AgreeOn bound (.parameter p) frame frame') :
    frame.get? p.id = frame'.get? p.id := by
  by_cases hp : p.id ∈ bound
  · exact h.around p.id hp
  · refine h.free p ?_
    rw [Expr.freeOccurrences_parameter, if_neg hp]
    exact List.mem_singleton_self p

/-- Below a lambda its parameter is bound to one value. -/
theorem body (h : AgreeOn bound (.lambda s [p] b) frame frame') (v : Value) :
    AgreeOn (p.id :: bound) b ((p.id, v) :: frame) ((p.id, v) :: frame') := by
  have extend {id : ParamId} (hid : id ≠ p.id → frame.get? id = frame'.get? id) :
      get? ((p.id, v) :: frame) id = get? ((p.id, v) :: frame') id := by
    by_cases heq : id = p.id
    · rw [heq, get?_cons_self, get?_cons_self]
    · rw [get?_cons_of_ne heq, get?_cons_of_ne heq]
      exact hid heq
  constructor
  · intro id hid
    exact extend fun hne => h.around id (List.mem_of_ne_of_mem hne hid)
  · intro q hq
    have subset := Expr.freeOccurrences_subset (e := .lambda s [p] b) bound List.mem_cons_self
    exact extend fun _ => h.free q (subset hq)

end Frame.AgreeOn

namespace Expr

variable {host : Host} {W : World → World → Prop} {reflector : Reflector} {bound : List ParamId}
  {frame frame' : Frame}

/-- Frames that agree on the free parameters of a tree give it the same interpretation: what is run,
and what it ends with. -/
theorem interpret_eq_of_agreeOn (e : Expr) (h : Frame.AgreeOn bound e frame frame') :
    e.interpret reflector frame = e.interpret reflector frame' := by
  induction e using induction_preOrder generalizing bound frame frame' with
  | step e ih =>
    cases hparameter : e.parameter? with
    | some p =>
      obtain rfl := eq_of_parameter? hparameter
      have hget := h.get?_parameter
      unfold interpret
      simp only [hget]
    | none =>
      rw [interpret_eq _ _ hparameter, interpret_eq _ _ hparameter]
      cases hl : e.lambda? with
      | some l =>
        obtain ⟨s, rfl⟩ := eq_of_lambda? hl
        rfl
      | none =>
        refine congrArg (EvalM.located e) (meaning_congr ?_ (convertLeft_congr ?_))
        · intro c hc
          have hchild := mem_children_of_mem_operands hc
          exact ih c hchild c (mem_preOrder_self c) (h.child hl hchild)
        · intro s ps b hc hone v
          obtain ⟨p, rfl⟩ := List.length_eq_one_iff.1 hone
          have hchild := mem_children_of_mem_conversion? hc
          have hb : b ∈ (lambda s [p] b).preOrder :=
            mem_preOrder_of_mem_children List.mem_cons_self
          exact ih _ hchild b hb ((h.child hl hchild).body v)

/-- A tree agrees with itself in worlds that members cannot tell apart. -/
theorem interpret_respects (hreflector : reflector.Respects host W Eq) (e : Expr) (frame : Frame) :
    Simulates host W Eq (e.interpret reflector frame) (e.interpret reflector frame) := by
  induction e using induction_preOrder generalizing frame with
  | step e ih =>
    cases hl : e.lambda? with
    | some l =>
      obtain ⟨s, rfl⟩ := eq_of_lambda? hl
      rw [interpret_eq _ _ rfl]
      exact .located_left _ (.located_right _ (.pure rfl))
    | none =>
      have self : Parallel Eq (SameParams Eq) e e :=
        parallel_self (List.forall₂_same.2 fun _ _ => rfl)
      refine interpret_simulates Value.congruence_eq hreflector ?_ self hl ?_ ?_ ?_
      · rintro op lifting v _ w _ rfl rfl
        exact .refl (fun _ => rfl) _
      · intro p _
        cases frame.get? p.id with
        | none => exact .none
        | some v => exact .some rfl
      · rintro c hc _ rfl
        exact ⟨rfl, ih c (mem_children_of_mem_operands hc) c (mem_preOrder_self c) frame⟩
      · rintro c hc _ rfl
        have hchild := mem_children_of_mem_conversion? hc
        cases hcl : c.lambda? with
        | none => exact .other hcl hcl
        | some l =>
          obtain ⟨s, rfl⟩ := eq_of_lambda? hcl
          have hb : l.body ∈ (lambda s l.params l.body).preOrder :=
            mem_preOrder_of_mem_children List.mem_cons_self
          refine .lambda ⟨rfl, fun _ v _ hv => ?_⟩
          cases hv
          exact ih _ hchild l.body hb _

/-- A closed tree comes to the same in every frame. -/
theorem interpret_closed (hreflector : reflector.Respects host W Eq) {e : Expr}
    (h : e.isClosed = true) (frame frame' : Frame) :
    Simulates host W Eq (e.interpret reflector frame) (e.interpret reflector frame') := by
  rw [interpret_eq_of_agreeOn e (.of_isClosed h frame frame')]
  exact interpret_respects hreflector e frame'

/-! ### The list of free parameters -/

/-- What is left out of a list without repetitions is repeated by something that is in it. -/
theorem exists_mem_eraseDupsBy {α : Type} {r : α → α → Bool} {x : α} :
    (xs : List α) → x ∈ xs → ∃ y ∈ xs.eraseDupsBy r, y ∈ xs ∧ (x = y ∨ r x y = true)
  | y :: ys, hx => by
    rw [List.eraseDupsBy_cons]
    by_cases hxy : r x y = true
    · exact ⟨y, List.mem_cons_self, List.mem_cons_self, .inr hxy⟩
    rcases List.mem_cons.1 hx with rfl | hx
    · exact ⟨x, List.mem_cons_self, List.mem_cons_self, .inl rfl⟩
    have hkept : x ∈ ys.filter fun b => r b y = false := by simp [hx, hxy]
    obtain ⟨z, hz, hmem, hxz⟩ := exists_mem_eraseDupsBy _ hkept
    exact ⟨z, List.mem_cons_of_mem _ hz, List.mem_cons_of_mem _ (List.mem_filter.1 hmem).1, hxz⟩
termination_by xs => xs.length
decreasing_by exact Nat.lt_succ_of_le (List.length_filter_le _ _)

variable {e : Expr}

/-- Free occurrences of one node are occurrences of one parameter. It is the identity of a node that
tells it from others, so trees whose nodes are distinct or shared are like this. -/
def SharesParameters (e : Expr) : Prop :=
  ∀ p ∈ e.freeOccurrences [], ∀ q ∈ e.freeOccurrences [], p.node = q.node → p = q

theorem mem_freeParameters (hshares : e.SharesParameters) {p : Param}
    (hp : p ∈ e.freeOccurrences []) : p ∈ e.freeParameters := by
  obtain ⟨q, hq, hfree, heq⟩ := exists_mem_eraseDupsBy (r := fun p q => p.node == q.node) _ hp
  rcases heq with rfl | hnode
  · exact hq
  · exact hshares p hp q hfree (beq_iff_eq.1 hnode) ▸ hq

/-- A tree that is not refused for a free parameter has none. -/
theorem isClosed_of_ensureClosed (h : e.ensureClosed = .ok ()) : e.isClosed = true := by
  rw [ensureClosed_eq] at h
  split at h
  · next hfree => exact List.isEmpty_iff.2 hfree
  · cases h

/-- **Evaluation reads free parameters only.** Frames that bind the free parameters of a tree to the
same values give it the same interpretation, which is to say that in every world the same is run and
that the same value or failure comes of it. They may differ in all else, also in parameters that the
tree declares. For a tree that is accepted as closed, all frames are alike. -/
theorem interpret_reads_free (e : Expr) (reflector : Reflector) :
    (∀ frame frame' : Frame,
      (∀ p ∈ e.freeOccurrences [], frame.get? p.id = frame'.get? p.id) →
        e.interpret reflector frame = e.interpret reflector frame') ∧
    (e.SharesParameters → ∀ frame frame' : Frame,
      (∀ p ∈ e.freeParameters, frame.get? p.id = frame'.get? p.id) →
        e.interpret reflector frame = e.interpret reflector frame') ∧
    (e.ensureClosed = .ok () → ∀ frame frame' : Frame,
      e.interpret reflector frame = e.interpret reflector frame') := by
  have reads (frame frame' : Frame)
      (hfree : ∀ p ∈ e.freeOccurrences [], frame.get? p.id = frame'.get? p.id) :
      e.interpret reflector frame = e.interpret reflector frame' :=
    interpret_eq_of_agreeOn e ⟨List.forall_mem_nil _, hfree⟩
  refine ⟨reads, fun hshares frame frame' hlisted => ?_, fun hclosed frame frame' => ?_⟩
  · exact reads frame frame' fun p hp => hlisted p (mem_freeParameters hshares hp)
  · exact interpret_eq_of_agreeOn e (.of_isClosed (isClosed_of_ensureClosed hclosed) frame frame')

/-- The theorem for `n ?? 0` with the conversion `y => y + x`, where one frame binds `y` and the other
does not, and for `7 ?? 0` with the conversion `y => y`. -/
theorem interpret_reads_free_coalesce :
    let int : Ty := .int .i32
    let n : Param := ⟨0, 0, "n", .nullable int⟩
    let x : Param := ⟨1, 1, "x", int⟩
    let y : Param := ⟨2, 2, "y", int⟩
    let seven : Expr := .constant ⟨3, .nullable int⟩ (.ofInt .i32 7)
    let zero : Expr := .constant ⟨4, int⟩ (.ofInt .i32 0)
    let sum : Expr := .binary ⟨5, int⟩ .add {} none (.parameter y) (.parameter x) none
    let coalesce (left body : Expr) : Expr :=
      .binary ⟨7, int⟩ .coalesce {} none left zero (some (.lambda ⟨6, .func [int] int⟩ [y] body))
    let e := coalesce (.parameter n) sum
    let closed := coalesce seven (.parameter y)
    let frame : Frame := [(0, .ofInt .i32 7), (1, .ofInt .i32 1)]
    let frame' : Frame := [(2, .ofInt .i32 9), (1, .ofInt .i32 1), (0, .ofInt .i32 7)]
    e.SharesParameters ∧ e.freeParameters = [n, x] ∧ frame.get? y.id ≠ frame'.get? y.id ∧
      e.interpret .native frame = e.interpret .native frame' ∧
      closed.ensureClosed = .ok () ∧
      closed.interpret .native frame = closed.interpret .native frame' := by
  intro int n x y seven zero sum coalesce e closed frame frame'
  have hshares : e.SharesParameters := by
    unfold SharesParameters
    decide
  have hlisted : e.freeParameters = [n, x] := by decide
  have hagree : ∀ p ∈ e.freeParameters, frame.get? p.id = frame'.get? p.id := by
    rw [hlisted]
    exact List.forall_mem_cons.2 ⟨rfl, List.forall_mem_singleton.2 rfl⟩
  have hclosed : closed.ensureClosed = .ok () := rfl
  refine ⟨hshares, hlisted, nofun, ?_, hclosed, ?_⟩
  · exact (interpret_reads_free e .native).2.1 hshares frame frame' hagree
  · exact (interpret_reads_free closed .native).2.2 hclosed frame frame'

end Expr

end ExprTree
