import ExprTree.Proofs.Conversions
import ExprTree.Proofs.Simplification

/-!
# Rewrites that reach a normal form

Simplification and partial evaluation walk over a tree once, from the leaves up, and once is enough: a
second run keeps the tree, identities included, and has nothing to do.

For neither is this plain from the walk. A node that was reduced is gone, and a node that was computed
has become a constant, so the nodes above have other children than they had. Whether a node reduces
is asked when its children are simplified already, and what is left of it is one of them. Whether a
node is a candidate is asked of the tree as it was, before any child was folded. There it matters that
the default predicate looks at no child of a node and does not admit placeholders: what was no
candidate has something below that is none, and folding the rest does not make it one.

A second run is not the same computation as the first. What is said of it here is an equation between
computations, so it mints nothing, evaluates nothing and runs no host code.

## Main definitions

* `Expr.IsSimplified`: nothing in the tree reduces.
* `Expr.IsPrecomputed`: nothing in the tree is left to compute.

## Main results

* `Expr.simplify_settles`: **simplification reaches its normal form at once**.
* `Expr.partialEval_settles`: **partial evaluation reaches a fixed point at once**.
-/

set_option autoImplicit false

namespace ExprTree

namespace Expr

variable {e e' : Expr}

/-! ### Simplification -/

/-- Nothing in the tree reduces: where a constant decides for a side of a node, that side does not have
the type of the node. -/
def IsSimplified (e : Expr) : Prop := ∀ x ∈ e.preOrder, ∀ side ∈ x.decidedSide?, side.ty ≠ x.ty

theorem reduced?_eq_none_iff : e.reduced? = none ↔ ∀ side ∈ e.decidedSide?, side.ty ≠ e.ty := by
  simp [reduced?, Option.filter_eq_none_iff]

theorem isSimplified_iff :
    e.IsSimplified ↔ e.reduced? = none ∧ ∀ c ∈ e.children, c.IsSimplified := by
  unfold IsSimplified
  rw [preOrder_eq, List.forall_mem_cons, List.forall_mem_flatMap, reduced?_eq_none_iff]

/-- What is left of a node is one of its simplified children, or the node over them, which does not
reduce. -/
theorem Simplified.isSimplified (h : Simplified e e') : e'.IsSimplified := by
  induction e using induction_children generalizing e' with
  | step e ih =>
    obtain ⟨e₁, hparallel, rfl⟩ := h.exists_parallel
    have children : ∀ c ∈ e₁.children, c.IsSimplified :=
      forall_right_of_forall₂ (hparallel.children fun _ _ _ _ hb => hb.2) fun c hc _ hcc =>
        ih c hc hcc
    cases hside : e₁.reduced? with
    | none => exact isSimplified_iff.2 ⟨hside, children⟩
    | some side =>
      exact children side (mem_children_of_mem_operands (mem_operands_of_reduced? hside))

/-- Simplification keeps a tree in which nothing reduces, and does nothing. -/
theorem simplify_eq_kept {m : Type → Type} [Monad m] [MonadMint m] [LawfulMonad m]
    (h : e.IsSimplified) : e.simplify = (pure .kept : m Rewritten) := by
  have hkept : ∀ x ∈ e.preOrder, reduce x .kept = (pure .kept : m Rewritten) := by
    intro x hx
    simp only [reduce, Rewritten.on_kept, reduced?_eq_none_iff.2 (h x hx)]
  exact rewrite_eq_kept hkept fun _ _ => not_not.2 rfl

/-- **Simplification reaches its normal form at once.** The simplified tree has the type that the tree
has, and nothing in it reduces, so simplifying it again keeps it, the very same node, and does
nothing. The tree itself is kept, likewise, if and only if nothing in it reduces. -/
theorem simplify_settles (e : Expr) (w : World) :
    let e' := (e.simplify (m := WorldM) w).1.on e
    e'.ty = e.ty ∧ e'.IsSimplified ∧ e'.simplify = (pure .kept : WorldM Rewritten) ∧
      (e.simplify (m := WorldM) w = (.kept, w) ↔ e.IsSimplified) := by
  intro e'
  have simplified : Simplified e e' := (from_simplify mintingView (s := w) trivial e).2
  refine ⟨simplified.ty_eq.symm, simplified.isSimplified, simplify_eq_kept simplified.isSimplified,
    fun hkept => ?_, fun h => ?_⟩
  · have same : e' = e := by
      show (e.simplify (m := WorldM) w).1.on e = e
      rw [hkept]
      rfl
    exact same ▸ simplified.isSimplified
  · rw [simplify_eq_kept h]
    rfl

/-- One reduction makes way for the next: `(true && false) || x` is simplified to `x` in one pass. -/
example :
    let truth (n : NodeId) (b : Bool) : Expr := .constant ⟨n, .bool⟩ (.bool b)
    let x : Expr := .parameter ⟨0, 0, "x", .bool⟩
    let both : Expr := .binary ⟨3, .bool⟩ .andAlso {} none (truth 1 true) (truth 2 false) none
    let e : Expr := .binary ⟨4, .bool⟩ .orElse {} none both x none
    (e.simplify (m := WorldM) {}).1.on e = x := by
  rfl

/-! ### Partial evaluation -/

/-- Nothing in the tree is left to compute: its candidates are constants. -/
def IsPrecomputed (predicate : Expr → Bool) (e : Expr) : Prop :=
  ∀ x ∈ e.preOrder, x.isCandidate predicate = true → x.constant?.isSome = true

section

variable {predicate : Expr → Bool}

theorem isPrecomputed_iff :
    e.IsPrecomputed predicate ↔
      (e.isCandidate predicate = true → e.constant?.isSome = true) ∧
        ∀ c ∈ e.children, c.IsPrecomputed predicate := by
  unfold IsPrecomputed
  rw [preOrder_eq, List.forall_mem_cons, List.forall_mem_flatMap]

/-- Partial evaluation keeps a tree in which nothing is left to compute. It makes no use of the
evaluator. -/
theorem partialEval_eq_kept {σ : Type} {evaluator : Evaluator σ} (h : e.IsPrecomputed predicate) :
    e.partialEval evaluator predicate = pure .kept := by
  induction e using induction_children with
  | step e ih =>
    obtain ⟨hroot, hchildren⟩ := isPrecomputed_iff.1 h
    rw [partialEval_eq]
    split
    · next hcandidate => exact if_pos (hroot hcandidate)
    · exact mapChildren_eq_kept (List.forall_mem_map.2 fun c hc => ih c hc (hchildren c hc)) e

theorem parameter?_rebuild (n : NodeId) (e : Expr) (news : List Expr) :
    (e.rebuild n news).parameter? = e.parameter? := by
  cases e with
  | call s r method as => cases r <;> rfl
  | _ => rfl

/-- Folding makes no candidate of a tree that was none, if the predicate does not look at the children
of a node. -/
theorem FoldsTo.isCandidate_of_isCandidate
    (hrebuild : ∀ n e news, predicate (rebuild n e news) = predicate e)
    (h : e.FoldsTo predicate e') (he' : e'.isCandidate predicate = true) :
    e.isCandidate predicate = true := by
  induction e using induction_children generalizing e' with
  | step e ih =>
    rcases foldsTo_iff.1 h with ⟨hcandidate, -⟩ | ⟨-, n, news, rfl, hnews⟩
    · exact hcandidate
    obtain ⟨hchildren, hparameter, hadmitted⟩ := isCandidate_iff.1 he'
    rw [children_rebuild n hnews.length_eq] at hchildren
    rw [parameter?_rebuild] at hparameter
    rw [hrebuild] at hadmitted
    have below : List.Forall₂ (fun c _ => c.isCandidate predicate = true) e.children news :=
      forall₂_imp_of_mem hnews fun c hc c' hc' hcc => ih c hc hcc (hchildren c' hc')
    exact isCandidate_iff.2
      ⟨forall_right_of_forall₂ below.flip fun _ _ _ h => h, hparameter, hadmitted⟩

/-- Where everything was folded, nothing is left to compute: candidates have become constants or
placeholders, and what was no candidate is none now. -/
theorem FoldsTo.isPrecomputed (hrebuild : ∀ n e news, predicate (rebuild n e news) = predicate e)
    (hraise : ∀ s payload, predicate (.raise s payload) = false) (h : e.FoldsTo predicate e') :
    e'.IsPrecomputed predicate := by
  have constant (s : Stamp) (v : Value) : (Expr.constant s v).IsPrecomputed predicate :=
    isPrecomputed_iff.2 ⟨fun _ => rfl, fun _ hc => nomatch hc⟩
  induction e using induction_children generalizing e' with
  | step e ih =>
    rcases foldsTo_iff.1 h with ⟨-, hcomputed⟩ | ⟨hcandidate, n, news, rfl, hnews⟩
    · rcases hcomputed with ⟨s, v, rfl⟩ | ⟨s, s', v, rfl⟩
      · exact constant s v
      · refine isPrecomputed_iff.2 ⟨fun hraised => ?_, List.forall_mem_singleton.2 (constant s' v)⟩
        have hadmitted := (isCandidate_iff.1 hraised).2.2
        rw [hraise] at hadmitted
        cases hadmitted
    · refine isPrecomputed_iff.2 ⟨fun hrebuilt => ?_, ?_⟩
      · rw [h.isCandidate_of_isCandidate hrebuild hrebuilt] at hcandidate
        cases hcandidate
      · rw [children_rebuild n hnews.length_eq]
        exact forall_right_of_forall₂ hnews fun c hc _ hcc => ih c hc hcc

end

theorem foldable_rebuild (n : NodeId) (e : Expr) (news : List Expr) :
    (e.rebuild n news).foldable = e.foldable := by
  cases e with
  | call s r method as => cases r <;> rfl
  | _ => rfl

/-- With the default predicate, a tree is folded if it is foldable throughout: parameters are not. -/
theorem isCandidate_foldable_iff :
    e.isCandidate foldable = true ↔ ∀ d ∈ e.preOrder, d.foldable = true := by
  have parameter {d : Expr} (hd : d.foldable = true) : d.parameter? = none := by
    cases d with
    | parameter => cases hd
    | _ => rfl
  rw [isCandidate_iff_forall]
  exact forall₂_congr fun d _ => and_iff_right_of_imp parameter

/-- **Partial evaluation reaches a fixed point at once**, whatever evaluates. With the default
predicate, the constants are all in the folded tree that is foldable throughout, and so closed.
Folding it again keeps it, the very same node, and whatever the evaluator is this time, nothing is
evaluated. -/
theorem partialEval_settles {σ : Type} (evaluator : Evaluator σ) (e : Expr) (host : Host) (st : σ)
    (w : World) :
    let e' := ((e.partialEval evaluator foldable host).run st w).1.1.on e
    (∀ x ∈ e'.preOrder, (∀ d ∈ x.preOrder, d.foldable = true) ↔ ∃ s v, x = .constant s v) ∧
      ∀ {τ : Type} (evaluator' : Evaluator τ), e'.partialEval evaluator' foldable = pure .kept := by
  intro e'
  have folds : e.FoldsTo foldable e' := (from_partialEval_foldsTo evaluator host e (st, w)).2
  have precomputed : e'.IsPrecomputed foldable :=
    folds.isPrecomputed foldable_rebuild fun _ _ => rfl
  refine ⟨fun x hx => ⟨fun hfoldable => ?_, ?_⟩, fun _ => partialEval_eq_kept precomputed⟩
  · have hconstant := precomputed x hx (isCandidate_foldable_iff.2 hfoldable)
    obtain ⟨v, hv⟩ := Option.isSome_iff_exists.1 hconstant
    obtain ⟨s, rfl⟩ := eq_of_constant? hv
    exact ⟨s, v, rfl⟩
  · rintro ⟨s, v, rfl⟩
    exact List.forall_mem_singleton.2 rfl

/-- A placeholder stays, and so does what is above it, although its payload becomes a constant: in
`(raise (1 + 2)) + (1 + 2)` both sums are computed. -/
example :
    let int : Ty := .int .i32
    let constant (n : NodeId) (k : Int) : Expr := .constant ⟨n, int⟩ (.ofInt .i32 k)
    let sum (n : NodeId) (l r : Expr) : Expr := .binary ⟨n, int⟩ .add {} none l r none
    let three (n : NodeId) : Expr := sum n (constant 0 1) (constant 1 2)
    let e : Expr := sum 5 (.raise ⟨4, int⟩ (three 2)) (three 3)
    let e' := ((e.partialEval (.interpreting .native) foldable ⟨fun _ => none⟩).run () {}).1.1.on e
    ∃ n n' k k', e' = sum n (.raise ⟨n', int⟩ (constant k 3)) (constant k' 3) :=
  ⟨_, _, _, _, rfl⟩

end Expr

end ExprTree
