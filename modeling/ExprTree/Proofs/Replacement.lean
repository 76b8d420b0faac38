import ExprTree.Proofs.Pointwise
import ExprTree.Proofs.Rewriting

/-!
# Trees with parts replaced

Many rewrites put something in the place of some leaves and leave a tree alone elsewhere.
`Expr.Replaced` says so of two trees: from the root down the nodes are alike, until something stands
in the place of something else. A subtree in which there is nothing to replace is kept, and is the
very same tree.

## Main definitions

* `Expr.Replaced`: a tree with parts of it replaced.
* `Expr.Without`: trees with nothing to replace.

## Main results

* `Expr.Replaced.parallel`: what becomes of a node that is not replaced itself.
* `StateView.from_rewrite`: what a rewrite ensures.
* `StateView.from_rewrite_replaced`: what a rewrite with one hook makes of a tree.
-/

set_option autoImplicit false

namespace ExprTree

namespace Expr

variable {hit : Expr → Prop} {leaf leaf' : Expr → Expr → Prop} {e e' : Expr}

/-- No node of the tree is one to replace. -/
def Without (hit : Expr → Prop) (e : Expr) : Prop := ∀ d ∈ e.preOrder, ¬hit d

theorem without_iff : Without hit e ↔ ¬hit e ∧ ∀ c ∈ e.children, Without hit c := by
  unfold Without
  rw [preOrder_eq]
  simp only [List.mem_cons, List.mem_flatMap, forall_eq_or_imp]
  exact and_congr_right fun _ =>
    ⟨fun h c hc d hd => h d ⟨c, hc, hd⟩, fun h d ⟨c, hc, hd⟩ => h c hc d hd⟩

/-- The tree `e'` is `e` with the nodes that `hit` holds of replaced as `leaf` has it. Other nodes
are rebuilt over the replaced children, unless there is nothing to replace in them. -/
def Replaced (hit : Expr → Prop) (leaf : Expr → Expr → Prop) : Expr → Expr → Prop :=
  fold fun e below e' =>
    (hit e ∧ leaf e e') ∨
      (¬hit e ∧ (Without hit e → e' = e) ∧
        ∃ n news, e' = e.rebuild n news ∧ List.Forall₂ (fun P c => P c) (below ()) news)

theorem replaced_iff :
    Replaced hit leaf e e' ↔
      (hit e ∧ leaf e e') ∨
        (¬hit e ∧ (Without hit e → e' = e) ∧
          ∃ n news, e' = e.rebuild n news ∧ List.Forall₂ (Replaced hit leaf) e.children news) := by
  rw [Replaced, fold_eq]
  simp only [List.forall₂_map_left_iff]

/-- A tree with nothing to replace stays as it is. -/
theorem Replaced.self (h : Without hit e) : Replaced hit leaf e e := by
  induction e using induction_children with
  | step e ih =>
    obtain ⟨hroot, hbelow⟩ := without_iff.1 h
    refine replaced_iff.2 (.inr ⟨hroot, fun _ => rfl, e.node, e.children, ?_, ?_⟩)
    · exact (rebuild_children e).symm
    · exact List.forall₂_same.2 fun c hc => ih c hc (hbelow c hc)

/-- What becomes of a node that is not replaced itself. -/
theorem Replaced.parallel (h : Replaced hit leaf e e') (hhit : ¬hit e) :
    Parallel (Replaced hit leaf) (SameParams (Replaced hit leaf)) e e' ∧
      (Without hit e → e' = e) := by
  rcases replaced_iff.1 h with ⟨hroot, -⟩ | ⟨-, hkept, n, news, rfl, hnews⟩
  · exact (hhit hroot).elim
  · exact ⟨parallel_rebuild n hnews, hkept⟩

theorem Replaced.leaf_of_hit (h : Replaced hit leaf e e') (hhit : hit e) : leaf e e' := by
  rcases replaced_iff.1 h with ⟨-, hleaf⟩ | ⟨hroot, -⟩
  · exact hleaf
  · exact (hroot hhit).elim

/-- Replacing leaves by others of their types leaves the type of the tree. -/
theorem Replaced.ty_eq (hleaf : ∀ {e e'}, leaf e e' → e.ty = e'.ty) (h : Replaced hit leaf e e') :
    e.ty = e'.ty := by
  rcases replaced_iff.1 h with ⟨-, hroot⟩ | ⟨-, -, n, news, rfl, hnews⟩
  · exact hleaf hroot
  · exact (parallel_rebuild n hnews).ty_eq

/-- What holds of all nodes of a tree holds of those of the tree with parts replaced, if nodes that are
alike share it and all nodes of what stands in the place of something have it. -/
theorem Replaced.forall_preOrder {P : Expr → Prop}
    (hparallel : ∀ {d d' S}, Parallel S (SameParams S) d d' → P d → P d')
    (hleaf : ∀ {d d'}, leaf d d' → ∀ x ∈ d'.preOrder, P x) (h : Replaced hit leaf e e')
    (he : ∀ x ∈ e.preOrder, P x) : ∀ x ∈ e'.preOrder, P x := by
  induction e using induction_children generalizing e' with
  | step e ih =>
    by_cases hroot : hit e
    · exact hleaf (h.leaf_of_hit hroot)
    have parallel := (h.parallel hroot).1
    rw [preOrder_eq, List.forall_mem_cons, List.forall_mem_flatMap] at he ⊢
    refine ⟨hparallel parallel he.1, ?_⟩
    exact forall_right_of_forall₂ (parallel.children fun _ _ _ _ hb => hb.2) fun c hc d hcd =>
      ih c hc hcd (he.2 c hc)

/-- Where one thing may stand another may, if `leaf'` allows it. -/
theorem Replaced.imp (himp : ∀ {e e'}, leaf e e' → leaf' e e') (h : Replaced hit leaf e e') :
    Replaced hit leaf' e e' := by
  induction e using induction_children generalizing e' with
  | step e ih =>
    rcases replaced_iff.1 h with ⟨hroot, hleaf⟩ | ⟨hroot, hkept, n, news, rfl, hnews⟩
    · exact replaced_iff.2 (.inl ⟨hroot, himp hleaf⟩)
    · refine replaced_iff.2 (.inr ⟨hroot, hkept, n, news, rfl, ?_⟩)
      exact forall₂_imp_of_mem hnews fun c hc c' _ h => ih c hc h

/-! ### Rewrites with nothing to do -/

variable {m : Type → Type} [Monad m] [MonadMint m] {before : Expr → Option (m Rewritten)}
  {after : Expr → Rewritten → m Rewritten}

/-- A node whose children are all kept is kept, and nothing is minted for it. -/
theorem mapChildren_eq_kept [LawfulMonad m] {answers : List (m Rewritten)}
    (h : ∀ x ∈ answers, x = pure .kept) (e : Expr) : e.mapChildren answers = pure .kept := by
  have kept : answers.mapM id = pure (answers.map fun _ => Rewritten.kept) := by
    induction answers with
    | nil => rfl
    | cons x answers ih =>
      obtain ⟨hx, hrest⟩ := List.forall_mem_cons.1 h
      rw [List.mapM_cons, ih hrest, id, hx]
      simp
  rw [mapChildren_eq, kept, pure_bind]
  simp [regrow, Rewritten.isKept]

/-- A rewrite that has nothing to do keeps the tree, and does nothing. -/
theorem rewrite_eq_kept [LawfulMonad m] (hkept : ∀ d ∈ e.preOrder, after d .kept = pure .kept)
    (h : Without (fun d => before d ≠ none) e) : e.rewrite before after = pure .kept := by
  induction e using induction_children with
  | step e ih =>
    obtain ⟨hbefore, hchildren⟩ := without_iff.1 h
    rw [not_not] at hbefore
    rw [preOrder_eq, List.forall_mem_cons, List.forall_mem_flatMap] at hkept
    have answers : ∀ x ∈ e.children.map (rewrite before after), x = pure .kept :=
      List.forall_mem_map.2 fun c hc => ih c hc (hkept.2 c hc) (hchildren c hc)
    rw [rewrite_eq, hbefore, mapChildren_eq_kept answers]
    simp [hkept.1]

end Expr

namespace StateView

variable {m : Type → Type} [Monad m] [MonadMint m] [LawfulMonad m] {V : StateView m} {s : V.State}

variable {T : V.State → Expr → Expr → Prop} {before : Expr → Option (m Rewritten)}

/-- What a rewrite ensures. Where a hook answers its answer has to do, and where there is nothing to
do the tree is kept. Elsewhere the children come first, and the node that the other hook is given is
the old one or new. -/
theorem from_rewrite (hT : V.Stable T) {after : Expr → Rewritten → m Rewritten}
    (hkept : ∀ e, after e .kept = Pure.pure .kept)
    (hidle : ∀ e, Expr.Without (fun d => before d ≠ none) e → ∀ s, T s e e)
    (hbefore : ∀ e answer, before e = some answer → ∀ s, V.Inv s →
      V.From s answer fun t r => T t e (r.on e))
    (hafter : ∀ e, before e = none → ¬Expr.Without (fun d => before d ≠ none) e → ∀ s r, V.Inv s →
      Expr.Parallel (T s) (Expr.SameParams (T s)) e (r.on e) →
      (r.on e = e ∨ V.Minted s (r.on e).node) → V.From s (after e r) fun t r => T t e (r.on e))
    (e : Expr) (hs : V.Inv s) : V.From s (e.rewrite before after) fun t r => T t e (r.on e) := by
  induction e using Expr.induction_children generalizing s with
  | step e ih =>
    by_cases hnothing : Expr.Without (fun d => before d ≠ none) e
    · rw [Expr.rewrite_eq_kept (fun d _ => hkept d) hnothing]
      exact .pure (hidle e hnothing s)
    rw [Expr.rewrite_eq]
    cases hb : before e with
    | some answer => exact hbefore e answer hb s hs
    | none =>
      have children : List.Forall₂
          (fun old x => ∀ t, V.Inv t → V.From t x fun u r => T u old (r.on old))
          e.children (e.children.map (Expr.rewrite before after)) := by
        rw [List.forall₂_map_right_iff, List.forall₂_same]
        exact fun c hc t ht => ih c hc ht
      have node := From.mapChildren_node hs (children.imp fun _ _ h t ht => (h t ht).imp
        fun _ _ _ _ => trivial)
      refine ((From.mapChildren hT hs children).and node).bind fun t r hst ⟨hr, hnode⟩ => ?_
      exact hafter e hb hnothing t r (V.inv_of_le hs hst) hr hnode

/-- What a rewrite with one hook makes of a tree: what the hook answers, in the place of the nodes
that it answers for. -/
theorem from_rewrite_replaced (hstable : V.Stable T)
    (hbefore : ∀ e answer, before e = some answer → ∀ s, V.Inv s →
      V.From s answer fun t r => T t e (r.on e))
    (e : Expr) (hs : V.Inv s) :
    V.From s (e.rewrite before Expr.asIs) fun t r =>
      Expr.Replaced (fun d => before d ≠ none) (T t) e (r.on e) := by
  have stable : V.Stable fun t => Expr.Replaced (fun d => before d ≠ none) (T t) :=
    fun hst _ _ h => h.imp (hstable hst)
  refine from_rewrite (T := fun t => Expr.Replaced (fun d => before d ≠ none) (T t)) stable
    (fun _ => rfl) (fun _ h _ => .self h) ?_ ?_ e hs
  · intro e answer hb s hs
    refine (hbefore e answer hb s hs).imp fun _ _ _ h => Expr.replaced_iff.2 (.inl ⟨?_, h⟩)
    rw [hb]
    exact Option.some_ne_none answer
  · intro e hb hsome s r hs hr _
    refine .pure (Expr.replaced_iff.2 (.inr ⟨?_, fun h => (hsome h).elim, hr.exists_rebuild⟩))
    rw [hb]
    exact not_not.2 rfl

end StateView

end ExprTree
