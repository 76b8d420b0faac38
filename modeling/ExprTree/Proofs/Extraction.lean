import ExprTree.Canon.Constants
import ExprTree.Proofs.MintHom
import ExprTree.Proofs.Replacement
import ExprTree.Proofs.Scopes

/-!
# Extraction of constants

Extraction only mints identities, so it comes to the same in every monad. What it makes of a tree is
a template: the tree with a hole in the place of each constant. A hole is a parameter that was minted
for it, so it can be told from what was there before by its identity, and the holes come in the order
of the constants.

## Main definitions

* `Expr.holes`: the parameters of a tree that were minted from some identity on.
* `Expr.IsTemplate`: a tree with holes in the place of its constants.

## Main results

* `MintHom.map_extractConstants`: extraction does not depend on the monad it runs in.
* `Expr.exists_extraction`: extraction makes a template.
-/

set_option autoImplicit false

namespace ExprTree

namespace MintHom

variable {m n : Type → Type} [Monad m] [MonadMint m] [Monad n] [MonadMint n] [LawfulMonad m]
  [LawfulMonad n]

theorem map_lift (φ : MintHom m n) (taken : List String) (v : Value) (ty : Ty) :
    (φ.keeping Extraction.Progress).map (Extraction.lift taken v ty) =
      Extraction.lift taken v ty := by
  have keeps {k : Type → Type} [Monad k] {α : Type} (a : α) (s : Extraction.Progress) :
      (Pure.pure a : StateT Extraction.Progress k α) s = Pure.pure (a, s) :=
    rfl
  funext s
  simp only [keeping, Extraction.lift, Expr.mkParam, bind, StateT.bind, get, getThe,
    MonadStateOf.get, StateT.get, modify, modifyGet, MonadStateOf.modifyGet, StateT.modifyGet,
    keeps, mint, StateT.lift, pure_bind, bind_assoc]
  simp only [φ.map_bind, φ.map_mint, φ.map_pure]

/-- Extraction does not depend on the monad it runs in. -/
theorem map_extractConstants (φ : MintHom m n) (e : Expr) :
    φ.map e.extractConstants = e.extractConstants := by
  have hooks : (fun x => (Extraction.liftNode (m := m) e.parameterNames x).map
      (φ.keeping Extraction.Progress).map) = Extraction.liftNode e.parameterNames := by
    funext x
    cases x <;> simp only [Extraction.liftNode, Option.map_some, Option.map_none, map_lift]
  have asIs_eq : (fun x r => (φ.keeping Extraction.Progress).map (Expr.asIs (m := _) x r)) =
      Expr.asIs := by
    funext x r
    exact (φ.keeping Extraction.Progress).map_pure r
  have rewrite_eq := (φ.keeping Extraction.Progress).map_rewrite
    (Extraction.liftNode e.parameterNames) Expr.asIs e
  rw [hooks, asIs_eq] at rewrite_eq
  unfold Expr.extractConstants
  rw [φ.map_bind]
  simp only [StateT.run, ← rewrite_eq, φ.map_pure]
  rfl

end MintHom

/-! ### Holes -/

namespace Expr

variable {e : Expr} {base : Nat}

/-- The parameters that occur in a tree and were minted from `base` on, in pre-order. -/
def holes (base : Nat) (e : Expr) : List Param := e.occurrences.filter fun p => base ≤ p.id

theorem holes_eq (e : Expr) :
    e.holes base = (e.parameter?.toList.filter fun p => base ≤ p.id) ++
      e.children.flatMap (holes base) := by
  unfold holes
  rw [occurrences_eq, List.filter_append, List.filter_flatMap]

theorem holes_parameter {q : Param} (h : base ≤ q.id) : (parameter q).holes base = [q] := by
  rw [holes_eq]
  simp [parameter?, children, h]

/-- The node is a constant. -/
def IsConstant (e : Expr) : Prop := e.constant? ≠ none

/-- A hole of the type of the node, minted from `base` on. -/
def IsHole (base : Nat) (e e' : Expr) : Prop := ∃ q, e' = parameter q ∧ q.ty = e.ty ∧ base ≤ q.id

end Expr

/-! ### Extraction as state passing -/

namespace Extraction

/-- Extraction as state passing, where holes are minted from `base` on. -/
def view (base : Nat) : StateView (StateT Progress (StateM Supply)) where
  State := Progress × Supply
  run x s := ((x s.1 s.2).1.1, (x s.1 s.2).1.2, (x s.1 s.2).2)
  run_pure _ _ := rfl
  run_bind _ _ _ := rfl
  Inv s := base ≤ s.2.next
  le s t := s.2.next ≤ t.2.next
  le_refl _ := Nat.le_refl _
  le_trans := Nat.le_trans
  inv_of_le := Nat.le_trans
  le_mint {s} _ := Nat.le_succ s.2.next

/-- Extraction runs the walk from nothing, and puts what was lifted out in order. -/
theorem extractConstants_run (base : Nat) (e : Expr) (s : Supply) :
    (e.extractConstants : StateM Supply Extraction) s =
      let (r, t) := (view base).run (e.rewrite (liftNode e.parameterNames) Expr.asIs) ({}, s)
      (⟨r.on e, t.1.placeholders.reverse, t.1.values.reverse⟩, t.2) :=
  rfl

/-- Between two states some values were lifted out, and holes made for them one after the other. -/
structure Lifted (s t : Progress × Supply) (values : List Value) (holes : List Param) : Prop where
  placeholders : t.1.placeholders = holes.reverse ++ s.1.placeholders
  values : t.1.values = values.reverse ++ s.1.values
  le : s.2.next ≤ t.2.next
  ids : ∀ q ∈ holes, s.2.next ≤ q.id ∧ q.id < t.2.next
  sorted : holes.Pairwise fun p q => p.id < q.id

variable {base : Nat} {s t u : Progress × Supply}

theorem Lifted.nil (s : Progress × Supply) : Lifted s s [] [] :=
  ⟨rfl, rfl, Nat.le_refl _, fun _ hq => (nomatch hq), .nil⟩

theorem Lifted.append {vs ws : List Value} {ps qs : List Param} (h : Lifted s t vs ps)
    (h' : Lifted t u ws qs) : Lifted s u (vs ++ ws) (ps ++ qs) where
  placeholders := by rw [h'.placeholders, h.placeholders, List.reverse_append, List.append_assoc]
  values := by rw [h'.values, h.values, List.reverse_append, List.append_assoc]
  le := Nat.le_trans h.le h'.le
  ids q hq := by
    rcases List.mem_append.1 hq with hq | hq
    · exact ⟨(h.ids q hq).1, Nat.lt_of_lt_of_le (h.ids q hq).2 h'.le⟩
    · exact ⟨Nat.le_trans h.le (h'.ids q hq).1, (h'.ids q hq).2⟩
  sorted := by
    refine List.pairwise_append.2 ⟨h.sorted, h'.sorted, fun p hp q hq => ?_⟩
    exact Nat.lt_of_lt_of_le (h.ids p hp).2 (h'.ids q hq).1

/-- What is lifted out of a tree, in which no parameter was minted from `base` on. -/
def LiftedFrom (base : Nat) (s t : Progress × Supply) (e e' : Expr) : Prop :=
  e.Below base → Lifted s t e.constants (e'.holes base)

theorem lifted_of_chain {s t : (view base).State} {olds news : List Expr}
    (hbelow : ∀ c ∈ olds, c.Below base)
    (h : (view base).Chain (LiftedFrom base) s t olds news) :
    Lifted s t (olds.flatMap Expr.constants) (news.flatMap (Expr.holes base)) := by
  induction h with
  | nil s => exact .nil s
  | cons _ hlifted _ ih =>
    rw [List.forall_mem_cons] at hbelow
    exact (hlifted hbelow.1).append (ih hbelow.2)

/-- Lifting out a constant makes one hole. -/
theorem from_liftNode {taken : List String} {e : Expr} {answer : StateT Progress (StateM Supply) Rewritten}
    (h : liftNode taken e = some answer) (s : Progress × Supply) (hs : base ≤ s.2.next) :
    (view base).From s answer fun t r =>
      LiftedFrom base s t e (r.on e) ∧ Expr.IsHole base e (r.on e) := by
  cases e with
  | constant stamp v =>
    cases h
    let q : Param := ⟨s.2.next, s.2.next,
      placeholderName (firstFree taken taken.length s.1.next), stamp.ty⟩
    refine ⟨Nat.le_succ _, fun _ => ?_, q, rfl, rfl, hs⟩
    change Lifted s _ [v] ((Expr.parameter q).holes base)
    rw [Expr.holes_parameter hs]
    refine ⟨rfl, rfl, Nat.le_succ _, fun p hp => ?_, List.pairwise_singleton _ _⟩
    cases List.mem_singleton.1 hp
    exact ⟨Nat.le_refl _, Nat.lt_succ_self _⟩
  | _ => cases h

theorem liftNode_ne_none {m : Type → Type} [Monad m] [MonadMint m] (taken : List String) :
    (fun d => (liftNode taken d : Option (StateT Progress m Rewritten)) ≠ none) =
      Expr.IsConstant := by
  funext d
  cases d <;> simp [liftNode, Expr.IsConstant, Expr.constant?]

theorem Lifted.mint {vs : List Value} {qs : List Param} (h : Lifted s t vs qs) :
    Lifted s (t.1, ⟨t.2.next + 1⟩) vs qs where
  placeholders := h.placeholders
  values := h.values
  le := Nat.le_succ_of_le h.le
  ids q hq := ⟨(h.ids q hq).1, Nat.lt_succ_of_lt (h.ids q hq).2⟩
  sorted := h.sorted

/-- The holes of a node that is put together anew are those of its new children. -/
theorem holes_rebuild {e : Expr} {news : List Expr} (n : NodeId) (hbelow : e.Below base)
    (hlength : e.children.length = news.length) :
    (e.rebuild n news).holes base = news.flatMap (Expr.holes base) := by
  rw [Expr.holes_eq, Expr.children_rebuild n hlength]
  cases e with
  | parameter p =>
    have hp := hbelow.parameter
    simp [Expr.rebuild, Expr.parameter?, hp]
  | call s r => cases r <;> rfl
  | _ => rfl

/-- What extraction comes to, before the lists are put in order. -/
theorem from_rewrite_liftNode (taken : List String) (e : Expr) (s : Progress × Supply)
    (hs : base ≤ s.2.next) :
    (view base).From s (e.rewrite (liftNode taken) Expr.asIs) fun t r =>
      LiftedFrom base s t e (r.on e) ∧
        Expr.Replaced Expr.IsConstant (Expr.IsHole base) e (r.on e) := by
  have hook (e : Expr) (answer : StateT Progress (StateM Supply) Rewritten)
      (h : liftNode taken e = some answer) (s : Progress × Supply) (hs : base ≤ s.2.next) :
      (view base).From s answer fun t r =>
        LiftedFrom base s t e (r.on e) ∧ Expr.IsHole base e (r.on e) :=
    from_liftNode h s hs
  have replaced := StateView.from_rewrite_replaced (V := view base)
    (T := fun _ => Expr.IsHole base) (fun _ _ _ h => h)
    (fun e answer h s hs => (hook e answer h s hs).imp fun _ _ _ h => h.2) e hs
  rw [liftNode_ne_none] at replaced
  refine StateView.From.and (StateView.from_rewrite_chain (V := view base) (T := LiftedFrom base)
    (fun e answer h s hs => (hook e answer h s hs).imp fun _ _ _ h => h.1) ?_ e hs) replaced
  intro e hnone s t u n news hchain hle hu hbelow
  have below := lifted_of_chain hbelow.children hchain
  have hconstant : e.constant? = none := by cases e <;> first | rfl | cases hnone
  rw [Expr.constants_cons, hconstant, holes_rebuild n hbelow hchain.length_eq]
  rcases hu with rfl | rfl
  · exact below
  · exact below.mint

end Extraction

namespace Expr

/-- The tree `t` is `e` with holes in the place of its constants. The holes were minted one after
the other from `base` on and before `limit`. -/
structure IsTemplate (base limit : Nat) (e t : Expr) : Prop where
  replaced : Replaced IsConstant (IsHole base) e t
  ids : ∀ q ∈ t.holes base, base ≤ q.id ∧ q.id < limit
  sorted : (t.holes base).Pairwise fun p q => p.id < q.id

/-- Extraction makes a template, and lists its holes and the constants that were in their place. -/
theorem exists_extraction (e : Expr) (s : Supply) (hbelow : e.Below s.next) :
    ∃ t s', (e.extractConstants : StateM Supply Extraction) s =
        (⟨t, t.holes s.next, e.constants⟩, s') ∧
      IsTemplate s.next s'.next e t ∧ s.next ≤ s'.next := by
  have made := Extraction.from_rewrite_liftNode e.parameterNames e ({}, s) (Nat.le_refl s.next)
  rw [Extraction.extractConstants_run s.next]
  unfold StateView.From at made
  revert made
  rcases (Extraction.view s.next).run (e.rewrite (Extraction.liftNode e.parameterNames) asIs)
    ({}, s) with ⟨r, progress, s'⟩
  rintro ⟨hle, hlifted, hreplaced⟩
  obtain ⟨hplaceholders, hvalues, -, hids, hsorted⟩ := hlifted hbelow
  dsimp only at hplaceholders hvalues ⊢
  rw [List.append_nil] at hplaceholders hvalues
  refine ⟨r.on e, s', ?_, ⟨hreplaced, hids, hsorted⟩, hle⟩
  rw [hplaceholders, hvalues, List.reverse_reverse, List.reverse_reverse]

/-- Extraction puts holes in the place of constants, whatever was minted before. -/
theorem replaced_extraction (e : Expr) (s : Supply) :
    Replaced IsConstant (IsHole s.next) e ((e.extractConstants : StateM Supply Extraction) s).1.body :=
  (Extraction.from_rewrite_liftNode e.parameterNames e ({}, s) (Nat.le_refl s.next)).2.2

/-- Placeholders have identities of their own, which were minted after the tree. -/
theorem extractConstants_ids (e : Expr) (s : Supply) (hbelow : e.Below s.next) :
    let x := ((e.extractConstants : StateM Supply Extraction) s).1
    (∀ p ∈ x.placeholders, s.next ≤ p.id) ∧ (x.placeholders.map Param.id).Nodup := by
  obtain ⟨t, s', heq, htemplate, -⟩ := exists_extraction e s hbelow
  rw [heq]
  exact ⟨fun q hq => (htemplate.ids q hq).1,
    List.pairwise_map.2 (htemplate.sorted.imp fun h => Nat.ne_of_lt h)⟩

end Expr

end ExprTree
