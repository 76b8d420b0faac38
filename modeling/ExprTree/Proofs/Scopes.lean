import Mathlib.Data.List.Nodup
import ExprTree.Expr.Fold
import ExprTree.Proofs.Pointwise

/-!
# Declarations and occurrences

A parameter occurs where it is referred to and is declared by a lambda. In a tree that declares
nothing twice on a path, an occurrence refers to the one declaration of its identity around it, and
what is declared inside a tree is none of what is declared around it.

## Main definitions

* `Expr.occurrences`, `Expr.declaredIds`: the parameters that occur, and those that are declared.
* `Expr.Below`: trees whose parameters were all minted before.
* `Expr.declaresOnce`: no parameter is declared twice on a path.
* `Expr.bindings`: where each occurrence is declared, names and identities aside.
* `SameIn`: two tables that say the same of parameters declared in the same places.

## Main results

* `Expr.occurrences_declared`: what occurs in a closed tree is declared in it.
* `Expr.declaredIds_notMem`: what is declared in a tree is not declared around it.
-/

set_option autoImplicit false

namespace ExprTree

namespace Expr

variable {e : Expr} {bound : List ParamId}

/-! ### What occurs and what is declared -/

/-- The parameter nodes of a tree, in pre-order. -/
def occurrences (e : Expr) : List Param := e.preOrder.filterMap parameter?

/-- The identities that a node declares. -/
def declaredAt : Expr → List ParamId
  | lambda _ params _ => params.map Param.id
  | _ => []

/-- The identities that are declared in a tree, in pre-order. -/
def declaredIds (e : Expr) : List ParamId := e.preOrder.flatMap declaredAt

theorem occurrences_eq (e : Expr) :
    e.occurrences = e.parameter?.toList ++ e.children.flatMap occurrences := by
  unfold occurrences
  rw [preOrder_eq, List.filterMap_cons, List.filterMap_flatMap]
  cases e.parameter? <;> rfl

theorem constants_cons (e : Expr) :
    e.constants = e.constant?.toList ++ e.children.flatMap constants := by
  unfold constants
  rw [preOrder_eq, List.filterMap_cons, List.filterMap_flatMap]
  cases e.constant? <;> rfl

theorem declaredIds_eq (e : Expr) :
    e.declaredIds = e.declaredAt ++ e.children.flatMap declaredIds := by
  unfold declaredIds
  rw [preOrder_eq, List.flatMap_cons, List.flatMap_assoc]

theorem boundBelow_eq (bound : List ParamId) (e : Expr) :
    e.boundBelow bound = e.declaredAt ++ bound := by
  cases e <;> rfl

theorem boundBelow_of_lambda? (h : e.lambda? = none) (bound : List ParamId) :
    e.boundBelow bound = bound := by
  cases e <;> first | rfl | cases h

theorem mem_preOrder_self (e : Expr) : e ∈ e.preOrder := by
  rw [preOrder_eq]
  exact List.mem_cons_self

theorem mem_preOrder_of_mem_children {c : Expr} (h : c ∈ e.children) : c ∈ e.preOrder := by
  rw [preOrder_eq]
  exact List.mem_cons_of_mem _ (List.mem_flatMap.2 ⟨c, h, mem_preOrder_self c⟩)

/-- What is below a node of a tree is a node of the tree. -/
theorem mem_preOrder_trans {c d : Expr} (hd : d ∈ e.preOrder) (hc : c ∈ d.preOrder) :
    c ∈ e.preOrder := by
  induction e using induction_children with
  | step e ih =>
    rw [preOrder_eq] at hd
    rcases List.mem_cons.1 hd with rfl | hd
    · exact hc
    · obtain ⟨b, hb, hd⟩ := List.mem_flatMap.1 hd
      rw [preOrder_eq]
      exact List.mem_cons_of_mem _ (List.mem_flatMap.2 ⟨b, hb, ih b hb hd⟩)

/-- To prove something of all trees, prove it of a tree if all nodes below it have it. -/
theorem induction_preOrder {motive : Expr → Prop}
    (step : ∀ e, (∀ c ∈ e.children, ∀ x ∈ c.preOrder, motive x) → motive e) (e : Expr) :
    motive e := by
  suffices ∀ x ∈ e.preOrder, motive x from this e (mem_preOrder_self e)
  induction e using induction_children with
  | step e ih =>
    rw [preOrder_eq, List.forall_mem_cons, List.forall_mem_flatMap]
    exact ⟨step e ih, ih⟩

theorem mem_occurrences {p : Param} (h : parameter p ∈ e.preOrder) : p ∈ e.occurrences :=
  List.mem_filterMap.2 ⟨_, h, rfl⟩

/-- What is free in a child is free in the node, or the node declares it. -/
theorem freeOccurrences_subset (bound : List ParamId) {c : Expr} (hc : c ∈ e.children) :
    c.freeOccurrences (e.boundBelow bound) ⊆ e.freeOccurrences bound := by
  intro p hp
  rw [freeOccurrences_eq e]
  split
  · cases hc
  · exact List.mem_flatMap.2 ⟨c, hc, hp⟩

/-- What is bound around a tree without free parameters is bound around its children. -/
theorem freeOccurrences_children (h : e.freeOccurrences bound = []) :
    ∀ c ∈ e.children, c.freeOccurrences (e.boundBelow bound) = [] := by
  intro c hc
  have subset := freeOccurrences_subset bound hc
  rwa [h, List.subset_nil] at subset

theorem freeOccurrences_parameter (p : Param) :
    (parameter p).freeOccurrences bound = if p.id ∈ bound then [] else [p] := by
  rw [freeOccurrences_eq]

/-- A parameter that is not free is bound. -/
theorem mem_bound_of_parameter {p : Param} (h : (parameter p).freeOccurrences bound = []) :
    p.id ∈ bound := by
  by_contra hfree
  rw [freeOccurrences_parameter, if_neg hfree] at h
  cases h

/-- What occurs in a tree is free in it, declared in it, or was bound around it. -/
theorem occurrences_free_or_bound (e : Expr) (bound : List ParamId) :
    ∀ p ∈ e.occurrences, p ∈ e.freeOccurrences bound ∨ p.id ∈ bound ∨ p.id ∈ e.declaredIds := by
  induction e using induction_children generalizing bound with
  | step e ih =>
    intro p hp
    rw [occurrences_eq] at hp
    rcases List.mem_append.1 hp with hp | hp
    · cases e with
      | parameter q =>
        cases List.mem_singleton.1 hp
        rw [freeOccurrences_parameter]
        split
        · next hbound => exact .inr (.inl hbound)
        · exact .inl List.mem_cons_self
      | _ => cases hp
    · obtain ⟨c, hc, hp⟩ := List.mem_flatMap.1 hp
      rw [declaredIds_eq]
      rcases ih c hc (e.boundBelow bound) p hp with hfree | hbound | hdeclared
      · exact .inl (freeOccurrences_subset bound hc hfree)
      · rw [boundBelow_eq] at hbound
        rcases List.mem_append.1 hbound with hdeclared | hbound
        · exact .inr (.inr (List.mem_append_left _ hdeclared))
        · exact .inr (.inl hbound)
      · exact .inr (.inr (List.mem_append_right _ (List.mem_flatMap.2 ⟨c, hc, hdeclared⟩)))

/-- What occurs in a tree without free parameters is declared in it, or was bound around it. -/
theorem occurrences_declared (h : e.freeOccurrences bound = []) :
    ∀ p ∈ e.occurrences, p.id ∈ bound ∨ p.id ∈ e.declaredIds := by
  intro p hp
  refine (occurrences_free_or_bound e bound p hp).resolve_left ?_
  rw [h]
  exact List.not_mem_nil

/-! ### Trees minted before -/

/-- All parameters of a tree were minted before `n`. -/
structure Below (n : Nat) (e : Expr) : Prop where
  occurs : ∀ p ∈ e.occurrences, p.id < n
  declared : ∀ id ∈ e.declaredIds, id < n

variable {n : Nat}

theorem Below.children (h : e.Below n) : ∀ c ∈ e.children, c.Below n := by
  intro c hc
  constructor
  · intro p hp
    refine h.occurs p ?_
    rw [occurrences_eq]
    exact List.mem_append_right _ (List.mem_flatMap.2 ⟨c, hc, hp⟩)
  · intro id hid
    refine h.declared id ?_
    rw [declaredIds_eq]
    exact List.mem_append_right _ (List.mem_flatMap.2 ⟨c, hc, hid⟩)

theorem Below.preOrder (h : e.Below n) {d : Expr} (hd : d ∈ e.preOrder) : d.Below n where
  occurs p hp := by
    obtain ⟨x, hx, hp⟩ := List.mem_filterMap.1 hp
    exact h.occurs p (List.mem_filterMap.2 ⟨x, mem_preOrder_trans hd hx, hp⟩)
  declared id hid := by
    obtain ⟨x, hx, hid⟩ := List.mem_flatMap.1 hid
    exact h.declared id (List.mem_flatMap.2 ⟨x, mem_preOrder_trans hd hx, hid⟩)

theorem Below.parameter {p : Param} (h : Below n (.parameter p)) : p.id < n :=
  h.occurs p List.mem_cons_self

theorem Below.mono {n' : Nat} (h : e.Below n) (hn : n ≤ n') : e.Below n' where
  occurs p hp := Nat.lt_of_lt_of_le (h.occurs p hp) hn
  declared id hid := Nat.lt_of_lt_of_le (h.declared id hid) hn

/-! ### Declarations on a path -/

/-- Whether no identity is declared twice on a path through the tree, where those of `bound` are
declared around it. -/
def declaresOnce : Expr → (bound : List ParamId) → Bool :=
  fold fun e below bound =>
    decide (e.boundBelow bound).Nodup && (below ()).all fun once => once (e.boundBelow bound)

theorem declaresOnce_iff :
    e.declaresOnce bound = true ↔ (e.boundBelow bound).Nodup ∧
      ∀ c ∈ e.children, c.declaresOnce (e.boundBelow bound) = true := by
  rw [declaresOnce, fold_eq]
  simp

theorem nodup_of_declaresOnce (h : e.declaresOnce bound = true) : bound.Nodup := by
  have hnodup := (declaresOnce_iff.1 h).1
  rw [boundBelow_eq] at hnodup
  exact hnodup.of_append_right

/-- A lambda declares nothing that is declared around it. -/
theorem notMem_of_declaresOnce {s : Stamp} {ps : List Param} {b : Expr}
    (h : (lambda s ps b).declaresOnce bound = true) : ∀ p ∈ ps, p.id ∉ bound := by
  intro p hp hbound
  exact List.disjoint_of_nodup_append (declaresOnce_iff.1 h).1 (List.mem_map_of_mem hp) hbound

/-- What is declared in a tree is not declared around it. -/
theorem declaredIds_notMem (h : e.declaresOnce bound = true) : ∀ id ∈ e.declaredIds, id ∉ bound := by
  induction e using induction_children generalizing bound with
  | step e ih =>
    obtain ⟨hnodup, hchildren⟩ := declaresOnce_iff.1 h
    intro id hid hbound
    rw [declaredIds_eq] at hid
    rcases List.mem_append.1 hid with hid | hid
    · rw [boundBelow_eq] at hnodup
      exact List.disjoint_of_nodup_append hnodup hid hbound
    · obtain ⟨c, hc, hid⟩ := List.mem_flatMap.1 hid
      refine ih c hc (hchildren c hc) id hid ?_
      rw [boundBelow_eq]
      exact List.mem_append_right _ hbound

/-! ### Bindings -/

/-- For each occurrence of a parameter, in pre-order, how far out it is declared, where those of
`bound` are declared around the tree. -/
def bindings : Expr → (bound : List ParamId) → List (Option Nat) :=
  fold fun e below bound =>
    match e with
    | parameter p => [bound.idxOf? p.id]
    | e => (below ()).flatMap fun bindings => bindings (e.boundBelow bound)

theorem bindings_eq (e : Expr) (bound : List ParamId) :
    e.bindings bound =
      match e with
      | parameter p => [bound.idxOf? p.id]
      | e => e.children.flatMap (·.bindings (e.boundBelow bound)) := by
  rw [bindings, fold_eq]
  split
  · rfl
  · rw [List.flatMap_map]

theorem bindings_of_parameter? (h : e.parameter? = none) (bound : List ParamId) :
    e.bindings bound = e.children.flatMap (·.bindings (e.boundBelow bound)) := by
  rw [bindings_eq]
  cases e <;> first | rfl | cases h

theorem length_bindings (e : Expr) (bound : List ParamId) :
    (e.bindings bound).length = e.occurrences.length := by
  induction e using induction_children generalizing bound with
  | step e ih =>
    rw [occurrences_eq]
    cases hp : e.parameter? with
    | some p =>
      obtain rfl := eq_of_parameter? hp
      rw [bindings_eq]; rfl
    | none =>
      rw [bindings_of_parameter? hp, Option.toList_none, List.nil_append, List.length_flatMap,
        List.length_flatMap]
      exact congrArg List.sum (List.map_congr_left fun c hc => ih c hc _)

end Expr

/-! ### Tables -/

/-- Two tables say the same of parameters that are declared in the same place of their scopes, and
nothing of others. -/
structure SameIn {α : Type} (scope scope' : List ParamId) (f g : ParamId → Option α) : Prop where
  eq : ∀ {i j}, scope.idxOf? i = scope'.idxOf? j → f i = g j
  left : ∀ i, f i ≠ none → i ∈ scope
  right : ∀ j, g j ≠ none → j ∈ scope'

namespace SameIn

variable {α : Type} {scope scope' : List ParamId} {f g : ParamId → Option α} {i j : ParamId}

/-- One more declaration, of which the tables say the same. -/
theorem cons (h : SameIn scope scope' f g) {f' g' : ParamId → Option α} (hij : f' i = g' j)
    (hf : ∀ a, a ≠ i → f' a = f a) (hg : ∀ b, b ≠ j → g' b = g b) :
    SameIn (i :: scope) (j :: scope') f' g' where
  eq {a b} hab := by
    rw [List.idxOf?_cons, List.idxOf?_cons] at hab
    by_cases ha : i = a <;> by_cases hb : j = b
    · rw [← ha, ← hb, hij]
    · simp only [beq_iff_eq, ha, hb, if_true, if_false] at hab
      cases hb : scope'.idxOf? b <;> rw [hb] at hab <;> cases hab
    · simp only [beq_iff_eq, ha, hb, if_true, if_false] at hab
      cases ha : scope.idxOf? a <;> rw [ha] at hab <;> cases hab
    · simp only [beq_iff_eq, ha, hb, if_false] at hab
      rw [hf a (Ne.symm ha), hg b (Ne.symm hb)]
      exact h.eq (Option.map_injective (fun _ _ => Nat.succ.inj) hab)
  left a ha := by
    by_cases hai : a = i
    · exact hai ▸ List.mem_cons_self
    · rw [hf a hai] at ha
      exact List.mem_cons_of_mem _ (h.left a ha)
  right b hb := by
    by_cases hbj : b = j
    · exact hbj ▸ List.mem_cons_self
    · rw [hg b hbj] at hb
      exact List.mem_cons_of_mem _ (h.right b hb)

/-- Declarations that the tables say nothing of. -/
theorem append (h : SameIn scope scope' f g) {ids ids' : List ParamId}
    (hlength : ids.length = ids'.length) (hids : ∀ i ∈ ids, i ∉ scope)
    (hids' : ∀ j ∈ ids', j ∉ scope') : SameIn (ids ++ scope) (ids' ++ scope') f g := by
  have hf (i : ParamId) (hi : i ∈ ids) : f i = none := by
    by_contra hne
    exact hids i hi (h.left i hne)
  have hg (j : ParamId) (hj : j ∈ ids') : g j = none := by
    by_contra hne
    exact hids' j hj (h.right j hne)
  clear hids hids'
  induction ids generalizing ids' with
  | nil =>
    obtain rfl := List.length_eq_zero_iff.1 hlength.symm
    exact h
  | cons i ids ih =>
    cases ids' with
    | nil => cases hlength
    | cons j ids' =>
      rw [List.forall_mem_cons] at hf hg
      refine (ih (Nat.succ.inj hlength) hf.2 hg.2).cons ?_ (fun _ _ => rfl) fun _ _ => rfl
      rw [hf.1, hg.1]

end SameIn

end ExprTree
