import Mathlib.Data.List.Iterate
import ExprTree.Proofs.Extraction

/-!
# What placeholders are called and where they stand

A placeholder takes the first name that no parameter of the tree has. The search for it is bounded
by the number of the names that are taken, and the bound is enough: a name that was found taken is a
name less to find. So the names depend on nothing but the names that are taken and the number of the
constants.

Nothing here is about the identities of placeholders, so nothing is asked of the supply that they
are minted from. Which placeholder stands for which constant is said by the places they stand in, and
not by their identities, which might be those of other parameters if the supply were to repeat
itself.

## Main definitions

* `Extraction.freeNames`: the names of placeholders.
* `Expr.constantNodes`: the constants of a tree, as nodes.
* `Expr.standIns`: what stands in one tree in the places of the constants of another.
* `Extraction.IsOf`: what extraction makes of a tree, the identities aside.

## Main results

* `Extraction.freeNames_nodup`, `Extraction.freeNames_notMem`: placeholders have names of their own.
* `Expr.Replaced.imp_standIns`: what holds of constants and their stand-ins one after the other
  holds of them where they are.
* `Expr.extractConstants_isOf`: extraction makes an extraction of the tree.
-/

set_option autoImplicit false

namespace ExprTree

namespace Extraction

/-! ### The search for a name -/

theorem placeholderName_injective : Function.Injective placeholderName := by
  intro i j h
  have digits : Nat.toDigits 10 i = Nat.toDigits 10 j := by
    have tails := congrArg String.toList h
    simp only [placeholderName, String.toList_append, Nat.toString_eq_repr,
      Nat.toList_repr] at tails
    exact List.append_cancel_left tails
  have numbers := congrArg (fun ds => Nat.ofDigitChars 10 ds 0) digits
  simpa only [Nat.ofDigitChars_ten_toDigits] using numbers

theorem le_firstFree (taken : List String) (fuel i : Nat) : i ≤ firstFree taken fuel i := by
  induction fuel generalizing i with
  | zero => exact Nat.le_refl i
  | succ fuel ih =>
    unfold firstFree
    split
    · exact Nat.le_of_succ_le (ih (i + 1))
    · exact Nat.le_refl i

/-- A candidate that is taken was not seen yet. -/
theorem mem_unseen {taken unseen : List String} {i : Nat}
    (hunseen : ∀ name ∈ taken, name ∈ unseen ∨ ∃ j < i, name = placeholderName j)
    (h : placeholderName i ∈ taken) : placeholderName i ∈ unseen := by
  refine (hunseen _ h).resolve_right ?_
  rintro ⟨j, hj, hname⟩
  exact Nat.ne_of_gt hj (placeholderName_injective hname)

/-- The search finds a free name if its bound covers the names that are taken and were not seen
yet. -/
theorem firstFree_notMem_of_length_le {taken unseen : List String} {fuel i : Nat}
    (hunseen : ∀ name ∈ taken, name ∈ unseen ∨ ∃ j < i, name = placeholderName j)
    (hfuel : unseen.length ≤ fuel) : placeholderName (firstFree taken fuel i) ∉ taken := by
  induction fuel generalizing i unseen with
  | zero =>
    obtain rfl := List.length_eq_zero_iff.1 (Nat.le_zero.1 hfuel)
    exact fun h => List.not_mem_nil (mem_unseen hunseen h)
  | succ fuel ih =>
    unfold firstFree
    split
    · next htaken =>
      have hlength := List.length_erase_of_mem (mem_unseen hunseen htaken)
      have unseen' : ∀ name ∈ taken, name ∈ unseen.erase (placeholderName i) ∨
          ∃ j < i + 1, name = placeholderName j := by
        intro name hname
        by_cases hi : name = placeholderName i
        · exact .inr ⟨i, Nat.lt_succ_self i, hi⟩
        · rcases hunseen name hname with h | ⟨j, hj, h⟩
          · exact .inl ((List.mem_erase_of_ne hi).2 h)
          · exact .inr ⟨j, Nat.lt_succ_of_lt hj, h⟩
      exact ih unseen' (by omega)
    · assumption

/-- The search for a name finds one that is not taken. -/
theorem firstFree_notMem (taken : List String) (i : Nat) :
    placeholderName (firstFree taken taken.length i) ∉ taken :=
  firstFree_notMem_of_length_le (fun _ h => .inl h) (Nat.le_refl _)

/-! ### Names of their own -/

/-- The candidate that the search goes on from after candidate `i`. -/
def advance (taken : List String) (i : Nat) : Nat := firstFree taken taken.length i + 1

/-- The names of `count` placeholders, where the search starts at candidate `i`. -/
def freeNames (taken : List String) (i count : Nat) : List String :=
  (List.iterate (advance taken) i count).map fun j =>
    placeholderName (firstFree taken taken.length j)

theorem freeNames_succ (taken : List String) (i count : Nat) :
    freeNames taken i (count + 1) =
      placeholderName (firstFree taken taken.length i) ::
        freeNames taken (advance taken i) count :=
  rfl

theorem freeNames_add (taken : List String) (i m n : Nat) :
    freeNames taken i (m + n) =
      freeNames taken i m ++ freeNames taken ((advance taken)^[m] i) n := by
  rw [freeNames, List.iterate_add, List.map_append]
  rfl

theorem freeNames_notMem {taken : List String} {i count : Nat} :
    ∀ name ∈ freeNames taken i count, name ∉ taken := by
  intro name hname
  obtain ⟨j, -, rfl⟩ := List.mem_map.1 hname
  exact firstFree_notMem taken j

/-- The names are those of candidates from the first one on. -/
theorem exists_of_mem_freeNames {taken : List String} {i count : Nat} {name : String}
    (h : name ∈ freeNames taken i count) : ∃ j, i ≤ j ∧ name = placeholderName j := by
  induction count generalizing i with
  | zero => cases h
  | succ count ih =>
    rw [freeNames_succ] at h
    have hi := le_firstFree taken taken.length i
    rcases List.mem_cons.1 h with rfl | h
    · exact ⟨_, hi, rfl⟩
    · obtain ⟨j, hj, hname⟩ := ih h
      exact ⟨j, Nat.le_trans hi (Nat.le_of_succ_le hj), hname⟩

theorem freeNames_nodup (taken : List String) (i count : Nat) :
    (freeNames taken i count).Nodup := by
  induction count generalizing i with
  | zero => exact .nil
  | succ count ih =>
    rw [freeNames_succ]
    refine List.nodup_cons.2 ⟨fun hmem => ?_, ih _⟩
    obtain ⟨j, hj, hname⟩ := exists_of_mem_freeNames hmem
    -- a later candidate has another name
    exact Nat.ne_of_lt hj (placeholderName_injective hname)

end Extraction

namespace Expr

variable {e e' : Expr} {leaf P : Expr → Expr → Prop}

/-! ### Constants and what stands in for them -/

/-- The constant nodes of a tree, in pre-order. -/
def constantNodes (e : Expr) : List Expr := e.preOrder.filter (·.constant?.isSome)

theorem constantNodes_eq (e : Expr) :
    e.constantNodes = (if e.constant?.isSome then [e] else []) ++
      e.children.flatMap constantNodes := by
  unfold constantNodes
  rw [preOrder_eq, List.filter_cons, List.filter_flatMap]
  split <;> rfl

/-- The values of the constant nodes are the constants. -/
theorem constantNodes_values (e : Expr) :
    List.Forall₂ (fun d v => d.constant? = some v) e.constantNodes e.constants := by
  unfold constantNodes constants
  induction e.preOrder with
  | nil => exact .nil
  | cons d ds ih =>
    rw [List.filter_cons, List.filterMap_cons]
    cases hd : d.constant? with
    | none => exact ih
    | some v => exact .cons hd ih

/-- What stands in `e'` in the places of the constants of `e`, in pre-order. -/
def standIns : (e : Expr) → (e' : Expr) → List Expr :=
  fold fun e below e' =>
    if e.constant?.isSome then [e']
    else (List.zipWith (fun standIns c' => standIns c') (below ()) e'.children).flatten

/-- The stand-ins of a list of trees, one tree after the other. -/
def standInsAll (es es' : List Expr) : List Expr := (List.zipWith standIns es es').flatten

theorem standInsAll_cons (c c' : Expr) (es es' : List Expr) :
    standInsAll (c :: es) (c' :: es') = c.standIns c' ++ standInsAll es es' :=
  rfl

theorem length_standInsAll {es es' : List Expr}
    (h : List.Forall₂ (fun c c' => (c.standIns c').length = c.constantNodes.length) es es') :
    (standInsAll es es').length = (es.flatMap constantNodes).length := by
  induction h with
  | nil => rfl
  | cons hc _ ih =>
    rw [standInsAll_cons, List.length_append, List.flatMap_cons, List.length_append, hc, ih]

theorem standIns_eq (e e' : Expr) :
    e.standIns e' = if e.constant?.isSome then [e'] else standInsAll e.children e'.children := by
  rw [standIns, fold_eq, List.zipWith_map_left]
  rfl

theorem standIns_of_isConstant (h : e.IsConstant) (e' : Expr) : e.standIns e' = [e'] := by
  rw [standIns_eq, if_pos (Option.isSome_iff_ne_none.2 h)]

theorem constantNodes_of_isConstant (h : e.IsConstant) : e.constantNodes = [e] := by
  rw [constantNodes_eq, if_pos (Option.isSome_iff_ne_none.2 h)]
  cases e <;> first | rfl | exact absurd rfl h

theorem standIns_of_not_isConstant (h : ¬e.IsConstant) (e' : Expr) :
    e.standIns e' = standInsAll e.children e'.children := by
  rw [standIns_eq, if_neg fun hsome => h (Option.isSome_iff_ne_none.1 hsome)]

theorem constantNodes_of_not_isConstant (h : ¬e.IsConstant) :
    e.constantNodes = e.children.flatMap constantNodes := by
  rw [constantNodes_eq, if_neg fun hsome => h (Option.isSome_iff_ne_none.1 hsome), List.nil_append]

theorem Replaced.length_standIns (h : Replaced IsConstant leaf e e') :
    (e.standIns e').length = e.constantNodes.length := by
  induction e using induction_children generalizing e' with
  | step e ih =>
    rcases replaced_iff.1 h with ⟨hroot, -⟩ | ⟨hroot, -, n, news, rfl, hnews⟩
    · rw [standIns_of_isConstant hroot, constantNodes_of_isConstant hroot]
      rfl
    · rw [standIns_of_not_isConstant hroot, constantNodes_of_not_isConstant hroot,
        children_rebuild n hnews.length_eq]
      exact length_standInsAll (forall₂_imp_of_mem hnews fun c hc _ _ h => ih c hc h)

/-- Nodes that are listed with the stand-ins of a list of trees are listed with those of each. -/
theorem forall₂_of_standInsAll {es es' : List Expr}
    (h : List.Forall₂ (Replaced IsConstant leaf) es es')
    (hP : List.Forall₂ P (es.flatMap constantNodes) (standInsAll es es')) :
    List.Forall₂ (fun c c' => Replaced IsConstant leaf c c' ∧
      List.Forall₂ P c.constantNodes (c.standIns c')) es es' := by
  induction h with
  | nil => exact .nil
  | cons hc _ ih =>
    rw [standInsAll_cons, List.flatMap_cons] at hP
    obtain ⟨first, rest⟩ := forall₂_of_append hc.length_standIns.symm hP
    exact .cons ⟨hc, first⟩ (ih rest)

/-- What holds of the constants and what stands in for them, one after the other, holds of them
where they are. -/
theorem Replaced.imp_standIns (h : Replaced IsConstant leaf e e')
    (hP : List.Forall₂ P e.constantNodes (e.standIns e')) : Replaced IsConstant P e e' := by
  induction e using induction_children generalizing e' with
  | step e ih =>
    rcases replaced_iff.1 h with ⟨hroot, -⟩ | ⟨hroot, hkept, n, news, rfl, hnews⟩
    · rw [standIns_of_isConstant hroot, constantNodes_of_isConstant hroot] at hP
      exact replaced_iff.2 (.inl ⟨hroot, (List.forall₂_cons.1 hP).1⟩)
    · rw [standIns_of_not_isConstant hroot, constantNodes_of_not_isConstant hroot,
        children_rebuild n hnews.length_eq] at hP
      refine replaced_iff.2 (.inr ⟨hroot, hkept, n, news, rfl, ?_⟩)
      exact forall₂_imp_of_mem (forall₂_of_standInsAll hnews hP) fun c hc _ _ h => ih c hc h.1 h.2

end Expr

namespace Extraction

open ExprTree.Expr

variable {taken : List String}

/-! ### Extraction, one step after the other -/

/-- Between two states constants were lifted out, and placeholders made for them one after the
other. -/
structure Adds (taken : List String) (s t : Progress) (nodes : List Expr) (params : List Param) :
    Prop where
  next : t.next = (advance taken)^[nodes.length] s.next
  placeholders : t.placeholders = params.reverse ++ s.placeholders
  values : t.values = (nodes.filterMap constant?).reverse ++ s.values
  names : params.map Param.name = freeNames taken s.next nodes.length
  types : params.map Param.ty = nodes.map Expr.ty

theorem Adds.nil (s : Progress) : Adds taken s s [] [] := ⟨rfl, rfl, rfl, rfl, rfl⟩

theorem Adds.append {s t u : Progress} {nodes nodes' : List Expr} {params params' : List Param}
    (h : Adds taken s t nodes params) (h' : Adds taken t u nodes' params') :
    Adds taken s u (nodes ++ nodes') (params ++ params') where
  next := by
    rw [h'.next, h.next, List.length_append, Nat.add_comm, Function.iterate_add_apply]
  placeholders := by
    rw [h'.placeholders, h.placeholders, List.reverse_append, List.append_assoc]
  values := by
    rw [h'.values, h.values, List.filterMap_append, List.reverse_append, List.append_assoc]
  names := by
    rw [List.map_append, h.names, h'.names, h.next, List.length_append, freeNames_add]
  types := by rw [List.map_append, h.types, h'.types, List.map_append]

/-- What is lifted out of a tree, and what stands there instead. -/
def AddsFrom (taken : List String) (s t : Progress × Supply) (e e' : Expr) : Prop :=
  ∃ params : List Param, Adds taken s.1 t.1 e.constantNodes params ∧
    e.standIns e' = params.map .parameter

theorem adds_of_chain {s t : (view 0).State} {olds news : List Expr}
    (h : (view 0).Chain (AddsFrom taken) s t olds news) :
    ∃ params : List Param, Adds taken s.1 t.1 (olds.flatMap constantNodes) params ∧
      standInsAll olds news = params.map .parameter := by
  induction h with
  | nil s => exact ⟨[], .nil s.1, rfl⟩
  | cons _ hfirst _ ih =>
    obtain ⟨first, hfirst, hstand⟩ := hfirst
    obtain ⟨rest, hrest, hstands⟩ := ih
    refine ⟨first ++ rest, hfirst.append hrest, ?_⟩
    rw [standInsAll_cons, hstand, hstands, List.map_append]

theorem from_rewrite_adds (taken : List String) (e : Expr) (s : Progress × Supply) :
    (view 0).From s (e.rewrite (liftNode taken) asIs) fun t r => AddsFrom taken s t e (r.on e) := by
  refine StateView.from_rewrite_chain (V := view 0) (T := AddsFrom taken) ?_ ?_ e (Nat.zero_le _)
  · intro e answer h s _
    cases e with
    | constant stamp v =>
      cases h
      let q : Param := ⟨s.2.next, s.2.next,
        placeholderName (firstFree taken taken.length s.1.next), stamp.ty⟩
      have hroot : (constant stamp v).IsConstant := Option.some_ne_none v
      refine ⟨Nat.le_succ _, [q], ?_, standIns_of_isConstant hroot _⟩
      rw [constantNodes_of_isConstant hroot]
      exact ⟨rfl, rfl, rfl, rfl, rfl⟩
    | _ => cases h
  · intro e hnone s t u n news hchain _ hu
    have hroot : ¬e.IsConstant := by
      rw [← liftNode_ne_none (m := StateM Supply) taken]
      exact not_not.2 hnone
    obtain ⟨params, hadds, hstands⟩ := adds_of_chain hchain
    refine ⟨params, ?_, ?_⟩
    · have progress : u.1 = t.1 := by rcases hu with rfl | rfl <;> rfl
      rw [progress, constantNodes_of_not_isConstant hroot]
      exact hadds
    · rw [standIns_of_not_isConstant hroot, children_rebuild n hchain.length_eq, hstands]

/-- An extraction of the tree `e`, whatever the identities of the placeholders. -/
structure IsOf (x : Extraction) (e : Expr) : Prop where
  replaced : Replaced IsConstant (IsHole 0) e x.body
  standIns : e.standIns x.body = x.placeholders.map .parameter
  names : x.placeholders.map Param.name = freeNames e.parameterNames 0 e.constantNodes.length
  types : x.placeholders.map Param.ty = e.constantNodes.map Expr.ty
  values : x.values = e.constants

variable {x : Extraction} {e : Expr}

theorem IsOf.length_placeholders (h : x.IsOf e) :
    x.placeholders.length = e.constantNodes.length := by
  have lengths := congrArg List.length h.types
  rwa [List.length_map, List.length_map] at lengths

/-- There is a placeholder for every value. -/
theorem IsOf.length_eq (h : x.IsOf e) : x.placeholders.length = x.values.length := by
  rw [h.length_placeholders, h.values]
  exact e.constantNodes_values.length_eq

/-- Placeholders have names of their own, -/
theorem IsOf.nodup_names (h : x.IsOf e) : (x.placeholders.map Param.name).Nodup := by
  rw [h.names]
  exact freeNames_nodup _ _ _

/-- which no parameter of the tree has. -/
theorem IsOf.name_notMem (h : x.IsOf e) : ∀ p ∈ x.placeholders, p.name ∉ e.parameterNames := by
  intro p hp
  have hname := List.mem_map_of_mem (f := Param.name) hp
  rw [h.names] at hname
  exact freeNames_notMem p.name hname

end Extraction

namespace Expr

theorem filterMap_constantNodes (e : Expr) : e.constantNodes.filterMap constant? = e.constants := by
  unfold constantNodes constants
  rw [List.filterMap_filter]
  refine List.filterMap_congr fun d _ => ?_
  cases d.constant? <;> rfl

/-- Extraction makes an extraction of the tree. -/
theorem extractConstants_isOf (e : Expr) (s : Supply) :
    ((e.extractConstants : StateM Supply Extraction) s).1.IsOf e := by
  have adds := (Extraction.from_rewrite_adds e.parameterNames e ({}, s)).2
  have replaced :=
    (Extraction.from_rewrite_liftNode e.parameterNames e ({}, s) (Nat.zero_le _)).2.2
  rw [Extraction.extractConstants_run 0]
  revert adds replaced
  rcases (Extraction.view 0).run (e.rewrite (Extraction.liftNode e.parameterNames) asIs) ({}, s)
    with ⟨r, progress, s'⟩
  rintro ⟨params, hadds, hstands⟩ replaced
  have placeholders : progress.placeholders.reverse = params := by
    rw [hadds.placeholders, List.append_nil, List.reverse_reverse]
  have values : progress.values.reverse = e.constants := by
    rw [hadds.values, List.append_nil, List.reverse_reverse, filterMap_constantNodes]
  dsimp only
  rw [placeholders, values]
  exact ⟨replaced, hstands, hadds.names, hadds.types, rfl⟩

end Expr

end ExprTree
