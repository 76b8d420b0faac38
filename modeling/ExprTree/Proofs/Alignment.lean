import ExprTree.Proofs.Placeholders
import ExprTree.Proofs.StructuralEquality

/-!
# Extractions of trees of one shape

Constants are listed by one walk, placeholders are made by another, and shapes are compared by a
third. An artifact that is compiled from one tree and run with the constants of another is right
only if the three go through the places of constants in one order.

Two trees of one shape are alike node by node, so as many names are taken in them, and they are the
same names. The names of placeholders depend on nothing else. The identities of placeholders do
differ, as each extraction mints its own, and equality of trees does not see them.

## Main results

* `Expr.SameShape.of_standIns`: trees of one shape stay so when their constants are replaced.
* `Expr.extractConstants_align`: **the constants of a tree line up with the placeholders that were
  made for another tree of its shape**.
-/

set_option autoImplicit false

namespace ExprTree.Expr

variable {ic : Bool} {a b a' b' : Expr} {leaf R : Expr → Expr → Prop}

/-! ### What trees of one shape have in common -/

theorem namesAt_of_isAlike (h : isAlike ic a b = true) : a.namesAt = b.namesAt := by
  have hlabel := (isAlike_iff.1 h).1
  have hkind := congrArg Label.kind hlabel
  have hdetail := congrArg Label.detail hlabel
  cases a <;> cases b <;> simp only [label, kind, reduceCtorEq] at hkind <;> try rfl
  case parameter p q => exact congrArg (fun name => [name]) (Detail.name.inj hdetail)
  case lambda _ ps _ _ qs _ =>
    have names := congrArg (List.map Prod.snd) (Detail.lambda.inj hdetail)
    rwa [List.map_map, List.map_map] at names

/-- The same names are taken in trees of one shape. -/
theorem SameShape.parameterNames_eq (ha : a.Supported) (h : SameShape ic a b) :
    a.parameterNames = b.parameterNames := by
  unfold parameterNames
  rw [flatMap_eq_of_forall₂ ((h.preOrder ha).imp fun _ _ => namesAt_of_isAlike)]

theorem isSome_constant?_of_isAlike (h : isAlike ic a b = true) :
    a.constant?.isSome = b.constant?.isSome := by
  have hkind := congrArg Label.kind (isAlike_iff.1 h).1
  cases a <;> cases b <;> first | rfl | cases hkind

theorem isConstant_iff_of_isAlike (h : isAlike ic a b = true) : a.IsConstant ↔ b.IsConstant := by
  unfold IsConstant
  rw [← Option.isSome_iff_ne_none, ← Option.isSome_iff_ne_none, isSome_constant?_of_isAlike h]

/-- The constants of trees of one shape have the same types, in order. -/
theorem SameShape.types_eq (ha : a.Supported) (h : SameShape ic a b) :
    a.constantNodes.map ty = b.constantNodes.map ty := by
  have nodes : List.Forall₂ (fun d d' => Expr.isAlike ic d d' = true) a.constantNodes
      b.constantNodes :=
    List.rel_filter (fun _ _ h => Bool.eq_iff_iff.1 (isSome_constant?_of_isAlike h)) (h.preOrder ha)
  exact map_eq_map_iff.2 (nodes.imp fun _ _ h => congrArg Label.ty (isAlike_iff.1 h).1)

theorem SameShape.length_constantNodes (ha : a.Supported) (h : SameShape ic a b) :
    a.constantNodes.length = b.constantNodes.length := by
  have lengths := congrArg List.length (h.types_eq ha)
  rwa [List.length_map, List.length_map] at lengths

/-! ### Constants replaced -/

/-- Lists of trees of one shape, with constants replaced, have stand-ins tree by tree. -/
theorem forall₂_standIns_of_sameShape {as bs as' bs' : List Expr} (has : ∀ c ∈ as, c.Supported)
    (hshapes : List.Forall₂ (SameShape true) as bs)
    (has' : List.Forall₂ (Replaced IsConstant leaf) as as')
    (hbs' : List.Forall₂ (Replaced IsConstant leaf) bs bs')
    (hstandIns : List.Forall₂ R (standInsAll as as') (standInsAll bs bs')) :
    List.Forall₂ (fun c' d' => ∃ c ∈ as, ∃ d, SameShape true c d ∧ Replaced IsConstant leaf c c' ∧
      Replaced IsConstant leaf d d' ∧ List.Forall₂ R (c.standIns c') (d.standIns d')) as' bs' := by
  induction hshapes generalizing as' bs' with
  | nil =>
    cases has'
    cases hbs'
    exact .nil
  | @cons c d as bs hcd _ ih =>
    cases has' with
    | @cons _ c' _ _ hc has' =>
      cases hbs' with
      | @cons _ d' _ _ hd hbs' =>
        rw [List.forall_mem_cons] at has
        have lengths : (c.standIns c').length = (d.standIns d').length := by
          rw [hc.length_standIns, hd.length_standIns]
          exact hcd.length_constantNodes has.1
        rw [standInsAll_cons, standInsAll_cons] at hstandIns
        obtain ⟨first, rest⟩ := forall₂_of_append lengths hstandIns
        refine .cons ⟨c, List.mem_cons_self, d, hcd, hc, hd, first⟩ ?_
        exact (ih has.2 has' hbs' rest).imp fun _ _ ⟨c, hmem, h⟩ =>
          ⟨c, List.mem_cons_of_mem _ hmem, h⟩

/-- Trees of one shape stay so when their constants are replaced, if what stands in for them has one
shape in every place. -/
theorem SameShape.of_standIns (ha : a.Supported) (h : SameShape true a b)
    (hreplaced : Replaced IsConstant leaf a a') (hreplaced' : Replaced IsConstant leaf b b')
    (hstandIns : List.Forall₂ (SameShape ic) (a.standIns a') (b.standIns b')) :
    SameShape ic a' b' := by
  induction a using induction_children generalizing b a' b' with
  | step a ih =>
    obtain ⟨hforeign, hsupported⟩ := supported_iff.1 ha
    have halike := h.isAlike
    by_cases hroot : a.IsConstant
    · rw [standIns_of_isConstant hroot,
        standIns_of_isConstant ((isConstant_iff_of_isAlike halike).1 hroot)] at hstandIns
      exact (List.forall₂_cons.1 hstandIns).1
    have hroot' : ¬b.IsConstant := fun hb => hroot ((isConstant_iff_of_isAlike halike).2 hb)
    have hsame := (hreplaced.parallel hroot).1
    have hsame' := (hreplaced'.parallel hroot').1
    cases hleaf : a.isLeaf with
    | true =>
      -- a leaf that is no constant is a parameter, and stays
      cases a with
      | parameter p =>
        cases b with
        | parameter q =>
          cases hsame
          cases hsame'
          have halike' : Expr.isAlike ic (.parameter p) (.parameter q) = true := halike
          exact (sameShape_iff rfl).2 ⟨halike', .nil⟩
        | _ => cases halike
      | constant s v => exact (hroot (Option.some_ne_none v)).elim
      | _ => cases hleaf
    | false =>
      rw [standIns_of_not_isConstant hroot, standIns_of_not_isConstant hroot'] at hstandIns
      have places := forall₂_standIns_of_sameShape hsupported (h.slotwise ha).children
        (hsame.children fun _ _ _ _ h => h.2) (hsame'.children fun _ _ _ _ h => h.2) hstandIns
      have news : List.Forall₂ (SameShape ic) a'.children b'.children := by
        refine places.imp fun c' d' ⟨c, hc, d, hcd, hc', hd', hplaces⟩ => ?_
        exact ih c hc (hsupported c hc) hcd hc' hd' hplaces
      have nodes := ((hsame.flip.comp (h.parallel hforeign hleaf)).comp hsame').with_children news
      refine Parallel.sameShape (nodes.imp_of_mem (fun _ _ _ _ h => h) ?_) ?_
      · rintro ps ps' c - c' - ⟨⟨qs', d', ⟨qs, d, ⟨rfl, -⟩, hnames, -⟩, rfl, -⟩, hbody⟩
        exact ⟨hnames, hbody⟩
      · rw [← hsame.foreignKind?_eq, hforeign]

/-! ### Placeholders and constants -/

/-- Placeholders that were made for trees of one shape have the same names and types. -/
theorem SameShape.placeholders {x y : Extraction} (ha : a.Supported) (h : SameShape true a b)
    (hx : x.IsOf a) (hy : y.IsOf b) :
    List.Forall₂ (fun p q => p.name = q.name ∧ p.ty = q.ty) x.placeholders y.placeholders := by
  have names : x.placeholders.map Param.name = y.placeholders.map Param.name := by
    rw [hx.names, hy.names, h.parameterNames_eq ha, h.length_constantNodes ha]
  have types : x.placeholders.map Param.ty = y.placeholders.map Param.ty := by
    rw [hx.types, hy.types, h.types_eq ha]
  exact forall₂_and (map_eq_map_iff.1 names) (map_eq_map_iff.1 types)

/-- **The constants of a tree line up with the placeholders that were made for another tree of its
shape.** Two extractions have as many placeholders, of the same names and types in order, and equal
bodies. The second tree has as many constants as the first has placeholders, and each is the value
of a node that has the type of the placeholder in its place. -/
theorem extractConstants_align (ha : a.Supported) (h : a.structEq b true = .ok true)
    (s s' : Supply) :
    let x := ((a.extractConstants : StateM Supply Extraction) s).1
    let y := ((b.extractConstants : StateM Supply Extraction) s').1
    List.Forall₂ (fun p q => p.name = q.name ∧ p.ty = q.ty) x.placeholders y.placeholders ∧
      x.body.structEq y.body false = .ok true ∧
      b.constants.length = x.placeholders.length ∧
      List.Forall₂ (fun p d => d.ty = p.ty) x.placeholders b.constantNodes ∧
      List.Forall₂ (fun d v => d.constant? = some v) b.constantNodes b.constants := by
  intro x y
  rw [structEq_eq_ok_true_iff] at h
  have hx : x.IsOf a := extractConstants_isOf a s
  have hy : y.IsOf b := extractConstants_isOf b s'
  have aligned := h.placeholders ha hx hy
  have standIns : List.Forall₂ (SameShape false) (a.standIns x.body) (b.standIns y.body) := by
    rw [hx.standIns, hy.standIns, List.forall₂_map_left_iff, List.forall₂_map_right_iff]
    refine aligned.imp fun p q hpq => ?_
    have alike : Expr.isAlike false (.parameter p) (.parameter q) = true := by
      simp [Expr.isAlike, kind, ty, stamp, hpq.1, hpq.2]
    exact (sameShape_iff rfl).2 ⟨alike, .nil⟩
  have bodies := h.of_standIns ha hx.replaced hy.replaced standIns
  refine ⟨aligned, structEq_eq_ok_true_iff.2 bodies, ?_, ?_, b.constantNodes_values⟩
  · rw [hx.length_placeholders, h.length_constantNodes ha]
    exact b.constantNodes_values.length_eq.symm
  · exact (map_eq_map_iff.1 (hx.types.trans (h.types_eq ha))).imp fun _ _ h => h.symm

/-- A function that answers with one of two literals. Its parameter has the name of the first
candidate for a placeholder. -/
def choice (n : NodeId) (v w : Bool) : Expr :=
  .lambda ⟨n, .func [.bool] .bool⟩ [⟨n + 1, n + 1, "p0", .bool⟩]
    (.conditional ⟨n + 2, .bool⟩ (.parameter ⟨n + 1, n + 1, "p0", .bool⟩)
      (.constant ⟨n + 3, .bool⟩ (.bool v)) (.constant ⟨n + 4, .bool⟩ (.bool w)))

/-- Two choices line up, with placeholders that are not called what the parameter is called. -/
theorem extractConstants_align_choice :
    (choice 0 true false).Supported ∧
    (choice 0 true false).structEq (choice 5 false false) true = .ok true ∧
    let x := (((choice 0 true false).extractConstants : StateM Supply Extraction) ⟨10⟩).1
    let y := (((choice 5 false false).extractConstants : StateM Supply Extraction) ⟨20⟩).1
    x.placeholders.map Param.name = ["p1", "p2"] ∧
      List.Forall₂ (fun p q => p.name = q.name ∧ p.ty = q.ty) x.placeholders y.placeholders ∧
      x.body.structEq y.body false = .ok true ∧
      (choice 5 false false).constants.length = x.placeholders.length := by
  have supported : (choice 0 true false).Supported := rfl
  have literals (n n' : NodeId) (v w : Bool) :
      SameShape true (constant ⟨n, .bool⟩ (.bool v)) (constant ⟨n', .bool⟩ (.bool w)) :=
    (sameShape_iff rfl).2 ⟨rfl, .nil⟩
  have parameters : SameShape true (.parameter ⟨1, 1, "p0", .bool⟩)
      (.parameter ⟨6, 6, "p0", .bool⟩) :=
    (sameShape_iff rfl).2 ⟨rfl, .nil⟩
  have shape : SameShape true (choice 0 true false) (choice 5 false false) :=
    Parallel.sameShape (.lambda ⟨rfl, Parallel.sameShape (.conditional parameters (literals ..)
      (literals ..)) rfl⟩) rfl
  have equal := structEq_eq_ok_true_iff.2 shape
  obtain ⟨aligned, bodies, length, -, -⟩ := extractConstants_align supported equal ⟨10⟩ ⟨20⟩
  exact ⟨supported, equal, by decide +kernel, aligned, bodies, length⟩

end ExprTree.Expr
