import ExprTree.Proofs.ArgumentSlots
import ExprTree.Proofs.Extraction
import ExprTree.Proofs.StructuralEquality

/-!
# Instances of a template

A cached artifact is compiled from the template of one tree and run with the constants of another.
`Expr.Instantiates` is what makes that right: the tree is the template with constants in the place of
holes, and parameters that stand in the same place are declared in the same place. Shapes do not see
the latter. They match parameters by name, so it has to be asked for.

## Main definitions

* `Expr.Instantiates`: a tree is an instance of a template.
* `Expr.constantsFit`: every constant is an instance of its type.

## Main results

* `Expr.instantiates_of_sameShape`: a tree is an instance of the template of any tree of its shape in
  which parameters are declared in the same places.
-/

set_option autoImplicit false

namespace ExprTree

open ArgumentArray

namespace Expr

/-! ### Constants of their types -/

/-- Whether a constant is an instance of its type. -/
def constantFits : Expr → Bool
  | constant s v => v.isInstanceOf s.ty
  | _ => true

/-- Whether every constant of a tree is an instance of its type. -/
def constantsFit (e : Expr) : Bool := e.preOrder.all constantFits

variable {e t : Expr}

theorem constantsFit_iff :
    e.constantsFit = true ↔ e.constantFits = true ∧ ∀ c ∈ e.children, c.constantsFit = true := by
  unfold constantsFit
  rw [preOrder_eq]
  simp [List.all_flatMap]

/-! ### Instances -/

/-- The hole reads a value from a list of constants. -/
def Fills (holes : Positions) (constants : List Value) (v : Value) (q : Param) : Prop :=
  ∃ i, holes[q.id]? = some (i, q.ty) ∧ constants[i]? = some v

/-- The tree `e` is an instance of the template `t`. The parameters of the two have positions in
`places` and `places'`; in the latter the holes come first, and they read the constants of `e`. Of
`scope` and `scope'` the parameters are declared around the two. -/
inductive Instantiates (places places' : Positions) (constants : List Value) :
    List ParamId → List ParamId → Expr → Expr → Prop
  | constant {scope scope' : List ParamId} {s : Stamp} {v : Value} {q : Param} (hty : q.ty = s.ty)
      (hfits : v.isInstanceOf s.ty = true) (hfills : Fills places' constants v q) :
      Instantiates places places' constants scope scope' (.constant s v) (.parameter q)
  | parameter {scope scope' : List ParamId} {p q : Param} (hname : p.name = q.name)
      (hty : p.ty = q.ty) (hscope : scope.idxOf? p.id = scope'.idxOf? q.id)
      (hplace : places'[q.id]? = places[p.id]?.map fun place => (constants.length + place.1, place.2)) :
      Instantiates places places' constants scope scope' (.parameter p) (.parameter q)
  | node {scope scope' : List ParamId} {e t : Expr} (hleaf : e.isLeaf = false)
      (hforeign : e.foreignKind? = none)
      (hsame : Parallel (fun _ _ => True) (SameNames fun _ _ => True) e t)
      (hchildren : ∀ p ∈ e.children.zip t.children,
        Instantiates places places' constants (e.boundBelow scope) (t.boundBelow scope') p.1 p.2) :
      Instantiates places places' constants scope scope' e t

variable {places places' : Positions} {constants : List Value} {scope scope' : List ParamId}

/-- Instances have the type of their template. -/
theorem Instantiates.ty_eq (h : Instantiates places places' constants scope scope' e t) :
    e.ty = t.ty := by
  cases h with
  | constant hty => exact hty.symm
  | parameter _ hty => exact hty
  | node _ _ hsame => exact hsame.ty_eq

/-- The nodes of an instance that are no leaves are alike, over instances. -/
theorem Instantiates.parallel (hleaf : e.isLeaf = false)
    (h : Instantiates places places' constants scope scope' e t) :
    e.foreignKind? = none ∧
      let S := Instantiates places places' constants (e.boundBelow scope) (t.boundBelow scope')
      Parallel S (SameNames S) e t := by
  cases h with
  | constant => cases hleaf
  | parameter => cases hleaf
  | node _ hforeign hsame hchildren =>
    refine ⟨hforeign, ?_⟩
    have lengths := (hsame.children fun _ _ _ _ _ => trivial).length_eq
    have below := List.forall₂_iff_zip.2 ⟨lengths, fun hp => hchildren _ hp⟩
    exact (hsame.with_children below).imp_of_mem (fun _ _ _ _ h => h)
      fun _ _ _ _ _ _ h => ⟨h.1.1, h.2⟩

/-! ### Scopes of nodes that are alike -/

theorem Parallel.boundBelow_eq {S : Expr → Expr → Prop} (h : Parallel S (SameParams S) e t)
    (scope : List ParamId) : e.boundBelow scope = t.boundBelow scope := by
  cases h with
  | lambda hb => rw [boundBelow, boundBelow, hb.1]
  | _ => rfl

end Expr

/-- Below two nodes that are alike, tables say the same that say the same around them, as nothing is
declared again. -/
theorem SameIn.boundBelow {α : Type} {scope scope' : List ParamId} {f g : ParamId → Option α}
    (h : SameIn scope scope' f g) {e t : Expr} {S : Expr → Expr → Prop}
    (hsame : Expr.Parallel S (Expr.SameNames S) e t)
    (honce : e.declaresOnce scope = true) (honce' : t.declaresOnce scope' = true) :
    SameIn (e.boundBelow scope) (t.boundBelow scope') f g := by
  cases hsame with
  | @lambda n n' ty ps ps' b b' hb =>
    have lengths := congrArg List.length hb.1
    simp only [List.length_map] at lengths
    refine h.append (by simp [lengths]) ?_ ?_
    · exact List.forall_mem_map.2 (Expr.notMem_of_declaresOnce honce)
    · exact List.forall_mem_map.2 (Expr.notMem_of_declaresOnce honce')
  | _ => exact h

namespace Expr

/-! ### Templates of trees of one shape -/

variable {e t m : Expr} {places places' : Positions} {constants : List Value}
  {scope scope' : List ParamId} {base : Nat}

/-- Replacing leaves by trees that declare nothing changes no declaration. -/
theorem Replaced.declaredIds_eq {hit : Expr → Prop} {leaf : Expr → Expr → Prop}
    (hleaf : ∀ d d', hit d → leaf d d' → d.declaredIds = [] ∧ d'.declaredIds = [])
    (h : Replaced hit leaf e t) : t.declaredIds = e.declaredIds := by
  induction e using induction_children generalizing t with
  | step e ih =>
    by_cases hhit : hit e
    · obtain ⟨he, ht⟩ := hleaf e t hhit (h.leaf_of_hit hhit)
      rw [he, ht]
    · have parallel := (h.parallel hhit).1
      have root : t.declaredAt = e.declaredAt := by
        cases parallel with
        | lambda hb => rw [declaredAt, declaredAt, hb.1]
        | _ => rfl
      rw [Expr.declaredIds_eq t, Expr.declaredIds_eq e, root]
      refine congrArg _ (Eq.symm (flatMap_eq_of_forall₂ ?_))
      exact forall₂_imp_of_mem (parallel.children fun _ _ _ _ hb => hb.2)
        fun c hc c' _ hcc => (ih c hc hcc).symm

theorem declaredIds_of_leaf (h : e.isLeaf = true) : e.declaredIds = [] := by
  cases e <;> first | rfl | cases h

theorem isLeaf_of_isConstant (h : IsConstant e) : e.isLeaf = true := by
  cases e <;> first | rfl | exact (h rfl).elim

/-- A template declares what the tree declares. -/
theorem declaredIds_of_template (h : Replaced IsConstant (IsHole base) m t) :
    t.declaredIds = m.declaredIds := by
  refine h.declaredIds_eq fun d d' hconstant hhole => ?_
  obtain ⟨q, rfl, -⟩ := hhole
  exact ⟨declaredIds_of_leaf (isLeaf_of_isConstant hconstant), rfl⟩

/-- A template declares nothing twice if the tree does not. -/
theorem declaresOnce_of_template (h : Replaced IsConstant (IsHole base) m t)
    (honce : m.declaresOnce scope = true) : t.declaresOnce scope = true := by
  induction m using induction_children generalizing t scope with
  | step m ih =>
    obtain ⟨hnodup, hchildren⟩ := declaresOnce_iff.1 honce
    by_cases hconstant : IsConstant m
    · obtain ⟨q, rfl, -⟩ := h.leaf_of_hit hconstant
      have hscope := nodup_of_declaresOnce honce
      exact declaresOnce_iff.2 ⟨hscope, fun _ hc => (nomatch hc)⟩
    · have parallel := (h.parallel hconstant).1
      rw [parallel.boundBelow_eq] at hnodup hchildren
      refine declaresOnce_iff.2 ⟨hnodup, ?_⟩
      exact forall_right_of_forall₂ (parallel.children fun _ _ _ _ hb => hb.2)
        fun c hc c' hcc => ih c hc hcc (hchildren c hc)

/-- The parameters of a template were minted before its last hole, or before its first. -/
theorem IsTemplate.below {limit : Nat} (h : IsTemplate base limit m t) (hbelow : m.Below base)
    (hle : base ≤ limit) : t.Below limit where
  occurs p hp := by
    by_cases hbase : base ≤ p.id
    · exact (h.ids p (List.mem_filter.2 ⟨hp, by simpa using hbase⟩)).2
    · exact Nat.lt_of_lt_of_le (Nat.not_le.1 hbase) hle
  declared id hid := by
    rw [declaredIds_of_template h.replaced] at hid
    exact Nat.lt_of_lt_of_le (hbelow.declared id hid) hle

/-- A template has as many holes as there were constants. -/
theorem length_holes (hbelow : m.Below base) (h : Replaced IsConstant (IsHole base) m t) :
    (t.holes base).length = m.constants.length := by
  induction m using induction_children generalizing t with
  | step m ih =>
    by_cases hconstant : IsConstant m
    · obtain ⟨q, rfl, -, hq⟩ := h.leaf_of_hit hconstant
      obtain ⟨v, hv⟩ := Option.ne_none_iff_exists'.1 hconstant
      have leaf : m.children = [] := by cases m <;> first | rfl | cases hv
      rw [holes_eq, constants_cons, hv, leaf]
      simp [parameter?, children, hq]
    · rcases replaced_iff.1 h with ⟨hit, -⟩ | ⟨-, -, n, news, rfl, hnews⟩
      · exact (hconstant hit).elim
      · rw [Extraction.holes_rebuild n hbelow hnews.length_eq, constants_cons,
          not_not.1 hconstant, List.length_append, List.length_flatMap, List.length_flatMap]
        have below : (m.children.map fun c => c.constants.length) =
            news.map fun c => (c.holes base).length := by
          rw [map_eq_map_iff]
          exact forall₂_imp_of_mem hnews fun c hc c' _ h => (ih c hc (hbelow.children c hc) h).symm
        rw [below]
        simp

/-- A constant fills the hole that a template has for a constant of its type. -/
theorem exists_fills_of_constant {s s' : Stamp} {v v' : Value} (hty : s.ty = s'.ty)
    (htemplate : Replaced IsConstant (IsHole base) (constant s' v') t)
    (hfills : List.Forall₂ (Fills places constants) (constant s v).constants (t.holes base)) :
    ∃ q, t = parameter q ∧ q.ty = s.ty ∧ Fills places constants v q := by
  obtain ⟨q, rfl, hq_ty, hq⟩ := htemplate.leaf_of_hit (Option.some_ne_none v')
  rw [holes_parameter hq] at hfills
  rcases hfills with _ | ⟨hfills, -⟩
  exact ⟨q, rfl, hq_ty.trans hty.symm, hfills⟩

/-- The constants of a node fill the holes of a template child by child. -/
theorem forall₂_fills_children {R : Expr → Expr → Prop} (hsupported : ∀ c ∈ e.children, c.Supported)
    (hbelow : m.Below base) (hconstant : e.constant? = none) (hparameter : t.parameter? = none)
    (hR : List.Forall₂ R e.children m.children) (hshape : ∀ c c', R c c' → SameShape true c c')
    (htemplate : List.Forall₂ (Replaced IsConstant (IsHole base)) m.children t.children)
    (hfills : List.Forall₂ (Fills places constants) e.constants (t.holes base)) :
    List.Forall₂ (fun c c'' =>
      (∃ c' ∈ m.children, R c c' ∧ Replaced IsConstant (IsHole base) c' c'') ∧
        List.Forall₂ (Fills places constants) c.constants (c''.holes base)) e.children t.children := by
  rw [constants_cons, hconstant, holes_eq, hparameter] at hfills
  refine forall₂_of_flatMap (forall₂_trans hR htemplate) ?_ hfills
  rintro c hc c'' ⟨c', hc', hcc, hreplaced⟩
  rw [length_holes (hbelow.children c' hc') hreplaced,
    (hshape c c' hcc).length_constants (hsupported c hc)]

/-- A tree is an instance of the template of any tree of its shape in which parameters are declared
in the same places. -/
theorem instantiates_of_sameShape (hsupported : e.Supported) (hshape : SameShape true e m)
    (hfits : e.constantsFit = true) (hbelow : m.Below base)
    (htemplate : Replaced IsConstant (IsHole base) m t)
    (hfills : List.Forall₂ (Fills places' constants) e.constants (t.holes base))
    (hbindings : e.bindings scope = m.bindings scope')
    (honce : e.declaresOnce scope = true) (honce' : m.declaresOnce scope' = true)
    (hplaces : SameIn scope scope'
      (fun i => places[i]?.map fun place => (constants.length + place.1, place.2))
      fun j => if j < base then places'[j]? else none) :
    Instantiates places places' constants scope scope' e t := by
  induction e using induction_children generalizing m t scope scope' with
  | step e ih =>
    obtain ⟨hforeign, hsupported'⟩ := supported_iff.1 hsupported
    obtain ⟨hfit, hfits'⟩ := constantsFit_iff.1 hfits
    have hlabel := (isAlike_iff.1 hshape.isAlike).1
    cases hleaf : e.isLeaf with
    | true =>
      cases e with
      | constant s v =>
        cases m with
        | constant s' v' =>
          obtain ⟨q, rfl, hty, hfills⟩ :=
            exists_fills_of_constant (congrArg Label.ty hlabel) htemplate hfills
          exact .constant hty hfit hfills
        | _ => cases congrArg Label.kind hlabel
      | parameter p =>
        cases m with
        | parameter p' =>
          have kept := (htemplate.parallel (not_not.2 rfl)).1
          cases kept
          have hname := Detail.name.inj (congrArg Label.detail hlabel)
          have hscope : scope.idxOf? p.id = scope'.idxOf? p'.id := by
            rw [bindings_eq, bindings_eq] at hbindings
            exact List.singleton_inj.1 hbindings
          have hplace := hplaces.eq hscope
          rw [if_pos hbelow.parameter] at hplace
          exact .parameter hname (congrArg Label.ty hlabel) hscope hplace.symm
        | _ => cases congrArg Label.kind hlabel
      | _ => cases hleaf
    | false =>
      have shapes := hshape.parallel hforeign hleaf
      have hleaf' : m.isLeaf = false := shapes.isLeaf_eq.symm.trans hleaf
      have replaced := (htemplate.parallel (not_not.2 (constant?_of_isLeaf hleaf'))).1
      have hleaf'' : t.isLeaf = false := replaced.isLeaf_eq.symm.trans hleaf'
      rw [bindings_of_parameter? (parameter?_of_isLeaf hleaf),
        bindings_of_parameter? (parameter?_of_isLeaf hleaf')] at hbindings
      have bound := forall₂_of_flatMap_eq (shapes.children fun _ _ _ _ hb => hb.2)
        (fun c hc c' hcc => by
          rw [length_bindings, length_bindings, hcc.length_occurrences (hsupported' c hc)]) hbindings
      have filled := forall₂_fills_children hsupported' hbelow (constant?_of_isLeaf hleaf)
        (parameter?_of_isLeaf hleaf'') bound (fun _ _ h => h.1)
        (replaced.children fun _ _ _ _ hb => hb.2) hfills
      have same : Parallel (fun _ _ => True) (SameNames fun _ _ => True) e t := by
        refine (shapes.comp replaced).imp_of_mem (fun _ _ _ _ _ => trivial) ?_
        rintro ps ps'' b _ b'' _ ⟨ps', b', ⟨hnames, -⟩, ⟨rfl, -⟩⟩
        exact ⟨hnames, trivial⟩
      refine .node hleaf hforeign same ?_
      rintro ⟨c, c''⟩ hmem
      obtain ⟨⟨c', hc', ⟨hshape', hbindings'⟩, hreplaced'⟩, hfills'⟩ := List.forall₂_zip filled hmem
      have hc := (List.of_mem_zip hmem).1
      rw [← replaced.boundBelow_eq]
      exact ih c hc (hsupported' c hc) hshape' (hfits' c hc) (hbelow.children c' hc') hreplaced'
        hfills' hbindings' ((declaresOnce_iff.1 honce).2 c hc) ((declaresOnce_iff.1 honce').2 c' hc')
        (hplaces.boundBelow shapes honce honce')

/-! ### Holes in front of parameters -/

variable {params params' holes : List Param}

/-- Holes that were minted one after the other, and parameters that were minted before, have
identities of their own. -/
theorem nodup_append_ids (hsorted : holes.Pairwise fun p q => p.id < q.id)
    (hholes : ∀ q ∈ holes, base ≤ q.id) (hnodup : (params.map Param.id).Nodup)
    (hbelow : ∀ p ∈ params, p.id < base) : ((holes ++ params).map Param.id).Nodup := by
  rw [List.map_append, List.nodup_append']
  refine ⟨?_, hnodup, ?_⟩
  · exact List.pairwise_map.2 (hsorted.imp fun h => Nat.ne_of_lt h)
  · intro id hid hid'
    obtain ⟨q, hq, rfl⟩ := List.mem_map.1 hid
    obtain ⟨p, hp, hpq⟩ := List.mem_map.1 hid'
    have := Nat.lt_of_lt_of_le (hbelow p hp) (hholes q hq)
    rw [hpq] at this
    exact Nat.lt_irrefl _ this

/-- Every hole reads the constant that is listed in its place. -/
theorem forall₂_fills (hnodup : ((holes ++ params).map Param.id).Nodup)
    (hlength : constants.length = holes.length) :
    List.Forall₂ (Fills (positions ((holes ++ params).map .parameter)) constants) constants holes := by
  refine List.forall₂_iff_get.2 ⟨hlength, fun i hi hi' => ⟨i, ?_, ?_⟩⟩
  · refine position_of_getElem? hnodup ?_
    rw [List.getElem?_append_left hi', List.getElem?_eq_getElem hi']
    rfl
  · rw [List.getElem?_eq_getElem hi]
    rfl

/-- Positions of parameters and of those of a template, where the holes come first. -/
theorem sameIn_positions (hnodup : (params.map Param.id).Nodup)
    (hnodup' : ((holes ++ params').map Param.id).Nodup)
    (htypes : params.map Param.ty = params'.map Param.ty)
    (hholes : ∀ q ∈ holes, base ≤ q.id) (hbelow : ∀ p ∈ params', p.id < base) :
    SameIn (params.map Param.id) (params'.map Param.id)
      (fun i => (positions (params.map .parameter))[i]?.map fun place =>
        (holes.length + place.1, place.2))
      fun j => if j < base then (positions ((holes ++ params').map .parameter))[j]? else none := by
  have place_eq (j : ParamId) (hj : j < base) :
      (positions ((holes ++ params').map .parameter))[j]? =
        ((params'.map Param.id).idxOf? j).bind fun i =>
          params'[i]?.map fun p => (holes.length + i, p.ty) := by
    have hj' : (holes.map Param.id).idxOf? j = none := by
      rw [List.idxOf?_eq_none_iff]
      rintro hmem
      obtain ⟨q, hq, rfl⟩ := List.mem_map.1 hmem
      exact Nat.not_lt.2 (hholes q hq) hj
    have append_eq (xs ys : List ParamId) : (xs ++ ys).idxOf? j =
        (xs.idxOf? j).or ((ys.idxOf? j).map fun i => i + xs.length) :=
      List.findIdx?_append
    rw [position_eq hnodup', List.map_append, append_eq, hj', Option.none_or, Option.bind_map]
    refine congrArg _ (funext fun i => ?_)
    rw [Function.comp_apply, List.length_map, List.getElem?_append_right (Nat.le_add_left _ _),
      Nat.add_sub_cancel, Nat.add_comm]
  have outside {params : List Param} {i : ParamId} (h : i ∉ params.map Param.id) :
      (positions (params.map .parameter))[i]? = none :=
    position_eq_none fun p hp hid => h (hid ▸ List.mem_map_of_mem hp)
  constructor
  · intro i j hij
    split
    · next hj =>
      rw [place_eq j hj, position_eq hnodup, hij]
      cases (params'.map Param.id).idxOf? j with
      | none => rfl
      | some k =>
        have type_eq := congrArg (·[k]?) htypes
        simp only [List.getElem?_map] at type_eq
        rw [Option.bind_some, Option.bind_some]
        cases hp : params[k]? <;> cases hp' : params'[k]? <;> rw [hp, hp'] at type_eq <;>
          simp_all
    · next hj =>
      have hj' : j ∉ params'.map Param.id := by
        rintro hmem
        obtain ⟨p, hp, rfl⟩ := List.mem_map.1 hmem
        exact hj (hbelow p hp)
      rw [List.idxOf?_eq_none_iff.2 hj', List.idxOf?_eq_none_iff] at hij
      rw [outside hij]
      rfl
  · intro i hi
    by_contra hmem
    rw [outside hmem] at hi
    exact hi rfl
  · intro j hj
    by_contra hmem
    split at hj
    · next hlt =>
      rw [place_eq j hlt, List.idxOf?_eq_none_iff.2 hmem] at hj
      exact hj rfl
    · exact hj rfl

end Expr

end ExprTree
