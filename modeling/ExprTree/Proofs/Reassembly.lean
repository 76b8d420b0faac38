import ExprTree.Proofs.ArgumentSlots
import ExprTree.Proofs.Placeholders
import ExprTree.Proofs.StructuralEquality
import ExprTree.Proofs.Substitution

/-!
# Putting constants back

Substitution undoes extraction. The extracted body is a function of its placeholders, and applied to
literals for the values that were lifted out it is the tree again, up to the identities of nodes.

Two rewrites come one after the other here, and each replaces some leaves. In the tree between them
placeholders have to be told from parameters that were there before, which is what identities are
for: placeholders were minted after the tree was built.

## Main results

* `Lambda.ofExprs_parameters`: parameters with names of their own make a lambda.
* `Expr.Replaced.restored`: what is put in the places of constants, one rewrite after the other.
* `Expr.extractConstants_restores`: **what is lifted out of a tree can be put back**.
-/

set_option autoImplicit false

namespace ExprTree

/-- What is listed for a key that is listed once is what is found for it. -/
theorem lookup_eq_some_of_mem {α β : Type} [BEq α] [LawfulBEq α] {pairs : List (α × β)} {a : α}
    {b : β} (hnodup : (pairs.map Prod.fst).Nodup) (h : (a, b) ∈ pairs) : pairs.lookup a = some b := by
  obtain ⟨before, after, rfl⟩ := List.append_of_mem h
  refine List.lookup_eq_some_iff.2 ⟨before, after, rfl, fun p hp => ?_⟩
  rw [List.map_append, List.nodup_append] at hnodup
  rw [bne_iff_ne, ne_comm]
  exact hnodup.2.2 p.1 (List.mem_map_of_mem hp) a List.mem_cons_self

/-! ### Lambdas over placeholders -/

namespace Lambda

/-- Parameters with names of their own are passed over. -/
theorem go_append {body : Expr} {seen params : List Param} {i : Nat}
    (hnodup : (params.map Param.name).Nodup)
    (hseen : ∀ p ∈ params, ∀ q ∈ seen, q.name ≠ p.name) (rest : List Expr) :
    ofExprs.go body i seen (params.map .parameter ++ rest) =
      ofExprs.go body (i + params.length) (params.reverse ++ seen) rest := by
  induction params generalizing i seen with
  | nil => rfl
  | cons p params ih =>
    rw [List.map_cons, List.nodup_cons] at hnodup
    rw [List.forall_mem_cons] at hseen
    have unseen : (seen.any fun q => q.name = p.name) = false := by
      simpa using hseen.1
    have later : ∀ q ∈ params, p.name ≠ q.name := fun q hq heq =>
      hnodup.1 (heq ▸ List.mem_map_of_mem hq)
    have apart : ∀ q ∈ params, ∀ r ∈ p :: seen, r.name ≠ q.name := fun q hq =>
      List.forall_mem_cons.2 ⟨later q hq, hseen.2 q hq⟩
    have others := ih (i := i + 1) hnodup.2 apart
    simp only [List.map_cons, List.cons_append, ofExprs.go, Expr.parameter?, unseen,
      Bool.false_eq_true, if_false, others, List.reverse_cons, List.append_assoc, List.length_cons,
      List.nil_append, Nat.add_assoc, Nat.add_comm 1]

/-- Parameters with names of their own make a lambda. -/
theorem ofExprs_parameters {params : List Param} (body : Expr)
    (hnodup : (params.map Param.name).Nodup) :
    ofExprs (params.map .parameter) body = .ok ⟨params, body⟩ := by
  have passed : ofExprs.go body 0 [] (params.map .parameter ++ []) =
      ofExprs.go body (0 + params.length) (params.reverse ++ []) [] :=
    go_append hnodup (fun _ _ _ hq => (List.not_mem_nil hq).elim) []
  rw [List.append_nil] at passed
  rw [ofExprs, passed, ofExprs.go, List.append_nil, List.reverse_reverse]

/-! ### Bound replacements -/

variable {l : Lambda} {replacements : List Expr}

theorem misfit?_eq_none {params : List Param}
    (h : replacements.map Expr.ty = params.map Param.ty) (i : Nat) :
    misfit? i params replacements = none := by
  induction params generalizing i replacements with
  | nil => rfl
  | cons p params ih =>
    cases replacements with
    | nil => rfl
    | cons e es =>
      obtain ⟨hty, hrest⟩ := List.cons.inj h
      simp only [misfit?, hty, Ty.accepts_self, if_true]
      exact ih hrest (i + 1)

/-- Replacements of the types of the parameters fit. -/
theorem bind_eq_ok (h : replacements.map Expr.ty = l.params.map Param.ty) :
    l.bind replacements =
      .ok ((l.params.zip replacements).map fun (p, e) => (p.id, e)).reverse := by
  have lengths := congrArg List.length h
  rw [List.length_map, List.length_map] at lengths
  rw [bind, if_neg (not_not.2 lengths.symm), misfit?_eq_none h]

/-- Every parameter finds what it is bound to. -/
theorem lookup_of_bind {r : Replacements} (hbind : l.bind replacements = .ok r)
    (hnodup : (l.params.map Param.id).Nodup) :
    List.Forall₂ (fun p e => r.lookup p.id = some e) l.params replacements := by
  unfold bind at hbind
  split at hbind
  · cases hbind
  · next hlength =>
    split at hbind
    · cases hbind
    · cases hbind
      refine List.forall₂_iff_zip.2 ⟨not_not.1 hlength, fun {p e} hmem => ?_⟩
      refine lookup_eq_some_of_mem ?_ ?_
      · have ids : ((l.params.zip replacements).map fun (p, e) => (p.id, e)).map Prod.fst =
            ((l.params.zip replacements).map Prod.fst).map Param.id := by
          rw [List.map_map, List.map_map]
          rfl
        rw [List.map_reverse, List.nodup_reverse, ids,
          List.map_fst_zip (Nat.le_of_eq (not_not.1 hlength))]
        exact hnodup
      · exact List.mem_reverse.2 (List.mem_map.2 ⟨(p, e), hmem, rfl⟩)

end Lambda

/-! ### One rewrite after the other -/

namespace Expr

variable {e t t' : Expr} {base : Nat}

/-- There are no constants where holes are in their places. -/
theorem Replaced.without_constants (h : Replaced IsConstant (IsHole base) e t) :
    Without IsConstant t := by
  induction e using induction_children generalizing t with
  | step e ih =>
    by_cases hroot : e.IsConstant
    · obtain ⟨q, rfl, -⟩ := h.leaf_of_hit hroot
      exact without_iff.2 ⟨fun hq => hq rfl, fun _ hc => nomatch hc⟩
    · have hsame := (h.parallel hroot).1
      refine without_iff.2 ⟨?_, ?_⟩
      · cases hsame <;> exact hroot
      · exact forall_right_of_forall₂ (hsame.children fun _ _ _ _ h => h.2)
          fun c hc _ h => ih c hc h

/-- A parameter in the place of a constant, for which something equal to the constant is put in. -/
def Refilled (r : Replacements) (e t : Expr) : Prop :=
  ∃ q new, t = .parameter q ∧ r.lookup q.id = some new ∧ SameShape false new e

/-- What is put in the places of constants, one rewrite after the other, makes the tree again. The
parameters of the tree were minted before those that stand there meanwhile. -/
theorem Replaced.restored {r : Replacements} (he : e.Supported) (hbelow : e.Below base)
    (hkeys : ∀ {id new}, r.lookup id = some new → base ≤ id)
    (h : Replaced IsConstant (Refilled r) e t) (hput : r.PutIn t t') : SameShape false t' e := by
  induction e using induction_children generalizing t t' with
  | step e ih =>
    obtain ⟨hforeign, hsupported⟩ := supported_iff.1 he
    by_cases hroot : e.IsConstant
    · obtain ⟨q, new, rfl, hnew, hshape⟩ := h.leaf_of_hit hroot
      have hnames : r.Names (.parameter q) := by
        simp [Replacements.Names, Replacements.replace, Replacements.at?, hnew]
      obtain ⟨p, heq, hnew'⟩ := hput.leaf_of_hit hnames
      cases heq
      cases hnew.symm.trans hnew'
      exact hshape
    · have hsame := (h.parallel hroot).1
      have hnames : ¬r.Names t := by
        intro hnames
        obtain ⟨p, new, rfl, hnew⟩ := hnames.exists_lookup
        cases hsame
        exact Nat.not_le.2 hbelow.parameter (hkeys hnew)
      have hsame' := (hput.parallel hnames).1
      have both := forall₂_trans (hsame'.children fun _ _ _ _ h => h.2).flip
        (hsame.children fun _ _ _ _ h => h.2).flip
      have children : List.Forall₂ (SameShape false) t'.children e.children := by
        refine forall₂_imp_of_mem both fun c' _ c hc hcc => ?_
        obtain ⟨d, -, hd', hd⟩ := hcc
        exact ih c hc (hsupported c hc) (hbelow.children c hc) hd hd'
      have nodes := (hsame'.flip.comp hsame.flip).with_children children
      refine Parallel.sameShape (nodes.imp_of_mem (fun _ _ _ _ h => h) ?_) ?_
      · rintro ps ps' b - b' - ⟨⟨qs, d, ⟨rfl, -⟩, rfl, -⟩, hbody⟩
        exact ⟨rfl, hbody⟩
      · rw [← hsame'.foreignKind?_eq, ← hsame.foreignKind?_eq, hforeign]

/-! ### The round trip -/

/-- Constants of one type and value are equal, and so are trees that are such constants. -/
theorem sameShape_constants {c d : Expr} (hd : d.IsConstant) (hty : c.ty = d.ty)
    (hvalue : c.constant? = d.constant?) : SameShape false c d := by
  cases d with
  | constant s v =>
    cases c with
    | constant s' w =>
      cases hvalue
      have alike : Expr.isAlike false (.constant s' v) (.constant s v) = true := by
        rw [isAlike_iff]
        exact ⟨congrArg (fun t => (⟨.constant, t, .none⟩ : Label)) hty, .inr (BEq.refl v)⟩
      exact (sameShape_iff rfl).2 ⟨alike, .nil⟩
    | _ => cases hvalue
  | _ => exact absurd rfl hd

/-- The literals that are put back are equal to the constants that were lifted out. -/
theorem sameShape_literals {x : Extraction} {literals : List Expr} (hx : x.IsOf e)
    (htypes : literals.map ty = x.placeholders.map Param.ty)
    (hvalues : literals.map constant? = x.values.map some) :
    List.Forall₂ (SameShape false) literals e.constantNodes := by
  have types : literals.map ty = e.constantNodes.map ty := htypes.trans hx.types
  have values : literals.map constant? = e.constantNodes.map constant? := by
    rw [hvalues, hx.values]
    exact (map_eq_map_iff.2 e.constantNodes_values).symm
  have both := forall₂_and (map_eq_map_iff.1 types) (map_eq_map_iff.1 values)
  refine forall₂_imp_of_mem both fun c _ d hd h => ?_
  have hd : d.IsConstant := Option.isSome_iff_ne_none.1 (List.mem_filter.1 hd).2
  exact sameShape_constants hd h.1 h.2

/-- **What is lifted out of a tree can be put back.** The body of an extraction has the type of the
tree and no constants, and the values are those of the tree. There are as many placeholders as
values, with names of their own that no parameter of the tree has, so they make a lambda with the
body. If the tree has no foreign constructs, and its parameters were minted before the placeholders,
then substituting constants of the values and the types of the placeholders into the lambda gives
the tree. -/
theorem extractConstants_restores (e : Expr) (s : Supply) :
    let x := ((e.extractConstants : StateM Supply Extraction) s).1
    (∀ d ∈ x.body.preOrder, d.constant? = none) ∧
      x.body.ty = e.ty ∧
      x.values = e.constants ∧
      x.placeholders.length = x.values.length ∧
      (x.placeholders.map Param.name).Nodup ∧
      (∀ p ∈ x.placeholders, p.name ∉ e.parameterNames) ∧
      Lambda.ofExprs (x.placeholders.map .parameter) x.body = .ok ⟨x.placeholders, x.body⟩ ∧
      (e.Below s.next → e.Supported → ∀ literals : List Expr,
        literals.map ty = x.placeholders.map Param.ty →
        literals.map constant? = x.values.map some → ∀ s₁ : Supply,
          ∃ r s₂,
            (Lambda.substitute (m := StateM Supply) ⟨x.placeholders, x.body⟩ literals).run s₁ =
              (.ok r, s₂) ∧
            (r.on x.body).structEq e false = .ok true) := by
  intro x
  have hx : x.IsOf e := extractConstants_isOf e s
  have type : e.ty = x.body.ty := hx.replaced.ty_eq fun ⟨_, heq, hq, _⟩ => heq ▸ hq.symm
  refine ⟨fun d hd => not_not.1 (hx.replaced.without_constants d hd), type.symm, hx.values,
    hx.length_eq, hx.nodup_names, hx.name_notMem,
    Lambda.ofExprs_parameters x.body hx.nodup_names, ?_⟩
  intro hbelow he literals htypes hvalues s₁
  have ids : (∀ p ∈ x.placeholders, s.next ≤ p.id) ∧ (x.placeholders.map Param.id).Nodup :=
    extractConstants_ids e s hbelow
  let l : Lambda := ⟨x.placeholders, x.body⟩
  obtain ⟨r, hbind⟩ : ∃ r, l.bind literals = .ok r := ⟨_, Lambda.bind_eq_ok htypes⟩
  have keys {id : ParamId} {new : Expr} (h : r.lookup id = some new) : s.next ≤ id := by
    obtain ⟨p, hp, rfl⟩ := List.mem_map.1 (Lambda.mem_of_bind hbind h).1
    exact ids.1 p hp
  have refilled : List.Forall₂ (Refilled r) e.constantNodes (e.standIns x.body) := by
    rw [hx.standIns, List.forall₂_map_right_iff]
    have bound := forall₂_trans (Lambda.lookup_of_bind hbind ids.2)
      (sameShape_literals hx htypes hvalues)
    refine bound.flip.imp fun d q h => ?_
    obtain ⟨new, -, hnew, hshape⟩ := h
    exact ⟨q, new, rfl, hnew, hshape⟩
  have hput := (Replacements.from_substitute (V := supplyView) r x.body (s := s₁) trivial).2
  have shape := (hx.replaced.imp_standIns refilled).restored he hbelow keys hput
  refine ⟨_, _, congrFun (Lambda.run_substitute (m := StateM Supply) hbind) s₁, ?_⟩
  exact structEq_eq_ok_true_iff.2 shape

/-- The theorem for `n ?? 1` with a conversion `y => 2`, where `n` has the name of the first
candidate for a placeholder. -/
theorem extractConstants_restores_coalesce :
    let y : Param := ⟨1, 1, "y", .int .i32⟩
    let conversion : Expr :=
      .lambda ⟨2, .func [.int .i32] (.int .i32)⟩ [y] (.constant ⟨3, .int .i32⟩ (.ofInt .i32 2))
    let e : Expr := .binary ⟨4, .int .i32⟩ .coalesce {} none
      (.parameter ⟨0, 0, "p0", .nullable (.int .i32)⟩) (.constant ⟨5, .int .i32⟩ (.ofInt .i32 1))
      (some conversion)
    let x := ((e.extractConstants : StateM Supply Extraction) ⟨6⟩).1
    let literals : List Expr := [.constant ⟨20, .int .i32⟩ (.ofInt .i32 1),
      .constant ⟨21, .int .i32⟩ (.ofInt .i32 2)]
    e.Below 6 ∧ e.Supported ∧ literals.map ty = x.placeholders.map Param.ty ∧
      literals.map constant? = x.values.map some ∧
      ∃ r s₂, (Lambda.substitute (m := StateM Supply) ⟨x.placeholders, x.body⟩ literals).run ⟨22⟩ =
          (.ok r, s₂) ∧
        (r.on x.body).structEq e false = .ok true := by
  intro y conversion e x literals
  have hbelow : e.Below 6 := ⟨by decide, by decide⟩
  have types : literals.map ty = x.placeholders.map Param.ty := by rfl
  have values : literals.map constant? = x.values.map some := by rfl
  obtain ⟨-, -, -, -, -, -, -, restores⟩ := extractConstants_restores e ⟨6⟩
  exact ⟨hbelow, rfl, types, values, restores hbelow rfl literals types values ⟨22⟩⟩

end Expr

end ExprTree
