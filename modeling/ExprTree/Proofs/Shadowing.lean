import ExprTree.Proofs.ArgumentSlots
import ExprTree.Proofs.Isolation
import ExprTree.Proofs.Substitution

/-!
# Lambdas that declare a parameter again

A lambda inside of a tree may declare a parameter that is declared around it. What occurs below is the
inner one: it is not free in the inner lambda, and both evaluators bind it there. The two rewrites that
put something in the place of parameters, substitution and the turn to an argument array, go by
identities alone. What they leave as it was is a tree in which none of the parameters occurs, be it free
or bound.

## Main results

* `Expr.Replaced.at?`: what becomes of the node in some place.
* `Lambda.rewrites_keep`: **a tree is kept in its place if nothing that is replaced is free in it**, or
  both declared and referred to.
* `Lambda.rewrites_replace_shadowed`: an occurrence of an inner parameter is replaced.
-/

set_option autoImplicit false

namespace ExprTree

/-! ### Places of trees with parts replaced -/

namespace Expr

variable {hit : Expr → Prop} {leaf : Expr → Expr → Prop} {e e' x : Expr} {path : List Nat}

/-- Where only leaves are replaced, every place of the tree is one of the new tree as well, and what
stands there is what was there with parts replaced. -/
theorem Replaced.at? (hhit : ∀ d, hit d → d.children = []) (h : Replaced hit leaf e e')
    (hx : e.at? path = some x) : ∃ x', e'.at? path = some x' ∧ Replaced hit leaf x x' := by
  induction path generalizing e e' with
  | nil =>
    cases hx
    exact ⟨e', rfl, h⟩
  | cons i path ih =>
    obtain ⟨c, hc, hx⟩ := Option.bind_eq_some_iff.1 hx
    have hroot : ¬hit e := by
      intro hroot
      rw [hhit e hroot] at hc
      cases hc
    obtain ⟨n, news, rfl, hnews⟩ := (h.parallel hroot).1.exists_rebuild
    obtain ⟨c', hc', hcc⟩ := exists_getElem?_of_forall₂ hnews hc
    obtain ⟨x', hx', hxx⟩ := ih hcc hx
    refine ⟨x', ?_, hxx⟩
    rw [Expr.at?, children_rebuild n hnews.length_eq, hc', Option.bind_some, hx']

/-- A tree with nothing to replace is kept where it is. -/
theorem Replaced.at?_of_without (hhit : ∀ d, hit d → d.children = []) (h : Replaced hit leaf e e')
    (hx : e.at? path = some x) (hidle : Without hit x) : e'.at? path = some x := by
  obtain ⟨x', hx', hxx⟩ := h.at? hhit hx
  rw [hx', (hxx.parallel (without_iff.1 hidle).1).2 hidle]

end Expr

/-! ### The two rewrites -/

namespace Replacements

variable {r : Replacements} {e : Expr}

theorem Names.children_eq_nil (h : r.Names e) : e.children = [] := by
  obtain ⟨p, -, rfl, -⟩ := h.exists_lookup
  rfl

end Replacements

namespace ArgumentArray

variable {places : Positions} {e : Expr}

theorem HasPlace.children_eq_nil (h : HasPlace places e) : e.children = [] := by
  obtain ⟨p, -, rfl, -⟩ := h.exists_position
  rfl

/-- There are no slots in a tree without the parameters. -/
theorem without_of_not_occur {params : List Expr}
    (h : ∀ p ∈ e.occurrences, p.id ∉ (params.filterMap Expr.parameter?).map Param.id) :
    Expr.Without (HasPlace (positions params)) e := by
  intro d hd hplace
  obtain ⟨p, place, rfl, hp⟩ := hplace.exists_position
  rw [getElem?_positions_eq_none (h p (Expr.mem_occurrences hd))] at hp
  cases hp

end ArgumentArray

namespace Lambda

/-- **A tree is kept in its place if nothing that is replaced is free in it**, or both declared and
referred to. Take a tree at some place of a body, such as a lambda, and parameters that are not free in
it, and that it does not refer to where it declares them again. Substitute what fits for the parameters,
or turn them into slots of an argument array: the very same tree stands in the same place. -/
theorem rewrites_keep {body x : Expr} {path : List Nat} (hx : body.at? path = some x)
    {replaced : List ParamId} (hfree : ∀ p ∈ x.freeOccurrences [], p.id ∉ replaced)
    (hbound : ∀ p ∈ x.occurrences, p.id ∈ x.declaredIds → p.id ∉ replaced) :
    (∀ (params : List Param) (replacements : List Expr) (r : Replacements) (w : World),
      params.map Param.id = replaced → Lambda.bind ⟨params, body⟩ replacements = .ok r →
      ∃ res w', (Lambda.substitute (m := WorldM) ⟨params, body⟩ replacements).run w = (.ok res, w') ∧
        (res.on body).at? path = some x) ∧
    ∀ (params : List Expr) (s : Supply),
      (params.filterMap Expr.parameter?).map Param.id = replaced →
      ∃ l s', (ArgumentArray.rewrite body params : StateM Supply Lambda) s = (l, s') ∧
        l.body.at? path = some x := by
  have unreplaced : ∀ p ∈ x.occurrences, p.id ∉ replaced := by
    intro p hp
    rcases Expr.occurrences_free_or_bound x [] p hp with hp' | hp' | hp'
    · exact hfree p hp'
    · cases hp'
    · exact hbound p hp hp'
  constructor
  · rintro params replacements r w rfl hbind
    have plain := (Replacements.from_substitute r body
      (V := Expr.specialiseView w.dispatch w.supply.next) (s := w) ⟨rfl, Nat.le_refl _⟩).2
    have idle := without_of_not_occursIn (e := x) hbind fun ⟨p, hp, hid⟩ => unreplaced p hp hid
    refine ⟨_, _, substitute_run hbind w, ?_⟩
    exact plain.at?_of_without (fun _ => Replacements.Names.children_eq_nil) hx idle
  · rintro params s rfl
    obtain ⟨body', s', hrun, hslotted, -⟩ := ArgumentArray.exists_rewrite body params s
    refine ⟨_, s', hrun, ?_⟩
    exact hslotted.at?_of_without (fun _ => ArgumentArray.HasPlace.children_eq_nil) hx
      (ArgumentArray.without_of_not_occur unreplaced)

/-- The theorem for `x => x ?? 1` with the conversion `y => y + 1`: the conversion is kept. -/
theorem rewrites_keep_conversion :
    let x : Param := ⟨0, 0, "x", .nullable (.int .i32)⟩
    let y : Param := ⟨1, 1, "y", .int .i32⟩
    let one : Expr := .constant ⟨2, .int .i32⟩ (.ofInt .i32 1)
    let conversion : Expr := .lambda ⟨3, .func [.int .i32] (.int .i32)⟩ [y]
      (.binary ⟨4, .int .i32⟩ .add {} none (.parameter y) one none)
    let body : Expr :=
      .binary ⟨5, .int .i32⟩ .coalesce {} none (.parameter x) one (some conversion)
    let null : Expr := .constant ⟨6, .nullable (.int .i32)⟩ .null
    body.at? [2] = some conversion ∧
      (∃ res w, (Lambda.substitute (m := WorldM) ⟨[x], body⟩ [null]).run {} = (.ok res, w) ∧
        (res.on body).at? [2] = some conversion) ∧
      ∃ l s, (ArgumentArray.rewrite body [.parameter x] : StateM Supply Lambda) ⟨7⟩ = (l, s) ∧
        l.body.at? [2] = some conversion := by
  intro x y one conversion body null
  have hx : body.at? [2] = some conversion := rfl
  have keep := @rewrites_keep body conversion [2] hx [0] (by decide) (by decide)
  exact ⟨hx, keep.1 [x] [null] [(0, null)] {} rfl rfl, keep.2 [.parameter x] ⟨7⟩ rfl⟩

/-- Where a lambda declares a parameter again, what occurs in it is replaced all the same. In
`x => (x => x)` the inner lambda is closed, and comes out as `x => 7` or as `x => Convert(args[0], i32)`. -/
theorem rewrites_replace_shadowed :
    let x : Param := ⟨0, 0, "x", .int .i32⟩
    let inner : Expr := .lambda ⟨1, .func [.int .i32] (.int .i32)⟩ [x] (.parameter x)
    let seven : Expr := .constant ⟨2, .int .i32⟩ (.ofInt .i32 7)
    inner.isClosed = true ∧
      (∃ res w, (Lambda.substitute (m := WorldM) ⟨[x], inner⟩ [seven]).run {} = (.ok res, w) ∧
        (res.on inner).at? [0] = some seven) ∧
      ∃ l s, (ArgumentArray.rewrite inner [.parameter x] : StateM Supply Lambda) ⟨3⟩ = (l, s) ∧
        ∃ args slot, l.params = [args] ∧ l.body.at? [0] = some slot ∧
          ArgumentArray.IsSlot args 0 (.int .i32) slot := by
  exact ⟨rfl, ⟨_, _, rfl, rfl⟩, _, _, rfl, _, _, rfl, rfl, _, _, _, _, rfl⟩

end Lambda

end ExprTree
