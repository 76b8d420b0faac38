import ExprTree.Proofs.OverrideTables
import ExprTree.Proofs.Shadowing

/-!
# The static types of substituted trees

A replacement is assignable to its parameter, and what is built over new children keeps its type. So
the type of a tree with replacements put in is assignable to that of the tree, and the same goes for
every node. Specialising changes types in two more ways. A cast that is dropped leaves its operand,
which was found to be assignable. A member that is looked up again gives the node the type of what is
found, and nothing is asked of that type: an override may be linked to a slot of any type, and a method
of an interface is found by its name and parameters. An occurrence of a parameter has a type of its own
as well. What is asked here of the tree and of the declared members is what the code leaves open.

## Main definitions

* `Expr.FitsAt`: what is asked of a node, and of the members declared for it.
* `Expr.Narrows`: one tree is what specialising makes of another, with types that are assignable at
  every node.

## Main results

* `Lambda.substitute_narrows`: **both forms of substitution keep to the static types**, at every node.
* `Lambda.substitute_widens`: an occurrence of a narrower type than its parameter widens both forms, and
  an override of another type the specialising one.
-/

set_option autoImplicit false

namespace ExprTree

open EvalM

namespace Expr

/-! ### What is asked of nodes -/

/-- What is put in for a parameter is assignable to the type of the occurrence, and what classes offer
for the member of an instance access is of a type that is assignable to the access, if something is
replaced there. -/
structure FitsAt (w : World) (r : Replacements) (e : Expr) : Prop where
  parameter : ∀ {p new}, e = .parameter p → r.lookup p.id = some new → p.ty.accepts new.ty = true
  member : ∀ {s x m}, e = .member s (some x) m → m.flags.isStatic = false → ¬Without r.Names e →
    ∀ {c m'}, w.memberLookup.Offers c m m' → s.ty.accepts m'.ty = true
  call : ∀ {s x m as}, e = .call s (some x) m as → m.flags.isStatic = false → ¬Without r.Names e →
    ∀ {c m'}, w.methodLookup.Offers c m m' → s.ty.accepts m'.ret = true

variable {w : World} {r : Replacements} {d : Dispatch} {bound : NodeId} {e e₁ e' : Expr}

theorem fitsAt_parameter {p : Param}
    (h : ∀ new, r.lookup p.id = some new → p.ty.accepts new.ty = true) :
    (parameter p).FitsAt w r where
  parameter {q new} heq hnew := by
    cases heq
    exact h new hnew
  member heq := nomatch heq
  call heq := nomatch heq

theorem fitsAt_call {s : Stamp} {x : Option Expr} {m : MethodDef} {as : List Expr}
    (h : m.flags.isStatic = false → ∀ c m', w.methodLookup.Offers c m m' →
      s.ty.accepts m'.ret = true) : (call s x m as).FitsAt w r where
  parameter heq := nomatch heq
  member heq := nomatch heq
  call heq hstatic _ c m' := by
    cases heq
    exact h hstatic c m'

/-- The type of what specialising makes of a node is assignable to that of the node. -/
theorem Respecialised.accepts (h : Respecialised d bound e e₁ e') (hty : e.ty = e₁.ty)
    (he : e.FitsAt w r) (hsome : ¬Without r.Names e)
    (hmethods : ∀ {c slot m}, d.method c slot = some m → w.methodLookup.Offers c slot m)
    (hmembers : ∀ {c slot m}, d.member c slot = some m → w.memberLookup.Offers c slot m) :
    e.ty.accepts e'.ty = true := by
  cases h with
  | asIs => rw [hty, Ty.accepts_self]
  | member heq hstatic hc hm hne hn =>
    subst heq
    exact he.member rfl hstatic hsome (hmembers hm)
  | call heq hstatic hc hm hn =>
    subst heq
    exact he.call rfl hstatic hsome (hmethods hm)
  | @cast s s' op old x heq hop haccepts =>
    subst heq
    unfold Rewritten.replacing
    split
    · exact Ty.accepts_self _
    · exact haccepts

/-! ### Types at every node -/

/-- The second tree is what specialising makes of the first, and the type of what it makes of any node
is assignable to that of the node. -/
def Narrows (d : Dispatch) (bound : NodeId) (r : Replacements) : Expr → Expr → Prop :=
  fold fun e below e' => e.ty.accepts e'.ty = true ∧
    ((∃ p, e = .parameter p ∧ r.lookup p.id = some e') ∨
      (¬r.Names e ∧ ∃ n news, List.Forall₂ (fun P c => P c) (below ()) news ∧
        Respecialised d bound e (e.rebuild n news) e'))

theorem narrows_iff : Narrows d bound r e e' ↔ e.ty.accepts e'.ty = true ∧
    ((∃ p, e = .parameter p ∧ r.lookup p.id = some e') ∨
      (¬r.Names e ∧ ∃ n news, List.Forall₂ (Narrows d bound r) e.children news ∧
        Respecialised d bound e (e.rebuild n news) e')) := by
  rw [Narrows, fold_eq]
  simp only [List.forall₂_map_left_iff]

/-- A tree in which nothing is replaced is what specialising makes of it. -/
theorem Narrows.self (h : Without r.Names e) : Narrows d bound r e e := by
  induction e using induction_children with
  | step e ih =>
    obtain ⟨hroot, hbelow⟩ := without_iff.1 h
    refine narrows_iff.2 ⟨Ty.accepts_self _, .inr ⟨hroot, e.node, e.children, ?_, ?_⟩⟩
    · exact List.forall₂_same.2 fun c hc => ih c hc (hbelow c hc)
    · rw [rebuild_children]
      exact .asIs e

end Expr

/-! ### Both forms of substitution -/

namespace Replacements

variable {w : World} {r : Replacements} {e e' x : Expr} {path : List Nat}

/-- With replacements put in, something of an assignable type stands wherever something stood. -/
theorem PutIn.accepts_at? (h : r.PutIn e e') (he : ∀ x ∈ e.preOrder, x.FitsAt w r)
    (hx : e.at? path = some x) :
    ∃ x', e'.at? path = some x' ∧ x.ty.accepts x'.ty = true := by
  obtain ⟨x', hx', hput⟩ := h.at? (fun _ => Names.children_eq_nil) hx
  refine ⟨x', hx', ?_⟩
  by_cases hnames : r.Names x
  · obtain ⟨p, rfl, hnew⟩ := hput.leaf_of_hit hnames
    exact (he _ (Expr.mem_preOrder_of_at? hx)).parameter rfl hnew
  · rw [(hput.parallel hnames).1.ty_eq]
    exact Ty.accepts_self _

end Replacements

namespace Lambda

variable {w : World} {r : Replacements}

/-- What specialising makes of a tree, if what lookups answer is offered. -/
theorem from_specialise_narrows (e : Expr)
    (hmethods : ∀ {c slot m}, w.dispatch.method c slot = some m → w.methodLookup.Offers c slot m)
    (hmembers : ∀ {c slot m}, w.dispatch.member c slot = some m → w.memberLookup.Offers c slot m)
    {s : World} (hs : (Expr.specialiseView w.dispatch w.supply.next).Inv s) :
    (Expr.specialiseView w.dispatch w.supply.next).From s (e.rewrite r.replace Expr.respecialise)
      fun _ res => (∀ x ∈ e.preOrder, x.FitsAt w r) →
        Expr.Narrows w.dispatch w.supply.next r e (res.on e) := by
  refine StateView.from_rewrite (T := fun _ e e' => (∀ x ∈ e.preOrder, x.FitsAt w r) →
    Expr.Narrows w.dispatch w.supply.next r e e') (fun _ _ _ h => h) Expr.respecialise_kept ?_ ?_ ?_
    e hs
  · intro e hidle _ _
    rw [Replacements.replace_ne_none] at hidle
    exact .self hidle
  · intro e answer hanswer s _
    refine Replacements.from_replace (T := fun _ e e' => (∀ x ∈ e.preOrder, x.FitsAt w r) →
      Expr.Narrows w.dispatch w.supply.next r e e') (fun p new heq hnew he => ?_) hanswer
    have haccepts := (he e (Expr.mem_preOrder_self e)).parameter heq hnew
    subst heq
    exact Expr.narrows_iff.2 ⟨haccepts, .inl ⟨p, rfl, hnew⟩⟩
  · intro e hnone hsome s res hs hchildren _
    rw [Replacements.replace_ne_none] at hsome
    obtain ⟨n, news, hres, hnews⟩ := hchildren.exists_rebuild
    refine (Expr.from_respecialise hs rfl hchildren).imp fun _ res' _ h he => ?_
    have haccepts := h.accepts hchildren.ty_eq (he e (Expr.mem_preOrder_self e)) hsome hmethods
      hmembers
    refine Expr.narrows_iff.2 ⟨haccepts, .inr ⟨not_not.2 hnone, n, news, ?_, hres ▸ h⟩⟩
    refine forall₂_imp_of_mem hnews fun c hc c' _ hcc => hcc fun x hx => he x ?_
    exact Expr.mem_preOrder_trans (Expr.mem_preOrder_of_mem_children hc) hx

/-- **Both forms of substitution keep to the static types.** Whatever was declared and looked up before,
let replacements fit the parameters of a lambda and the occurrences of these, and let all that classes
offer for the members in the body be of types that the body accepts. The type of the body accepts that of
what substitution makes of it, in the plain form and in the specialising one, and so it is at every node:
in the plain form nodes keep their places, and in the specialising one they are what `Expr.Narrows` tells
them to be. -/
theorem substitute_narrows {l : Lambda} {replacements : List Expr} (hbind : l.bind replacements = .ok r)
    (hw : w.cleared = w) (steps : List ClassStep)
    (hfits : ∀ x ∈ l.body.preOrder, x.FitsAt (w.after steps) r) :
    ∃ simple special w₁ w₂,
      (l.substitute (m := WorldM) replacements).run (w.after steps) = (.ok simple, w₁) ∧
      (l.specialise replacements).run (w.after steps) = (.ok special, w₂) ∧
      l.body.ty.accepts (simple.on l.body).ty = true ∧
      l.body.ty.accepts (special.on l.body).ty = true ∧
      (∀ path x, l.body.at? path = some x →
        ∃ x', (simple.on l.body).at? path = some x' ∧ x.ty.accepts x'.ty = true) ∧
      Expr.Narrows (w.after steps).dispatch (w.after steps).supply.next r l.body
        (special.on l.body) := by
  have hs : (Expr.specialiseView (w.after steps).dispatch (w.after steps).supply.next).Inv
      (w.after steps) := ⟨rfl, Nat.le_refl _⟩
  have plain := (Replacements.from_substitute r l.body hs).2
  have specialised := (from_specialise_narrows l.body
    (fun hm => (World.offers_of_dispatch_after hw steps _).1 _ _ hm)
    (fun hm => (World.offers_of_dispatch_after hw steps _).2 _ _ hm) hs).2 hfits
  refine ⟨_, _, _, _, substitute_run hbind _, specialise_run hbind _, ?_,
    (Expr.narrows_iff.1 specialised).1, fun path x hx => plain.accepts_at? hfits hx, specialised⟩
  have root : l.body.at? [] = some l.body := rfl
  obtain ⟨x', hx', haccepts⟩ := plain.accepts_at? hfits root
  cases hx'
  exact haccepts

/-- The theorem for `b => b.m()` and a replacement of a derived class, which overrides `m` by a method
that returns text in the place of an object. -/
theorem substitute_narrows_override :
    let base : ClassDef := ⟨0, "Base", .concrete, none, []⟩
    let derived : ClassDef := ⟨1, "Derived", .concrete, some base, []⟩
    let m : MethodDef := ⟨0, "m", [], .object, {}, [], none⟩
    let n : MethodDef := ⟨1, "m", [], .str, {}, [0], none⟩
    let w : World := { supply := ⟨3⟩ }
    let steps : List ClassStep := [.addMethod base m, .addMethod derived n]
    let b : Param := ⟨0, 0, "b", .ofClass base⟩
    let d : Param := ⟨1, 1, "d", .ofClass derived⟩
    let l : Lambda := ⟨[b], .call ⟨2, .object⟩ (some (.parameter b)) m []⟩
    let special : Expr := .call ⟨4, .str⟩ (some (.parameter d)) n []
    w.cleared = w ∧
      (∀ x ∈ l.body.preOrder, x.FitsAt (w.after steps) [(0, .parameter d)]) ∧
      (∃ w', (l.specialise [.parameter d]).run (w.after steps) = (.ok (.changed special), w')) ∧
      l.body.ty.accepts special.ty = true := by
  intro base derived m n w steps b d l special
  have hfits : ∀ x ∈ l.body.preOrder, x.FitsAt (w.after steps) [(0, .parameter d)] := by
    have nodes : l.body.preOrder = [l.body, .parameter b] := rfl
    have body : l.body.FitsAt (w.after steps) [(0, .parameter d)] :=
      Expr.fitsAt_call fun _ _ _ _ => Ty.object_accepts _
    have receiver : (Expr.parameter b).FitsAt (w.after steps) [(0, .parameter d)] := by
      refine Expr.fitsAt_parameter fun new hnew => ?_
      cases hnew
      rfl
    rw [nodes]
    exact List.forall_mem_cons.2 ⟨body, List.forall_mem_singleton.2 receiver⟩
  have hbind : l.bind [.parameter d] = .ok [(0, .parameter d)] := rfl
  obtain ⟨_, _, _, w₂, -, hspecial, -, haccepts, -⟩ := substitute_narrows hbind rfl steps hfits
  have hspecial' :
      (l.specialise [.parameter d]).run (w.after steps) = (.ok (.changed special), _) := rfl
  cases hspecial'.symm.trans hspecial
  exact ⟨rfl, hfits, ⟨_, hspecial'⟩, haccepts⟩

/-- Where types are not assignable, substitution does not keep to them. In `x => x` the occurrence may be
an `i32` where the parameter is an object, and an object is put in, in both forms. In `b => b.m()` the
specialised call is text where the plain one is an `i32`, if an override of `m` is linked to it that
returns text. -/
theorem substitute_widens :
    let x : Param := ⟨0, 0, "x", .object⟩
    let occurrence : Expr := .parameter ⟨1, 0, "x", .int .i32⟩
    let anything : Expr := .constant ⟨2, .object⟩ (.ofInt .i32 5)
    let base : ClassDef := ⟨0, "Base", .concrete, none, []⟩
    let derived : ClassDef := ⟨1, "Derived", .concrete, some base, []⟩
    let m : MethodDef := ⟨0, "m", [], .int .i32, {}, [], none⟩
    let n : MethodDef := ⟨1, "n", [], .str, {}, [0], none⟩
    let w : World := World.after { supply := ⟨3⟩ } [.addMethod base m, .addMethod derived n]
    let b : Param := ⟨0, 0, "b", .ofClass base⟩
    let d : Param := ⟨1, 1, "d", .ofClass derived⟩
    let l : Lambda := ⟨[b], .call ⟨2, .int .i32⟩ (some (.parameter b)) m []⟩
    (Lambda.ofExprs [.parameter x] occurrence = .ok ⟨[x], occurrence⟩ ∧
      ∃ simple special w₁ w₂,
        (Lambda.substitute (m := WorldM) ⟨[x], occurrence⟩ [anything]).run w = (.ok simple, w₁) ∧
        (Lambda.specialise ⟨[x], occurrence⟩ [anything]).run w = (.ok special, w₂) ∧
        occurrence.ty.accepts (simple.on occurrence).ty = false ∧
        occurrence.ty.accepts (special.on occurrence).ty = false) ∧
      ∃ special w₁, (l.specialise [.parameter d]).run w = (.ok special, w₁) ∧
        l.body.ty.accepts (special.on l.body).ty = false := by
  intro x occurrence anything base derived m n w b d l
  refine ⟨⟨rfl, _, _, _, _, rfl, rfl, by decide, by decide⟩, _, _, rfl, ?_⟩
  decide

end Lambda

end ExprTree
