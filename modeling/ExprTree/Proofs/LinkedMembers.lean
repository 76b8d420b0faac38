import Mathlib.Data.List.TakeWhile
import ExprTree.Proofs.OverrideTables

/-!
# Linked members and lookalikes

A member is linked to a slot if it is the slot or overrides it. Where an interface of the class
declares the slot, a lookalike does as well: a member that has the name and the signature of the
slot, but is not linked to it. Links are meant to go first, and within one class they do. Between
classes the nearer one goes first, whichever of the two it declares. So a class that declares a
lookalike hides the linked members of its bases.

What is answered is therefore the nearest linked member, unless a nearer class declares a lookalike.
Nothing is said of what the bases further up declare, since a lookup does not come to them.

## Main definitions

* `Lookup.Linked`, `Lookup.nearestLinked`: linked members on the base chain of a class.
* `Lookup.Shadowed`: a lookalike stands nearer than any linked member.
* `Lookup.PrefersLink`: what an answer is if some class on the chain declares a linked member.

## Main results

* `Lookup.find_eq_or`: a fresh look finds the shadow of the linked members, and then the nearest of
  these.
* `Lookup.Disciplined.find_eq_nearestLinked`: where overriding is orderly, links do go first.
* `World.resolve_prefersLink`: what classes answer after any history.
* `World.resolve_lookalike`: a linked member that is hidden.
-/

set_option autoImplicit false

namespace ExprTree

namespace Lookup

variable {α : Type} (L : Lookup α)

/-- The first linked member for a slot that a class declares. -/
def linkedOn (slot : α) (c : ClassDef) : Option α :=
  (L.declared c.id).find? fun x => L.implements x slot

/-- The first member with the name and signature of a slot that a class declares. -/
def fittingOn (slot : α) (c : ClassDef) : Option α :=
  (L.declared c.id).find? fun x => L.fits x slot

/-- Some class on the base chain declares a linked member for a slot. -/
def Linked (c : ClassDef) (slot : α) : Prop :=
  ∃ s ∈ c.chain, ∃ x ∈ L.declared s.id, L.implements x slot = true

/-- The linked member for a slot of the nearest class on the base chain that declares one. -/
def nearestLinked (c : ClassDef) (slot : α) : Option α := c.chain.findSome? (L.linkedOn slot)

/-- The classes of the base chain that are nearer than any class with a linked member. -/
def nearer (c : ClassDef) (slot : α) : List ClassDef :=
  c.chain.takeWhile fun s => (L.linkedOn slot s).isNone

/-- A lookalike hides the linked members: an interface of the class declares the slot, and a class
that is nearer than any class with a linked member declares a member with the name and the signature
of the slot. -/
def Shadowed (c : ClassDef) (slot : α) : Prop :=
  L.inInterface c slot = true ∧
    ∃ s ∈ L.nearer c slot, ∃ x ∈ L.declared s.id, L.fits x slot = true

/-- What an answer for a slot is if some class on the base chain declares a linked member: it is the
linked member of the nearest such class as long as that is not hidden, and otherwise it is a member
that only has the name and the signature of the slot. -/
def PrefersLink (c : ClassDef) (slot : α) (answer : Option α) : Prop :=
  L.Linked c slot → ∃ m, L.nearestLinked c slot = some m ∧ L.implements m slot = true ∧
    (answer = some m ↔ ¬ L.Shadowed c slot) ∧
    (L.Shadowed c slot →
      ∃ x, answer = some x ∧ L.fits x slot = true ∧ L.implements x slot = false)

instance (c : ClassDef) (slot : α) : Decidable (L.Linked c slot) :=
  inferInstanceAs (Decidable (∃ s ∈ c.chain, ∃ x ∈ L.declared s.id, _))

instance (c : ClassDef) (slot : α) : Decidable (L.Shadowed c slot) :=
  inferInstanceAs (Decidable (_ ∧ ∃ s ∈ L.nearer c slot, ∃ x ∈ L.declared s.id, _))

variable {L} {c : ClassDef} {slot m x : α}

theorem linkedOn_eq_none {s : ClassDef} :
    L.linkedOn slot s = none ↔ ∀ x ∈ L.declared s.id, L.implements x slot = false := by
  simp [linkedOn]

theorem implements_of_nearestLinked (h : L.nearestLinked c slot = some m) :
    L.implements m slot = true := by
  obtain ⟨s, -, hs⟩ := List.exists_of_findSome?_eq_some h
  have himplements := List.find?_some hs
  exact himplements

theorem nearestLinked_eq_none : L.nearestLinked c slot = none ↔ ¬ L.Linked c slot := by
  simp [nearestLinked, Linked, linkedOn_eq_none]

theorem exists_nearestLinked (h : L.Linked c slot) : ∃ m, L.nearestLinked c slot = some m :=
  Option.ne_none_iff_exists'.1 fun hnone => nearestLinked_eq_none.1 hnone h

/-- Nearer classes declare no linked members. -/
theorem implements_of_mem_nearer {s : ClassDef} (hs : s ∈ L.nearer c slot)
    (hx : x ∈ L.declared s.id) : L.implements x slot = false := by
  have hnone := List.mem_takeWhile_imp hs
  exact linkedOn_eq_none.1 (Option.isNone_iff_eq_none.1 hnone) x hx

/-! ### What a fresh look finds -/

/-- What lookups find on a list of classes: a fitting member that some class declares before any
class declares a linked one, if fitting members count, and else the first linked one. -/
theorem findSome?_on (slot : α) (bySignature : Bool) (classes : List ClassDef) :
    classes.findSome? (L.on slot bySignature) =
      (if bySignature then
        (classes.takeWhile fun s => (L.linkedOn slot s).isNone).findSome? (L.fittingOn slot)
      else none).or (classes.findSome? (L.linkedOn slot)) := by
  induction classes with
  | nil => cases bySignature <;> rfl
  | cons s rest ih =>
    have hon : L.on slot bySignature s = (L.linkedOn slot s).or
        (if bySignature then L.fittingOn slot s else none) := rfl
    rw [List.findSome?_cons, List.findSome?_cons, hon, List.takeWhile_cons]
    cases hlinked : L.linkedOn slot s with
    | some m => cases bySignature <;> rfl
    | none =>
      cases bySignature with
      | false => simpa using ih
      | true =>
        cases hfitting : L.fittingOn slot s with
        | some x => simp [hfitting]
        | none => simpa [hfitting] using ih

/-- The member that hides the linked ones. -/
def shadow (L : Lookup α) (c : ClassDef) (slot : α) : Option α :=
  if L.inInterface c slot then (L.nearer c slot).findSome? (L.fittingOn slot) else none

/-- **A fresh look finds what hides the linked members**, and the nearest of these if nothing
does. -/
theorem find_eq_or (c : ClassDef) (slot : α) :
    L.find c slot = (L.shadow c slot).or (L.nearestLinked c slot) :=
  findSome?_on slot (L.inInterface c slot) c.chain

theorem shadow_eq_none : L.shadow c slot = none ↔ ¬ L.Shadowed c slot := by
  simp only [shadow, Shadowed]
  split
  · next hin => simp [hin, fittingOn]
  · next hin => simp [hin]

theorem of_shadow (h : L.shadow c slot = some x) :
    L.fits x slot = true ∧ L.implements x slot = false := by
  rw [shadow] at h
  split at h
  · obtain ⟨s, hs, hx⟩ := List.exists_of_findSome?_eq_some h
    have hfits := List.find?_some hx
    exact ⟨hfits, implements_of_mem_nearer hs (List.mem_of_find?_eq_some hx)⟩
  · cases h

/-- A fresh look prefers links, but for those that are hidden. -/
theorem find_prefersLink (c : ClassDef) (slot : α) : L.PrefersLink c slot (L.find c slot) := by
  intro hlinked
  obtain ⟨m, hm⟩ := exists_nearestLinked hlinked
  have himplements := implements_of_nearestLinked hm
  refine ⟨m, hm, himplements, ?_⟩
  rw [find_eq_or, hm]
  cases hshadow : L.shadow c slot with
  | none =>
    have hclear := shadow_eq_none.1 hshadow
    exact ⟨iff_of_true rfl hclear, fun h => (hclear h).elim⟩
  | some x =>
    have hshadowed : L.Shadowed c slot := by
      by_contra hclear
      rw [shadow_eq_none.2 hclear] at hshadow
      cases hshadow
    obtain ⟨hfits, hnot⟩ := of_shadow hshadow
    have hne : some x ≠ some m := by
      rintro ⟨⟩
      rw [hnot] at himplements
      cases himplements
    exact ⟨iff_of_false hne (not_not_intro hshadowed), fun _ => ⟨x, rfl, hfits, hnot⟩⟩

/-! ### Orderly overriding -/

theorem nearestLinked_eq (c : ClassDef) (slot : α) :
    L.nearestLinked c slot = (L.linkedOn slot c).or
      ((c.base.toList.flatMap ClassDef.chain).findSome? (L.linkedOn slot)) := by
  rw [nearestLinked, ClassDef.chain_eq, List.findSome?_cons]
  cases L.linkedOn slot c <;> rfl

/-- **Where overriding is orderly, links go first.** An implementation overrides the one that it
hides, and what overrides a linked member is linked itself. -/
theorem Disciplined.find_eq_nearestLinked {classes : ClassDef → Prop} (h : L.Disciplined classes)
    (hc : classes c) (hslot : L.IsSlot classes slot) (hlinked : L.Linked c slot) :
    L.find c slot = L.nearestLinked c slot := by
  induction c using ClassDef.induction_supertypes with
  | step c hbase _ =>
    have hon : L.on slot (L.inInterface c slot) c = (L.linkedOn slot c).or
        (if L.inInterface c slot then L.fittingOn slot c else none) := rfl
    rw [find_eq, nearestLinked_eq, hon]
    cases hlinkedOn : L.linkedOn slot c with
    | some m => rfl
    | none =>
      -- the linked member is declared further up
      obtain ⟨s, hs, y, hy, himplements⟩ := hlinked
      rcases ClassDef.mem_chain.1 hs with rfl | ⟨b, hb, hsb⟩
      · rw [linkedOn_eq_none.1 hlinkedOn y hy] at himplements
        cases himplements
      have hb' : classes b := h.hierarchy.mem_base hc hb
      have hlinked : L.Linked b slot := ⟨s, hsb, y, hy, himplements⟩
      obtain ⟨m, hm⟩ := exists_nearestLinked hlinked
      have hfind : L.find b slot = some m := (hbase b hb hb' hlinked).trans hm
      have hchain : c.base.toList.flatMap ClassDef.chain = b.chain := by
        rw [Option.mem_def.1 hb]
        simp
      have hm' : b.chain.findSome? (L.linkedOn slot) = some m := hm
      rw [hchain, h.findSome?_base hc hb hslot hfind, hm', Option.none_or, Option.none_or]
      cases hfitting : (if L.inInterface c slot then L.fittingOn slot c else none) with
      | none => rfl
      | some x =>
        rw [hlinkedOn, hfitting, Option.none_or] at hon
        obtain ⟨hx, hstands⟩ := mem_of_on hon
        obtain ⟨k, hk, hmk, -⟩ := exists_of_find hfind
        have hxm := h.overrides hc hb hslot hx hstands hfind
        have hxs := h.trans ⟨c, hc, hx⟩ ⟨k, h.hierarchy.chain hb' hk, hmk⟩ hslot hxm
          (implements_of_nearestLinked hm)
        rw [linkedOn_eq_none.1 hlinkedOn x hx] at hxs
        cases hxs

end Lookup

/-! ### What classes answer -/

/-- What holds of every fresh look holds of every answer, as of some moment since the class last
declared something, and as of now unless the answer is outdated. -/
theorem Entry.Lawful.of_fresh {α : Type} {E : Entry α} (h : E.Lawful) {P : World → Option α → Prop}
    (hP : ∀ w, P w (E.fresh w)) {w : World} (hw : E.kept w = none) (steps : List ClassStep) :
    (∃ before after, steps = before ++ after ∧ (∀ x ∈ after, ¬ E.Clears x) ∧
      P (w.after before) (E.answer (w.after steps))) ∧
    (¬ E.Outdated steps → P (w.after steps) (E.answer (w.after steps))) := by
  obtain ⟨⟨before, after, hsteps, hafter, hthen⟩, hnow⟩ := h.answer_after hw steps
  refine ⟨⟨before, after, hsteps, hafter, ?_⟩, fun houtdated => ?_⟩
  · rw [hthen]
    exact hP _
  · rw [hnow houtdated]
    exact hP _

namespace World

variable {w : World}

/-- **Links go first, unless they are hidden.** After any history, if some class on the base chain
declares a member linked to a slot, then a class answers with the linked member of the nearest such
class exactly if no nearer class declares a lookalike for a slot of an interface, and with a
lookalike if one does. An answer that the override table holds may go by what was declared when it
was given, which was after the class itself last declared a member of the sort. -/
theorem resolve_prefersLink (hw : w.cleared = w) (steps : List ClassStep) (c : ClassDef) :
    (∀ slot : MethodDef,
      (∃ before after, steps = before ++ after ∧ (∀ x ∈ after, ¬ x.DeclaresMethod c.id) ∧
        (w.after before).methodLookup.PrefersLink c slot
          (c.resolveMethod slot (w.after steps)).1) ∧
      (¬ (methodEntry c slot).Outdated steps →
        (w.after steps).methodLookup.PrefersLink c slot
          (c.resolveMethod slot (w.after steps)).1)) ∧
    ∀ slot : MemberDef,
      (∃ before after, steps = before ++ after ∧ (∀ x ∈ after, ¬ x.DeclaresMember c.id) ∧
        (w.after before).memberLookup.PrefersLink c slot
          (c.resolveMember slot (w.after steps)).1) ∧
      (¬ (memberEntry c slot).Outdated steps →
        (w.after steps).memberLookup.PrefersLink c slot
          (c.resolveMember slot (w.after steps)).1) := by
  constructor <;> intro slot
  · have hkept : (methodEntry c slot).kept w = none := by rw [← hw]; rfl
    have prefers (w' : World) :
        w'.methodLookup.PrefersLink c slot ((methodEntry c slot).fresh w') := by
      change w'.methodLookup.PrefersLink c slot (w'.findMethod c slot)
      rw [findMethod_eq]
      exact Lookup.find_prefersLink c slot
    rw [resolveMethod_fst]
    exact (methodEntry_lawful c slot).of_fresh prefers hkept steps
  · have hkept : (memberEntry c slot).kept w = none := by rw [← hw]; rfl
    have prefers (w' : World) :
        w'.memberLookup.PrefersLink c slot ((memberEntry c slot).fresh w') := by
      change w'.memberLookup.PrefersLink c slot (w'.findMember c slot)
      rw [findMember_eq]
      exact Lookup.find_prefersLink c slot
    rw [resolveMember_fst]
    exact (memberEntry_lawful c slot).of_fresh prefers hkept steps

/-- The theorem where a base class declares a linked member and a lookalike. -/
theorem resolve_prefersLink_base :
    let shape : ClassDef := ⟨0, "IShape", .interface, none, []⟩
    let base : ClassDef := ⟨1, "Base", .concrete, none, [shape]⟩
    let derived : ClassDef := ⟨2, "Derived", .concrete, some base, []⟩
    let area : MethodDef := ⟨0, "Area", [], .void, {}, [], none⟩
    let lookalike : MethodDef := ⟨1, "Area", [], .void, {}, [], none⟩
    let linked : MethodDef := ⟨2, "IShape.Area", [], .void, {}, [0], none⟩
    let steps : List ClassStep :=
      [.addMethod shape area, .addMethod base lookalike, .addMethod base linked]
    ({} : World).cleared = {} ∧ ¬ (methodEntry derived area).Outdated steps ∧
      (derived.resolveMethod area (World.after {} steps)).1 = some linked := by
  intro shape base derived area lookalike linked steps
  have hfresh : ¬ (methodEntry derived area).Outdated steps := by
    rintro ⟨after, hsuffix, -⟩
    simp [steps, methodEntry, List.suffix_cons_iff] at hsuffix
  have hlinked : (World.after {} steps).methodLookup.Linked derived area := by decide
  have hnearest : (World.after {} steps).methodLookup.nearestLinked derived area = some linked := by
    decide
  have hclear : ¬ (World.after {} steps).methodLookup.Shadowed derived area := by decide
  obtain ⟨m, hm, -, hanswer, -⟩ :=
    ((resolve_prefersLink rfl steps derived).1 area).2 hfresh hlinked
  obtain rfl : linked = m := Option.some.inj (hnearest.symm.trans hm)
  exact ⟨rfl, hfresh, hanswer.2 hclear⟩

/-- A class answers with its own lookalikes, although its base declares members that are linked to
the slots. -/
theorem resolve_lookalike :
    let shape : ClassDef := ⟨0, "IShape", .interface, none, []⟩
    let base : ClassDef := ⟨1, "Base", .concrete, none, [shape]⟩
    let derived : ClassDef := ⟨2, "Derived", .concrete, some base, []⟩
    let area : MethodDef := ⟨0, "Area", [], .void, {}, [], none⟩
    let linkedArea : MethodDef := ⟨1, "IShape.Area", [], .void, {}, [0], none⟩
    let plainArea : MethodDef := ⟨2, "Area", [], .void, {}, [], none⟩
    let size : MemberDef := ⟨3, "Size", .property, .int .i32, {}, [], none⟩
    let linkedSize : MemberDef := ⟨4, "IShape.Size", .property, .int .i32, {}, [3], none⟩
    let plainSize : MemberDef := ⟨5, "Size", .property, .int .i32, {}, [], none⟩
    let w : World := World.after {}
      [.addMethod shape area, .addMethod base linkedArea, .addMethod derived plainArea,
        .addMember shape size, .addMember base linkedSize, .addMember derived plainSize]
    (w.methodLookup.nearestLinked derived area = some linkedArea ∧
      (derived.resolveMethod area w).1 = some plainArea ∧
      w.methodLookup.implements plainArea area = false) ∧
    w.memberLookup.nearestLinked derived size = some linkedSize ∧
      (derived.resolveMember size w).1 = some plainSize ∧
      w.memberLookup.implements plainSize size = false := by
  decide

end World

end ExprTree
