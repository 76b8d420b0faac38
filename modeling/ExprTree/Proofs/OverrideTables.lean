import Mathlib.Data.List.Induction
import ExprTree.Proofs.Overriding

/-!
# How long override tables hold

A class notes what it found for a slot, and forgets its notes when it declares a member of the same
sort. What it found depends on everything it derives from, though, and a member that is declared
further up leaves the notes as they are. So an answer is the one that a fresh look would have given
at some moment since the class itself last declared a member, and it is the answer of the present
moment if no supertype has declared anything since the class was first asked.

Both sorts of members have tables of their own, which work alike. An `Entry` is what one table says
about one slot, together with the steps that bear on it, and what holds of a history is proved for
entries.

## Main definitions

* `ClassStep`, `World.after`: declarations and lookups, in any order.
* `World.cleared`: the world with all tables empty.
* `Entry`: what a table says about one slot.
* `Entry.Outdated`: the class was asked for the slot, and since then supertypes of it have declared
  members of the sort and the class itself has not.

## Main results

* `Entry.Lawful.kept_apply`, `Entry.Lawful.kept_after`: what a step and a history leave in a table.
* `World.resolve_after`: what a class answers after any history.
* `World.resolve_after_outdated`: an answer that a fresh look would no longer give.
* `World.offers_of_dispatch_after`: an answer is a member that was declared and stands for the slot.
-/

set_option autoImplicit false

namespace ExprTree

/-! ### Histories -/

/-- A declaration on a class, or a lookup. -/
inductive ClassStep where
  | addMethod (c : ClassDef) (m : MethodDef)
  | addMember (c : ClassDef) (m : MemberDef)
  | resolveMethod (c : ClassDef) (slot : MethodDef)
  | resolveMember (c : ClassDef) (slot : MemberDef)

namespace ClassStep

/-- The world after a step. -/
def apply : ClassStep → World → World
  | addMethod c m, w => (c.addMethod m w).2
  | addMember c m, w => (c.addMember m w).2
  | resolveMethod c slot, w => (c.resolveMethod slot w).2
  | resolveMember c slot, w => (c.resolveMember slot w).2

/-- Whether a step declares a method on the class of an identity. -/
def DeclaresMethod (i : ClassId) : ClassStep → Prop
  | addMethod c _ => c.id = i
  | _ => False

/-- Whether a step declares a field or property on the class of an identity. -/
def DeclaresMember (i : ClassId) : ClassStep → Prop
  | addMember c _ => c.id = i
  | _ => False

end ClassStep

namespace World

/-- The world after a history, earliest step first. -/
def after (w : World) (steps : List ClassStep) : World := steps.foldl (fun w x => x.apply w) w

@[simp] theorem after_nil (w : World) : w.after [] = w := rfl

theorem after_append (w : World) (before after : List ClassStep) :
    w.after (before ++ after) = (w.after before).after after :=
  List.foldl_append

@[simp] theorem after_concat (w : World) (steps : List ClassStep) (x : ClassStep) :
    w.after (steps ++ [x]) = x.apply (w.after steps) :=
  w.after_append steps [x]

/-- The world with all tables empty. -/
def cleared (w : World) : World :=
  { w with declared := fun i =>
      { w.declared i with methodSlots := fun _ _ => none, memberSlots := fun _ _ => none } }

/-- With all tables empty, a class answers as a fresh look does. -/
theorem resolveMethod_cleared (c : ClassDef) (slot : MethodDef) (w : World) :
    (c.resolveMethod slot w.cleared).1 = w.findMethod c slot :=
  findMethod_congr (fun _ => rfl) c slot

theorem resolveMember_cleared (c : ClassDef) (slot : MemberDef) (w : World) :
    (c.resolveMember slot w.cleared).1 = w.findMember c slot :=
  findMember_congr (fun _ => rfl) c slot

end World

/-! ### Entries -/

/-- What the table of a class says about one slot. -/
structure Entry (α : Type) where
  cls : ClassDef
  kept : World → Option (Option α)
  /-- What a fresh look finds. -/
  fresh : World → Option α
  /-- The lookup that consults the entry. -/
  ask : ClassStep
  /-- The declarations on a class that concern the slot. -/
  declares : ClassId → ClassStep → Prop

namespace Entry

variable {α : Type} {E : Entry α}

/-- What the class answers. -/
def answer (E : Entry α) (w : World) : Option α := (E.kept w).getD (E.fresh w)

/-- Whether the class forgets its answer at a step. -/
def Clears (E : Entry α) (x : ClassStep) : Prop := E.declares E.cls.id x

/-- Whether a fresh look may find something else after a step. -/
def Disturbs (E : Entry α) (x : ClassStep) : Prop := ∃ s ∈ E.cls.supertypes, E.declares s.id x

/-- The class was asked, and since then supertypes of it have declared something, and the class
itself has not. -/
def Outdated (E : Entry α) (steps : List ClassStep) : Prop :=
  ∃ after, E.ask :: after <:+ steps ∧ (∃ x ∈ after, E.Disturbs x) ∧ ∀ x ∈ after, ¬ E.Clears x

/-- What single steps do to an entry. -/
structure Lawful (E : Entry α) : Prop where
  ask : ¬ E.Disturbs E.ask
  kept_clears : ∀ {x}, E.Clears x → ∀ w, E.kept (x.apply w) = none
  kept_ask : ∀ w, E.kept (E.ask.apply w) = some (E.answer w)
  kept_other : ∀ {x}, ¬ E.Clears x → x ≠ E.ask → ∀ w, E.kept (x.apply w) = E.kept w
  fresh : ∀ {x}, ¬ E.Disturbs x → ∀ w, E.fresh (x.apply w) = E.fresh w

namespace Lawful

variable (h : E.Lawful)
include h

/-- What a step leaves in a table: nothing, what was there, or what a fresh look finds. -/
theorem kept_apply (x : ClassStep) (w : World) :
    E.kept (x.apply w) = none ∨
      ¬ E.Clears x ∧ (E.kept (x.apply w) = E.kept w ∨
        x = E.ask ∧ E.kept (x.apply w) = some (E.fresh w)) := by
  by_cases hclears : E.Clears x
  · exact .inl (h.kept_clears hclears w)
  refine .inr ⟨hclears, ?_⟩
  by_cases hask : x = E.ask
  · subst hask
    rw [h.kept_ask, answer]
    cases E.kept w with
    | none => exact .inr ⟨rfl, rfl⟩
    | some answer => exact .inl rfl
  · exact .inl (h.kept_other hclears hask w)

/-- What a history leaves in a table: nothing, or what a fresh look found when the class was
asked. -/
theorem kept_after {w : World} (hw : E.kept w = none) (steps : List ClassStep) :
    E.kept (w.after steps) = none ∨ ∃ before after, steps = before ++ E.ask :: after ∧
      (∀ x ∈ after, ¬ E.Clears x) ∧ E.kept (w.after steps) = some (E.fresh (w.after before)) := by
  induction steps using List.reverseRecOn with
  | nil => exact .inl hw
  | append_singleton steps x ih =>
    rw [World.after_concat]
    rcases h.kept_apply x (w.after steps) with hnone | ⟨hclears, hsame | ⟨rfl, hfresh⟩⟩
    · exact .inl hnone
    · rw [hsame]
      refine ih.imp_right ?_
      rintro ⟨before, after, rfl, hafter, hkept⟩
      refine ⟨before, after ++ [x], by simp, ?_, hkept⟩
      exact List.forall_mem_append.2 ⟨hafter, List.forall_mem_singleton.2 hclears⟩
    · exact .inr ⟨steps, [], rfl, by simp, hfresh⟩

/-- What a fresh look finds stays the same over steps that do not disturb it. -/
theorem fresh_after (w : World) {steps : List ClassStep} (hsteps : ∀ x ∈ steps, ¬ E.Disturbs x) :
    E.fresh (w.after steps) = E.fresh w := by
  induction steps using List.reverseRecOn with
  | nil => rfl
  | append_singleton steps x ih =>
    obtain ⟨hsteps, hx⟩ := List.forall_mem_append.1 hsteps
    rw [World.after_concat, h.fresh (hx x (List.mem_singleton_self x)), ih hsteps]

/-- After a history a class answers with what a fresh look found at some moment since the class
last declared something, and that is what one finds now unless the answer is outdated. -/
theorem answer_after {w : World} (hw : E.kept w = none) (steps : List ClassStep) :
    (∃ before after, steps = before ++ after ∧ (∀ x ∈ after, ¬ E.Clears x) ∧
      E.answer (w.after steps) = E.fresh (w.after before)) ∧
    (¬ E.Outdated steps → E.answer (w.after steps) = E.fresh (w.after steps)) := by
  rcases h.kept_after hw steps with hnone | ⟨before, after, rfl, hafter, hkept⟩
  · have hanswer : E.answer (w.after steps) = E.fresh (w.after steps) := by
      rw [answer, hnone, Option.getD_none]
    exact ⟨⟨steps, [], by simp, by simp, hanswer⟩, fun _ => hanswer⟩
  -- asking changes nothing about what a fresh look finds
  have hask : E.fresh (w.after (before ++ [E.ask])) = E.fresh (w.after before) := by
    rw [World.after_concat, h.fresh h.ask]
  have hsplit : w.after (before ++ E.ask :: after) = (w.after (before ++ [E.ask])).after after := by
    rw [List.append_cons, World.after_append]
  have hanswer : E.answer (w.after (before ++ E.ask :: after)) =
      E.fresh (w.after (before ++ [E.ask])) := by
    rw [answer, hkept, Option.getD_some, hask]
  refine ⟨⟨before ++ [E.ask], after, by simp, hafter, hanswer⟩, fun houtdated => ?_⟩
  have hquiet : ∀ x ∈ after, ¬ E.Disturbs x := fun x hx hdisturbs =>
    houtdated ⟨after, List.suffix_append _ _, ⟨x, hx, hdisturbs⟩, hafter⟩
  rw [hanswer, hsplit, h.fresh_after _ hquiet]

end Lawful

end Entry

/-! ### The entries of the two tables -/

/-- A fresh look reads what the supertypes of the class declare. -/
theorem Lookup.find_congr_declared {α : Type} {L : Lookup α} {declared : ClassId → List α}
    {c : ClassDef} (h : ∀ s ∈ c.supertypes, L.declared s.id = declared s.id) (slot : α) :
    L.find c slot = { L with declared }.find c slot := by
  have hin : L.inInterface c slot = { L with declared }.inInterface c slot := by
    rw [Bool.eq_iff_iff, inInterface_iff, inInterface_iff]
    exact exists_congr fun s => and_congr_right fun hs => by rw [h s hs]
  rw [find, find, ← hin, ← List.head?_filterMap, ← List.head?_filterMap]
  refine congrArg List.head? (List.filterMap_congr fun s hs => ?_)
  rw [on, h s (ClassDef.chain_subset_supertypes c hs)]
  rfl

namespace World

variable {w w' : World} {c : ClassDef}

theorem findMethod_congr_supertypes
    (h : ∀ s ∈ c.supertypes, (w.declared s.id).methods = (w'.declared s.id).methods)
    (slot : MethodDef) : w.findMethod c slot = w'.findMethod c slot := by
  rw [findMethod_eq, findMethod_eq]
  exact Lookup.find_congr_declared (L := w.methodLookup) h slot

theorem findMember_congr_supertypes
    (h : ∀ s ∈ c.supertypes, (w.declared s.id).members = (w'.declared s.id).members)
    (slot : MemberDef) : w.findMember c slot = w'.findMember c slot := by
  rw [findMember_eq, findMember_eq]
  exact Lookup.find_congr_declared (L := w.memberLookup) h slot

end World

namespace ClassStep

variable {x : ClassStep} {c : ClassDef}

theorem declared_addMethod (d : ClassDef) (m : MethodDef) (w : World) (i : ClassId) :
    ((addMethod d m).apply w).declared i = if i = d.id then
      { w.declared i with methods := (w.declared i).methods ++ [m], methodSlots := fun _ _ => none }
    else w.declared i := by
  split
  · next h =>
    subst h
    exact if_pos rfl
  · next h => exact if_neg h

theorem declared_addMember (d : ClassDef) (m : MemberDef) (w : World) (i : ClassId) :
    ((addMember d m).apply w).declared i = if i = d.id then
      { w.declared i with members := (w.declared i).members ++ [m], memberSlots := fun _ _ => none }
    else w.declared i := by
  split
  · next h =>
    subst h
    exact if_pos rfl
  · next h => exact if_neg h

/-- Only declarations of methods change the methods of a class. -/
theorem methods_apply (hx : ¬ x.DeclaresMethod c.id) (w : World) :
    ((x.apply w).declared c.id).methods = (w.declared c.id).methods := by
  cases x with
  | addMethod d m => rw [declared_addMethod, if_neg (Ne.symm hx)]
  | addMember d m => rw [declared_addMember]; split <;> rfl
  | resolveMethod d slot => exact ((World.alike_resolveMethod d slot w).methods c).symm
  | resolveMember d slot => exact ((World.alike_resolveMember d slot w).methods c).symm

/-- Only declarations of fields and properties change those of a class. -/
theorem members_apply (hx : ¬ x.DeclaresMember c.id) (w : World) :
    ((x.apply w).declared c.id).members = (w.declared c.id).members := by
  cases x with
  | addMethod d m => rw [declared_addMethod]; split <;> rfl
  | addMember d m => rw [declared_addMember, if_neg (Ne.symm hx)]
  | resolveMethod d slot => exact ((World.alike_resolveMethod d slot w).members c).symm
  | resolveMember d slot => exact ((World.alike_resolveMember d slot w).members c).symm

/-- A method table changes where methods are declared or looked up. -/
theorem methodSlots_apply {slot : MethodDef} (hx : ¬ x.DeclaresMethod c.id)
    (hask : x ≠ resolveMethod c slot) (w : World) :
    ((x.apply w).declared c.id).methodSlots c slot = (w.declared c.id).methodSlots c slot := by
  cases x with
  | addMethod d m => rw [declared_addMethod, if_neg (Ne.symm hx)]
  | addMember d m => rw [declared_addMember]; split <;> rfl
  | resolveMethod d slot' =>
    rw [apply, ClassDef.resolveMethod]
    split
    · rfl
    · rw [(World.declared_noteMethod d slot' _ w c).2.2.2, if_neg]
      rintro ⟨rfl, rfl⟩
      exact hask rfl
  | resolveMember d slot' =>
    rw [apply, ClassDef.resolveMember]
    split
    · rfl
    · rw [(World.declared_noteMember d slot' _ w c).2.2.1]

/-- A table for fields and properties changes where these are declared or looked up. -/
theorem memberSlots_apply {slot : MemberDef} (hx : ¬ x.DeclaresMember c.id)
    (hask : x ≠ resolveMember c slot) (w : World) :
    ((x.apply w).declared c.id).memberSlots c slot = (w.declared c.id).memberSlots c slot := by
  cases x with
  | addMethod d m => rw [declared_addMethod]; split <;> rfl
  | addMember d m => rw [declared_addMember, if_neg (Ne.symm hx)]
  | resolveMethod d slot' =>
    rw [apply, ClassDef.resolveMethod]
    split
    · rfl
    · rw [(World.declared_noteMethod d slot' _ w c).2.2.1]
  | resolveMember d slot' =>
    rw [apply, ClassDef.resolveMember]
    split
    · rfl
    · rw [(World.declared_noteMember d slot' _ w c).2.2.2, if_neg]
      rintro ⟨rfl, rfl⟩
      exact hask rfl

end ClassStep

/-- What the method table of a class says about a slot. -/
def methodEntry (c : ClassDef) (slot : MethodDef) : Entry MethodDef where
  cls := c
  kept w := (w.declared c.id).methodSlots c slot
  fresh w := w.findMethod c slot
  ask := .resolveMethod c slot
  declares := ClassStep.DeclaresMethod

/-- What the table of a class for fields and properties says about a slot. -/
def memberEntry (c : ClassDef) (slot : MemberDef) : Entry MemberDef where
  cls := c
  kept w := (w.declared c.id).memberSlots c slot
  fresh w := w.findMember c slot
  ask := .resolveMember c slot
  declares := ClassStep.DeclaresMember

theorem methodEntry_lawful (c : ClassDef) (slot : MethodDef) : (methodEntry c slot).Lawful where
  ask := fun ⟨_, _, hs⟩ => hs
  kept_clears {x} hx w := by
    cases x with
    | addMethod d m =>
      have hid : c.id = d.id := Eq.symm hx
      change ((ClassStep.apply _ w).declared c.id).methodSlots c slot = none
      rw [ClassStep.declared_addMethod, if_pos hid]
    | _ => exact hx.elim
  kept_ask w := by
    change ((c.resolveMethod slot w).2.declared c.id).methodSlots c slot =
      some (((w.declared c.id).methodSlots c slot).getD (w.findMethod c slot))
    rw [ClassDef.resolveMethod]
    split
    · next answer hkept =>
      rw [hkept]
      rfl
    · next hkept =>
      rw [(World.declared_noteMethod c slot _ w c).2.2.2, if_pos ⟨rfl, rfl⟩, hkept]
      rfl
  kept_other hx hask w := ClassStep.methodSlots_apply hx hask w
  fresh {x} hx w := World.findMethod_congr_supertypes
    (fun s hs => ClassStep.methods_apply (fun h => hx ⟨s, hs, h⟩) w) slot

theorem memberEntry_lawful (c : ClassDef) (slot : MemberDef) : (memberEntry c slot).Lawful where
  ask := fun ⟨_, _, hs⟩ => hs
  kept_clears {x} hx w := by
    cases x with
    | addMember d m =>
      have hid : c.id = d.id := Eq.symm hx
      change ((ClassStep.apply _ w).declared c.id).memberSlots c slot = none
      rw [ClassStep.declared_addMember, if_pos hid]
    | _ => exact hx.elim
  kept_ask w := by
    change ((c.resolveMember slot w).2.declared c.id).memberSlots c slot =
      some (((w.declared c.id).memberSlots c slot).getD (w.findMember c slot))
    rw [ClassDef.resolveMember]
    split
    · next answer hkept =>
      rw [hkept]
      rfl
    · next hkept =>
      rw [(World.declared_noteMember c slot _ w c).2.2.2, if_pos ⟨rfl, rfl⟩, hkept]
      rfl
  kept_other hx hask w := ClassStep.memberSlots_apply hx hask w
  fresh {x} hx w := World.findMember_congr_supertypes
    (fun s hs => ClassStep.members_apply (fun h => hx ⟨s, hs, h⟩) w) slot

/-! ### What classes answer -/

namespace World

variable {w : World}

/-- **What a class answers after any history** is what a fresh look found at some moment since the
class itself last declared a member of the sort. It is what a fresh look finds now, and what the
class would answer with all tables empty, unless supertypes have declared such members since it was
asked for the slot and it has not. -/
theorem resolve_after (hw : w.cleared = w) (steps : List ClassStep) (c : ClassDef) :
    (∀ slot : MethodDef,
      (∃ before after, steps = before ++ after ∧ (∀ x ∈ after, ¬ x.DeclaresMethod c.id) ∧
        (c.resolveMethod slot (w.after steps)).1 = (w.after before).findMethod c slot) ∧
      (¬ (methodEntry c slot).Outdated steps →
        (c.resolveMethod slot (w.after steps)).1 = (w.after steps).findMethod c slot ∧
        (c.resolveMethod slot (w.after steps)).1 =
          (c.resolveMethod slot (w.after steps).cleared).1)) ∧
    ∀ slot : MemberDef,
      (∃ before after, steps = before ++ after ∧ (∀ x ∈ after, ¬ x.DeclaresMember c.id) ∧
        (c.resolveMember slot (w.after steps)).1 = (w.after before).findMember c slot) ∧
      (¬ (memberEntry c slot).Outdated steps →
        (c.resolveMember slot (w.after steps)).1 = (w.after steps).findMember c slot ∧
        (c.resolveMember slot (w.after steps)).1 =
          (c.resolveMember slot (w.after steps).cleared).1) := by
  constructor <;> intro slot
  · have hkept : (methodEntry c slot).kept w = none := by rw [← hw]; rfl
    have hanswer := (methodEntry_lawful c slot).answer_after hkept steps
    rw [resolveMethod_cleared, resolveMethod_fst, and_self_iff]
    exact hanswer
  · have hkept : (memberEntry c slot).kept w = none := by rw [← hw]; rfl
    have hanswer := (memberEntry_lawful c slot).answer_after hkept steps
    rw [resolveMember_cleared, resolveMember_fst, and_self_iff]
    exact hanswer

/-- The theorem where an override is declared on a base, and the class itself declares something
before it is asked again. -/
theorem resolve_after_declaration :
    let animal : ClassDef := ⟨0, "Animal", .concrete, none, []⟩
    let dog : ClassDef := ⟨1, "Dog", .concrete, some animal, []⟩
    let puppy : ClassDef := ⟨2, "Puppy", .concrete, some dog, []⟩
    let speak : MethodDef := ⟨0, "Speak", [], .void, {}, [], none⟩
    let bark : MethodDef := ⟨1, "Speak", [], .void, {}, [0], none⟩
    let play : MethodDef := ⟨2, "Play", [], .void, {}, [], none⟩
    let steps : List ClassStep :=
      [.addMethod animal speak, .resolveMethod puppy speak, .addMethod dog bark,
        .addMethod puppy play]
    ({} : World).cleared = {} ∧ ¬ (methodEntry puppy speak).Outdated steps ∧
      (puppy.resolveMethod speak (World.after {} steps)).1 = some bark := by
  intro animal dog puppy speak bark play steps
  have hfresh : ¬ (methodEntry puppy speak).Outdated steps := by
    rintro ⟨after, hsuffix, -, hclears⟩
    obtain rfl : after = [.addMethod dog bark, .addMethod puppy play] := by
      simpa [steps, methodEntry, List.suffix_cons_iff] using hsuffix
    exact hclears (.addMethod puppy play) (by simp) rfl
  have hfound : (World.after {} steps).findMethod puppy speak = some bark := by decide
  exact ⟨rfl, hfresh, (((resolve_after rfl steps puppy).1 speak).2 hfresh).1.trans hfound⟩

/-- An override that a base declares after the class was asked is not found, though with all tables
empty it is. -/
theorem resolve_after_outdated :
    let animal : ClassDef := ⟨0, "Animal", .concrete, none, []⟩
    let dog : ClassDef := ⟨1, "Dog", .concrete, some animal, []⟩
    let puppy : ClassDef := ⟨2, "Puppy", .concrete, some dog, []⟩
    let speak : MethodDef := ⟨0, "Speak", [], .void, {}, [], none⟩
    let bark : MethodDef := ⟨1, "Speak", [], .void, {}, [0], none⟩
    let w : World :=
      World.after {} [.addMethod animal speak, .resolveMethod puppy speak, .addMethod dog bark]
    (puppy.resolveMethod speak w).1 = some speak ∧
      (puppy.resolveMethod speak w.cleared).1 = some bark := by
  decide

/-! ### What may be answered -/

/-- What is declared is not taken back. -/
theorem declared_subset_apply (x : ClassStep) (w : World) (c : ClassDef) :
    (w.declared c.id).methods ⊆ ((x.apply w).declared c.id).methods ∧
      (w.declared c.id).members ⊆ ((x.apply w).declared c.id).members := by
  cases x with
  | addMethod d m =>
    rw [ClassStep.declared_addMethod]
    split
    · exact ⟨List.subset_append_left _ _, List.Subset.refl _⟩
    · exact ⟨List.Subset.refl _, List.Subset.refl _⟩
  | addMember d m =>
    rw [ClassStep.declared_addMember]
    split
    · exact ⟨List.Subset.refl _, List.subset_append_left _ _⟩
    · exact ⟨List.Subset.refl _, List.Subset.refl _⟩
  | resolveMethod d slot =>
    rw [ClassStep.methods_apply id w, ClassStep.members_apply id w]
    exact ⟨List.Subset.refl _, List.Subset.refl _⟩
  | resolveMember d slot =>
    rw [ClassStep.methods_apply id w, ClassStep.members_apply id w]
    exact ⟨List.Subset.refl _, List.Subset.refl _⟩

theorem declared_subset_after (w : World) (steps : List ClassStep) (c : ClassDef) :
    (w.declared c.id).methods ⊆ ((w.after steps).declared c.id).methods ∧
      (w.declared c.id).members ⊆ ((w.after steps).declared c.id).members := by
  induction steps using List.reverseRecOn with
  | nil => exact ⟨List.Subset.refl _, List.Subset.refl _⟩
  | append_singleton steps x ih =>
    rw [after_concat]
    have step := declared_subset_apply x (w.after steps) c
    exact ⟨List.Subset.trans ih.1 step.1, List.Subset.trans ih.2 step.2⟩

/-- What a class answers after any history is something that it offers. -/
theorem offers_of_dispatch_after (hw : w.cleared = w) (steps : List ClassStep) (c : ClassDef) :
    (∀ slot m, (w.after steps).dispatch.method c slot = some m →
      (w.after steps).methodLookup.Offers c slot m) ∧
    ∀ slot m, (w.after steps).dispatch.member c slot = some m →
      (w.after steps).memberLookup.Offers c slot m := by
  have answers := resolve_after hw steps c
  constructor <;> intro slot m hm
  · obtain ⟨⟨before, later, rfl, -, hanswer⟩, -⟩ := answers.1 slot
    rw [resolveMethod_fst, hm, findMethod_eq] at hanswer
    rw [after_append]
    have declared := declared_subset_after (w.after before) later
    exact (Lookup.exists_of_find hanswer.symm).mono fun s => (declared s).1
  · obtain ⟨⟨before, later, rfl, -, hanswer⟩, -⟩ := answers.2 slot
    rw [resolveMember_fst, hm, findMember_eq] at hanswer
    rw [after_append]
    have declared := declared_subset_after (w.after before) later
    exact (Lookup.exists_of_find hanswer.symm).mono fun s => (declared s).2

end World

end ExprTree
