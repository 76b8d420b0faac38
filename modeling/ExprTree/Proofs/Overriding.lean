import ExprTree.Proofs.Hierarchy
import ExprTree.Proofs.PureHost

/-!
# Overriding

Which implementation a class has for a slot is looked up along the base chain of the class. A lookup
that starts at a class and a slot may be followed by another one, which starts below that class and
asks for the answer of the first. This comes to what the lower class has for the slot itself, but
only if overriding is orderly: an implementation has to override the one that it hides, and not only
the slot that both of them implement.

Methods are looked up as fields and properties are, so both are treated at once. A `Lookup` is what
a lookup reads of the members of one sort.

## Main definitions

* `Lookup`, `Lookup.find`: lookups along the base chain, for both sorts of members.
* `Lookup.Disciplined`: what is asked of the declarations of the classes.
* `Lookup.Offers`: the members that a class may answer with.

## Main results

* `Lookup.Disciplined.find_of_chain`: the slot and what a base class has for it lead to one
  implementation.
* `Lookup.Disciplined.find_narrowed`: the same for every supertype of a concrete class.
* `Lookup.disciplined_iff`, `World.disciplined_iff`: the discipline can be checked for a list of
  classes.
-/

set_option autoImplicit false

namespace ExprTree

/-! ### Lookups -/

/-- What lookups read of the members of one sort. -/
structure Lookup (α : Type) where
  declared : ClassId → List α
  id : α → MemberId
  overrides : α → List MemberId
  isStatic : α → Bool
  signature : α → String × List Ty

namespace World

/-- Lookups of methods. -/
def methodLookup (w : World) : Lookup MethodDef where
  declared c := (w.declared c).methods
  id := MethodDef.id
  overrides := MethodDef.overrides
  isStatic m := m.flags.isStatic
  signature m := (m.name, m.params)

/-- Lookups of fields and properties. -/
def memberLookup (w : World) : Lookup MemberDef where
  declared c := (w.declared c).members
  id := MemberDef.id
  overrides := MemberDef.overrides
  isStatic m := m.flags.isStatic
  signature m := (m.name, [m.ty])

end World

namespace Lookup

variable {α : Type} (L : Lookup α)

/-- Whether a member is `slot` or overrides it, directly or transitively. -/
def implements (x slot : α) : Bool := L.id slot ∈ L.id x :: L.overrides x

/-- Whether a member has an instance and the signature of `slot`. -/
def fits (x slot : α) : Bool := !L.isStatic x && L.signature x = L.signature slot

/-- Whether an interface that the class derives from declares `slot`. -/
def inInterface (c : ClassDef) (slot : α) : Bool :=
  c.anySupertype fun s => s.isInterface && (L.declared s.id).any fun x => L.id x = L.id slot

/-- The implementation that one class declares for a slot. -/
def on (slot : α) (bySignature : Bool) (c : ClassDef) : Option α :=
  ((L.declared c.id).find? fun x => L.implements x slot).or
    (if bySignature then (L.declared c.id).find? fun x => L.fits x slot else none)

/-- The nearest implementation of a slot on the base chain of a class. -/
def find (c : ClassDef) (slot : α) : Option α :=
  c.chain.findSome? (L.on slot (L.inInterface c slot))

/-- Whether a member is declared by one of some classes. -/
def Declares (classes : ClassDef → Prop) (x : α) : Prop := ∃ c, classes c ∧ x ∈ L.declared c.id

/-- Slots are declared members that dispatch. -/
structure IsSlot (classes : ClassDef → Prop) (slot : α) : Prop where
  declared : L.Declares classes slot
  dispatches : L.isStatic slot = false

/-- Whether a member stands for a slot where a class looks it up: the member implements the slot, or
an interface of the class declares the slot and the member has its signature. -/
def Stands (c : ClassDef) (x slot : α) : Prop :=
  L.implements x slot = true ∨ L.inInterface c slot = true ∧ L.fits x slot = true

/-- What is asked of the declarations of some classes for lookups to follow each other. -/
structure Disciplined (classes : ClassDef → Prop) : Prop where
  hierarchy : ClassDef.Hierarchy classes
  /-- An implementation has the signature of the slot. -/
  fits : ∀ {x slot}, L.Declares classes x → L.IsSlot classes slot → L.implements x slot = true →
    L.fits x slot = true
  /-- What overrides an implementation implements the slot too. -/
  trans : ∀ {x y slot}, L.Declares classes x → L.Declares classes y → L.IsSlot classes slot →
    L.implements x y = true → L.implements y slot = true → L.implements x slot = true
  /-- A class declares a signature once. -/
  unique : ∀ {c x y}, classes c → x ∈ L.declared c.id → y ∈ L.declared c.id →
    L.isStatic x = false → L.isStatic y = false → L.signature x = L.signature y → x = y
  /-- An implementation overrides the one that it hides. -/
  overrides : ∀ {c b x y slot}, classes c → b ∈ c.base → L.IsSlot classes slot →
    x ∈ L.declared c.id → L.Stands c x slot → L.find b slot = some y → L.implements x y = true
  /-- What overrides a slot of an interface does so in a class with that interface, and interfaces
  override nothing else. -/
  ofInterface : ∀ {c x slot}, classes c → x ∈ L.declared c.id → L.IsSlot classes slot →
    L.implements x slot = true →
    (c.isInterface = true ∨ ∃ d, classes d ∧ L.inInterface d slot = true) →
    L.inInterface c slot = true
  /-- Interfaces and other classes declare different members. -/
  apart : ∀ {c i x y}, classes c → classes i → c.isInterface = false → i.isInterface = true →
    x ∈ L.declared c.id → y ∈ L.declared i.id → L.id x ≠ L.id y
  /-- Concrete classes implement their interfaces. -/
  implemented : ∀ {c slot}, classes c → c.kind = .concrete → L.IsSlot classes slot →
    L.inInterface c slot = true → ∃ x, L.find c slot = some x

variable {L}

theorem implements_self (x : α) : L.implements x x = true := by
  simp [implements]

theorem fits_iff {x slot : α} :
    L.fits x slot = true ↔ L.isStatic x = false ∧ L.signature x = L.signature slot := by
  simp [fits]

theorem inInterface_iff {c : ClassDef} {slot : α} :
    L.inInterface c slot = true ↔
      ∃ s ∈ c.supertypes, s.isInterface = true ∧ ∃ x ∈ L.declared s.id, L.id x = L.id slot := by
  simp [inInterface, ClassDef.anySupertype_eq_any]

theorem inInterface_mono {c s : ClassDef} {slot : α} (hs : s ∈ c.supertypes)
    (h : L.inInterface s slot = true) : L.inInterface c slot = true := by
  obtain ⟨i, hi, h⟩ := inInterface_iff.1 h
  exact inInterface_iff.2 ⟨i, ClassDef.supertypes_trans hs hi, h⟩

theorem mem_of_on {slot x : α} {bySignature : Bool} {c : ClassDef}
    (h : L.on slot bySignature c = some x) :
    x ∈ L.declared c.id ∧
      (L.implements x slot = true ∨ bySignature = true ∧ L.fits x slot = true) := by
  rcases Option.or_eq_some_iff.1 h with h | ⟨-, h⟩
  · have himplements := List.find?_some h
    exact ⟨List.mem_of_find?_eq_some h, .inl himplements⟩
  · split at h
    · next hb =>
      have hfits := List.find?_some h
      exact ⟨List.mem_of_find?_eq_some h, .inr ⟨hb, hfits⟩⟩
    · cases h

/-- A class offers a member for a slot: the class or one of its bases declares the member, and the
member stands for the slot. -/
def Offers (L : Lookup α) (c : ClassDef) (slot x : α) : Prop :=
  ∃ s ∈ c.chain, x ∈ L.declared s.id ∧ L.Stands c x slot

/-- Where the answer of a lookup is declared. -/
theorem exists_of_find {c : ClassDef} {slot x : α} (h : L.find c slot = some x) :
    L.Offers c slot x := by
  obtain ⟨s, hs, hon⟩ := List.exists_of_findSome?_eq_some h
  exact ⟨s, hs, mem_of_on hon⟩

/-- With more members declared, classes offer what they did. -/
theorem Offers.mono {declared : ClassId → List α}
    (h : ∀ s : ClassDef, L.declared s.id ⊆ declared s.id) {c : ClassDef} {slot x : α}
    (hx : L.Offers c slot x) : { L with declared }.Offers c slot x := by
  obtain ⟨s, hs, hx, hstands⟩ := hx
  refine ⟨s, hs, h s hx, hstands.imp_right fun ⟨hin, hfits⟩ => ⟨?_, hfits⟩⟩
  obtain ⟨i, hi, hinterface, y, hy, hid⟩ := inInterface_iff.1 hin
  exact inInterface_iff.2 ⟨i, hi, hinterface, y, h i hy, hid⟩

theorem find_eq (c : ClassDef) (slot : α) :
    L.find c slot = (L.on slot (L.inInterface c slot) c).or
      ((c.base.toList.flatMap ClassDef.chain).findSome? (L.on slot (L.inInterface c slot))) := by
  rw [find, ClassDef.chain_eq, List.findSome?_cons]
  cases L.on slot (L.inInterface c slot) c <;> rfl

/-! ### Orderly overriding -/

namespace Disciplined

variable {classes : ClassDef → Prop} (h : L.Disciplined classes) {c b s : ClassDef} {slot x y t : α}
include h

/-- What stands for a slot has its signature. -/
theorem fits_of_stands (hx : L.Declares classes x) (hslot : L.IsSlot classes slot)
    (hstands : L.Stands c x slot) : L.fits x slot = true :=
  hstands.elim (h.fits hx hslot) And.right

/-- What stands for a slot is one itself. -/
theorem isSlot_of_stands (hx : L.Declares classes x) (hslot : L.IsSlot classes slot)
    (hstands : L.Stands c x slot) : L.IsSlot classes x :=
  ⟨hx, (fits_iff.1 (h.fits_of_stands hx hslot hstands)).1⟩

/-- What a class has for a slot has the signature of the slot, and is a slot itself. -/
theorem isSlot_of_find (hc : classes c) (hslot : L.IsSlot classes slot)
    (hfind : L.find c slot = some x) : L.signature x = L.signature slot ∧ L.IsSlot classes x := by
  obtain ⟨k, hk, hx, hstands⟩ := exists_of_find hfind
  have hx : L.Declares classes x := ⟨k, h.hierarchy.chain hc hk, hx⟩
  exact ⟨(fits_iff.1 (h.fits_of_stands hx hslot hstands)).2, h.isSlot_of_stands hx hslot hstands⟩

/-- What overrides something that stands for a slot stands for it too. -/
theorem stands_trans (hx : L.Declares classes x) (hy : L.Declares classes y)
    (hslot : L.IsSlot classes slot) (hxy : L.implements x y = true) (hstands : L.Stands c y slot) :
    L.Stands c x slot := by
  refine hstands.imp (h.trans hx hy hslot hxy) fun ⟨hinterface, hfits⟩ => ⟨hinterface, ?_⟩
  have hslot' := h.isSlot_of_stands hy hslot hstands
  have hx' := fits_iff.1 (h.fits hx hslot' hxy)
  exact fits_iff.2 ⟨hx'.1, hx'.2.trans (fits_iff.1 hfits).2⟩

/-- A class has one implementation for a slot, and that is the one it declares. -/
theorem on_eq_some {bySignature : Bool} (hc : classes c) (hx : x ∈ L.declared c.id)
    (hslot : L.IsSlot classes slot)
    (hstands : L.implements x slot = true ∨ bySignature = true ∧ L.fits x slot = true) :
    L.on slot bySignature c = some x := by
  have fits_of {z : α} (hz : z ∈ L.declared c.id)
      (hstands : L.implements z slot = true ∨ bySignature = true ∧ L.fits z slot = true) :
      L.fits z slot = true :=
    hstands.elim (h.fits ⟨c, hc, hz⟩ hslot) And.right
  cases hon : L.on slot bySignature c with
  | some z =>
    obtain ⟨hz, hstands'⟩ := mem_of_on hon
    have hx' := fits_iff.1 (fits_of hx hstands)
    have hz' := fits_iff.1 (fits_of hz hstands')
    rw [h.unique hc hx hz hx'.1 hz'.1 (hx'.2.trans hz'.2.symm)]
  | none =>
    obtain ⟨hnone, hnone'⟩ := Option.or_eq_none_iff.1 hon
    rcases hstands with himplements | ⟨rfl, hfits⟩
    · exact (List.find?_eq_none.1 hnone x hx himplements).elim
    · exact (List.find?_eq_none.1 hnone' x hx hfits).elim

/-- What a class or its bases declare, no interface declares. -/
theorem inInterface_eq_false (hc : classes c) (hinterface : c.isInterface = false)
    (hs : s ∈ c.chain) (hx : x ∈ L.declared s.id) {d : ClassDef} (hd : classes d) :
    L.inInterface d x = false := by
  by_contra hne
  obtain ⟨i, hi, hinterface', y, hy, hid⟩ := inInterface_iff.1 (Bool.not_eq_false _ ▸ hne)
  have hs' : s.isInterface = false := (h.hierarchy.isInterface_of_chain hc hs).trans hinterface
  exact h.apart (h.hierarchy.chain hc hs) (h.hierarchy.supertypes hd i hi) hs' hinterface' hx hy
    hid.symm

/-- A base class looks an implementation up in the same way as the class, if it has one. -/
theorem findSome?_base (hc : classes c) (hb : b ∈ c.base) (hslot : L.IsSlot classes slot)
    (hfind : L.find b slot = some y) :
    b.chain.findSome? (L.on slot (L.inInterface c slot)) = some y := by
  have hb' := h.hierarchy.mem_base hc hb
  have hmem : b ∈ c.supertypes :=
    ClassDef.mem_supertypes.2 (.inr (.inl ⟨b, hb, ClassDef.mem_supertypes_self b⟩))
  suffices L.inInterface b slot = L.inInterface c slot by rw [← this]; exact hfind
  cases hinterface : L.inInterface b slot with
  | true => exact (inInterface_mono hmem hinterface).symm
  | false =>
    by_contra hne
    have hinterface' : L.inInterface c slot = true := by simpa using Ne.symm hne
    obtain ⟨s, hs, hy, himplements | ⟨hcontra, -⟩⟩ := exists_of_find hfind
    · have hs' : classes s := h.hierarchy.chain hb' hs
      have hin := h.ofInterface hs' hy hslot himplements (.inr ⟨c, hc, hinterface'⟩)
      rw [inInterface_mono (ClassDef.chain_subset_supertypes b hs) hin] at hinterface
      cases hinterface
    · rw [hinterface] at hcontra
      cases hcontra

/-- A class that has nothing for a slot has nothing for what stands for the slot. -/
theorem on_eq_none (hs : classes s) (ht : L.Declares classes t) (hslot : L.IsSlot classes slot)
    (hstands : L.Stands c t slot) (hnone : L.on slot (L.inInterface c slot) s = none) :
    L.on t false s = none := by
  cases hon : L.on t false s with
  | none => rfl
  | some z =>
    obtain ⟨hz, himplements | ⟨hfalse, -⟩⟩ := mem_of_on hon
    · have hz' := h.stands_trans ⟨s, hs, hz⟩ ht hslot himplements hstands
      rw [h.on_eq_some hs hz hslot hz'] at hnone
      cases hnone
    · cases hfalse

/-- What a class has for a slot, it has for that as well. -/
theorem find_self (hc : classes c) (hslot : L.IsSlot classes slot) (ht : L.find c slot = some t)
    (hin : L.inInterface c t = false) : L.find c t = some t := by
  obtain ⟨k, hk, htk, hstands⟩ := exists_of_find ht
  have ht' : L.IsSlot classes t := (h.isSlot_of_find hc hslot ht).2
  obtain ⟨before, k', after, hchain, hon, hbefore⟩ := List.findSome?_eq_some_iff.1 ht
  rw [find, hin]
  refine List.findSome?_eq_some_iff.2 ⟨before, k', after, hchain, ?_, fun a ha => ?_⟩
  · have hmem : classes k' := h.hierarchy.chain hc (by simp [hchain])
    exact h.on_eq_some hmem (mem_of_on hon).1 ht' (.inl (implements_self t))
  · have hmem : classes a := h.hierarchy.chain hc (by simp [hchain, ha])
    exact h.on_eq_none hmem ht'.declared hslot hstands (hbefore a ha)

/-- **The slot and what a base class has for it lead to one implementation**, and that overrides
what the base class has. -/
theorem find_of_chain (hc : classes c) (hinterface : c.isInterface = false) (hs : s ∈ c.chain)
    (hslot : L.IsSlot classes slot) (ht : L.find s slot = some t) :
    ∃ x, L.find c slot = some x ∧ L.find c t = some x ∧ L.implements x t = true := by
  obtain ⟨k, hk, htk, hstands⟩ := exists_of_find ht
  have hs' : classes s := h.hierarchy.chain hc hs
  have ht' : L.IsSlot classes t := (h.isSlot_of_find hs' hslot ht).2
  -- no interface declares `t`, so only what overrides it stands for it
  have apart {d : ClassDef} (hd : classes d) : L.inInterface d t = false :=
    h.inInterface_eq_false hs' ((h.hierarchy.isInterface_of_chain hc hs).trans hinterface) hk htk hd
  induction c using ClassDef.induction_supertypes with
  | step c hbase _ =>
    rcases ClassDef.mem_chain.1 hs with rfl | ⟨b, hb, hsb⟩
    · exact ⟨t, ht, h.find_self hc hslot ht (apart hc), implements_self t⟩
    have hb' : classes b := h.hierarchy.mem_base hc hb
    have hbI : b.isInterface = false := (h.hierarchy.base hc b hb).trans hinterface
    obtain ⟨y, hy, hyt, himplements⟩ := hbase b hb hb' hbI hsb
    have hchain : c.base.toList.flatMap ClassDef.chain = b.chain := by
      rw [Option.mem_def.1 hb]
      simp
    have below := h.findSome?_base hc hb hslot hy
    have below_t := h.findSome?_base hc hb ht' hyt
    have hstands' : L.Stands c t slot := hstands.imp_right fun ⟨hin, hfits⟩ =>
      ⟨inInterface_mono (ClassDef.chain_subset_supertypes c hs) hin, hfits⟩
    rw [apart hc] at below_t
    rw [find_eq, find_eq, apart hc, hchain]
    cases hon : L.on slot (L.inInterface c slot) c with
    | none =>
      refine ⟨y, below, ?_, himplements⟩
      rw [h.on_eq_none hc ht'.declared hslot hstands' hon]
      exact below_t
    | some x =>
      obtain ⟨hx, hxs⟩ := mem_of_on hon
      obtain ⟨k', hk', hyk, -⟩ := exists_of_find hy
      have hy' : L.Declares classes y := ⟨k', h.hierarchy.chain hb' hk', hyk⟩
      have hxy := h.overrides hc hb hslot hx hxs hy
      have hxt := h.trans ⟨c, hc, hx⟩ hy' ht' hxy himplements
      refine ⟨x, rfl, ?_, hxt⟩
      rw [h.on_eq_some hc hx ht' (.inl hxt)]
      rfl

/-- Slots of one signature that interfaces of a class declare lead to one implementation. -/
theorem find_congr (hc : classes c) (hslot : L.IsSlot classes slot) (ht : L.IsSlot classes t)
    (hsignature : L.signature t = L.signature slot) (hin : L.inInterface c slot = true)
    (hin' : L.inInterface c t = true) : L.find c t = L.find c slot := by
  have half {slot t : α} {k : ClassDef} {x : α} (hk : classes k) (hslot : L.IsSlot classes slot)
      (ht : L.IsSlot classes t) (hsignature : L.signature t = L.signature slot)
      (hon : L.on slot true k = some x) : L.on t true k = some x := by
    obtain ⟨hx, hstands⟩ := mem_of_on hon
    have hfits := fits_iff.1 (hstands.elim (h.fits ⟨k, hk, hx⟩ hslot) And.right)
    exact h.on_eq_some hk hx ht (.inr ⟨rfl, fits_iff.2 ⟨hfits.1, hfits.2.trans hsignature.symm⟩⟩)
  rw [find, find, hin, hin']
  rw [← List.head?_filterMap, ← List.head?_filterMap]
  refine congrArg List.head? (List.filterMap_congr fun k hk => ?_)
  have hk : classes k := h.hierarchy.chain hc hk
  cases hon : L.on slot true k with
  | some x => exact half hk hslot ht hsignature hon
  | none =>
    cases hon' : L.on t true k with
    | none => rfl
    | some x =>
      rw [half hk ht hslot hsignature.symm hon'] at hon
      cases hon

/-- **What a supertype has for a slot leads a concrete class to the implementation that it has for
the slot itself.** -/
theorem find_narrowed (hc : classes c) (hconcrete : c.kind = .concrete) (hs : s ∈ c.supertypes)
    (hslot : L.IsSlot classes slot) (ht : L.find s slot = some t) :
    ∃ x, L.find c slot = some x ∧ L.find c t = some x := by
  have hinterface : c.isInterface = false := by
    simp [ClassDef.isInterface, hconcrete]
  rcases h.hierarchy.chain_or_interface hc hs with hchain | hs'
  · obtain ⟨x, hx, hxt, -⟩ := h.find_of_chain hc hinterface hchain hslot ht
    exact ⟨x, hx, hxt⟩
  · obtain ⟨k, hk, htk, hstands⟩ := exists_of_find ht
    have hsc : classes s := h.hierarchy.supertypes hc s hs
    have hkc : classes k := h.hierarchy.chain hsc hk
    have hk' : k.isInterface = true := (h.hierarchy.isInterface_of_chain hsc hk).trans hs'
    have hks : k ∈ s.supertypes := ClassDef.chain_subset_supertypes s hk
    have hin_t : L.inInterface c t = true := inInterface_iff.2
      ⟨k, ClassDef.supertypes_trans hs hks, hk', t, htk, rfl⟩
    have hin : L.inInterface c slot = true := by
      refine inInterface_mono hs (hstands.elim (fun himplements => ?_) And.left)
      exact inInterface_mono hks (h.ofInterface hkc htk hslot himplements (.inl hk'))
    have hsignature := (fits_iff.1 (h.fits_of_stands ⟨k, hkc, htk⟩ hslot hstands)).2
    have ht' := h.isSlot_of_stands ⟨k, hkc, htk⟩ hslot hstands
    obtain ⟨x, hx⟩ := h.implemented hc hconcrete hslot hin
    exact ⟨x, hx, (h.find_congr hc hslot ht' hsignature hin hin_t).trans hx⟩

end Disciplined

end Lookup

/-! ### Dispatch -/

namespace World

theorem findMethod_eq (w : World) (c : ClassDef) (slot : MethodDef) :
    w.findMethod c slot = w.methodLookup.find c slot := by
  have on_eq : w.methodOn slot (w.methodLookup.inInterface c slot) =
      w.methodLookup.on slot (w.methodLookup.inInterface c slot) := by
    funext d
    have fits_eq : (fun m : MethodDef => m.matchesSlot slot) =
        fun m => w.methodLookup.fits m slot := by
      funext m
      simp [MethodDef.matchesSlot, Lookup.fits, methodLookup, Bool.and_assoc]
    rw [methodOn, fits_eq]
    exact Option.orElse_eq_or
  exact congrArg (fun on => c.chain.findSome? on) on_eq

theorem findMember_eq (w : World) (c : ClassDef) (slot : MemberDef) :
    w.findMember c slot = w.memberLookup.find c slot := by
  have on_eq : w.memberOn slot (w.memberLookup.inInterface c slot) =
      w.memberLookup.on slot (w.memberLookup.inInterface c slot) := by
    funext d
    have fits_eq : (fun m : MemberDef => m.matchesSlot slot) =
        fun m => w.memberLookup.fits m slot := by
      funext m
      simp [MemberDef.matchesSlot, Lookup.fits, memberLookup, Bool.and_assoc]
    rw [memberOn, fits_eq]
    exact Option.orElse_eq_or
  exact congrArg (fun on => c.chain.findSome? on) on_eq

/-- What is asked of a world for lookups on some classes to follow each other. -/
structure Disciplined (w : World) (classes : ClassDef → Prop) : Prop where
  methods : w.methodLookup.Disciplined classes
  members : w.memberLookup.Disciplined classes
  /-- An implementation has the result type of the slot. -/
  ret : ∀ {c slot m}, classes c → w.methodLookup.IsSlot classes slot →
    w.findMethod c slot = some m → m.ret = slot.ret
  /-- Only properties have other implementations, and these are properties. -/
  property : ∀ {c slot m}, classes c → w.memberLookup.IsSlot classes slot →
    w.findMember c slot = some m → m.id ≠ slot.id → slot.kind = .property ∧ m.kind = .property
  /-- The override tables hold no answer that a fresh look would not give. -/
  methodSlots : ∀ {c slot}, classes c → w.methodLookup.IsSlot classes slot →
    w.dispatch.method c slot = w.findMethod c slot
  memberSlots : ∀ {c slot}, classes c → w.memberLookup.IsSlot classes slot →
    w.dispatch.member c slot = w.findMember c slot

namespace Disciplined

variable {w : World} {classes : ClassDef → Prop} (h : w.Disciplined classes) {c d : ClassDef}
include h

/-- The implementation that a class has for a method is a method, of the same name and result. -/
theorem method_like (hc : classes c) {slot m : MethodDef}
    (hslot : w.methodLookup.IsSlot classes slot) (hm : w.dispatch.method c slot = some m) :
    m.name = slot.name ∧ m.ret = slot.ret ∧ w.methodLookup.IsSlot classes m := by
  rw [h.methodSlots hc hslot] at hm
  obtain ⟨hsignature, hm'⟩ := h.methods.isSlot_of_find hc hslot (findMethod_eq w c slot ▸ hm)
  exact ⟨congrArg Prod.fst hsignature, h.ret hc hslot hm, hm'⟩

/-- The implementation that a class has for a property keeps its name and type. -/
theorem member_like (hc : classes c) {slot m : MemberDef}
    (hslot : w.memberLookup.IsSlot classes slot) (hm : w.dispatch.member c slot = some m) :
    m.name = slot.name ∧ m.ty = slot.ty ∧ w.memberLookup.IsSlot classes m := by
  rw [h.memberSlots hc hslot, findMember_eq] at hm
  obtain ⟨hsignature, hm'⟩ := h.members.isSlot_of_find hc hslot hm
  exact ⟨congrArg Prod.fst hsignature, List.singleton_inj.1 (congrArg Prod.snd hsignature), hm'⟩

/-- On an object, what a supertype of its class has for a method runs what the method runs. -/
theorem methodTarget_narrowed (hd : classes d) (hconcrete : d.kind = .concrete)
    (hc : c ∈ d.supertypes) {slot m : MethodDef} (hslot : w.methodLookup.IsSlot classes slot)
    (hm : w.dispatch.method c slot = some m) {v : Value} (hv : v.class? = some d) :
    w.dispatch.methodTarget m (some v) = w.dispatch.methodTarget slot (some v) := by
  have hcc : classes c := h.methods.hierarchy.supertypes hd c hc
  have hmslot := (h.method_like hcc hslot hm).2.2
  rw [h.methodSlots hcc hslot, findMethod_eq] at hm
  obtain ⟨x, hx, hxm⟩ := h.methods.find_narrowed hd hconcrete hc hslot hm
  rw [← findMethod_eq, ← h.methodSlots hd hslot] at hx
  rw [← findMethod_eq, ← h.methodSlots hd hmslot] at hxm
  have hstatic : slot.flags.isStatic = false := hslot.dispatches
  have hstatic' : m.flags.isStatic = false := hmslot.dispatches
  simp [Dispatch.methodTarget, hstatic, hstatic', hv, hx, hxm]

/-- On an object, what a supertype of its class has for a property reads what the property reads. -/
theorem memberTarget_narrowed (hd : classes d) (hconcrete : d.kind = .concrete)
    (hc : c ∈ d.supertypes) {slot m : MemberDef} (hslot : w.memberLookup.IsSlot classes slot)
    (hm : w.dispatch.member c slot = some m) (hne : m.id ≠ slot.id) {v : Value}
    (hv : v.class? = some d) :
    w.dispatch.memberTarget m (some v) = w.dispatch.memberTarget slot (some v) := by
  have hcc : classes c := h.members.hierarchy.supertypes hd c hc
  have hmslot := (h.member_like hcc hslot hm).2.2
  rw [h.memberSlots hcc hslot] at hm
  obtain ⟨hkind, hkind'⟩ := h.property hcc hslot hm hne
  rw [findMember_eq] at hm
  obtain ⟨x, hx, hxm⟩ := h.members.find_narrowed hd hconcrete hc hslot hm
  rw [← findMember_eq, ← h.memberSlots hd hslot] at hx
  rw [← findMember_eq, ← h.memberSlots hd hmslot] at hxm
  have hstatic : slot.flags.isStatic = false := hslot.dispatches
  have hstatic' : m.flags.isStatic = false := hmslot.dispatches
  simp [Dispatch.memberTarget, hkind, hkind', hstatic, hstatic', hv, hx, hxm]

end Disciplined

end World

/-! ### Checking a list of classes -/

namespace Lookup

variable {α : Type} (L : Lookup α) (cs : List ClassDef)

/-- The members that some classes declare. -/
def declaredBy : List α := cs.flatMap fun c => L.declared c.id

/-- The slots that some classes declare. -/
def slotsOf : List α := (L.declaredBy cs).filter fun x => !L.isStatic x

variable {L cs}

theorem mem_declaredBy {x : α} : x ∈ L.declaredBy cs ↔ L.Declares (· ∈ cs) x := by
  simp [declaredBy, Declares]

theorem mem_slotsOf {x : α} : x ∈ L.slotsOf cs ↔ L.IsSlot (· ∈ cs) x := by
  simp only [slotsOf, List.mem_filter, mem_declaredBy, Bool.not_eq_eq_eq_not, Bool.not_true]
  exact ⟨fun h => ⟨h.1, h.2⟩, fun h => ⟨h.declared, h.dispatches⟩⟩

instance (c : ClassDef) (x slot : α) : Decidable (L.Stands c x slot) :=
  inferInstanceAs (Decidable (_ ∨ _))

theorem disciplined_iff : L.Disciplined (· ∈ cs) ↔ ClassDef.Hierarchy (· ∈ cs) ∧
    (∀ x ∈ L.declaredBy cs, ∀ slot ∈ L.slotsOf cs, L.implements x slot = true →
      L.fits x slot = true) ∧
    (∀ x ∈ L.declaredBy cs, ∀ y ∈ L.declaredBy cs, ∀ slot ∈ L.slotsOf cs,
      L.implements x y = true → L.implements y slot = true → L.implements x slot = true) ∧
    (∀ c ∈ cs, ∀ x ∈ L.declared c.id, ∀ y ∈ L.declared c.id, L.isStatic x = false →
      L.isStatic y = false → L.signature x = L.signature y → x = y) ∧
    (∀ c ∈ cs, ∀ b ∈ c.base, ∀ slot ∈ L.slotsOf cs, ∀ x ∈ L.declared c.id, L.Stands c x slot →
      ∀ y ∈ L.find b slot, L.implements x y = true) ∧
    (∀ c ∈ cs, ∀ x ∈ L.declared c.id, ∀ slot ∈ L.slotsOf cs, L.implements x slot = true →
      (c.isInterface = true ∨ ∃ d ∈ cs, L.inInterface d slot = true) →
      L.inInterface c slot = true) ∧
    (∀ c ∈ cs, ∀ i ∈ cs, c.isInterface = false → i.isInterface = true →
      ∀ x ∈ L.declared c.id, ∀ y ∈ L.declared i.id, L.id x ≠ L.id y) ∧
    ∀ c ∈ cs, c.kind = .concrete → ∀ slot ∈ L.slotsOf cs, L.inInterface c slot = true →
      (L.find c slot).isSome = true := by
  simp only [mem_declaredBy, mem_slotsOf]
  constructor
  · intro h
    exact ⟨h.hierarchy, fun _ hx _ hslot => h.fits hx hslot,
      fun _ hx _ hy _ hslot => h.trans hx hy hslot, fun _ hc _ hx _ hy => h.unique hc hx hy,
      fun _ hc _ hb _ hslot _ hx hstands _ hy => h.overrides hc hb hslot hx hstands hy,
      fun _ hc _ hx _ hslot => h.ofInterface hc hx hslot,
      fun _ hc _ hi hclass hinterface _ hx _ hy => h.apart hc hi hclass hinterface hx hy,
      fun _ hc hconcrete _ hslot hin =>
        Option.isSome_iff_exists.2 (h.implemented hc hconcrete hslot hin)⟩
  · rintro ⟨hierarchy, fits, trans, unique, overrides, ofInterface, apart, implemented⟩
    exact {
      hierarchy
      fits := fun hx hslot => fits _ hx _ hslot
      trans := fun hx hy hslot => trans _ hx _ hy _ hslot
      unique := fun hc hx hy => unique _ hc _ hx _ hy
      overrides := fun hc hb hslot hx hstands hy => overrides _ hc _ hb _ hslot _ hx hstands _ hy
      ofInterface := fun hc hx hslot => ofInterface _ hc _ hx _ hslot
      apart := fun hc hi hclass hinterface hx hy => apart _ hc _ hi hclass hinterface _ hx _ hy
      implemented := fun hc hconcrete hslot hin =>
        Option.isSome_iff_exists.1 (implemented _ hc hconcrete _ hslot hin) }

set_option synthInstance.maxSize 512 in
instance [DecidableEq α] (L : Lookup α) (cs : List ClassDef) : Decidable (L.Disciplined (· ∈ cs)) :=
  decidable_of_iff' _ disciplined_iff

end Lookup

namespace World

theorem disciplined_iff {w : World} {cs : List ClassDef} : w.Disciplined (· ∈ cs) ↔
    w.methodLookup.Disciplined (· ∈ cs) ∧ w.memberLookup.Disciplined (· ∈ cs) ∧
    (∀ c ∈ cs, ∀ slot ∈ w.methodLookup.slotsOf cs, ∀ m ∈ w.findMethod c slot, m.ret = slot.ret) ∧
    (∀ c ∈ cs, ∀ slot ∈ w.memberLookup.slotsOf cs, ∀ m ∈ w.findMember c slot, m.id ≠ slot.id →
      slot.kind = .property ∧ m.kind = .property) ∧
    (∀ c ∈ cs, ∀ slot ∈ w.methodLookup.slotsOf cs,
      w.dispatch.method c slot = w.findMethod c slot) ∧
    ∀ c ∈ cs, ∀ slot ∈ w.memberLookup.slotsOf cs,
      w.dispatch.member c slot = w.findMember c slot := by
  simp only [Lookup.mem_slotsOf]
  constructor
  · intro h
    exact ⟨h.methods, h.members, fun _ hc _ hslot _ hm => h.ret hc hslot hm,
      fun _ hc _ hslot _ hm => h.property hc hslot hm, fun _ hc _ hslot => h.methodSlots hc hslot,
      fun _ hc _ hslot => h.memberSlots hc hslot⟩
  · rintro ⟨methods, members, ret, property, methodSlots, memberSlots⟩
    exact {
      methods
      members
      ret := fun hc hslot hm => ret _ hc _ hslot _ hm
      property := fun hc hslot hm => property _ hc _ hslot _ hm
      methodSlots := fun hc hslot => methodSlots _ hc _ hslot
      memberSlots := fun hc hslot => memberSlots _ hc _ hslot }

instance (w : World) (cs : List ClassDef) : Decidable (w.Disciplined (· ∈ cs)) :=
  decidable_of_iff' _ disciplined_iff

end World

end ExprTree
