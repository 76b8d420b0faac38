import ExprTree.Ty.Hierarchy

/-!
# Classes with what they derive from

A hierarchy is walked in two ways: along the bases of a class, which is how implementations are
looked up, and over everything that it derives from, which is how types are compared. The first is a
part of the second, and what is left out are interfaces.

## Main definitions

* `ClassDef.Hierarchy`: classes with their supertypes.

## Main results

* `ClassDef.induction_supertypes`: induction along everything a class derives from.
* `ClassDef.supertypes_trans`, `ClassDef.supertypes_antisymm`: deriving is transitive, and classes
  that derive from each other are the same.
* `ClassDef.Hierarchy.chain_or_interface`: what a class derives from is a base or an interface.
-/

set_option autoImplicit false

namespace ExprTree

namespace ClassDef

/-! ### Walks -/

mutual

/-- Induction along everything a class derives from. -/
@[elab_as_elim]
theorem induction_supertypes {P : ClassDef → Prop}
    (step : ∀ c, (∀ b ∈ c.base, P b) → (∀ i ∈ c.interfaces, P i) → P c) : (c : ClassDef) → P c
  | ⟨id, name, kind, base, interfaces⟩ =>
    step ⟨id, name, kind, base, interfaces⟩ (induction_base step base)
      (induction_interfaces step interfaces)

theorem induction_base {P : ClassDef → Prop}
    (step : ∀ c, (∀ b ∈ c.base, P b) → (∀ i ∈ c.interfaces, P i) → P c) :
    (base : Option ClassDef) → ∀ b ∈ base, P b
  | none => fun _ h => nomatch h
  | some b => fun _ h => Option.some.inj h ▸ induction_supertypes step b

theorem induction_interfaces {P : ClassDef → Prop}
    (step : ∀ c, (∀ b ∈ c.base, P b) → (∀ i ∈ c.interfaces, P i) → P c) :
    (interfaces : List ClassDef) → ∀ i ∈ interfaces, P i
  | [] => fun _ h => nomatch h
  | i :: is => List.forall_mem_cons.2 ⟨induction_supertypes step i, induction_interfaces step is⟩

end

theorem baseSupertypes_eq (base : Option ClassDef) :
    baseSupertypes base = base.toList.flatMap supertypes := by
  cases base <;> simp [baseSupertypes]

theorem allSupertypes_eq (cs : List ClassDef) : allSupertypes cs = cs.flatMap supertypes := by
  induction cs with
  | nil => simp [allSupertypes]
  | cons c cs ih => simp [allSupertypes, ih]

theorem supertypes_eq (c : ClassDef) :
    c.supertypes = c :: (c.base.toList ++ c.interfaces).flatMap supertypes := by
  cases c
  rw [supertypes, baseSupertypes_eq, allSupertypes_eq, List.flatMap_append]

theorem chain_eq (c : ClassDef) : c.chain = c :: c.base.toList.flatMap chain := by
  cases c with
  | mk id name kind base interfaces => cases base <;> simp [chain, baseChain]

theorem mem_supertypes {c s : ClassDef} :
    s ∈ c.supertypes ↔
      s = c ∨ (∃ b ∈ c.base, s ∈ b.supertypes) ∨ ∃ i ∈ c.interfaces, s ∈ i.supertypes := by
  rw [supertypes_eq]
  simp

theorem mem_chain {c s : ClassDef} : s ∈ c.chain ↔ s = c ∨ ∃ b ∈ c.base, s ∈ b.chain := by
  rw [chain_eq]
  simp

theorem chain_subset_supertypes (c : ClassDef) : c.chain ⊆ c.supertypes := by
  induction c using induction_supertypes with
  | step c hbase _ =>
    intro s hs
    rcases mem_chain.1 hs with rfl | ⟨b, hb, hs⟩
    · exact mem_supertypes_self s
    · exact mem_supertypes.2 (.inr (.inl ⟨b, hb, hbase b hb hs⟩))

theorem supertypes_trans {c s t : ClassDef} (hs : s ∈ c.supertypes) (ht : t ∈ s.supertypes) :
    t ∈ c.supertypes := by
  induction c using induction_supertypes with
  | step c hbase hinterfaces =>
    rcases mem_supertypes.1 hs with rfl | ⟨b, hb, hs⟩ | ⟨i, hi, hs⟩
    · exact ht
    · exact mem_supertypes.2 (.inr (.inl ⟨b, hb, hbase b hb hs⟩))
    · exact mem_supertypes.2 (.inr (.inr ⟨i, hi, hinterfaces i hi hs⟩))

theorem sizeOf_lt_of_mem_base {c b : ClassDef} (hb : b ∈ c.base) : sizeOf b < sizeOf c := by
  obtain ⟨id, name, kind, base, interfaces⟩ := c
  obtain rfl : base = some b := hb
  simp +arith

theorem sizeOf_lt_of_mem_interfaces {c i : ClassDef} (hi : i ∈ c.interfaces) :
    sizeOf i < sizeOf c := by
  obtain ⟨id, name, kind, base, interfaces⟩ := c
  have hlt : sizeOf i < sizeOf interfaces := List.sizeOf_lt_of_mem hi
  simp +arith
  omega

/-- A class derives from smaller classes, itself aside. -/
theorem eq_or_sizeOf_lt_of_mem_supertypes {c s : ClassDef} (hs : s ∈ c.supertypes) :
    s = c ∨ sizeOf s < sizeOf c := by
  induction c using induction_supertypes with
  | step c hbase hinterfaces =>
    rcases mem_supertypes.1 hs with rfl | ⟨b, hb, hs⟩ | ⟨i, hi, hs⟩
    · exact .inl rfl
    · have hlt := sizeOf_lt_of_mem_base hb
      rcases hbase b hb hs with rfl | hlt'
      · exact .inr hlt
      · exact .inr (Nat.lt_trans hlt' hlt)
    · have hlt := sizeOf_lt_of_mem_interfaces hi
      rcases hinterfaces i hi hs with rfl | hlt'
      · exact .inr hlt
      · exact .inr (Nat.lt_trans hlt' hlt)

/-- Two classes that derive from each other are the same class. -/
theorem supertypes_antisymm {c s : ClassDef} (hs : s ∈ c.supertypes) (hc : c ∈ s.supertypes) :
    s = c := by
  rcases eq_or_sizeOf_lt_of_mem_supertypes hs with rfl | hlt
  · rfl
  · rcases eq_or_sizeOf_lt_of_mem_supertypes hc with rfl | hlt'
    · rfl
    · exact (Nat.lt_asymm hlt hlt').elim

/-! ### Hierarchies -/

/-- Classes with everything they derive from. Interfaces have only interfaces above them, and a
class has them in their place. -/
structure Hierarchy (classes : ClassDef → Prop) : Prop where
  supertypes : ∀ {c}, classes c → ∀ s ∈ c.supertypes, classes s
  base : ∀ {c}, classes c → ∀ b ∈ c.base, b.isInterface = c.isInterface
  interfaces : ∀ {c}, classes c → ∀ i ∈ c.interfaces, i.isInterface = true

namespace Hierarchy

variable {classes : ClassDef → Prop}

theorem mem_base (h : Hierarchy classes) {c b : ClassDef} (hc : classes c) (hb : b ∈ c.base) :
    classes b :=
  h.supertypes hc b (mem_supertypes.2 (.inr (.inl ⟨b, hb, mem_supertypes_self b⟩)))

theorem mem_interfaces (h : Hierarchy classes) {c i : ClassDef} (hc : classes c)
    (hi : i ∈ c.interfaces) : classes i :=
  h.supertypes hc i (mem_supertypes.2 (.inr (.inr ⟨i, hi, mem_supertypes_self i⟩)))

theorem chain (h : Hierarchy classes) {c s : ClassDef} (hc : classes c) (hs : s ∈ c.chain) :
    classes s :=
  h.supertypes hc s (chain_subset_supertypes c hs)

theorem isInterface_of_chain (h : Hierarchy classes) {c s : ClassDef} (hc : classes c)
    (hs : s ∈ c.chain) : s.isInterface = c.isInterface := by
  induction c using induction_supertypes with
  | step c hbase _ =>
    rcases mem_chain.1 hs with rfl | ⟨b, hb, hs⟩
    · rfl
    · rw [hbase b hb (h.mem_base hc hb) hs, h.base hc b hb]

theorem isInterface_of_supertypes (h : Hierarchy classes) {c s : ClassDef} (hc : classes c)
    (hinterface : c.isInterface = true) (hs : s ∈ c.supertypes) : s.isInterface = true := by
  induction c using induction_supertypes with
  | step c hbase hinterfaces =>
    rcases mem_supertypes.1 hs with rfl | ⟨b, hb, hs⟩ | ⟨i, hi, hs⟩
    · exact hinterface
    · exact hbase b hb (h.mem_base hc hb) ((h.base hc b hb).trans hinterface) hs
    · exact hinterfaces i hi (h.mem_interfaces hc hi) (h.interfaces hc i hi) hs

/-- What a class derives from is a base or an interface. -/
theorem chain_or_interface (h : Hierarchy classes) {c s : ClassDef} (hc : classes c)
    (hs : s ∈ c.supertypes) : s ∈ c.chain ∨ s.isInterface = true := by
  induction c using induction_supertypes with
  | step c hbase _ =>
    rcases mem_supertypes.1 hs with rfl | ⟨b, hb, hs⟩ | ⟨i, hi, hs⟩
    · exact .inl (mem_chain.2 (.inl rfl))
    · exact (hbase b hb (h.mem_base hc hb) hs).imp_left fun hs => mem_chain.2 (.inr ⟨b, hb, hs⟩)
    · exact .inr (h.isInterface_of_supertypes (h.mem_interfaces hc hi) (h.interfaces hc i hi) hs)

end Hierarchy

/-! ### Checking a list of classes -/

theorem hierarchy_iff {cs : List ClassDef} : Hierarchy (· ∈ cs) ↔
    (∀ c ∈ cs, ∀ s ∈ c.supertypes, s ∈ cs) ∧
      (∀ c ∈ cs, ∀ b ∈ c.base, b.isInterface = c.isInterface) ∧
      ∀ c ∈ cs, ∀ i ∈ c.interfaces, i.isInterface = true :=
  ⟨fun h => ⟨fun _ => h.supertypes, fun _ => h.base, fun _ => h.interfaces⟩,
    fun h => ⟨h.1 _, h.2.1 _, h.2.2 _⟩⟩

instance (cs : List ClassDef) : Decidable (Hierarchy (· ∈ cs)) := decidable_of_iff' _ hierarchy_iff

end ClassDef

end ExprTree
