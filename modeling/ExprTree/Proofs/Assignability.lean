import ExprTree.Proofs.Casts

/-!
# Assignability is a partial order

A type accepts the types below it: `object` is above everything, a nullable type above what it wraps,
a class above those that derive from it, and an array of references above the arrays of what its
elements accept. The order is a partial one, since a hierarchy of classes has no cycles and since
nothing that a nullable type wraps accepts the nullable type. A type that has null already could:
`object?` and `object` accept each other. So nullable types around those are left out.

To be an instance is to be of a type below, so it goes up along the order.

## Main results

* `Ty.accepts_antisymm`: two types that accept each other are the same.
* `Ty.accepts_partialOrder`: assignability is a partial order that instances respect.
-/

set_option autoImplicit false

namespace ExprTree.Ty

variable {s t u : Ty}

/-- Nothing else is above `object`. -/
theorem eq_object_of_accepts (hproper : t.isProper = true) (h : t.accepts object = true) :
    t = object := by
  cases t with
  | object => rfl
  | nullable t =>
    rcases accepts_nullable.1 h with heq | rfl
    · cases heq
    · cases hproper
  | ofClass c =>
    obtain ⟨d, heq, -⟩ := accepts_ofClass.1 h
    cases heq
  | array t => rcases accepts_array.1 h with heq | ⟨s, heq, -⟩ <;> cases heq
  | str => cases eq_of_accepts (.inr (.inl rfl)) h
  | func ps r => cases eq_of_accepts (.inr (.inr ⟨ps, r, rfl⟩)) h
  | _ => cases eq_of_accepts (.inl ⟨rfl, rfl⟩) h

/-- Two types that accept each other are the same. -/
theorem accepts_antisymm : {s t : Ty} → s.isProper = true → t.isProper = true →
    s.accepts t = true → t.accepts s = true → s = t
  | object, _, _, ht, _, hts => (eq_object_of_accepts ht hts).symm
  | nullable s, t, hs, _, hst, hts => by
    rcases accepts_nullable.1 hst with rfl | rfl
    · rfl
    · exact eq_of_accepts (.inl (value_of_proper_nullable hs)) hts
  | ofClass c, _, _, _, hst, hts => by
    obtain ⟨d, rfl, hc⟩ := accepts_ofClass.1 hst
    obtain ⟨_, ⟨⟩, hd⟩ := accepts_ofClass.1 hts
    rw [ClassDef.supertypes_antisymm hc hd]
  | array s, _, hs, ht, hst, hts => by
    rcases accepts_array.1 hst with rfl | ⟨t, rfl, -, hst⟩
    · rfl
    · rcases accepts_array.1 hts with heq | ⟨_, ⟨⟩, -, hts⟩
      · exact heq
      · rw [accepts_antisymm (s := s) (t := t) hs ht hst hts]
  | str, _, _, _, hst, _ => (eq_of_accepts (.inr (.inl rfl)) hst).symm
  | func ps r, _, _, _, hst, _ => (eq_of_accepts (.inr (.inr ⟨ps, r, rfl⟩)) hst).symm
  | void, _, _, _, hst, _ | bool, _, _, _, hst, _ | char, _, _, _, hst, _
  | int _, _, _, _, hst, _ | f32, _, _, _, hst, _ | f64, _, _, _, hst, _
  | ofEnum _, _, _, _, hst, _ => (eq_of_accepts (.inl ⟨rfl, rfl⟩) hst).symm

/-- **Assignability is a partial order that instances respect.** Among types with nothing nullable
around a type that has null already, and over whatever classes, every type accepts itself, it accepts
what a type that it accepts does, and two types that accept each other are the same. An instance of a
type, null included, is one of every type that accepts it. -/
theorem accepts_partialOrder (hs : s.isProper = true) (ht : t.isProper = true) :
    s.accepts s = true ∧
      (s.accepts t = true → t.accepts u = true → s.accepts u = true) ∧
      (s.accepts t = true → t.accepts s = true → s = t) ∧
      ∀ v : Value, v.isInstanceOf t = true → s.accepts t = true → v.isInstanceOf s = true :=
  ⟨accepts_self s, accepts_trans hs, accepts_antisymm hs ht,
    fun _ h hst => Value.isInstanceOf_of_accepts hs hst h⟩

/-- The theorem for the arrays of circles, of shapes, and of anything that is no value. -/
theorem accepts_partialOrder_arrays :
    let shape : ClassDef := ⟨0, "Shape", .interface, none, []⟩
    let figure : ClassDef := ⟨1, "Figure", .abstract, none, [shape]⟩
    let circle : ClassDef := ⟨2, "Circle", .concrete, some figure, []⟩
    let s : Ty := .array .object
    let t : Ty := .array (.ofClass shape)
    let u : Ty := .array (.ofClass circle)
    let v : Value := .array (.ofClass circle) [.null, .object 0 circle []]
    s.isProper = true ∧ t.isProper = true ∧ s.accepts t = true ∧ t.accepts u = true ∧
      s.accepts u = true ∧ t.accepts s = false ∧ v.isInstanceOf t = true ∧
      v.isInstanceOf s = true := by
  intro shape figure circle s t u v
  obtain ⟨-, htrans, hantisymm, hinstance⟩ := @accepts_partialOrder s t u rfl rfl
  have hst : s.accepts t = true := by decide
  have htu : t.accepts u = true := by decide
  have hv : v.isInstanceOf t = true := by decide
  have hts : t.accepts s = false := Bool.eq_false_iff.2 fun h => nomatch Ty.array.inj (hantisymm hst h)
  exact ⟨rfl, rfl, hst, htu, htrans hst htu, hts, hv, hinstance v hv hst⟩

end ExprTree.Ty
