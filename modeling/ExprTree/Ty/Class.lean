import ExprTree.Text.Quoted

/-!
# Classes

A class is a name with a place in a hierarchy: at most one base class and any number of interfaces.
The hierarchy below a class is part of the class, so whether one class derives from another is a
question about data. What a class declares is kept elsewhere, since it grows over time.

Two classes are equal when their whole hierarchies are. Hierarchies share their parts, so a class
may be met along very many paths; comparing takes two classes that are one object in memory for
equal and does not look inside them.

## Main definitions

* `ClassDef`: a class, abstract class or interface.
* `ClassDef.decEq`: equality of classes.
-/

set_option autoImplicit false

namespace ExprTree

/-- Identity of a class. -/
abbrev ClassId := Nat

/-- What kind of class a declaration introduces. -/
inductive ClassKind where
  | interface | abstract | concrete
deriving DecidableEq, Repr

/-- The name of a kind in printed text. -/
def ClassKind.text : ClassKind → String
  | interface => "Interface"
  | abstract => "Abstract"
  | concrete => "Concrete"

/-- A class, abstract class or interface, with everything above it. -/
structure ClassDef where
  id : ClassId
  name : String
  kind : ClassKind
  base : Option ClassDef
  interfaces : List ClassDef

namespace ClassDef

/-! ### Equality -/

mutual

/-- Equality of classes is equality of the whole hierarchies. -/
def decEq : (a b : ClassDef) → Decidable (a = b)
  | ⟨i, n, k, b, is⟩, ⟨i', n', k', b', is'⟩ =>
    if h : i = i' ∧ n = n' ∧ k = k' then
      match decEqBase b b' with
      | isTrue hb =>
        match decEqAll is is' with
        | isTrue hs => isTrue (by simp [h, hb, hs])
        | isFalse hs => isFalse (by simp [hs])
      | isFalse hb => isFalse (by simp [hb])
    else isFalse (by simp only [mk.injEq]; grind)

/-- Equality of optional base classes. -/
def decEqBase : (a b : Option ClassDef) → Decidable (a = b)
  | none, none => isTrue rfl
  | none, some _ => isFalse (by simp)
  | some _, none => isFalse (by simp)
  | some a, some b =>
    match withPtrEqDecEq a b fun _ => decEq a b with
    | isTrue h => isTrue (by rw [h])
    | isFalse h => isFalse (by simpa using h)

/-- Equality of lists of interfaces. -/
def decEqAll : (a b : List ClassDef) → Decidable (a = b)
  | [], [] => isTrue rfl
  | [], _ :: _ => isFalse (by simp)
  | _ :: _, [] => isFalse (by simp)
  | a :: as, b :: bs =>
    match withPtrEqDecEq a b fun _ => decEq a b with
    | isTrue h =>
      match decEqAll as bs with
      | isTrue hs => isTrue (by rw [h, hs])
      | isFalse hs => isFalse (by simp [hs])
    | isFalse h => isFalse (by simp [h])

end

instance : DecidableEq ClassDef := fun a b => withPtrEqDecEq a b fun _ => decEq a b

/-! ### Reading a class -/

/-- Whether the class is an interface. -/
def isInterface (c : ClassDef) : Bool := c.kind = .interface

/-- Diagnostic text of a class. -/
def debugText (c : ClassDef) : String :=
  "ClassDef \x7b name: " ++ Text.quoteString c.name ++ ", kind: " ++ c.kind.text ++ ", .. \x7d"

end ClassDef

end ExprTree
