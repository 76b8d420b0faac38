import ExprTree.Ty.Text
import ExprTree.Text.Quoted

/-!
# Methods, fields, properties and constructors

Declarations of members. A declaration says what a member is called, what it takes and returns and
which slots it overrides; what it does when it runs is the business of the host. Two overloads with
one name have different identities, so a declaration is equal only to itself.

## Main definitions

* `MemberFlags`: the four declaration flags.
* `MethodDef`, `MemberDef`, `CtorDef`: the declarations.
* `MethodDef.implements`, `MemberDef.implements`: whether a declaration is a slot or overrides it.
-/

set_option autoImplicit false

namespace ExprTree

/-- Identity of a method, field, property or constructor. -/
abbrev MemberId := Nat

/-- Declaration flags shared by all members. -/
structure MemberFlags where
  isStatic : Bool := false
  isVirtual : Bool := false
  isAbstract : Bool := false
  /-- Partial evaluation must leave every use of the member in place. -/
  nonFoldable : Bool := false
deriving DecidableEq, Repr

namespace MemberFlags

/-- The flags as one number, a bit for each. -/
def bits (f : MemberFlags) : Nat :=
  f.isStatic.toNat + 2 * f.isVirtual.toNat + 4 * f.isAbstract.toNat + 8 * f.nonFoldable.toNat

/-- Names of the flags that are set. -/
def names (f : MemberFlags) : List String :=
  [(f.isStatic, "STATIC"), (f.isVirtual, "VIRTUAL"), (f.isAbstract, "ABSTRACT"),
    (f.nonFoldable, "NON_FOLDABLE")].filterMap fun (set, name) => if set then some name else none

/-- Diagnostic text of the flags. -/
def debugText (f : MemberFlags) : String :=
  "MemberFlags(" ++ (if f.bits = 0 then "0x0" else String.intercalate " | " f.names) ++ ")"

end MemberFlags

/-! ### Methods -/

/-- A method declaration. -/
structure MethodDef where
  id : MemberId
  name : String
  params : List Ty
  ret : Ty
  flags : MemberFlags
  /-- The slots it overrides, directly or through the slot it overrides, nearest first. -/
  overrides : List MemberId
  /-- A caller's note on the declaration. -/
  label : Option String
deriving DecidableEq

namespace MethodDef

/-- The slots that a method overriding this one overrides. -/
def slots (m : MethodDef) : List MemberId := m.id :: m.overrides

/-- Whether the method is `slot` or overrides it, directly or transitively. -/
def implements (m slot : MethodDef) : Bool := slot.id ∈ m.slots

/-- Whether a method stands in for an interface method that it does not name as overridden: it has
an instance and the same name and parameters. -/
def matchesSlot (m slot : MethodDef) : Bool :=
  !m.flags.isStatic && m.name = slot.name && m.params = slot.params

/-- Types of the parameters and the result. -/
def signature (m : MethodDef) : Signature := ⟨m.params, m.ret⟩

/-- Diagnostic text, with the identity left out. -/
def debugText (m : MethodDef) : String :=
  "MethodDef \x7b id: #, name: " ++ Text.quoteString m.name ++ ", params: [" ++
    String.intercalate ", " (Ty.texts m.params) ++ "], ret: " ++ m.ret.text ++ ", flags: " ++
    m.flags.debugText ++ ", .. \x7d"

end MethodDef

/-! ### Fields and properties -/

/-- Fields are read from the receiver as they are; properties dispatch on it. -/
inductive MemberKind where
  | field | property
deriving DecidableEq, Repr

/-- The name of a kind in printed text. -/
def MemberKind.text : MemberKind → String
  | field => "Field"
  | property => "Property"

/-- A field or property declaration. -/
structure MemberDef where
  id : MemberId
  name : String
  kind : MemberKind
  ty : Ty
  flags : MemberFlags
  /-- The slots it overrides, directly or through the slot it overrides, nearest first. -/
  overrides : List MemberId
  /-- A caller's note on the declaration. -/
  label : Option String
deriving DecidableEq

namespace MemberDef

/-- Whether reads dispatch on the receiver. -/
def isProperty (m : MemberDef) : Bool := m.kind = .property

/-- The slots that a member overriding this one overrides. -/
def slots (m : MemberDef) : List MemberId := m.id :: m.overrides

/-- Whether the member is `slot` or overrides it, directly or transitively. -/
def implements (m slot : MemberDef) : Bool := slot.id ∈ m.slots

/-- Whether a member stands in for an interface member that it does not name as overridden: it has
an instance and the same name and type. -/
def matchesSlot (m slot : MemberDef) : Bool :=
  !m.flags.isStatic && m.name = slot.name && m.ty = slot.ty

/-- Diagnostic text, with the identity left out. -/
def debugText (m : MemberDef) : String :=
  "MemberDef \x7b id: #, name: " ++ Text.quoteString m.name ++ ", kind: " ++ m.kind.text ++
    ", ty: " ++ m.ty.text ++ ", .. \x7d"

end MemberDef

/-! ### Constructors -/

/-- A constructor declaration. -/
structure CtorDef where
  id : MemberId
  ty : Ty
  params : List Ty
  flags : MemberFlags
deriving DecidableEq

/-- Diagnostic text, with the identity left out. -/
def CtorDef.debugText (c : CtorDef) : String :=
  "CtorDef \x7b id: #, ty: " ++ c.ty.text ++ ", .. \x7d"

end ExprTree
