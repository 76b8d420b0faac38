import ExprTree.Word
import ExprTree.Ty.Class

/-!
# Static types

The types of expressions: primitives, strings, `object`, nullable wrappers, arrays, enums, classes
and function types. Nullable types wrap only types that cannot hold null already, which
`Ty.toNullable` takes care of; the constructor itself allows any type inside.

Types are equal when they are built alike. An enum carries its underlying type and a class its
hierarchy, and these may be shared many times over, so comparing takes two types that are one object
in memory for equal and does not look inside them.

## Main definitions

* `Ty`, `EnumDef`: types, and enums over an underlying type.
* `Signature`: parameter and result types of a function type.
* `Ty.toNullable`, `Ty.nonNullable`: into and out of nullable types.
* `Ty.canBeNull`, `Ty.isValueType`: the two classifications that conversions rest on.
-/

set_option autoImplicit false

namespace ExprTree

/-- Identity of an enum. -/
abbrev EnumId := Nat

mutual

/-- A static type. -/
inductive Ty where
  | void
  | bool
  | char
  | int (kind : IntTy)
  | f32
  | f64
  | str
  | object
  | nullable (inner : Ty)
  | array (element : Ty)
  | ofEnum (enum : EnumDef)
  | ofClass (cls : ClassDef)
  | func (params : List Ty) (ret : Ty)

/-- An enum: named raw values over an underlying type. -/
inductive EnumDef where
  | mk (id : EnumId) (name : String) (underlying : Ty) (variants : List (String × Word))

end

/-! ### Equality -/

mutual

/-- Types are equal when they are built alike. -/
def Ty.decEq (a b : Ty) : Decidable (a = b) :=
  match a with
  | .void => match b with
    | .void => isTrue rfl
    | .bool | .char | .int _ | .f32 | .f64 | .str | .object | .nullable _ | .array _ | .ofEnum _
    | .ofClass _ | .func .. => isFalse (by simp)
  | .bool => match b with
    | .bool => isTrue rfl
    | .void | .char | .int _ | .f32 | .f64 | .str | .object | .nullable _ | .array _ | .ofEnum _
    | .ofClass _ | .func .. => isFalse (by simp)
  | .char => match b with
    | .char => isTrue rfl
    | .void | .bool | .int _ | .f32 | .f64 | .str | .object | .nullable _ | .array _ | .ofEnum _
    | .ofClass _ | .func .. => isFalse (by simp)
  | .int j => match b with
    | .int k => if h : j = k then isTrue (by rw [h]) else isFalse (by simpa using h)
    | .void | .bool | .char | .f32 | .f64 | .str | .object | .nullable _ | .array _ | .ofEnum _
    | .ofClass _ | .func .. => isFalse (by simp)
  | .f32 => match b with
    | .f32 => isTrue rfl
    | .void | .bool | .char | .int _ | .f64 | .str | .object | .nullable _ | .array _ | .ofEnum _
    | .ofClass _ | .func .. => isFalse (by simp)
  | .f64 => match b with
    | .f64 => isTrue rfl
    | .void | .bool | .char | .int _ | .f32 | .str | .object | .nullable _ | .array _ | .ofEnum _
    | .ofClass _ | .func .. => isFalse (by simp)
  | .str => match b with
    | .str => isTrue rfl
    | .void | .bool | .char | .int _ | .f32 | .f64 | .object | .nullable _ | .array _ | .ofEnum _
    | .ofClass _ | .func .. => isFalse (by simp)
  | .object => match b with
    | .object => isTrue rfl
    | .void | .bool | .char | .int _ | .f32 | .f64 | .str | .nullable _ | .array _ | .ofEnum _
    | .ofClass _ | .func .. => isFalse (by simp)
  | .nullable s => match b with
    | .nullable t => match withPtrEqDecEq s t fun _ => Ty.decEq s t with
      | isTrue h => isTrue (by rw [h])
      | isFalse h => isFalse (by simpa using h)
    | .void | .bool | .char | .int _ | .f32 | .f64 | .str | .object | .array _ | .ofEnum _
    | .ofClass _ | .func .. => isFalse (by simp)
  | .array s => match b with
    | .array t => match withPtrEqDecEq s t fun _ => Ty.decEq s t with
      | isTrue h => isTrue (by rw [h])
      | isFalse h => isFalse (by simpa using h)
    | .void | .bool | .char | .int _ | .f32 | .f64 | .str | .object | .nullable _ | .ofEnum _
    | .ofClass _ | .func .. => isFalse (by simp)
  | .ofEnum d => match b with
    | .ofEnum e => match withPtrEqDecEq d e fun _ => EnumDef.decEq d e with
      | isTrue h => isTrue (by rw [h])
      | isFalse h => isFalse (by simpa using h)
    | .void | .bool | .char | .int _ | .f32 | .f64 | .str | .object | .nullable _ | .array _
    | .ofClass _ | .func .. => isFalse (by simp)
  | .ofClass c => match b with
    | .ofClass d => if h : c = d then isTrue (by rw [h]) else isFalse (by simpa using h)
    | .void | .bool | .char | .int _ | .f32 | .f64 | .str | .object | .nullable _ | .array _
    | .ofEnum _ | .func .. => isFalse (by simp)
  | .func ps r => match b with
    | .func qs s => match Ty.decEqAll ps qs with
      | isTrue h => match withPtrEqDecEq r s fun _ => Ty.decEq r s with
        | isTrue h' => isTrue (by rw [h, h'])
        | isFalse h' => isFalse (by simp [h'])
      | isFalse h => isFalse (by simp [h])
    | .void | .bool | .char | .int _ | .f32 | .f64 | .str | .object | .nullable _ | .array _
    | .ofEnum _ | .ofClass _ => isFalse (by simp)

/-- Enums are equal when they are built alike. -/
def EnumDef.decEq : (a b : EnumDef) → Decidable (a = b)
  | ⟨i, n, u, vs⟩, ⟨i', n', u', vs'⟩ =>
    if h : i = i' ∧ n = n' ∧ vs = vs' then
      match withPtrEqDecEq u u' fun _ => Ty.decEq u u' with
      | isTrue hu => isTrue (by simp [h, hu])
      | isFalse hu => isFalse (by simp [hu])
    else isFalse (by simp only [EnumDef.mk.injEq]; grind)

/-- Equality of type lists. -/
def Ty.decEqAll : (a b : List Ty) → Decidable (a = b)
  | [], [] => isTrue rfl
  | [], _ :: _ => isFalse (by simp)
  | _ :: _, [] => isFalse (by simp)
  | a :: as, b :: bs =>
    match withPtrEqDecEq a b fun _ => Ty.decEq a b with
    | isTrue h => match Ty.decEqAll as bs with
      | isTrue hs => isTrue (by rw [h, hs])
      | isFalse hs => isFalse (by simp [hs])
    | isFalse h => isFalse (by simp [h])

end

instance : DecidableEq Ty := fun a b => withPtrEqDecEq a b fun _ => Ty.decEq a b

instance : DecidableEq EnumDef := fun a b => withPtrEqDecEq a b fun _ => EnumDef.decEq a b

/-! ### Enums -/

namespace EnumDef

/-- The identity of the enum. -/
def id : EnumDef → EnumId
  | ⟨i, _, _, _⟩ => i

/-- The name of the enum. -/
def name : EnumDef → String
  | ⟨_, n, _, _⟩ => n

/-- The integral type that raw values belong to. -/
def underlying : EnumDef → Ty
  | ⟨_, _, u, _⟩ => u

/-- Names and raw values in declaration order. -/
def variants : EnumDef → List (String × Word)
  | ⟨_, _, _, vs⟩ => vs

/-- An enum over `i32` whose variants take consecutive raw values from zero. -/
def consecutive (id : EnumId) (name : String) (names : List String) : EnumDef :=
  ⟨id, name, .int .i32, names.zipIdx.map fun (n, i) => (n, .wrap .i64 i)⟩

/-- Raw value of the first variant with this name. -/
def variant? (d : EnumDef) (name : String) : Option Word :=
  (d.variants.find? fun v => v.1 = name).map Prod.snd

/-- Name of the first variant with this raw value. -/
def variantName? (d : EnumDef) (raw : Word) : Option String :=
  (d.variants.find? fun v => v.2 = raw).map Prod.fst

end EnumDef

/-- Parameter and result types of a function. -/
structure Signature where
  params : List Ty
  ret : Ty
deriving DecidableEq

namespace Ty

/-! ### Classification -/

/-- Whether a value of this type may be null. -/
def canBeNull : Ty → Bool
  | nullable _ | str | object | array _ | ofClass _ | func .. => true
  | void | bool | char | int _ | f32 | f64 | ofEnum _ => false

/-- Whether this is a nullable wrapper. -/
def isNullable : Ty → Bool
  | nullable _ => true
  | _ => false

/-- Primitives, enums and nullable wrappers. -/
def isValueType : Ty → Bool
  | str | object | array _ | ofClass _ | func .. => false
  | void | bool | char | int _ | f32 | f64 | ofEnum _ | nullable _ => true

/-- The fixed-width integer types. -/
def isIntegral : Ty → Bool
  | int _ => true
  | _ => false

/-- The fixed-width integer types without negative values. -/
def isUnsigned : Ty → Bool
  | int k => !k.signed
  | _ => false

/-- The floating-point types. -/
def isFloat : Ty → Bool
  | f32 | f64 => true
  | _ => false

/-- Integral and floating-point types. -/
def isNumeric (t : Ty) : Bool := t.isIntegral || t.isFloat

/-! ### Parts -/

/-- `T?` for types that cannot hold null, the type itself for those that can. -/
def toNullable (t : Ty) : Ty := if t.canBeNull then t else nullable t

/-- The wrapped type of a nullable type, any other type itself. -/
def nonNullable : Ty → Ty
  | nullable t => t
  | t => t

/-- Element type of an array type. -/
def element? : Ty → Option Ty
  | array t => some t
  | _ => none

/-- Signature of a function type. -/
def signature? : Ty → Option Signature
  | func ps r => some ⟨ps, r⟩
  | _ => none

/-- The function type with a given signature. -/
def ofSignature (s : Signature) : Ty := func s.params s.ret

end Ty

end ExprTree
