import ExprTree.Structure.Fnv
import ExprTree.Structure.Equal

/-!
# Structural hashing

A hash that folds what structural equality compares, down to a bounded depth. Trees that are equal
have equal hashes at every depth, so the bounded hash serves for buckets and the comparison decides
inside them.

Types and values are hashed by a `LeafHasher`, of which nothing is known but that its hashes are
functions of what equality compares: of the type, and of the form of a value and some bytes. An
array is hashed by its items instead. Which hasher it is makes no difference to anything but the
numbers, so trees and keys are hashed over any.

## Main definitions

* `LeafHasher`: hashes of types, hashes of forms and bytes, and the addresses of what is compared by
  identity.
* `LeafHasher.bytewise`: one that runs.
* `Ty.hashCode`, `Value.hashCode`: the hashes of types and values.
* `Expr.structHash`: the hash of a tree.
* `Hashing`: the hasher and the depth that keys are hashed with.
* `ShapeKey`: a lambda with its hash, constants ignored, as a key of a table.
-/

set_option autoImplicit false

namespace ExprTree

/-! ### Leaf hashes -/

/-- Fold the two halves of a hash into one. -/
def foldHash (h : UInt64) : UInt32 := (h ^^^ (h >>> 32)).toUInt32

/-- A hash of types, a hash of bytes for each form of value, and where in memory the things are that
are compared by identity. -/
structure LeafHasher where
  /-- The hash of a type. -/
  hashType : Ty → UInt64
  /-- The hash of a value of the form that the discriminant stands for, from the bytes that it is
  fed. -/
  hash (discriminant : Nat) (bytes : List UInt8) : UInt64
  objectAddress : ObjectId → Nat
  nodeAddress : NodeId → Nat
  failureAddress : FailureId → Nat

/-- A number as bytes, lowest first. What does not fit is dropped. -/
def lowBytes : (count : Nat) → Nat → List UInt8
  | 0, _ => []
  | count + 1, n => .ofNat n :: lowBytes count (n / 256)

mutual

/-- A hash of a type. -/
def Ty.wideHash : Ty → UInt64
  | .void => 1
  | .bool => 2
  | .char => 3
  | .int k => mixHash 4 (hash k)
  | .f32 => 5
  | .f64 => 6
  | .str => 7
  | .object => 8
  | .nullable t => mixHash 9 t.wideHash
  | .array t => mixHash 10 t.wideHash
  | .ofEnum d => mixHash 11 (hash d.id)
  | .ofClass c => mixHash 12 (hash c.id)
  | .func ps r => mixHash (Ty.wideHashes 13 ps) r.wideHash

/-- Fold the hashes of several types into one. -/
def Ty.wideHashes (acc : UInt64) : List Ty → UInt64
  | [] => acc
  | t :: ts => Ty.wideHashes (mixHash acc t.wideHash) ts

end

/-- A hasher that runs. Types are folded from the inside out, and of a value the discriminant and
then the bytes in order, with the 64-bit offset and factor of the FNV family. Identities stand for
addresses. -/
def LeafHasher.bytewise : LeafHasher where
  hashType := Ty.wideHash
  hash discriminant bytes := (lowBytes 8 discriminant ++ bytes).foldl
    (fun h byte => (h ^^^ byte.toUInt64) * 1099511628211) 14695981039346656037
  objectAddress := id
  nodeAddress := id
  failureAddress := id

/-- The 32-bit hash of a type. -/
def Ty.hashCode (hasher : LeafHasher) (t : Ty) : UInt32 := foldHash (hasher.hashType t)

namespace Value

/-- The number of a form of value. -/
def discriminant : Value → Nat
  | null => 0
  | void => 1
  | bool _ => 2
  | char _ => 3
  | int w => match w.kind with
    | .i8 => 4
    | .u8 => 5
    | .i16 => 6
    | .u16 => 7
    | .i32 => 8
    | .u32 => 9
    | .i64 => 10
    | .u64 => 11
  | f32 _ => 12
  | f64 _ => 13
  | str _ => 14
  | ofEnum .. => 15
  | array .. => 16
  | object .. => 17
  | lambda _ => 18
  | error _ => 19

/-- The bytes that a hasher is fed for a value. A string ends with a byte that no text contains, and
an array has its items instead. -/
def hashedBytes (hasher : LeafHasher) : Value → List UInt8
  | null | void | array .. => []
  | bool b => [if b then 1 else 0]
  | char c => lowBytes 4 c.toNat
  | int w => lowBytes (w.kind.bits / 8) w.pattern
  | f32 bits => lowBytes 4 bits.toNat
  | f64 bits => lowBytes 8 bits.toNat
  | str s => s.toUTF8.data.toList ++ [255]
  | ofEnum d raw => lowBytes 4 d.id ++ lowBytes 8 raw.pattern
  | object i _ _ => lowBytes 8 (hasher.objectAddress i)
  | lambda e => lowBytes 8 (hasher.nodeAddress e.node)
  | error d => lowBytes 8 (hasher.failureAddress d.id)

mutual

/-- The 32-bit hash of a value, consistent with `==`. -/
def hashCode (hasher : LeafHasher) : Value → UInt32
  | array _ items => (mixItems hasher ⟨0⟩ items).state
  | v => foldHash (hasher.hash v.discriminant (v.hashedBytes hasher))

/-- Fold the items of an array; none of them is absent. -/
def mixItems (hasher : LeafHasher) (h : Fnv) : List Value → Fnv
  | [] => h
  | v :: vs => mixItems hasher (h.mixItem (some (hashCode hasher v))) vs

end

theorem mixItems_eq (hasher : LeafHasher) (h : Fnv) (vs : List Value) :
    mixItems hasher h vs = (vs.map fun v => some (v.hashCode hasher)).foldl Fnv.mixItem h := by
  induction vs generalizing h with
  | nil => rfl
  | cons v vs ih => simp [mixItems, ih]

/-- An array has the hash of the sequence of its items' hashes. -/
theorem hashCode_array (hasher : LeafHasher) (element : Ty) (items : List Value) :
    (array element items).hashCode hasher =
      Fnv.ofItems (items.map fun v => some (v.hashCode hasher)) := by
  simp [hashCode, mixItems_eq, Fnv.ofItems]

/-- Everything but an array has the hash of its form and its bytes. -/
theorem hashCode_leaf (hasher : LeafHasher) {v : Value} (hv : v.items? = none) :
    v.hashCode hasher = foldHash (hasher.hash v.discriminant (v.hashedBytes hasher)) := by
  cases v with
  | array element items => cases hv
  | _ => simp only [hashCode]

end Value

/-! ### Hashes of trees -/

namespace Expr

variable (hasher : LeafHasher)

/-- Whether a hash bounded to `maxDepth` looks below a node at `depth`, counted from one. -/
def looksBelow (maxDepth : Option Nat) (depth : Nat) : Bool :=
  match maxDepth with
  | none => true
  | some d => depth < d

/-- Fold a parameter of a lambda as a node at `depth`. -/
def mixParam (maxDepth : Option Nat) (depth : Nat) (h : Fnv) (p : Param) : Fnv :=
  let h := h.mix NodeKind.parameter.code
  let h := if looksBelow maxDepth depth then h.mixWord (p.ty.hashCode hasher) else h
  h.mix (-1)

/-- Fold what a node at `depth` says besides its kind and children. -/
def mixDetails (ignoreConstants : Bool) (maxDepth : Option Nat) (depth : Nat) (h : Fnv) :
    Expr → Fnv
  | constant _ v => if ignoreConstants then h.mix (-1) else h.mixWord (v.hashCode hasher)
  | parameter p => h.mixWord (p.ty.hashCode hasher)
  | member _ _ d => h.mix d.id
  | call _ _ method _ => h.mix method.id
  | lambda _ params body =>
    params.foldl (mixParam hasher maxDepth (depth + 1)) (h.mixWord (body.ty.hashCode hasher))
  | _ => h

/-- Fold a tree whose root is at a given depth. What the bound cuts off is not visited. -/
def mixNode (ignoreConstants : Bool) (maxDepth : Option Nat) : Expr → (depth : Nat) → Fnv → Fnv :=
  fold fun e below depth h =>
    let h := h.mix e.kind.code
    let h :=
      if looksBelow maxDepth depth then
        (below ()).foldl (fun h mixChild => mixChild (depth + 1) h)
          (e.mixDetails hasher ignoreConstants maxDepth depth h)
      else h
    h.mix (-1)

theorem mixNode_eq (ignoreConstants : Bool) (maxDepth : Option Nat) (e : Expr) (depth : Nat)
    (h : Fnv) :
    e.mixNode hasher ignoreConstants maxDepth depth h =
      ((if looksBelow maxDepth depth then
        e.children.foldl (fun h c => c.mixNode hasher ignoreConstants maxDepth (depth + 1) h)
          (e.mixDetails hasher ignoreConstants maxDepth depth (h.mix e.kind.code))
      else h.mix e.kind.code).mix (-1)) := by
  rw [mixNode, fold_eq]
  simp only [List.foldl_map]

/-- The structural hash of a tree over a hasher, of the whole tree if no depth is given. -/
def structHash (e : Expr) (ignoreConstants : Bool) (maxDepth : Option Nat) : UInt32 :=
  (e.mixNode hasher ignoreConstants maxDepth 1 Fnv.new).state

end Expr

/-! ### Keys -/

/-- The hash depth of keys where no other is set. -/
def defaultHashDepth : Nat := 5

/-- How keys are hashed: over which hasher, and to what depth. -/
structure Hashing where
  hasher : LeafHasher
  depth : Nat

/-- The shape of a lambda node: the tree up to the values of its constants. -/
structure ShapeKey where
  lambda : Expr
  hash : UInt32

namespace ShapeKey

/-- The key of a tree, which must hold no foreign construct. -/
def ofExpr (e : Expr) (hashing : Hashing) : Except StructureError ShapeKey :=
  match e.validate with
  | .error cause => .error cause
  | .ok () => .ok ⟨e, e.structHash hashing.hasher true (some hashing.depth)⟩

/-- Whether two keys stand for one shape. -/
def beq (a b : ShapeKey) : Bool :=
  a.hash = b.hash &&
    match a.lambda.structEq b.lambda true with
    | .ok answer => answer
    | .error _ => false

instance : BEq ShapeKey := ⟨beq⟩

end ShapeKey

end ExprTree
