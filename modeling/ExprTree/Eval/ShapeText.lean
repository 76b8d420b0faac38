import ExprTree.Eval.Typed
import ExprTree.Ty.Text

/-!
# Reading shapes

The written form of a native function type is that of the signature it stands for, except that any
native type can be followed by a question mark to make it optional: `fn(i32, str?) -> bool`.

## Main definitions

* `NativeTy.ofText?`, `Shape.ofText?`: the readers.
-/

set_option autoImplicit false

namespace ExprTree

namespace NativeTy

/-- The native types that are not optional. -/
def plain : List NativeTy :=
  [bool, char, f32, f64, string, value] ++
    ([.i8, .u8, .i16, .u16, .i32, .u32, .i64, .u64] : List IntTy).map int

/-- A native type from its text, which is given backwards. -/
def ofReversed? : List Char → Option NativeTy
  | '?' :: rest => (ofReversed? rest).map option
  | cs => plain.find? fun t => t.ty.text = String.ofList cs.reverse

/-- A native type from its text. -/
def ofText? (s : String) : Option NativeTy := ofReversed? s.toList.reverse

end NativeTy

/-- A shape from its text. -/
def Shape.ofText? (s : String) : Option Shape :=
  match ((s.dropPrefix "fn(").toString).splitOn ") -> " with
  | [params, ret] => do
    let names := if params.isEmpty then [] else params.splitOn ", "
    return ⟨← names.mapM NativeTy.ofText?, ← NativeTy.ofText? ret⟩
  | _ => none

end ExprTree
