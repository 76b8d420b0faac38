import ExprTree.Ty.Basic

/-!
# Printed types

## Main definitions

* `Ty.text`: the printed form of a type.
* `Signature.text`: the printed form of a function type, `fn(a, b) -> r`.
-/

set_option autoImplicit false

namespace ExprTree

mutual

/-- The printed form of a type. Enums and classes print their name. -/
def Ty.text : Ty → String
  | .void => "void"
  | .bool => "bool"
  | .char => "char"
  | .int k => k.text
  | .f32 => "f32"
  | .f64 => "f64"
  | .str => "str"
  | .object => "object"
  | .nullable t => t.text ++ "?"
  | .array t => t.text ++ "[]"
  | .ofEnum d => d.name
  | .ofClass c => c.name
  | .func ps r => "fn(" ++ String.intercalate ", " (Ty.texts ps) ++ ") -> " ++ r.text

/-- The printed forms of several types. -/
def Ty.texts : List Ty → List String
  | [] => []
  | t :: ts => t.text :: Ty.texts ts

end

/-- The printed form of a function type. -/
def Signature.text (s : Signature) : String := (Ty.ofSignature s).text

end ExprTree
