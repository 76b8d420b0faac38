import ExprTree.Eval.Evaluator

/-!
# Typed lambdas

Calling lambdas with native values. Each native type stands for one static type, and its values for
instances of it; an optional native type adds null as its absent value. A lambda can be called at a
shape when its signature is the signature of the shape.

## Main definitions

* `NativeTy`, `NativeTy.Carrier`: native types and their values.
* `NativeTy.toValue`, `NativeTy.ofValue`: the two directions.
* `Shape`, `Shape.Typed`: parameter and result types, and the native functions of a shape.
* `Evaluator.typed`: a lambda as a native function.
-/

set_option autoImplicit false

namespace ExprTree

/-- A type of native values. -/
inductive NativeTy where
  | bool
  | char
  | int (kind : IntTy)
  | f32
  | f64
  | string
  /-- Values as they are. -/
  | value
  | option (inner : NativeTy)
deriving DecidableEq, Repr

namespace NativeTy

/-- The static type that a native type stands for. -/
def ty : NativeTy → Ty
  | bool => .bool
  | char => .char
  | int k => .int k
  | f32 => .f32
  | f64 => .f64
  | string => .str
  | value => .object
  | option t => t.ty.toNullable

/-- The native values of a type. -/
def Carrier : NativeTy → Type
  | bool => Bool
  | char => Char
  | int k => { w : Word // w.kind = k }
  | f32 => UInt32
  | f64 => UInt64
  | string => String
  | value => Value
  | option t => Option t.Carrier

/-- A native value as a value of the language. An absent one is null. -/
def toValue : (t : NativeTy) → t.Carrier → Value
  | bool, b => .bool b
  | char, c => .char c
  | int _, w => .int w.val
  | f32, bits => .f32 bits
  | f64, bits => .f64 bits
  | string, s => .str s
  | value, v => v
  | option _, none => .null
  | option t, some x => t.toValue x

/-- A value of the language as a native value. -/
def ofValue : (t : NativeTy) → Value → Except EvalError t.Carrier
  | bool, v => match v with
    | .bool b => .ok b
    | v => .error (.badCast v .bool)
  | char, v => match v with
    | .char c => .ok c
    | v => .error (.badCast v .char)
  | int k, v => match v with
    | .int w => if h : w.kind = k then .ok ⟨w, h⟩ else .error (.badCast (.int w) (.int k))
    | v => .error (.badCast v (.int k))
  | f32, v => match v with
    | .f32 bits => .ok bits
    | v => .error (.badCast v .f32)
  | f64, v => match v with
    | .f64 bits => .ok bits
    | v => .error (.badCast v .f64)
  | string, v => match v with
    | .str s => .ok s
    | v => .error (.badCast v .str)
  | value, v => .ok v
  | option t, v => if v.isNull then .ok none else (t.ofValue v).map some

end NativeTy

/-- Parameter and result types of a native function. -/
structure Shape where
  params : List NativeTy
  ret : NativeTy
deriving DecidableEq, Repr

namespace Shape

/-- The signature that a lambda must have to be called at the shape. -/
def signature (s : Shape) : Signature := ⟨s.params.map NativeTy.ty, s.ret.ty⟩

/-- Native argument lists. -/
def Args : List NativeTy → Type
  | [] => Unit
  | t :: ts => t.Carrier × Args ts

/-- Native functions of a shape. -/
def Typed (s : Shape) : Type := Args s.params → EvalM s.ret.Carrier

/-- Native arguments as values. -/
def argsToValues : (ts : List NativeTy) → Args ts → List Value
  | [], _ => []
  | t :: ts, (x, xs) => t.toValue x :: argsToValues ts xs

/-- Values as native arguments, from left to right. Values that are not there are null. -/
def argsOfValues : (ts : List NativeTy) → List Value → Except EvalError (Args ts)
  | [], _ => .ok ()
  | t :: ts, vs => do
    let x ← t.ofValue (vs.headD .null)
    let xs ← argsOfValues ts vs.tail
    return (x, xs)

/-- A callable as a native function. -/
def adapt (s : Shape) (callable : Callable) : s.Typed := fun args => do
  let v ← callable (argsToValues s.params args)
  s.ret.ofValue v

end Shape

/-- The shapes that an evaluator has been asked for, each once. -/
abbrev Adapters := List Shape

/-- Note that a shape was asked for. -/
def Adapters.request (adapters : Adapters) (s : Shape) : Adapters :=
  if s ∈ adapters then adapters else s :: adapters

/-- A lambda as a native function of a shape, which must have its signature. -/
def Evaluator.typed {σ : Type} (evaluator : Evaluator σ) (s : Shape) (l : Lambda) :
    EvaluatorM σ s.Typed := do
  if l.signature = s.signature then
    return s.adapt (← evaluator.callable l)
  else throw (.shapeMismatch s.signature l.signature)

end ExprTree
