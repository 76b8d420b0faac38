import ExprTree.Dispatch
import ExprTree.Eval.Convert
import ExprTree.Eval.Operators

/-!
# What nodes mean

The meaning of each kind of node, given the meanings of its children. The tree-walking interpreter
and the compiled form of a tree are both built from these functions; they differ in how they bind
parameters and in what they say about failures.

Operands are evaluated from left to right. The short-circuit operators and conditionals evaluate an
operand only when it is needed, and a receiver that turns out null fails before any argument is
evaluated.

## Main definitions

* `Reflector`: how members are reached; `Reflector.native` runs the host's bodies.
* `Step.builtin`, `Step.andAlso`, and so on: one function per kind of node.
-/

set_option autoImplicit false

namespace ExprTree

/-- How evaluation reaches methods, fields, properties and constructors. -/
structure Reflector where
  invoke : MethodDef → Option Value → List Value → EvalM Value
  read : MemberDef → Option Value → EvalM Value
  construct : CtorDef → List Value → EvalM Value

namespace Reflector

/-- Reach members by running the host's bodies. -/
def native : Reflector where
  invoke m receiver args := .ofHost fun host => host.invoke m receiver args
  read d receiver := .ofHost fun host => host.read d receiver
  construct c args := .ofHost fun host => host.construct c args

/-- Put every member that is reached on the trace before reaching it. -/
def tracing (inner : Reflector) : Reflector where
  invoke m receiver args := do
    EvalM.record (.reached (m.name ++ "/" ++ toString args.length))
    inner.invoke m receiver args
  read d receiver := do
    EvalM.record (.reached d.name)
    inner.read d receiver
  construct c args := do
    EvalM.record (.reached ("new " ++ c.ty.text ++ "/" ++ toString args.length))
    inner.construct c args

end Reflector

namespace Step

/-- Evaluate operands from left to right. -/
def all : List (EvalM Value) → EvalM (List Value)
  | [] => return []
  | x :: xs => do
    let v ← x
    let vs ← all xs
    return v :: vs

/-! ### Operators -/

/-- A built-in operator that evaluates both operands. -/
def builtin (op : BinaryOp) (lifting : Lifting) (left right : EvalM Value) : EvalM Value := do
  let l ← left
  let r ← right
  if lifting.lifted && (l.isNull || r.isNull) then
    return Operators.liftedNull op lifting l r
  else Operators.binary op l r

/-- `left && right`. -/
def andAlso (left right : EvalM Value) : EvalM Value := do
  let l ← left
  if l == .bool false then return l
  else
    let r ← right
    return Operators.andAlso l r

/-- `left || right`. -/
def orElse (left right : EvalM Value) : EvalM Value := do
  let l ← left
  if l == .bool true then return l
  else
    let r ← right
    return Operators.orElse l r

/-- `left ?? right`, with what becomes of a left operand that is not null. -/
def coalesce (left right : EvalM Value) (conversion : Value → EvalM Value) : EvalM Value := do
  let l ← left
  if l.isNull then right else conversion l

/-- A binary operator implemented by a method. Null is an argument like any other. -/
def binaryMethod (reflector : Reflector) (m : MethodDef) (left right : EvalM Value) :
    EvalM Value := do
  let l ← left
  let r ← right
  reflector.invoke m none [l, r]

/-- A built-in unary operator or conversion, applied to a value. -/
def applyUnary (op : UnaryOp) (lifted : Bool) (source target : Ty) (v : Value) :
    Except EvalError Value :=
  match op with
  | .convert => Convert.convert v source target false
  | .convertChecked => Convert.convert v source target true
  | .typeAs => .ok (Convert.typeAs v target)
  | op =>
    if v.isNull && lifted then .ok .null
    else if v.isNull && op = .arrayLength then .error (.nullReference "array length")
    else Operators.unary op v

/-- A unary node. A lifted operator implemented by a method passes null on. -/
def unary (reflector : Reflector) (op : UnaryOp) (lifted : Bool) (method : Option MethodDef)
    (source target : Ty) (operand : EvalM Value) : EvalM Value := do
  let v ← operand
  match method with
  | some m => if lifted && v.isNull then return .null else reflector.invoke m none [v]
  | none => applyUnary op lifted source target v

/-- A conditional. The test must be a truth value. -/
def conditional (testTy : Ty) (test ifTrue ifFalse : EvalM Value) : EvalM Value := do
  match ← test with
  | .bool true => ifTrue
  | .bool false => ifFalse
  | v => throw (.badCast v testTy)

/-! ### Members -/

/-- Evaluate a receiver, which must not be null. -/
def receiver (context : String) (r : EvalM Value) : EvalM Value := do
  let v ← r
  if v.isNull then throw (.nullReference context) else return v

/-- Evaluate a receiver if there is one. -/
def receiver? (context : String) : Option (EvalM Value) → EvalM (Option Value)
  | none => return none
  | some r => do
    let v ← receiver context r
    return some v

/-- A field or property read. -/
def member (reflector : Reflector) (d : MemberDef) (r : Option (EvalM Value)) : EvalM Value := do
  let v ← receiver? ("access to " ++ codeQuoted d.name) r
  reflector.read d v

/-- A method call. -/
def call (reflector : Reflector) (m : MethodDef) (r : Option (EvalM Value))
    (args : List (EvalM Value)) : EvalM Value := do
  let v ← receiver? ("call to " ++ codeQuoted m.name) r
  let vs ← all args
  reflector.invoke m v vs

/-- A construction. -/
def construct (reflector : Reflector) (c : CtorDef) (args : List (EvalM Value)) : EvalM Value := do
  let vs ← all args
  reflector.construct c vs

/-- An array of given items. -/
def newArray (element : Ty) (items : List (EvalM Value)) : EvalM Value := do
  let vs ← all items
  return .array element vs

/-- An indexer call. -/
def indexer (reflector : Reflector) (m : MethodDef) (r : EvalM Value) (args : List (EvalM Value)) :
    EvalM Value := do
  let v ← receiver "index access" r
  let vs ← all args
  reflector.invoke m (some v) vs

/-- Array element access, which takes one index. -/
def element (r : EvalM Value) (args : List (EvalM Value)) : EvalM Value := do
  let v ← receiver "index access" r
  match args with
  | [arg] =>
    let i ← arg
    Operators.arrayElement v i
  | _ => throw (.unsupported "multi-dimensional array access")

/-! ### The rest -/

/-- A type test. -/
def typeIs (target : Ty) (operand : EvalM Value) : EvalM Value := do
  let v ← operand
  return .bool (Convert.typeIs v target)

/-- A placeholder for a captured failure. -/
def raise (payload : EvalM Value) : EvalM Value := do
  match ← payload with
  | .error d => throw (.raised d)
  | v => throw (.unsupported ("raising " ++ v.text))

end Step

end ExprTree
