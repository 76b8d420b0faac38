/-!
# Operators and node kinds

The tags of expression nodes. Binary and unary nodes are told apart by their operator, so `a + b`
and `a - b` differ already in their tag.

## Main definitions

* `BinaryOp`, `UnaryOp`: operators, conversions among the unary ones.
* `ForeignKind`: constructs that can be written down but not evaluated.
* `NodeKind`: the tag of a node, with its printed `text` and its `code` in structural hashes.
-/

set_option autoImplicit false

namespace ExprTree

/-- Binary operators. -/
inductive BinaryOp where
  | add | addChecked | subtract | subtractChecked | multiply | multiplyChecked | divide | modulo
  | power | and | or | exclusiveOr | leftShift | rightShift | andAlso | orElse | coalesce
  | equal | notEqual | lessThan | lessThanOrEqual | greaterThan | greaterThanOrEqual
deriving DecidableEq, Repr

namespace BinaryOp

/-- All binary operators in declaration order. -/
def all : List BinaryOp :=
  [add, addChecked, subtract, subtractChecked, multiply, multiplyChecked, divide, modulo, power,
    and, or, exclusiveOr, leftShift, rightShift, andAlso, orElse, coalesce, equal, notEqual,
    lessThan, lessThanOrEqual, greaterThan, greaterThanOrEqual]

/-- The name of the operator. -/
def name : BinaryOp → String
  | add => "Add"
  | addChecked => "AddChecked"
  | subtract => "Subtract"
  | subtractChecked => "SubtractChecked"
  | multiply => "Multiply"
  | multiplyChecked => "MultiplyChecked"
  | divide => "Divide"
  | modulo => "Modulo"
  | power => "Power"
  | and => "And"
  | or => "Or"
  | exclusiveOr => "ExclusiveOr"
  | leftShift => "LeftShift"
  | rightShift => "RightShift"
  | andAlso => "AndAlso"
  | orElse => "OrElse"
  | coalesce => "Coalesce"
  | equal => "Equal"
  | notEqual => "NotEqual"
  | lessThan => "LessThan"
  | lessThanOrEqual => "LessThanOrEqual"
  | greaterThan => "GreaterThan"
  | greaterThanOrEqual => "GreaterThanOrEqual"

/-- The sign written between the operands. -/
def symbol : BinaryOp → String
  | add | addChecked => "+"
  | subtract | subtractChecked => "-"
  | multiply | multiplyChecked => "*"
  | divide => "/"
  | modulo => "%"
  | power => "**"
  | and => "&"
  | or => "|"
  | exclusiveOr => "^"
  | leftShift => "<<"
  | rightShift => ">>"
  | andAlso => "&&"
  | orElse => "||"
  | coalesce => "??"
  | equal => "=="
  | notEqual => "!="
  | lessThan => "<"
  | lessThanOrEqual => "<="
  | greaterThan => ">"
  | greaterThanOrEqual => ">="

/-- Operators whose result is a truth value whatever the operands are. -/
def isComparison : BinaryOp → Bool
  | equal | notEqual | lessThan | lessThanOrEqual | greaterThan | greaterThanOrEqual => true
  | _ => false

/-- Operators whose right operand is evaluated only when it is needed. -/
def isShortCircuit : BinaryOp → Bool
  | andAlso | orElse | coalesce => true
  | _ => false

/-- Arithmetic operators that fail on overflow. -/
def isChecked : BinaryOp → Bool
  | addChecked | subtractChecked | multiplyChecked => true
  | _ => false

end BinaryOp

/-- Unary operators, conversions included. -/
inductive UnaryOp where
  | negate | negateChecked | not | onesComplement | unaryPlus | convert | convertChecked | typeAs
  | arrayLength
deriving DecidableEq, Repr

namespace UnaryOp

/-- All unary operators in declaration order. -/
def all : List UnaryOp :=
  [negate, negateChecked, not, onesComplement, unaryPlus, convert, convertChecked, typeAs,
    arrayLength]

/-- The name of the operator. -/
def name : UnaryOp → String
  | negate => "Negate"
  | negateChecked => "NegateChecked"
  | not => "Not"
  | onesComplement => "OnesComplement"
  | unaryPlus => "UnaryPlus"
  | convert => "Convert"
  | convertChecked => "ConvertChecked"
  | typeAs => "TypeAs"
  | arrayLength => "ArrayLength"

/-- Operators that take a value to another type. -/
def isConversion : UnaryOp → Bool
  | convert | convertChecked | typeAs => true
  | _ => false

end UnaryOp

/-- How a binary operator treats null operands. -/
structure Lifting where
  /-- Some operand is nullable, and null propagates. -/
  lifted : Bool := false
  /-- A lifted operator answers null, not a truth value, when an operand is null. -/
  toNull : Bool := false
deriving DecidableEq, Repr

/-- Constructs outside the supported subset. They can be written down so that evaluating one gives
a precise failure and not a wrong answer. -/
inductive ForeignKind where
  | block | loop | switch | try | goto | label | dynamic | runtimeVariables | debugInfo | listInit
  | memberInit | invocation
deriving DecidableEq, Repr

namespace ForeignKind

/-- All foreign kinds in declaration order. -/
def all : List ForeignKind :=
  [block, loop, switch, .try, goto, label, dynamic, runtimeVariables, debugInfo, listInit,
    memberInit, invocation]

/-- The name of the construct. -/
def name : ForeignKind → String
  | block => "Block"
  | loop => "Loop"
  | switch => "Switch"
  | .try => "Try"
  | goto => "Goto"
  | label => "Label"
  | dynamic => "Dynamic"
  | runtimeVariables => "RuntimeVariables"
  | debugInfo => "DebugInfo"
  | listInit => "ListInit"
  | memberInit => "MemberInit"
  | invocation => "Invocation"

end ForeignKind

/-- Tag of a node. -/
inductive NodeKind where
  | constant | parameter | binary (op : BinaryOp) | unary (op : UnaryOp) | conditional | member
  | call | new | newArray | index | typeIs | lambda | raise | extension (kind : ForeignKind)
deriving DecidableEq, Repr

namespace NodeKind

/-- The name of the kind; operators and foreign constructs go by their own name. -/
def text : NodeKind → String
  | constant => "Constant"
  | parameter => "Parameter"
  | binary op => op.name
  | unary op => op.name
  | conditional => "Conditional"
  | member => "Member"
  | call => "Call"
  | new => "New"
  | newArray => "NewArray"
  | index => "Index"
  | typeIs => "TypeIs"
  | lambda => "Lambda"
  | raise => "Raise"
  | extension kind => kind.name

/-- The number folded into structural hashes. No two tags share a code. -/
def code : NodeKind → Nat
  | constant => 1
  | parameter => 2
  | conditional => 3
  | member => 4
  | call => 5
  | new => 6
  | newArray => 7
  | index => 8
  | typeIs => 9
  | lambda => 10
  | raise => 11
  | binary op => 100 + BinaryOp.all.idxOf op
  | unary op => 200 + UnaryOp.all.idxOf op
  | extension kind => 300 + ForeignKind.all.idxOf kind

end NodeKind

end ExprTree
