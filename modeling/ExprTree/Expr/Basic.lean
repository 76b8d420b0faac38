import ExprTree.Member
import ExprTree.Op

/-!
# Expressions, values and failures

Expression trees quote values, values quote expressions, and failures name the expression they
arose at, so the three are declared together.

A node of a tree carries a `Stamp`: its identity and its static type. Identities are minted when
nodes are built. Two nodes may look alike and be different nodes, and whether two handles are the
same node is what sharing, quoted lambdas and `Rewritten` are about. Everything else asks only what
a node looks like.

Null is a value of every type that admits it: a nullable type adds no wrapper to its values.
Floating-point values are kept as their bits, so two of them are equal when their bits are.

## Main definitions

* `Expr`, `Value`, `Deferred`, `EvalError`, `StructureError`: the data of the language.
* `Lambda`: parameters and a body.
* `Expr.stamp`, `Expr.ty`, `Expr.kind`: what every node has.
* `Expr.children`: the child expressions in evaluation order.
-/

set_option autoImplicit false

namespace ExprTree

/-- Identity of a node. -/
abbrev NodeId := Nat

/-- Identity of a parameter declaration. -/
abbrev ParamId := Nat

/-- Identity of a host object. -/
abbrev ObjectId := Nat

/-- Identity of a captured failure. -/
abbrev FailureId := Nat

/-- What every node has: an identity and a static type. -/
structure Stamp where
  node : NodeId
  ty : Ty
deriving DecidableEq

/-- A parameter node. Occurrences of one declaration share the `id`; the `node` tells the handles
apart, since a declaration can be written down again with another type. -/
structure Param where
  node : NodeId
  id : ParamId
  name : String
  ty : Ty
deriving DecidableEq

/-- A lambda was given parameters it cannot have. -/
inductive BuildError where
  | notAParameter (index : Nat)
  | duplicateParameter (name : String)
deriving DecidableEq, Repr

/-- Replacements that do not fit a lambda's parameters. -/
inductive SubstituteError where
  | arityMismatch (expected found : Nat)
  | notAssignable (index : Nat) (expected found : Ty)
deriving DecidableEq

mutual

/-- A runtime value. -/
inductive Value where
  | null
  | void
  | bool (b : Bool)
  | char (c : Char)
  | int (w : Word)
  | f32 (bits : UInt32)
  | f64 (bits : UInt64)
  | str (s : String)
  | ofEnum (enum : EnumDef) (raw : Word)
  | array (element : Ty) (items : List Value)
  /-- An instance of a class. The state is the host's. -/
  | object (id : ObjectId) (cls : ClassDef) (state : List Value)
  /-- A quoted expression. -/
  | lambda (e : Expr)
  /-- A captured failure, raised when a placeholder for it executes. -/
  | error (d : Deferred)

/-- An expression. -/
inductive Expr where
  | constant (stamp : Stamp) (value : Value)
  | parameter (p : Param)
  /-- The conversion is applied to the left operand of a `coalesce`. -/
  | binary (stamp : Stamp) (op : BinaryOp) (lifting : Lifting) (method : Option MethodDef)
      (left right : Expr) (conversion : Option Expr)
  | unary (stamp : Stamp) (op : UnaryOp) (lifted : Bool) (method : Option MethodDef)
      (operand : Expr)
  | conditional (stamp : Stamp) (test ifTrue ifFalse : Expr)
  /-- Without a receiver the member is static. -/
  | member (stamp : Stamp) (receiver : Option Expr) (member : MemberDef)
  /-- Without a receiver the method is static. -/
  | call (stamp : Stamp) (receiver : Option Expr) (method : MethodDef) (args : List Expr)
  | new (stamp : Stamp) (ctor : CtorDef) (args : List Expr)
  | newArray (stamp : Stamp) (element : Ty) (items : List Expr)
  /-- Without an indexer this is array element access. -/
  | index (stamp : Stamp) (receiver : Expr) (indexer : Option MethodDef) (args : List Expr)
  | typeIs (stamp : Stamp) (operand : Expr) (target : Ty)
  | lambda (stamp : Stamp) (params : List Param) (body : Expr)
  /-- Raises the failure that the payload evaluates to. -/
  | raise (stamp : Stamp) (payload : Expr)
  | extension (stamp : Stamp) (kind : ForeignKind) (operands : List Expr)

/-- A captured failure with its identity. -/
inductive Deferred where
  | mk (id : FailureId) (cause : Failure)

/-- What a placeholder may have captured: a failure of the host, of evaluation or of expansion. -/
inductive Failure where
  | host (message : String)
  | eval (e : EvalError)
  | expansion (rule : String) (site : Expr) (cause : EvalError)

/-- A failure of evaluation. -/
inductive EvalError where
  | overflow (operation : String)
  | invalidCast (value : String) (target : Ty)
  | divideByZero
  | nullReference (context : String)
  | indexOutOfRange (index : Int) (length : Nat)
  | unsupported (what : String)
  | unboundParameter (name : String)
  | argumentCount (expected found : Nat)
  | shapeMismatch (expected found : Signature)
  | host (message : String)
  /-- A captured failure of the host, raised by a placeholder. -/
  | deferred (d : Deferred)
  /-- A rewrite rule failed on a site. -/
  | expansion (rule : String) (site : Expr) (cause : EvalError)
  | depthExceeded (limit : Nat)
  | structural (e : StructureError)
  | substitute (e : SubstituteError)
  /-- A failure together with the node it arose at. -/
  | dynamic (site : Expr) (cause : EvalError)

/-- Trees could not be compared. -/
inductive StructureError where
  | unsupported (kind : ForeignKind)
  | comparison (left right : Expr) (cause : StructureError)

end

/-- Parameters and a body. -/
structure Lambda where
  params : List Param
  body : Expr

namespace Expr

/-! ### What every node has -/

/-- Identity and static type of a node. -/
def stamp : Expr → Stamp
  | parameter p => ⟨p.node, p.ty⟩
  | constant s _ | binary s .. | unary s .. | conditional s .. | member s .. | call s .. | new s ..
  | newArray s .. | index s .. | typeIs s .. | lambda s .. | raise s _ | extension s .. => s

/-- Static type of a node. -/
def ty (e : Expr) : Ty := e.stamp.ty

/-- Identity of a node. -/
def node (e : Expr) : NodeId := e.stamp.node

/-- Whether two handles are handles of the same node. -/
def same (a b : Expr) : Bool := a.node = b.node

/-- The tag of a node. -/
def kind : Expr → NodeKind
  | constant .. => .constant
  | parameter _ => .parameter
  | binary _ op .. => .binary op
  | unary _ op .. => .unary op
  | conditional .. => .conditional
  | member .. => .member
  | call .. => .call
  | new .. => .new
  | newArray .. => .newArray
  | index .. => .index
  | typeIs .. => .typeIs
  | lambda .. => .lambda
  | raise .. => .raise
  | extension _ kind _ => .extension kind

/-- The value of a constant node. -/
def constant? : Expr → Option Value
  | constant _ v => some v
  | _ => none

/-- The declaration of a parameter node. -/
def parameter? : Expr → Option Param
  | parameter p => some p
  | _ => none

/-- Parameters and body of a lambda node. -/
def lambda? : Expr → Option Lambda
  | lambda _ params body => some ⟨params, body⟩
  | _ => none

theorem eq_of_constant? {e : Expr} {v : Value} (h : e.constant? = some v) :
    ∃ s, e = .constant s v := by
  cases e with
  | constant s v => exact ⟨s, by cases h; rfl⟩
  | _ => cases h

theorem eq_of_parameter? {e : Expr} {p : Param} (h : e.parameter? = some p) : e = .parameter p := by
  cases e with
  | parameter p => cases h; rfl
  | _ => cases h

theorem eq_of_lambda? {e : Expr} {l : Lambda} (h : e.lambda? = some l) :
    ∃ s, e = .lambda s l.params l.body := by
  cases e with
  | lambda s ps b => exact ⟨s, by cases h; rfl⟩
  | _ => cases h

/-! ### Children -/

/-- Child expressions in evaluation order. The only child of a lambda is its body: its parameters
are declarations. -/
def children : Expr → List Expr
  | constant .. | parameter _ => []
  | binary _ _ _ _ left right conversion => left :: right :: conversion.toList
  | unary _ _ _ _ operand => [operand]
  | conditional _ test ifTrue ifFalse => [test, ifTrue, ifFalse]
  | member _ receiver _ => receiver.toList
  | call _ receiver _ args => receiver.toList ++ args
  | new _ _ args => args
  | newArray _ _ items => items
  | index _ receiver _ args => receiver :: args
  | typeIs _ operand _ => [operand]
  | lambda _ _ body => [body]
  | raise _ payload => [payload]
  | extension _ _ operands => operands

/-- The node without the conversions around it that keep a value what it is. -/
def unwrapCasts : Expr → Expr
  | unary _ .convert _ _ operand | unary _ .typeAs _ _ operand => operand.unwrapCasts
  | e => e

end Expr

namespace Lambda

/-- A lambda without parameters. -/
def closed (body : Expr) : Lambda := ⟨[], body⟩

/-- Types of the parameters and the body. -/
def signature (l : Lambda) : Signature := ⟨l.params.map Param.ty, l.body.ty⟩

/-- The same parameters over another body. -/
def withBody (l : Lambda) (body : Expr) : Lambda := { l with body }

/-- Identities of the parameters. -/
def paramIds (l : Lambda) : List ParamId := l.params.map Param.id

end Lambda

end ExprTree
