import ExprTree.Expr.Basic

/-!
# Building expressions

Nodes are built in a monad that mints identities. The functions here give every node the type it has
by the usual rules: comparisons are `bool`, arithmetic has the type of its left operand, and an
operator with a nullable operand is lifted over it.

## Main definitions

* `Supply`, `MonadMint`: the source of identities.
* `Expr.mkConstant`, `Expr.mkBinary`, and so on: one builder per kind of node.
* `Lambda.ofExprs`: a lambda from expressions that have to be distinct parameters.
-/

set_option autoImplicit false

namespace ExprTree

/-- The identities minted so far are those below `next`. -/
structure Supply where
  next : Nat := 0
deriving DecidableEq, Repr

/-- Monads that mint identities. -/
class MonadMint (m : Type → Type) where
  /-- An identity that was never handed out before. -/
  mint : m Nat

export MonadMint (mint)

instance : MonadMint (StateM Supply) where
  mint := fun s => (s.next, ⟨s.next + 1⟩)

instance {m : Type → Type} {σ : Type} [Monad m] [MonadMint m] : MonadMint (StateT σ m) where
  mint := StateT.lift mint

instance {m : Type → Type} {ε : Type} [Monad m] [MonadMint m] : MonadMint (ExceptT ε m) where
  mint := ExceptT.lift mint

instance {m : Type → Type} {ρ : Type} [MonadMint m] : MonadMint (ReaderT ρ m) where
  mint := fun _ => mint

namespace Value

/-- The type of a value as it is at run time. Null has none. -/
def runtimeTy : Value → Option Ty
  | null => none
  | void => some .void
  | bool _ => some .bool
  | char _ => some .char
  | int w => some (.int w.kind)
  | f32 _ => some .f32
  | f64 _ => some .f64
  | str _ => some .str
  | ofEnum d _ => some (.ofEnum d)
  | array t _ => some (.array t)
  | object _ c _ => some (.ofClass c)
  | lambda e => some e.ty
  | error _ => some .object

end Value

/-- Parameters and a body, if the parameters are parameter nodes of distinct names. The first
parameter at fault decides the failure. -/
def Lambda.ofExprs (params : List Expr) (body : Expr) : Except BuildError Lambda :=
  go 0 [] params
where
  /-- Check the parameters from position `i` on; `seen` holds those before it, last first. -/
  go (i : Nat) (seen : List Param) : List Expr → Except BuildError Lambda
    | [] => .ok ⟨seen.reverse, body⟩
    | e :: es =>
      match e.parameter? with
      | none => .error (.notAParameter i)
      | some p =>
        if seen.any fun q => q.name = p.name then .error (.duplicateParameter p.name)
        else go (i + 1) (p :: seen) es

namespace Expr

variable {m : Type → Type} [Monad m] [MonadMint m]

/-- A stamp with a new identity. -/
def stampNew (ty : Ty) : m Stamp := do return ⟨← mint, ty⟩

/-! ### Leaves -/

/-- A constant of a given type. -/
def mkConstant (value : Value) (ty : Ty) : m Expr := do return .constant (← stampNew ty) value

/-- A constant of its own runtime type. Null is an `object`. -/
def mkLiteral (value : Value) : m Expr := mkConstant value (value.runtimeTy.getD .object)

/-- A new parameter declaration, with the identity of the node that declares it. -/
def mkParam (name : String) (ty : Ty) : m Param := do
  let n ← mint
  return ⟨n, n, name, ty⟩

/-! ### Operators -/

/-- How a built-in operator treats null, given the types of its operands. -/
def liftingOf (op : BinaryOp) (left right : Ty) : Lifting :=
  let lifted := op ≠ .coalesce && (left.isNullable || right.isNullable)
  ⟨lifted, lifted && !op.isComparison⟩

/-- Result type of a built-in operator. -/
def binaryTy (op : BinaryOp) (left right : Ty) : Ty :=
  if op.isComparison then .bool
  else if op = .coalesce then right
  else if (liftingOf op left right).lifted then left.nonNullable.toNullable
  else left

/-- A built-in binary operator. -/
def mkBinary (op : BinaryOp) (left right : Expr) : m Expr := do
  return .binary (← stampNew (binaryTy op left.ty right.ty)) op (liftingOf op left.ty right.ty) none
    left right none

/-- A binary operator implemented by a method. -/
def mkBinaryWith (op : BinaryOp) (left right : Expr) (method : MethodDef) : m Expr := do
  return .binary (← stampNew method.ret) op {} method left right none

/-- The left operand unless it is null, then the right one. A conversion is applied to the left. -/
def mkCoalesce (left right : Expr) (conversion : Option Expr) : m Expr := do
  return .binary (← stampNew right.ty) .coalesce {} none left right conversion

/-- Whether a built-in unary operator passes null on. -/
def unaryLifted (op : UnaryOp) (operand result : Ty) : Bool :=
  operand.isNullable || (op.isConversion && result.isNullable)

/-- A built-in unary operator of a given result type. -/
def mkUnaryTo (op : UnaryOp) (operand : Expr) (ty : Ty) : m Expr := do
  return .unary (← stampNew ty) op (unaryLifted op operand.ty ty) none operand

/-- A built-in unary operator. The length of an array is an `i32`; all others keep the type. -/
def mkUnary (op : UnaryOp) (operand : Expr) : m Expr :=
  mkUnaryTo op operand (if op = .arrayLength then .int .i32 else operand.ty)

/-- A unary operator implemented by a method. -/
def mkUnaryWith (op : UnaryOp) (operand : Expr) (method : MethodDef) : m Expr := do
  return .unary (← stampNew method.ret) op false method operand

/-! ### The other kinds -/

/-- One of two branches, typed by the first. -/
def mkConditional (test ifTrue ifFalse : Expr) : m Expr := do
  return .conditional (← stampNew ifTrue.ty) test ifTrue ifFalse

/-- A field or property read. -/
def mkMember (receiver : Option Expr) (member : MemberDef) : m Expr := do
  return .member (← stampNew member.ty) receiver member

/-- A method call. -/
def mkCall (receiver : Option Expr) (method : MethodDef) (args : List Expr) : m Expr := do
  return .call (← stampNew method.ret) receiver method args

/-- A construction. -/
def mkNew (ctor : CtorDef) (args : List Expr) : m Expr := do
  return .new (← stampNew ctor.ty) ctor args

/-- An array of given items. -/
def mkNewArray (element : Ty) (items : List Expr) : m Expr := do
  return .newArray (← stampNew (.array element)) element items

/-- Array element access or an indexer call. -/
def mkIndex (receiver : Expr) (indexer : Option MethodDef) (args : List Expr) : m Expr := do
  let ty := match indexer with
    | some method => method.ret
    | none => receiver.ty.element?.getD .object
  return .index (← stampNew ty) receiver indexer args

/-- A type test. -/
def mkTypeIs (operand : Expr) (target : Ty) : m Expr := do
  return .typeIs (← stampNew .bool) operand target

/-- A lambda node. -/
def mkLambda (l : Lambda) : m Expr := do
  return .lambda (← stampNew (.ofSignature l.signature)) l.params l.body

/-- A placeholder of a given type that raises what its payload evaluates to. -/
def mkRaiseOf (payload : Expr) (ty : Ty) : m Expr := do
  return .raise (← stampNew ty) payload

/-- A placeholder of a given type for a captured failure. -/
def mkRaise (failure : Deferred) (ty : Ty) : m Expr := do
  mkRaiseOf (← mkConstant (.error failure) .object) ty

/-- A construct outside the supported subset. -/
def mkExtension (kind : ForeignKind) (operands : List Expr) (ty : Ty) : m Expr := do
  return .extension (← stampNew ty) kind operands

/-! ### New nodes from old ones -/

/-- The node with another stamp. A parameter keeps the declaration it refers to. -/
def withStamp (s : Stamp) : Expr → Expr
  | constant _ v => .constant s v
  | parameter p => .parameter { p with node := s.node, ty := s.ty }
  | binary _ op lifting method left right conversion =>
    .binary s op lifting method left right conversion
  | unary _ op lifted method operand => .unary s op lifted method operand
  | conditional _ test ifTrue ifFalse => .conditional s test ifTrue ifFalse
  | member _ receiver d => .member s receiver d
  | call _ receiver method args => .call s receiver method args
  | new _ ctor args => .new s ctor args
  | newArray _ element items => .newArray s element items
  | index _ receiver indexer args => .index s receiver indexer args
  | typeIs _ operand target => .typeIs s operand target
  | lambda _ params body => .lambda s params body
  | raise _ payload => .raise s payload
  | extension _ kind operands => .extension s kind operands

/-- A new node that looks like the given one but for its type. -/
def retype (e : Expr) (ty : Ty) : m Expr := do return e.withStamp (← stampNew ty)

end Expr

end ExprTree
