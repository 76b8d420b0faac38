import ExprTree.Value.Basic
import ExprTree.Expr.Text

/-!
# The state that evaluation runs in

Evaluating an expression can mint identities, look up implementations in the override tables of
classes, and run host code. All that a run leaves behind is collected in a `World`: the identities
handed out, what each class declares together with its override tables, and the trace of the host
code that ran. A failure leaves the world as it was at the point of failure.

## Main definitions

* `Declared`: what a class declares, and the answers its override tables hold.
* `Event`: an entry of the trace.
* `World`, `WorldM`: the state, and computations on it.
* `Host`, `HostM`: the bodies of members, and what they run in.
* `EvalM`: what evaluation runs in.
-/

set_option autoImplicit false

namespace ExprTree

/-- What a class declares, in declaration order, and its override tables. A table entry is the
answer that was found for a class and a slot, which may be that there is no implementation. The
entries are kept by the class and the slot as they are, and not by their identities, so what is read
back is an answer to the question that is asked. -/
structure Declared where
  methods : List MethodDef := []
  members : List MemberDef := []
  methodSlots : ClassDef → MethodDef → Option (Option MethodDef) := fun _ _ => none
  memberSlots : ClassDef → MemberDef → Option (Option MemberDef) := fun _ _ => none

/-- An entry of the trace. -/
inductive Event where
  /-- The body of a member ran. -/
  | ran (member : MemberId) (receiver : Option Value) (args : List Value)
  /-- A member was reached through a tracing reflector. -/
  | reached (what : String)

/-- The state that evaluation runs in. -/
structure World where
  supply : Supply := {}
  declared : ClassId → Declared := fun _ => {}
  /-- The latest event comes first. -/
  trace : List Event := []

/-- Computations that cannot fail. -/
abbrev WorldM := StateM World

/-- A failure of host code. -/
structure HostError where
  message : String
deriving DecidableEq, Repr

/-- Host code. -/
abbrev HostM := ExceptT HostError WorldM

/-- What a member does: from a receiver, if there is one, and arguments to a result. -/
abbrev HostBody := Option Value → List Value → HostM Value

/-- The bodies of members. -/
structure Host where
  body : MemberId → Option HostBody

/-- Evaluation, against a host. -/
abbrev EvalM := ReaderT Host (ExceptT EvalError WorldM)

instance : MonadMint WorldM where
  mint := fun w => (w.supply.next, { w with supply := ⟨w.supply.next + 1⟩ })

namespace World

/-- Mint inside the world. -/
def minting {α : Type} (x : StateM Supply α) : WorldM α := fun w =>
  let (a, supply) := x w.supply
  (a, { w with supply })

/-- Add an entry to the trace. -/
def record (e : Event) : WorldM Unit := modify fun w => { w with trace := e :: w.trace }

/-- Change what a class declares. -/
def modifyDeclared (c : ClassId) (f : Declared → Declared) (w : World) : World :=
  let d := f (w.declared c)
  { w with declared := fun i => if i = c then d else w.declared i }

@[simp] theorem declared_modifyDeclared_self (c : ClassId) (f : Declared → Declared) (w : World) :
    (w.modifyDeclared c f).declared c = f (w.declared c) := by
  simp [modifyDeclared]

theorem declared_modifyDeclared_of_ne {c i : ClassId} (h : i ≠ c) (f : Declared → Declared)
    (w : World) : (w.modifyDeclared c f).declared i = w.declared i := by
  simp [modifyDeclared, h]

end World

namespace EvalError

/-! ### Failures -/

/-- The failure under any record of where it arose. -/
def rootCause : EvalError → EvalError
  | dynamic _ cause => cause.rootCause
  | e => e

/-- Record where a failure arose, unless it already says so. -/
def atNode (site : Expr) : EvalError → EvalError
  | e@(dynamic ..) => e
  | e => dynamic site e

/-- The name of the kind of failure. -/
def kindName : EvalError → String
  | overflow _ => "Overflow"
  | invalidCast .. => "InvalidCast"
  | divideByZero => "DivideByZero"
  | nullReference _ => "NullReference"
  | indexOutOfRange .. => "IndexOutOfRange"
  | unsupported _ => "Unsupported"
  | unboundParameter _ => "UnboundParameter"
  | argumentCount .. => "ArgumentCount"
  | shapeMismatch .. => "ShapeMismatch"
  | host _ => "Host"
  | deferred _ => "Deferred"
  | expansion .. => "Expansion"
  | depthExceeded _ => "DepthExceeded"
  | structural _ => "Structure"
  | substitute _ => "Substitute"
  | dynamic .. => "Dynamic"

/-- Whether arithmetic left the range of its type. -/
def isOverflow (e : EvalError) : Bool :=
  match e.rootCause with
  | overflow _ => true
  | _ => false

/-- Whether a value could not be converted. -/
def isInvalidCast (e : EvalError) : Bool :=
  match e.rootCause with
  | invalidCast .. => true
  | _ => false

/-- A value that cannot be converted to a type. -/
def badCast (v : Value) (target : Ty) : EvalError := invalidCast v.text target

/-- Operands that a binary operator does not take. -/
def badOperands (op : BinaryOp) (left right : Value) : EvalError :=
  unsupported (codeQuoted (left.text ++ " " ++ op.symbol ++ " " ++ right.text))

/-- An operand that a unary operator does not take. -/
def badOperand (op : UnaryOp) (operand : Value) : EvalError :=
  unsupported (op.name ++ " on " ++ operand.text)

/-- A binary operator left the range of a type. -/
def binaryOverflow (op : BinaryOp) (t : Ty) : EvalError :=
  overflow (codeQuoted op.symbol ++ " on " ++ t.text)

/-- A conversion left the range of its target. -/
def conversionOverflow (v : Value) (target : Ty) : EvalError :=
  overflow ("conversion of " ++ v.text ++ " to " ++ target.text)

/-- A construct outside the supported subset. -/
def foreign (kind : ForeignKind) : EvalError := unsupported (codeQuoted kind.name ++ " expressions")

/-- What a placeholder raises for a captured failure. A failure of evaluation comes back as it was
captured, and so does one of expansion. -/
def raised (d : Deferred) : EvalError :=
  match d.cause with
  | .eval e => e
  | .expansion rule site cause => expansion rule site cause
  | .host _ => deferred d

end EvalError

namespace EvalM

/-- Host code as a part of evaluation. -/
def ofHost {α : Type} (x : Host → HostM α) : EvalM α := fun host =>
  (x host).adapt fun e => .host e.message

/-- Add an entry to the trace. -/
def record (e : Event) : EvalM Unit := fun _ => ExceptT.lift (World.record e)

/-- Record a node in the failures that leave it. -/
def located {α : Type} (site : Expr) (x : EvalM α) : EvalM α := fun host =>
  (x host).adapt fun e => e.atNode site

end EvalM

end ExprTree
