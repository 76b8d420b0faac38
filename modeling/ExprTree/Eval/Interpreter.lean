import ExprTree.Eval.Step
import ExprTree.Expr.Fold

/-!
# The tree-walking interpreter

Evaluation of a tree in a frame that binds parameters to values. A lambda evaluates to itself as a
quoted expression; it is not closed over the frame. A conversion of a coalesce node is not quoted
but applied in place, with its parameters added to the frame.

Every failure names the innermost node that it arose at.

## Main definitions

* `Frame`: bindings of parameters.
* `Expr.interpret`: the evaluation of a tree in a frame.
* `Callable`, `Lambda.interpret`: a lambda as a function of its arguments.
* `Expr.ensureClosed`: refuses trees with free parameters.
-/

set_option autoImplicit false

namespace ExprTree

/-- Bindings of parameters to values. Later bindings come first and win. -/
abbrev Frame := List (ParamId × Value)

namespace Frame

/-- The value of a parameter. -/
def get? (frame : Frame) (id : ParamId) : Option Value := frame.lookup id

/-- Bind parameters to arguments. -/
def bind (frame : Frame) (params : List Param) (args : List Value) : Frame :=
  (params.zip args).foldl (fun frame (p, v) => (p.id, v) :: frame) frame

end Frame

/-- A lambda ready to be called with its arguments in order. -/
abbrev Callable := List Value → EvalM Value

namespace Expr

mutual

/-- Evaluate a tree in a frame. -/
def interpret (reflector : Reflector) (frame : Frame) (e : Expr) : EvalM Value :=
  .located e <|
    match e with
    | constant _ v => return v
    | parameter p =>
      match frame.get? p.id with
      | some v => return v
      | none => throw (.unboundParameter p.name)
    | binary _ op lifting method left right conversion =>
      let l := interpret reflector frame left
      let r := interpret reflector frame right
      match method with
      | some m => Step.binaryMethod reflector m l r
      | none =>
        match op with
        | .andAlso => Step.andAlso l r
        | .orElse => Step.orElse l r
        | .coalesce => Step.coalesce l r fun v =>
          match conversion with
          | some (lambda _ params body) =>
            if params.length = 1 then interpret reflector (frame.bind params [v]) body
            else throw (.argumentCount params.length 1)
          | _ => return v
        | op => Step.builtin op lifting l r
    | unary s op lifted method operand =>
      Step.unary reflector op lifted method operand.ty s.ty (interpret reflector frame operand)
    | conditional _ test ifTrue ifFalse =>
      Step.conditional test.ty (interpret reflector frame test) (interpret reflector frame ifTrue)
        (interpret reflector frame ifFalse)
    | member _ receiver d => Step.member reflector d (interpretOption reflector frame receiver)
    | call _ receiver method args =>
      Step.call reflector method (interpretOption reflector frame receiver)
        (interpretAll reflector frame args)
    | new _ ctor args => Step.construct reflector ctor (interpretAll reflector frame args)
    | newArray _ element items => Step.newArray element (interpretAll reflector frame items)
    | index _ receiver indexer args =>
      let r := interpret reflector frame receiver
      match indexer with
      | some m => Step.indexer reflector m r (interpretAll reflector frame args)
      | none => Step.element r (interpretAll reflector frame args)
    | typeIs _ operand target => Step.typeIs target (interpret reflector frame operand)
    | lambda .. => return .lambda e
    | raise _ payload => Step.raise (interpret reflector frame payload)
    | extension _ kind _ => throw (.foreign kind)

/-- The evaluation of an optional tree. -/
def interpretOption (reflector : Reflector) (frame : Frame) : Option Expr → Option (EvalM Value)
  | none => none
  | some e => some (interpret reflector frame e)

/-- The evaluations of several trees. -/
def interpretAll (reflector : Reflector) (frame : Frame) : List Expr → List (EvalM Value)
  | [] => []
  | e :: es => interpret reflector frame e :: interpretAll reflector frame es

end

theorem interpretOption_eq_map (reflector : Reflector) (frame : Frame) (e : Option Expr) :
    interpretOption reflector frame e = e.map (interpret reflector frame) := by
  cases e <;> simp [interpretOption]

theorem interpretAll_eq_map (reflector : Reflector) (frame : Frame) (es : List Expr) :
    interpretAll reflector frame es = es.map (interpret reflector frame) := by
  induction es with
  | nil => simp [interpretAll]
  | cons e es ih => simp [interpretAll, ih]

/-- Refuse a tree that refers to parameters it does not declare. -/
def ensureClosed (e : Expr) : Except EvalError Unit :=
  match e.freeParameters with
  | [] => .ok ()
  | p :: _ => .error (.unboundParameter p.name)

/-- A tree is refused for a free parameter. -/
theorem ensureClosed_eq (e : Expr) : e.ensureClosed =
    match e.freeOccurrences [] with
    | [] => .ok ()
    | p :: _ => .error (.unboundParameter p.name) := by
  unfold ensureClosed freeParameters
  cases e.freeOccurrences [] with
  | nil => rfl
  | cons p ps => rw [List.eraseDupsBy_cons]

theorem ensureClosed_of_isClosed {e : Expr} (h : e.isClosed = true) : e.ensureClosed = .ok () := by
  rw [ensureClosed_eq, List.isEmpty_iff.1 h]

end Expr

/-- A lambda as a function that interprets its body. -/
def Lambda.interpret (l : Lambda) (reflector : Reflector) : Callable := fun args =>
  if args.length = l.params.length then l.body.interpret reflector (Frame.bind [] l.params args)
  else throw (.argumentCount l.params.length args.length)

end ExprTree
