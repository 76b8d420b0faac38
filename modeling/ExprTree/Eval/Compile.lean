import ExprTree.Canon.ArgumentArray
import ExprTree.Eval.Interpreter

/-!
# Compilation to closures

A body over parameters is lowered once into a function, which can then be run on many argument
lists. The body is rewritten to read its arguments from an array first; the conversions around the
array slots are lowered to direct reads of the argument list.

A lambda node of the body is quoted when it is reached. A closed one is quoted as it is; in any
other one the arguments and the parameters of conversions around it are replaced by constants of
their current values. So, unlike the quotes of the interpreter, it is closed over its surroundings.

Lowering fails only for what cannot be evaluated at all; failures at run time do not name nodes.

## Main definitions

* `Env`: arguments and the parameters of conversions.
* `Expr.capture`: the quote of a lambda in an environment.
* `Expr.lower`: the lowering of a tree.
* `Backend`: what turns a body and parameters into a callable; `Backend.closures` lowers it.
-/

set_option autoImplicit false

namespace ExprTree

/-- What a lowered tree runs in. -/
structure Env where
  args : Array Value
  /-- Parameters of conversions. The innermost binding comes first. -/
  locals : Frame

/-- A lowered tree. -/
abbrev Code := Env → EvalM Value

namespace Env

/-- An argument by position. -/
def arg (env : Env) (i : Nat) : Except EvalError Value :=
  match env.args[i]? with
  | some v => .ok v
  | none => .error (.indexOutOfRange i env.args.size)

/-- The environment of a conversion body. -/
def withLocal (env : Env) (id : ParamId) (v : Value) : Env :=
  { env with locals := (id, v) :: env.locals }

end Env

namespace Expr

/-- The position `i`, if the tree is element `i` of the argument array. -/
def argumentSlot? (args : ParamId) : Expr → Option Nat
  | index _ (parameter p) none [constant _ (.int w)] =>
    if p.id = args && w.kind = .i32 && 0 ≤ w.val then some w.val.toNat else none
  | _ => none

/-- The position `i`, if the node converts element `i` of the argument array. -/
def convertedSlot? (args : ParamId) : Expr → Option Nat
  | unary _ .convert _ none operand => operand.argumentSlot? args
  | _ => none

/-- The constant that stands for a node in a quote made in `env`. -/
def captured (args : ParamId) (env : Env) (e : Expr) : Option Value :=
  match e with
  | parameter p => env.locals.get? p.id
  | e => (e.convertedSlot? args).bind fun i => env.args[i]?

/-- Quote a tree, with the values that it refers to put in as constants. -/
def capture (args : ParamId) (env : Env) : Expr → WorldM Rewritten :=
  rewrite
    (fun e => (captured args env e).map fun v => do return .changed (← mkConstant v e.ty))
    asIs

/-- The quote of a lambda node. -/
def quote (args : ParamId) (e : Expr) : Code := fun env =>
  if e.isClosed then return .lambda e
  else do
    let r ← capture args env e
    return .lambda (r.on e)

/-- Read argument `i` as a value of type `target`. -/
def readSlot (i : Nat) (target : Ty) : Code := fun env => do
  let v ← env.arg i
  if v.isInstanceOf target then return v
  else Convert.convert v .object target false

mutual

/-- Lower a tree that reads its arguments from the array `args`. -/
def lower (reflector : Reflector) (args : ParamId) (e : Expr) : Except EvalError Code :=
  match e with
  | constant _ v => return fun _ => return v
  | parameter p =>
    if p.id = args then return fun env => return .array .object env.args.toList
    else return fun env =>
      match env.locals.get? p.id with
      | some v => return v
      | none => throw (.unboundParameter p.name)
  | binary _ op lifting method left right conversion => do
    let l ← lower reflector args left
    let r ← lower reflector args right
    match method with
    | some m => return fun env => Step.binaryMethod reflector m (l env) (r env)
    | none =>
      match op with
      | .andAlso => return fun env => Step.andAlso (l env) (r env)
      | .orElse => return fun env => Step.orElse (l env) (r env)
      | .coalesce =>
        match conversion with
        | some (lambda _ params body) =>
          match params with
          | [p] => do
            let c ← lower reflector args body
            return fun env => Step.coalesce (l env) (r env) fun v => c (env.withLocal p.id v)
          | _ => throw (.unsupported "a coalesce conversion without exactly one parameter")
        | _ => return fun env => Step.coalesce (l env) (r env) fun v => return v
      | op => return fun env => Step.builtin op lifting (l env) (r env)
  | unary s op lifted method operand =>
    match e.convertedSlot? args with
    | some i => return readSlot i s.ty
    | none => do
      let x ← lower reflector args operand
      return fun env => Step.unary reflector op lifted method operand.ty s.ty (x env)
  | conditional _ test ifTrue ifFalse => do
    let t ← lower reflector args test
    let x ← lower reflector args ifTrue
    let y ← lower reflector args ifFalse
    return fun env => Step.conditional test.ty (t env) (x env) (y env)
  | member _ receiver d => do
    let r ← lowerOption reflector args receiver
    return fun env => Step.member reflector d (r.map fun code => code env)
  | call _ receiver method operands => do
    let r ← lowerOption reflector args receiver
    let xs ← lowerAll reflector args operands
    return fun env =>
      Step.call reflector method (r.map fun code => code env) (xs.map fun code => code env)
  | new _ ctor operands => do
    let xs ← lowerAll reflector args operands
    return fun env => Step.construct reflector ctor (xs.map fun code => code env)
  | newArray _ element items => do
    let xs ← lowerAll reflector args items
    return fun env => Step.newArray element (xs.map fun code => code env)
  | index _ receiver indexer operands => do
    let r ← lower reflector args receiver
    let xs ← lowerAll reflector args operands
    match indexer with
    | some m => return fun env => Step.indexer reflector m (r env) (xs.map fun code => code env)
    | none =>
      if xs.length = 1 then
        return fun env => Step.element (r env) (xs.map fun code => code env)
      else throw (.unsupported "multi-dimensional array access")
  | typeIs _ operand target => do
    let x ← lower reflector args operand
    return fun env => Step.typeIs target (x env)
  | lambda .. => return quote args e
  | raise _ payload => do
    let x ← lower reflector args payload
    return fun env => Step.raise (x env)
  | extension _ kind _ => throw (.foreign kind)

/-- Lower an optional tree. -/
def lowerOption (reflector : Reflector) (args : ParamId) :
    Option Expr → Except EvalError (Option Code)
  | none => return none
  | some e => do
    let code ← lower reflector args e
    return some code

/-- Lower several trees. -/
def lowerAll (reflector : Reflector) (args : ParamId) : List Expr → Except EvalError (List Code)
  | [] => return []
  | e :: es => do
    let code ← lower reflector args e
    let codes ← lowerAll reflector args es
    return code :: codes

end

/-- A lambda node is lowered to its quote. -/
theorem lower_lambda {reflector : Reflector} {args : ParamId} {e : Expr}
    (h : e.lambda?.isSome = true) : e.lower reflector args = .ok (quote args e) := by
  cases e with
  | lambda s ps b => rw [lower]; rfl
  | _ => cases h

end Expr

/-! ### Backends -/

/-- What turns a body and its parameters into a callable that takes one argument for each. -/
structure Backend where
  compile : Expr → List Param → ExceptT EvalError (StateM Supply) Callable

namespace Backend

/-- Run lowered code on an argument list of the right length. -/
def callableOf (arity : Nat) (code : Code) : Callable := fun args =>
  if args.length = arity then code ⟨args.toArray, []⟩
  else throw (.argumentCount arity args.length)

/-- The backend that lowers trees to closures. -/
def closures : Backend where
  compile body params := do
    let lowered ← ArgumentArray.rewrite body (params.map .parameter)
    match lowered.params with
    | [] => throw (.unsupported "a lowered lambda without an argument array")
    | args :: _ =>
      let code ← lowered.body.lower .native args.id
      return callableOf params.length code

/-- The backend that compiles nothing. -/
def refusing : Backend where
  compile _ _ := throw (.unsupported "compilation")

end Backend

end ExprTree
