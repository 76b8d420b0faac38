import ExprTree.Canon.Constants
import ExprTree.Eval.Compile
import ExprTree.Structure.Hash

/-!
# Compilation by shape

Trees that differ only in their constants share one compiled artifact. It is compiled from the tree
over placeholders, with the placeholders in front of the parameters; every call puts its own
constants in front of its arguments.

## Main definitions

* `Cache`: the artifacts by shape, and how often the backend compiled something.
* `Cache.getOrCompile`: the callable of a lambda, compiling only for a shape that is new.
* `Cache.isCached`, `Cache.clear`, `Cache.size`: the rest of the table.
-/

set_option autoImplicit false

namespace ExprTree

/-- The artifacts compiled so far, latest first. -/
structure Cache where
  artifacts : List (ShapeKey × Callable) := []
  compiles : Nat := 0

/-- Computations on a cache that compile. -/
abbrev CacheM := ExceptT EvalError (StateT Cache (StateM Supply))

namespace Cache

/-- The artifact of a shape. -/
def find? (cache : Cache) (key : ShapeKey) : Option Callable := cache.artifacts.lookup key

/-- Number of artifacts. -/
def size (cache : Cache) : Nat := cache.artifacts.length

/-- Drop every artifact. How often something was compiled stays known. -/
def clear (cache : Cache) : Cache := { cache with artifacts := [] }

/-- The key of a lambda. -/
def keyOf (l : Lambda) (hashing : Hashing) : ExceptT EvalError (StateM Supply) ShapeKey := do
  let e : Expr ← Expr.mkLambda l
  match ShapeKey.ofExpr e hashing with
  | .ok key => return key
  | .error cause => throw (.structural cause)

/-- Call an artifact with constants in front of the arguments. -/
def bindConstants (artifact : Callable) (constants : List Value) (arity : Nat) : Callable :=
  fun args =>
    if args.length = arity then artifact (constants ++ args)
    else throw (.argumentCount arity args.length)

/-- A step that compiles, as a computation on the cache. -/
def lift {α : Type} (x : ExceptT EvalError (StateM Supply) α) : CacheM α :=
  ExceptT.mk (StateT.lift x.run)

/-- Compile a lambda of a new shape, and keep the artifact. -/
def compileNew (backend : Backend) (key : ShapeKey) (l : Lambda) : CacheM Callable := do
  let extraction : Extraction ← l.body.extractConstants
  let artifact ← lift (backend.compile extraction.body (extraction.placeholders ++ l.params))
  modify fun cache => ⟨(key, artifact) :: cache.artifacts, cache.compiles + 1⟩
  return bindConstants artifact extraction.values l.params.length

/-- The callable of a lambda. It is compiled only if no lambda of its shape has been. -/
def getOrCompile (backend : Backend) (hashing : Hashing) (l : Lambda) : CacheM Callable := do
  let key ← lift (keyOf l hashing)
  match (← get).find? key with
  | some artifact => return bindConstants artifact l.body.constants l.params.length
  | none => compileNew backend key l

/-- Whether a lambda of this shape has been compiled. -/
def isCached (cache : Cache) (hashing : Hashing) (l : Lambda) : StateM Supply Bool := do
  match ← keyOf l hashing with
  | .ok key => return (cache.find? key).isSome
  | .error _ => return false

end Cache

end ExprTree
