import ExprTree.Eval.Cache

/-!
# Evaluators

The one contract that callers of evaluation see. The interpreter, the compiler and the caching
compiler are evaluators and can stand in for one another.

## Main definitions

* `Evaluator`: evaluate a closed tree, or make a callable of a lambda.
* `Evaluator.interpreting`, `Evaluator.compiling`, `Evaluator.caching`: the three evaluators.
-/

set_option autoImplicit false

namespace ExprTree

/-- Computations of an evaluator that keeps a state of its own. -/
abbrev EvaluatorM (σ : Type) := ReaderT Host (ExceptT EvalError (StateT σ WorldM))

namespace EvaluatorM

variable {σ α : Type}

/-- Evaluation as a computation that leaves the evaluator alone. -/
def ofEval (x : EvalM α) : EvaluatorM σ α := fun host => ExceptT.mk (StateT.lift (x host).run)

/-- A computation on the world as one of an evaluator. -/
def ofWorld (x : WorldM α) : EvaluatorM σ α := ofEval fun _ => ExceptT.lift x

/-- Compilation as a computation that leaves the evaluator alone. -/
def ofCompile (x : ExceptT EvalError (StateM Supply) α) : EvaluatorM σ α :=
  ofEval fun _ => ExceptT.mk (World.minting x.run)

/-- A computation on a cache as one of the evaluator that keeps it. -/
def ofCache (x : CacheM α) : EvaluatorM Cache α :=
  fun _ => ExceptT.mk fun cache w =>
    let ((result, cache), supply) := x cache w.supply
    ((result, cache), { w with supply })

theorem bind_run {α β : Type} (x : EvaluatorM σ α) (f : α → EvaluatorM σ β) (host : Host) (st : σ)
    (w : World) :
    ((x >>= f) host).run st w =
      match (x host).run st w with
      | ((.ok a, st), w) => (f a host).run st w
      | ((.error e, st), w) => ((.error e, st), w) := by
  change (match (x host).run st w with
    | ((r, st), w) => (ExceptT.bindCont (fun a => f a host) r) st w) = _
  rcases (x host).run st w with ⟨⟨_ | _, _⟩, _⟩ <;> rfl

theorem ofCache_run (x : CacheM α) (host : Host) (cache : Cache) (w : World) :
    (ofCache x host).run cache w =
      ((x.run cache w.supply).1, { w with supply := (x.run cache w.supply).2 }) :=
  rfl

end EvaluatorM

/-- Rewrites that may evaluate something and do not fail. -/
abbrev RewriteM (σ : Type) := ReaderT Host (StateT σ WorldM)

/-- The outcome of a computation of an evaluator, failures included. -/
def RewriteM.attempt {σ α : Type} (x : EvaluatorM σ α) : RewriteM σ (Except EvalError α) :=
  fun host => (x host).run

/-- Turns trees into values and callables. -/
structure Evaluator (σ : Type) where
  /-- The value of a closed tree. -/
  evaluate : Expr → EvaluatorM σ Value
  /-- A callable that takes the parameters of a lambda in order. -/
  callable : Lambda → EvaluatorM σ Callable

namespace Evaluator

/-- The tree-walking interpreter. -/
def interpreting (reflector : Reflector) {σ : Type} : Evaluator σ where
  evaluate e := .ofEval do
    e.ensureClosed
    e.interpret reflector []
  callable l := return l.interpret reflector

/-- The compiler, which compiles every lambda it is given. -/
def compiling (backend : Backend) {σ : Type} : Evaluator σ where
  evaluate e := do
    e.ensureClosed
    let callable ← .ofCompile (backend.compile e [])
    .ofEval (callable [])
  callable l := .ofCompile (backend.compile l.body l.params)

/-- Evaluate a tree through a cache, whatever parameters it refers to. -/
def evaluateOnce (backend : Backend) (hashing : Hashing) (e : Expr) : EvaluatorM Cache Value := do
  let callable ← .ofCache (Cache.getOrCompile backend hashing (.closed e))
  .ofEval (callable [])

/-- The caching compiler. -/
def caching (backend : Backend) (hashing : Hashing) : Evaluator Cache where
  evaluate e := do
    e.ensureClosed
    evaluateOnce backend hashing e
  callable l := .ofCache (Cache.getOrCompile backend hashing l)

end Evaluator

end ExprTree
