import ExprTree.Eval.Evaluator

/-!
# Partial evaluation

Every subtree that can be computed ahead of time is. A node is a candidate when all its children
are, it is not a parameter, and the predicate allows it; so a candidate is closed, and one node that
cannot be folded keeps every node above it out. The outermost candidates are replaced by constants
of their values. One that fails is replaced by a placeholder that raises the failure when it is
executed, so partial evaluation itself never fails.

## Main definitions

* `Expr.foldable`: the default predicate.
* `Expr.isCandidate`: which nodes can be computed ahead of time.
* `Expr.partialEval`, `Lambda.partialEval`: the rewrite.
-/

set_option autoImplicit false

namespace ExprTree

namespace Expr

/-- The default predicate. Parameters, placeholders, foreign constructs and lambdas are not folded,
nor are uses of members that are flagged so. -/
def foldable : Expr → Bool
  | parameter _ | raise .. | extension .. | lambda .. => false
  | member _ _ d => !d.flags.nonFoldable
  | call _ _ method _ => !method.flags.nonFoldable
  | new _ ctor _ => !ctor.flags.nonFoldable
  | _ => true

/-- Whether a node whose children are candidates or not is one itself. -/
def isCandidateOver (predicate : Expr → Bool) (e : Expr) (below : List Bool) : Bool :=
  below.all id && e.parameter?.isNone && predicate e

/-- Whether a tree can be computed ahead of time. -/
def isCandidate (predicate : Expr → Bool) : Expr → Bool :=
  fold fun e below => isCandidateOver predicate e (below ())

variable {σ : Type}

/-- Compute a candidate. Constants are computed already. -/
def precompute (evaluator : Evaluator σ) (e : Expr) : RewriteM σ Rewritten := do
  if e.constant?.isSome then return .kept
  match ← RewriteM.attempt (evaluator.evaluate e) with
  | .ok v => return .changed (← mkConstant v e.ty)
  | .error cause => return .changed (← mkRaise (.mk (← mint) (.eval cause)) e.ty)

/-- Whether a tree is a candidate, and its rewrite, from the same of its children. -/
def partialEvalOver (evaluator : Evaluator σ) (predicate : Expr → Bool) (e : Expr)
    (below : List (Bool × RewriteM σ Rewritten)) : Bool × RewriteM σ Rewritten :=
  let candidate := isCandidateOver predicate e (below.map Prod.fst)
  (candidate, if candidate then precompute evaluator e else e.mapChildren (below.map Prod.snd))

/-- Fold every candidate of a tree. -/
def partialEval (evaluator : Evaluator σ) (predicate : Expr → Bool) (e : Expr) :
    RewriteM σ Rewritten :=
  (fold (fun e below => partialEvalOver evaluator predicate e (below ())) e).2

end Expr

/-- Fold the body of a lambda. -/
def Lambda.partialEval {σ : Type} (l : Lambda) (evaluator : Evaluator σ)
    (predicate : Expr → Bool) : RewriteM σ Rewritten :=
  l.body.partialEval evaluator predicate

end ExprTree
