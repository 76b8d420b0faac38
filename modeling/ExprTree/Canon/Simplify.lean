import ExprTree.Expr.Rewrite
import ExprTree.Value.Basic

/-!
# Simplification of truth values

`&&`, `||` and conditionals with a constant side are reduced, children first, so that a reduction
below is seen above. A constant that decides the result replaces the whole operator, and the other
side is dropped even if evaluating it would have done something.

| tree                 | result  |
|----------------------|---------|
| `true && x`          | `x`     |
| `false && x`         | `false` |
| `x && true`          | `x`     |
| `x && false`         | `false` |
| `false \|\| x`       | `x`     |
| `true \|\| x`        | `true`  |
| `x \|\| false`       | `x`     |
| `x \|\| true`        | `true`  |
| `IIF(true, a, b)`    | `a`     |
| `IIF(false, a, b)`   | `b`     |

Constants are seen through casts. A reduction is made only if the side that is kept has the type of
the node.

## Main definitions

* `Expr.reduced?`: the side that a node reduces to.
* `Expr.simplify`: the rewrite.
-/

set_option autoImplicit false

namespace ExprTree.Expr

/-- Whether this is a constant equal to `v`, perhaps under casts. -/
def isConstantValue (e : Expr) (v : Value) : Bool :=
  match e.unwrapCasts.constant? with
  | some w => w == v
  | none => false

/-- Whether this is the constant `b`, perhaps under casts. -/
def isBool (e : Expr) (b : Bool) : Bool := e.isConstantValue (.bool b)

/-- The side that a constant leaves of a node, whatever its type. -/
def decidedSide? : Expr → Option Expr
  | binary _ .andAlso _ _ left right _ =>
    if left.isBool true then some right
    else if left.isBool false then some left
    else if right.isBool true then some left
    else if right.isBool false then some right
    else none
  | binary _ .orElse _ _ left right _ =>
    if left.isBool false then some right
    else if left.isBool true then some left
    else if right.isBool false then some left
    else if right.isBool true then some right
    else none
  | conditional _ test ifTrue ifFalse =>
    if test.isBool true then some ifTrue
    else if test.isBool false then some ifFalse
    else none
  | _ => none

/-- The side that a node reduces to. It has the type of the node. -/
def reduced? (e : Expr) : Option Expr := e.decidedSide?.filter fun side => side.ty = e.ty

variable {m : Type → Type} [Monad m] [MonadMint m]

/-- Reduce a node whose children are simplified. -/
def reduce (e : Expr) (r : Rewritten) : m Rewritten :=
  match (r.on e).reduced? with
  | some side => return .changed side
  | none => return r

/-- Simplify a tree. -/
def simplify : Expr → m Rewritten := rewrite (fun _ => none) reduce

end ExprTree.Expr
