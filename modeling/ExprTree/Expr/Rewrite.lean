import ExprTree.Expr.Fold
import ExprTree.Expr.Build

/-!
# Rewriting expression trees

A rewrite answers for every node whether it keeps the node or puts another in its place. A node
whose children are all kept is kept itself, so untouched subtrees stay shared and an idle rewrite
gives back the very same tree. Trees are not compared to find that out: each answer says it. A hook
that answers with a tree it was given may hand back the node it was asked about, and then it has to
say so, which `Rewritten.replacing` does by the identity of the node.

## Main definitions

* `Rewritten`: the very same node, or another.
* `Expr.withChildren`: a node with other children.
* `Expr.mapChildren`: one step of a rewrite.
* `Expr.rewrite`: the walk with a hook before and a hook after the children.

## Main results

* `Expr.rewrite_eq`: the equation of the walk.
-/

set_option autoImplicit false

namespace ExprTree

/-- What a rewrite says about a node. -/
inductive Rewritten where
  | kept
  | changed (e : Expr)

namespace Rewritten

/-- The node that stands where `old` stood. -/
def on (old : Expr) : Rewritten → Expr
  | kept => old
  | changed e => e

/-- Whether the node was kept. -/
def isKept : Rewritten → Bool
  | kept => true
  | changed _ => false

/-- The answer that puts `new` where `old` stands; handing back the same node keeps it. -/
def replacing (old new : Expr) : Rewritten := if old.same new then kept else changed new

@[simp] theorem on_kept (old : Expr) : kept.on old = old := rfl

@[simp] theorem on_changed (old e : Expr) : (changed e).on old = e := rfl

end Rewritten

namespace Expr

/-! ### Other children -/

/-- Replace as many elements as there are replacements. -/
def refill {α : Type} : (olds news : List α) → List α
  | [], _ => []
  | olds, [] => olds
  | _ :: olds, b :: news => b :: refill olds news

/-- A node with the given identity and children, otherwise like `e`: its type, operator, members and
parameters stay. Children that are not given keep their old value, and leaves stay as they are. -/
def rebuild (node : NodeId) (e : Expr) (news : List Expr) : Expr :=
  match e with
  | constant .. | parameter _ => e
  | binary s op lifting method left right conversion =>
    .binary ⟨node, s.ty⟩ op lifting method (news[0]?.getD left) (news[1]?.getD right)
      (conversion.map fun c => news[2]?.getD c)
  | unary s op lifted method operand =>
    .unary ⟨node, s.ty⟩ op lifted method (news[0]?.getD operand)
  | conditional s test ifTrue ifFalse =>
    .conditional ⟨node, s.ty⟩ (news[0]?.getD test) (news[1]?.getD ifTrue) (news[2]?.getD ifFalse)
  | member s receiver d => .member ⟨node, s.ty⟩ (receiver.map fun r => news[0]?.getD r) d
  | call s none method args => .call ⟨node, s.ty⟩ none method (refill args news)
  | call s (some receiver) method args =>
    .call ⟨node, s.ty⟩ (some (news[0]?.getD receiver)) method (refill args (news.drop 1))
  | .new s ctor args => .new ⟨node, s.ty⟩ ctor (refill args news)
  | newArray s element items => .newArray ⟨node, s.ty⟩ element (refill items news)
  | index s receiver indexer args =>
    .index ⟨node, s.ty⟩ (news[0]?.getD receiver) indexer (refill args (news.drop 1))
  | typeIs s operand target => .typeIs ⟨node, s.ty⟩ (news[0]?.getD operand) target
  | lambda s params body => .lambda ⟨node, s.ty⟩ params (news[0]?.getD body)
  | raise s payload => .raise ⟨node, s.ty⟩ (news[0]?.getD payload)
  | extension s kind operands => .extension ⟨node, s.ty⟩ kind (refill operands news)

/-- Constants and parameters, which have no children to replace. -/
def isLeaf : Expr → Bool
  | constant .. | parameter _ => true
  | _ => false

variable {m : Type → Type} [Monad m] [MonadMint m]

/-- A new node with other children. A leaf is its own rebuilt form. -/
def withChildren (e : Expr) (news : List Expr) : m Expr := do
  if e.isLeaf then return e else return e.rebuild (← mint) news

/-! ### The walk -/

/-- Run the answers for the children of `e` in order, and rebuild `e` if one of them is another
node. -/
def mapChildren (e : Expr) (answers : List (m Rewritten)) : m Rewritten := do
  let answers ← answers.mapM id
  if answers.all Rewritten.isKept then return .kept
  else return .changed (e.rebuild (← mint) (List.zipWith Rewritten.on e.children answers))

/-- Rewrite a tree. Where `before` answers, its answer stands and the children are not visited.
Elsewhere the children come first, and then `after` sees the node and what became of it. -/
def rewrite (before : Expr → Option (m Rewritten)) (after : Expr → Rewritten → m Rewritten) :
    Expr → m Rewritten :=
  fold fun e below =>
    match before e with
    | some answer => answer
    | none => do
      let rebuilt ← e.mapChildren (below ())
      after e rebuilt

/-- The hook that leaves a rebuilt node alone. -/
def asIs (_ : Expr) (r : Rewritten) : m Rewritten := pure r

theorem rewrite_eq (before : Expr → Option (m Rewritten))
    (after : Expr → Rewritten → m Rewritten) (e : Expr) :
    e.rewrite before after =
      (match before e with
      | some answer => answer
      | none => do
        let rebuilt ← e.mapChildren (e.children.map (rewrite before after))
        after e rebuilt) := by
  rw [rewrite, fold_eq]

end Expr

end ExprTree
