import ExprTree.Expr.Rewrite

/-!
# Lifting constants out of trees

Trees that differ only in their literal values become one tree when every constant is turned into a
placeholder parameter. The values and the placeholders are listed in the same order, which is the
pre-order of the constant nodes, so values taken from one tree fit the placeholders made for another
tree of the same shape.

Placeholders are called `p0`, `p1` and so on. Names that parameters of the tree have already are
skipped, so that placeholders and parameters can stand in one list.

## Main definitions

* `Expr.extractConstants`: the tree over placeholders, with the placeholders and the values.
* `Expr.replaceConstants`: any other replacement of constants.
-/

set_option autoImplicit false

namespace ExprTree

/-- A tree with its constants lifted out. The `i`-th placeholder stands for the `i`-th value. -/
structure Extraction where
  body : Expr
  placeholders : List Param
  values : List Value

namespace Expr

/-- Names of the parameters that occur in a node or are declared by it. -/
def namesAt : Expr → List String
  | parameter p => [p.name]
  | lambda _ params _ => params.map Param.name
  | _ => []

/-- Names of the parameters that occur or are declared in a tree, each of them once. -/
def parameterNames (e : Expr) : List String := (e.preOrder.flatMap namesAt).eraseDups

end Expr

namespace Extraction

/-- The name of placeholder candidate `i`. -/
def placeholderName (i : Nat) : String := "p" ++ toString i

/-- The first candidate from `i` on whose name is not taken. Among any `taken.length + 1`
candidates there is one, so the search ends. -/
def firstFree (taken : List String) : (fuel i : Nat) → Nat
  | 0, i => i
  | fuel + 1, i => if placeholderName i ∈ taken then firstFree taken fuel (i + 1) else i

/-- What has been lifted out so far, latest first, and the next candidate for a name. -/
structure Progress where
  next : Nat := 0
  placeholders : List Param := []
  values : List Value := []

variable {m : Type → Type} [Monad m] [MonadMint m]

/-- Lift out one constant. -/
def lift (taken : List String) (value : Value) (ty : Ty) : StateT Progress m Rewritten := do
  let i := firstFree taken taken.length (← get).next
  let p ← Expr.mkParam (placeholderName i) ty
  modify fun s => ⟨i + 1, p :: s.placeholders, value :: s.values⟩
  return .changed (.parameter p)

/-- Lift out a node that is a constant. -/
def liftNode (taken : List String) : Expr → Option (StateT Progress m Rewritten)
  | .constant s v => some (lift taken v s.ty)
  | _ => none

end Extraction

namespace Expr

variable {m : Type → Type} [Monad m] [MonadMint m]

/-- Replace every constant by a new parameter of its type. -/
def extractConstants (e : Expr) : m Extraction := do
  let (r, s) ← (e.rewrite (Extraction.liftNode e.parameterNames) asIs).run {}
  return ⟨r.on e, s.placeholders.reverse, s.values.reverse⟩

/-- Replace every constant by what `f` makes of it. -/
def replaceConstants (f : Stamp → Value → m Rewritten) (e : Expr) : m Rewritten :=
  e.rewrite
    (fun
      | constant s v => some (f s v)
      | _ => none)
    asIs

end Expr

end ExprTree
