import ExprTree.Eval.Expand

/-!
# Ready-made rules

Rewrite rules that show the ways a rule can behave: to fail, to answer with a given tree or a part
of the site, to wrap the site in something larger, to evaluate a part of it, or to answer with the
site itself, which runs into the limit of expansion.

## Main definitions

* `Rule.failing`, `Rule.always`, `Rule.child`, `Rule.grow`, `Rule.evalChild`, `Rule.cycle`.
-/

set_option autoImplicit false

namespace ExprTree.Rule

variable {σ : Type}

/-- Fails on every site. -/
def failing (what : String) : Rule σ := ⟨"Fail", fun _ _ => throw (.unsupported what)⟩

/-- Answers with the same tree for every site. -/
def always (e : Expr) : Rule σ := ⟨"To", fun _ _ => return e⟩

/-- Answers with the site itself. -/
def cycle : Rule σ := ⟨"Cycle", fun _ site => return site⟩

/-- Child `i` of a site. -/
def childOf (site : Expr) (i : Nat) : EvaluatorM σ Expr :=
  match site.children[i]? with
  | some c => return c
  | none => throw (.unsupported "no such child")

/-- Answers with child `i` of the site. -/
def child (i : Nat) : Rule σ := ⟨"Child", fun _ site => childOf site i⟩

/-- Answers with the site plus a given tree. -/
def grow (e : Expr) : Rule σ := ⟨"Grow", fun _ site => Expr.mkBinary .add site e⟩

/-- Answers with the value of child `i` of the site, as a constant of the child's type. -/
def evalChild (i : Nat) : Rule σ := ⟨"EvalChild", fun evaluator site => do
  let c ← childOf site i
  let v ← evaluator.evaluate c
  Expr.mkConstant v c.ty⟩

end ExprTree.Rule
