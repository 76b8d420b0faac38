import ExprTree.Canon.Substitute
import ExprTree.Eval.Evaluator

/-!
# Expansion

Calls and property reads are rewritten by the rules registered for their members. The children of a
site come first, then its rule, and the output of the rule is expanded in turn. A rule that fails
leaves a placeholder of the site's type that raises the failure when it is executed; so does a chain
of rule applications that is longer than allowed. Expansion itself never fails.

## Main definitions

* `Rule`, `Registry`: rewrite rules, by member.
* `Registry.expand`: the rewrite.
* `Rule.inlineEval`: inlines calls of `Eval`.
* `MethodDef.eval`, `Host.withEval`: the `Eval` methods and what they do when they are called.
-/

set_option autoImplicit false

namespace ExprTree

/-- A rewrite of call sites or property reads. It sees the site with its children expanded and may
evaluate something. -/
structure Rule (σ : Type) where
  name : String
  rewrite : Evaluator σ → Expr → EvaluatorM σ Expr

/-- Rules by the member whose uses they rewrite. -/
abbrev Registry (σ : Type) := List (MemberId × Rule σ)

namespace Registry

variable {σ : Type}

/-- Register a rule for a member, in place of any earlier one. -/
def register (registry : Registry σ) (id : MemberId) (rule : Rule σ) : Registry σ :=
  (id, rule) :: registry.filter fun entry => entry.1 ≠ id

/-- The rule of a member. -/
def rule? (registry : Registry σ) (id : MemberId) : Option (Rule σ) := registry.lookup id

/-- The member whose rule applies to a node: the method of a call, the property of a read. -/
def siteMember? : Expr → Option MemberId
  | .call _ _ method _ => some method.id
  | .member _ _ d => if d.isProperty then some d.id else none
  | _ => none

/-- The placeholder for a site that a rule failed on. -/
def giveUp (rule : Rule σ) (site expanded : Expr) (cause : EvalError) :
    RewriteM σ Rewritten := do
  let failure := Failure.eval (.expansion rule.name expanded cause)
  return .changed (← Expr.mkRaise (.mk (← mint) failure) site.ty)

/-- Apply the rule of a node whose children are expanded. The output is expanded by `again`; without
it the chain is at its limit. -/
def applyAt (registry : Registry σ) (evaluator : Evaluator σ) (limit : Nat)
    (again : Option (Expr → RewriteM σ Rewritten)) (site : Expr) (r : Rewritten) :
    RewriteM σ Rewritten :=
  match (siteMember? site).bind registry.rule? with
  | none => return r
  | some rule =>
    let expanded := r.on site
    match again with
    | none => giveUp rule site expanded (.depthExceeded limit)
    | some again => do
      match ← RewriteM.attempt (rule.rewrite evaluator expanded) with
      | .ok output =>
        let further ← again output
        return .changed (further.on output)
      | .error cause => giveUp rule site expanded cause

/-- Expand a tree where `remaining` more nested applications are allowed. -/
def expandWithin (registry : Registry σ) (evaluator : Evaluator σ) (limit : Nat) :
    (remaining : Nat) → Expr → RewriteM σ Rewritten
  | 0 => Expr.rewrite (fun _ => none) (registry.applyAt evaluator limit none)
  | n + 1 =>
    Expr.rewrite (fun _ => none)
      (registry.applyAt evaluator limit (some (expandWithin registry evaluator limit n)))

/-- The longest chain of rule applications where no other limit is set. -/
def defaultLimit : Nat := 64

/-- Expand every site of a tree. -/
def expand (registry : Registry σ) (evaluator : Evaluator σ) (limit : Nat) (e : Expr) :
    RewriteM σ Rewritten :=
  if registry.isEmpty then return .kept
  else registry.expandWithin evaluator limit limit e

end Registry

/-! ### Inlining -/

namespace Rule

variable {σ : Type}

/-- The body of a lambda, specialised to arguments. -/
def inlined (l : Lambda) (args : List Expr) : EvaluatorM σ Expr := do
  match ← EvaluatorM.ofWorld (l.specialise args).run with
  | .ok r => return r.on l.body
  | .error e => throw (.substitute e)

/-- Replace a call `Eval(f, args)` by the body of `f` with the arguments put in. A lambda node is
taken as it is; anything else is evaluated and must give a quoted lambda. -/
def inlineEval : Rule σ where
  name := "InlineEval"
  rewrite evaluator site :=
    match site with
    | .call _ _ _ (target :: args) =>
      match target.lambda? with
      | some l => inlined l args
      | none => do
        let v ← evaluator.evaluate target
        match v.quoted? with
        | some l => inlined l args
        | none =>
          if v.isNull then throw (.nullReference "Eval target")
          else throw (.badCast v target.ty)
    | site => return site

end Rule

/-- The static method that evaluates lambdas of a signature. It takes the lambda and its
arguments. -/
def MethodDef.eval (id : MemberId) (s : Signature) : MethodDef where
  id := id
  name := "Eval"
  params := .ofSignature s :: s.params
  ret := s.ret
  flags := { isStatic := true }
  overrides := []
  label := none

namespace Host

/-- What an `Eval` method does when it is called: it interprets the lambda. -/
def evalBody (host : Host) : HostBody := fun _ args =>
  match args with
  | [] => throw ⟨"Eval expects a lambda"⟩
  | target :: rest =>
    match target.quoted? with
    | none => throw ⟨"Eval target is not a lambda"⟩
    | some l => (l.interpret .native rest host).adapt fun e => ⟨e.text⟩

/-- A host with `Eval` methods, whose calls may nest to a given depth. -/
def withEval (host : Host) (isEval : MemberId → Bool) : (depth : Nat) → Host
  | 0 => ⟨fun id =>
      if isEval id then some fun _ _ => throw ⟨"Eval is nested too deeply"⟩ else host.body id⟩
  | depth + 1 => ⟨fun id =>
      if isEval id then some (evalBody (withEval host isEval depth)) else host.body id⟩

end Host

end ExprTree
