import ExprTree.Dispatch
import ExprTree.Expr.Rewrite

/-!
# Substitution

Replacing the parameters of a lambda by expressions that are assignable to them. The specialising
form also looks up members again where the static type of a receiver has changed to a class, and
drops casts that have become assignments.

## Main definitions

* `Lambda.bind`: the replacements by parameter, if they fit.
* `Lambda.substitute`: the plain form.
* `Lambda.specialise`: the specialising form.
-/

set_option autoImplicit false

namespace ExprTree

/-- What each parameter is replaced by. -/
abbrev Replacements := List (ParamId × Expr)

namespace Lambda

/-- The first replacement that does not fit its parameter, counted from `i`. -/
def misfit? (i : Nat) : List Param → List Expr → Option SubstituteError
  | p :: ps, e :: es =>
    if p.ty.accepts e.ty then misfit? (i + 1) ps es else some (.notAssignable i p.ty e.ty)
  | _, _ => none

/-- Pair parameters with replacements. There have to be as many, and each has to be assignable. -/
def bind (l : Lambda) (replacements : List Expr) : Except SubstituteError Replacements :=
  if l.params.length ≠ replacements.length then
    .error (.arityMismatch l.params.length replacements.length)
  else
    match misfit? 0 l.params replacements with
    | some e => .error e
    | none => .ok ((l.params.zip replacements).map fun (p, e) => (p.id, e)).reverse

end Lambda

namespace Replacements

/-- The answer that puts `e` where the parameter `p` stands. A parameter replaced by itself is
kept. -/
def putting (p : Param) : (e : Expr) → Rewritten
  | .parameter q => if q = p then .kept else .changed (.parameter q)
  | e => .changed e

@[simp] theorem on_putting (p : Param) (e : Expr) : (putting p e).on (.parameter p) = e := by
  cases e <;> simp only [putting, Rewritten.on_changed]
  split <;> simp_all

/-- What becomes of an occurrence of a parameter. -/
def at? (r : Replacements) (p : Param) : Option Rewritten := (r.lookup p.id).map (putting p)

/-- The replacement of a node that is a parameter. -/
def replace {m : Type → Type} [Monad m] (r : Replacements) : Expr → Option (m Rewritten)
  | .parameter p => (r.at? p).map pure
  | _ => none

end Replacements

namespace Expr

/-- The class of a receiver whose static type has changed. -/
def narrowedClass? (old new : Expr) : Option ClassDef :=
  if old.ty = new.ty then none
  else match new.ty with
    | .ofClass c => some c
    | _ => none

/-- Look up the member of a read again, on the class its receiver has now. -/
def respecialiseMember (old : Expr) (d : MemberDef) (receiver : Expr) (r : Rewritten) :
    WorldM Rewritten :=
  match narrowedClass? old receiver with
  | none => return r
  | some c => do
    match ← c.resolveMember d with
    | none => return r
    | some target =>
      if target.id = d.id then return r
      else return .changed (← mkMember (some receiver) target)

/-- Look up the method of a call again, on the class its receiver has now. -/
def respecialiseCall (old : Expr) (method : MethodDef) (receiver : Expr) (args : List Expr)
    (r : Rewritten) : WorldM Rewritten :=
  match narrowedClass? old receiver with
  | none => return r
  | some c => do
    match ← c.resolveMethod method with
    | none => return r
    | some target =>
      if target.id = method.id then return r
      else return .changed (← mkCall (some receiver) target args)

/-- Whether a node is a cast that is neither lifted nor implemented by a method. -/
def isPlainCast : Expr → Bool
  | unary _ .convert false none _ | unary _ .typeAs false none _ => true
  | _ => false

/-- Specialise a node whose parameters are replaced. A replacement may contain the node that it is
put into, so what is left of a dropped cast may be the cast itself; then the node is kept. -/
def respecialise (e : Expr) (r : Rewritten) : WorldM Rewritten :=
  match e, r.on e with
  | member _ (some old) d, member _ (some receiver) _ =>
    if d.flags.isStatic then return r else respecialiseMember old d receiver r
  | call _ (some old) method _, call _ (some receiver) _ args =>
    if method.flags.isStatic then return r else respecialiseCall old method receiver args r
  | unary s _ _ _ old, unary _ _ _ _ operand =>
    if e.isPlainCast && operand.ty ≠ old.ty && s.ty.accepts operand.ty then
      return .replacing e operand
    else return r
  | _, _ => return r

end Expr

namespace Lambda

/-- The body with every parameter replaced. Without parameters there is nothing to replace. -/
def substitute {m : Type → Type} [Monad m] [MonadMint m] (l : Lambda) (replacements : List Expr) :
    ExceptT SubstituteError m Rewritten := do
  let r ← l.bind replacements
  if l.params.isEmpty then return .kept
  else ExceptT.lift (l.body.rewrite r.replace Expr.asIs)

/-- The body with every parameter replaced, and specialised to the replacements. -/
def specialise (l : Lambda) (replacements : List Expr) : ExceptT SubstituteError WorldM Rewritten :=
  do
  let r ← l.bind replacements
  if l.params.isEmpty then return .kept
  else ExceptT.lift (l.body.rewrite r.replace Expr.respecialise)

end Lambda

end ExprTree
