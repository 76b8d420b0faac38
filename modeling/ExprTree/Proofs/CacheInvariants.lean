import ExprTree.Proofs.CacheHistory
import ExprTree.Proofs.EvaluatorInvariants

/-!
# What cached artifacts keep

A caching compiler runs an artifact that was compiled from another lambda. That lambda has the shape
of the one that was asked for, and trees of one shape refer to the same members, so an artifact keeps
what the nodes of every lambda keep that it answers for. This is about invariants alone: where a
parameter is declared is not part of a shape, so what an artifact fails with is not that of the lambda.

## Main definitions

* `Cache.Keeps`: every artifact keeps what the nodes of its lambda keep.
* `Cache.Request.UsesClosures`: requests for code of the closure backend.

## Main results

* `Cache.Keeps.getOrCompile`: requests keep this, and the answers are such callables.
* `Evaluator.caching_keeps`: what the evaluation of a tree through a cache keeps.
* `Cache.Session.keeps_run`: it holds of a cache after any requests.
-/

set_option autoImplicit false

namespace ExprTree

open Outcome EvalM

namespace Expr

variable {a b : Expr} {ic : Bool}

/-- What a node refers to is part of its label. -/
theorem refersTo_eq_detail (e : Expr) : e.refersTo =
    match e.detail with
    | .binary _ method | .unary _ method | .index method => method.map .method
    | .member d => some (.member d)
    | .call method => some (.method method)
    | .new ctor => some (.ctor ctor)
    | _ => none := by
  cases e <;> rfl

/-- Nodes that are alike refer to the same member. -/
theorem refersTo_of_isAlike (h : Expr.isAlike ic a b = true) : a.refersTo = b.refersTo := by
  have detail_eq : a.detail = b.detail := congrArg Label.detail (isAlike_iff.1 h).1
  rw [refersTo_eq_detail, refersTo_eq_detail, detail_eq]

/-- Trees of one shape ask the same of members. -/
theorem SameShape.tame {reflector : Reflector} {host : Host} {I : World → Prop}
    (ha : a.Supported) (h : SameShape ic a b)
    (htame : ∀ x ∈ a.preOrder, x.Tame reflector host I fun _ => True) :
    ∀ x ∈ b.preOrder, x.Tame reflector host I fun _ => True :=
  forall_right_of_forall₂ (h.preOrder ha) fun x hx _ halike =>
    ⟨fun ref href => (htame x hx).member ref (refersTo_of_isAlike halike ▸ href), fun _ _ => trivial⟩

end Expr

namespace Cache

variable {host : Host} {I : World → Prop} {hashing : Hashing} {cache : Cache} {l : Lambda}

/-- Every artifact keeps the invariant, if the members do that the lambda it was compiled from refers
to. -/
def Keeps (host : Host) (I : World → Prop) (cache : Cache) : Prop :=
  ∀ p ∈ cache.artifacts, (∀ x ∈ p.1.lambda.preOrder, x.Tame .native host I fun _ => True) →
    ∀ args, EvalM.Keeps host I (fun _ => True) (p.2 args)

/-- Code that is asked for is that of the closure backend. -/
def Request.UsesClosures : Request → Prop
  | .compile backend .. | .evaluate backend .. => backend = .closures
  | .ask .. | .clear => True

theorem keeps_new (host : Host) (I : World → Prop) : Keeps host I {} := fun _ hp => nomatch hp

/-- The nodes of a lambda node are those of the body, apart from itself. -/
theorem tame_toExpr_iff (n : NodeId) :
    (∀ x ∈ (l.toExpr n).preOrder, x.Tame .native host I fun _ => True) ↔
      ∀ x ∈ l.body.preOrder, x.Tame .native host I fun _ => True := by
  have root : (l.toExpr n).Tame .native host I fun _ => True :=
    ⟨fun _ h => (Option.some_ne_none _ h.symm).elim, fun h => (Bool.false_ne_true h).elim⟩
  rw [Expr.preOrder_eq, List.forall_mem_cons, and_iff_right root]
  simp [Lambda.toExpr, Expr.children]

theorem bindConstants_keeps {artifact : Callable} (constants : List Value) (arity : Nat)
    (h : ∀ args, EvalM.Keeps host I (fun _ => True) (artifact args)) (args : List Value) :
    EvalM.Keeps host I (fun _ => True) (bindConstants artifact constants arity args) := by
  unfold bindConstants
  split
  · exact h _
  · exact Step.throw_keeps (fun _ _ => trivial) trivial

section

variable (hI : ∀ w supply, I w → I { w with supply })
include hI

/-- The template of a lambda refers to the members that the lambda refers to. -/
theorem freshArtifact_keeps (htame : ∀ x ∈ l.body.preOrder, x.Tame .native host I fun _ => True)
    (s : Supply) :
    Ends (fun made => (∀ args, EvalM.Keeps host I (fun _ => True) (made.1 args)) ∧
      ∀ args, EvalM.Keeps host I (fun _ => True) (made.2 args)) (fun _ => True)
      ((freshArtifact .closures l).run s).1 := by
  have replaced := Expr.replaced_extraction l.body s
  rw [freshArtifact_run]
  rcases hx : (l.body.extractConstants : StateM Supply Extraction) s with ⟨x, s₁⟩
  rw [hx] at replaced
  have template : ∀ d ∈ x.body.preOrder, d.Tame .native host I fun _ => True := by
    refine replaced.forall_preOrder (fun parallel => parallel.tame) ?_ htame
    rintro d _ ⟨q, rfl, -, -⟩
    rw [Expr.preOrder_eq]
    refine List.forall_mem_singleton.2 ⟨fun _ h => ?_, fun h => (Bool.false_ne_true h).elim⟩
    exact (Option.some_ne_none _ h.symm).elim
  have compiled := Backend.closures_keeps (l := ⟨x.placeholders ++ l.params, x.body⟩)
    (fun _ _ => trivial) hI template (fun _ _ => trivial) s₁
  dsimp only at compiled ⊢
  rcases hrun : (Backend.closures.compile x.body (x.placeholders ++ l.params)).run s₁ with
    ⟨_ | artifact, s₂⟩ <;> rw [hrun] at compiled
  · trivial
  · exact ⟨compiled, bindConstants_keeps x.values l.params.length compiled⟩

/-- A request keeps what is asked of artifacts, and what it answers with keeps what the nodes of the
lambda keep. -/
theorem Keeps.getOrCompile (h : Keeps host I cache) (l : Lambda) (s : Supply) :
    Keeps host I ((getOrCompile .closures hashing l).run cache s).1.2 ∧
    ((∀ x ∈ l.body.preOrder, x.Tame .native host I fun _ => True) →
      Ends (fun callable => ∀ args, EvalM.Keeps host I (fun _ => True) (callable args))
        (fun _ => True) ((getOrCompile .closures hashing l).run cache s).1.1) := by
  have fresh (htame : ∀ x ∈ l.body.preOrder, x.Tame .native host I fun _ => True) :=
    freshArtifact_keeps hI htame ⟨s.next + 1⟩
  rw [getOrCompile_run]
  cases hvalid : (l.toExpr s.next).validate with
  | error cause => exact ⟨h, fun _ => trivial⟩
  | ok _ =>
    dsimp only
    cases hfound : cache.find? (.hashed hashing (l.toExpr s.next)) with
    | some artifact =>
      refine ⟨h, fun htame => bindConstants_keeps _ _ ?_⟩
      obtain ⟨p, hp, rfl, hshape⟩ := exists_of_find? hfound
      exact h p hp (hshape.tame hvalid ((tame_toExpr_iff s.next).2 htame))
    | none =>
      dsimp only
      rcases hmade : (freshArtifact .closures l).run ⟨s.next + 1⟩ with ⟨_ | made, s'⟩ <;>
        rw [hmade] at fresh
      · exact ⟨h, fun _ => trivial⟩
      · refine ⟨fun p hp htame => ?_, fun htame => (fresh htame).2⟩
        rcases List.mem_cons.1 hp with rfl | hp
        · exact (fresh ((tame_toExpr_iff s.next).1 htame)).1
        · exact h p hp htame

/-- It is kept by a request for a callable. -/
theorem Session.keeps_compile {session : Session} (h : Keeps host I session.cache) (s : Supply)
    (l : Lambda) : Keeps host I (session.compile hashing .closures s l).cache := by
  have kept : Keeps host I ((getOrCompile .closures hashing l).run session.cache s).1.2 :=
    (h.getOrCompile hI l s).1
  unfold Session.compile
  rcases hrun : (Cache.getOrCompile .closures hashing l).run session.cache s with
    ⟨⟨_ | _, _⟩, _⟩ <;> rw [hrun] at kept <;> exact kept

/-- It holds of a cache after any requests for code of the closure backend. -/
theorem Session.keeps_run {requests : List Request} (h : ∀ r ∈ requests, r.UsesClosures) :
    Keeps host I (Session.run hashing requests).cache := by
  refine Session.run_induction (P := fun session => Keeps host I session.cache) hashing requests
    (keeps_new host I) fun session request hrequest hkeeps => ?_
  have hbackend := h request hrequest
  cases request with
  | compile backend s l =>
    obtain rfl : backend = .closures := hbackend
    exact Session.keeps_compile hI hkeeps s l
  | evaluate backend host' w e =>
    obtain rfl : backend = .closures := hbackend
    rw [Session.step, Session.evaluate_eq]
    cases e.ensureClosed with
    | ok _ => exact Session.keeps_compile hI hkeeps w.supply (.closed e)
    | error _ => exact hkeeps
  | ask s l => exact hkeeps
  | clear => exact keeps_new host I

end

end Cache

namespace Evaluator

variable {host : Host} {I : World → Prop} {hashing : Hashing} {e : Expr}

/-- Evaluating a tree through a cache keeps what its nodes keep, and what requests keep of the cache. -/
theorem caching_keeps {J : Cache → Prop} (hI : ∀ w supply, I w → I { w with supply })
    (hJ : ∀ cache, J cache → cache.Keeps host I)
    (hrequest : ∀ cache l s, J cache → J ((Cache.getOrCompile .closures hashing l).run cache s).1.2)
    (htame : ∀ x ∈ e.preOrder, x.Tame .native host I fun _ => True) :
    ((caching .closures hashing).evaluate e).Keeps host J I (fun _ => True) fun _ => True := by
  have request : (EvaluatorM.ofCache (Cache.getOrCompile .closures hashing (.closed e))).Keeps host
      J I (fun _ => True) fun callable =>
        ∀ args, EvalM.Keeps host I (fun _ => True) (callable args) :=
    fun cache w hcache hw => ⟨hrequest cache (.closed e) w.supply hcache, hI w _ hw,
      ((hJ cache hcache).getOrCompile hI (.closed e) w.supply).2 htame⟩
  change EvaluatorM.Keeps host J I _ _ (liftM e.ensureClosed >>= fun _ =>
    EvaluatorM.ofCache (Cache.getOrCompile .closures hashing (.closed e)) >>= fun callable =>
      .ofEval (callable []))
  exact (EvaluatorM.Keeps.ofExcept (Expr.ensureClosed_ends fun _ _ => trivial)).bind fun _ _ =>
    request.bind fun _ keeps => .ofEval (keeps [])

end Evaluator

end ExprTree
