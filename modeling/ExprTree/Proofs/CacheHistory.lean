import Mathlib.Data.Set.Card
import ExprTree.Eval.Evaluator
import ExprTree.Proofs.Extraction
import ExprTree.Proofs.StructuralEquality

/-!
# What a cache holds

A cache is asked for callables over time: some requests find an artifact, some compile one, some
fail, and now and then the table is cleared. `Session` is a cache together with the lambdas that it
has answered since it was last cleared, and `Session.Faithful` is what holds of it throughout: there
is one artifact for each shape among them, and no other.

The hash in a key is over some hasher and bounded to some depth. It never decides anything, since
trees of one shape have one hash: a key finds an artifact exactly when the comparison of trees says
so.

## Main definitions

* `Lambda.SameShape`: two lambdas are structurally equal up to constants.
* `Cache.Request`, `Cache.Session`: calls on a cache, and what they leave behind.
* `Cache.Session.Faithful`: the invariant of a session.

## Main results

* `Cache.getOrCompile_run`: what asking for a callable comes to.
* `Cache.Session.faithful_run`: the invariant holds after any requests.
* `Cache.one_artifact_per_shape`: **there is one artifact for each shape**, however keys are hashed.
-/

set_option autoImplicit false

namespace ExprTree

/-! ### Shapes of lambdas -/

namespace Lambda

/-- The lambda node of a lambda, with a given identity. -/
def toExpr (l : Lambda) (n : NodeId) : Expr := .lambda ⟨n, .ofSignature l.signature⟩ l.params l.body

/-- Two lambdas have one shape when their nodes are structurally equal up to constants. -/
def SameShape (l m : Lambda) : Prop :=
  ∀ n n' : NodeId, (l.toExpr n).structEq (m.toExpr n') true = .ok true

variable {l m : Lambda}

/-- The identities of the two nodes do not matter. -/
theorem sameShape_iff (n n' : NodeId) :
    l.SameShape m ↔ Expr.SameShape true (l.toExpr n) (m.toExpr n') := by
  have anyNode (k k' : NodeId) : Expr.SameShape true (l.toExpr k) (m.toExpr k') ↔
      Expr.SameShape true (l.toExpr n) (m.toExpr n') := by
    rw [Expr.sameShape_iff rfl, Expr.sameShape_iff rfl]
    rfl
  simp only [SameShape, Expr.structEq_eq_ok_true_iff, anyNode, forall_const]

theorem supported_toExpr_iff (n : NodeId) : (l.toExpr n).Supported ↔ l.body.Supported := by
  rw [Expr.supported_iff]
  simp [toExpr, Expr.foreignKind?, Expr.children]

/-- The lambdas of the shape of a given one. -/
def shapeClass (l : Lambda) : Set Lambda := { m | l.SameShape m }

end Lambda

/-! ### Keys -/

namespace ShapeKey

/-- The key of a tree by a given hashing. -/
def hashed (hashing : Hashing) (e : Expr) : ShapeKey :=
  ⟨e, e.structHash hashing.hasher true (some hashing.depth)⟩

@[simp] theorem hashed_lambda (hashing : Hashing) (e : Expr) : (hashed hashing e).lambda = e := rfl

/-- Keys that are equal stand for trees of one shape. -/
theorem sameShape_of_beq {j k : ShapeKey} (h : (j == k) = true) :
    Expr.SameShape true j.lambda k.lambda := by
  have h : beq j k = true := h
  rw [← Expr.structEq_eq_ok_true_iff]
  simp only [beq, Bool.and_eq_true] at h
  have h := h.2
  split at h
  · simp_all
  · cases h

/-- **The hash decides nothing**: keys of one hashing are equal when the trees have one shape. -/
theorem hashed_beq_iff {a b : Expr} (ha : a.Supported) (hashing : Hashing) :
    (hashed hashing a == hashed hashing b) = true ↔ Expr.SameShape true a b := by
  constructor
  · exact sameShape_of_beq
  · rw [← Expr.structEq_eq_ok_true_iff]
    intro h
    have hash_eq := (Expr.structEq_eq_ok_true_iff.1 h).structHash_eq hashing.hasher
      (ha.sharesForeign b) (some hashing.depth)
    change beq (hashed hashing a) (hashed hashing b) = true
    simp [beq, hashed, hash_eq, h]

end ShapeKey

namespace Cache

variable {backend : Backend} {hashing : Hashing} {cache : Cache} {l m : Lambda} {s : Supply}

/-! ### One request -/

theorem bind_run {α β : Type} (x : CacheM α) (f : α → CacheM β) (cache : Cache) (s : Supply) :
    (x >>= f).run cache s =
      match x.run cache s with
      | ((.ok a, cache), s) => (f a).run cache s
      | ((.error e, cache), s) => ((.error e, cache), s) := by
  change ExceptT.bindCont f (x.run cache s).1.1 (x.run cache s).1.2 (x.run cache s).2 = _
  rcases x.run cache s with ⟨⟨_ | _, _⟩, _⟩ <;> rfl

theorem lift_run {α : Type} (x : ExceptT EvalError (StateM Supply) α) (cache : Cache) (s : Supply) :
    (lift x).run cache s = (((x.run s).1, cache), (x.run s).2) :=
  rfl

/-- A computation that only mints leaves the cache alone. -/
theorem mints_run {α : Type} (x : StateM Supply α) (cache : Cache) (s : Supply) :
    (((MintHom.except EvalError).comp (MintHom.state Cache)).map x : CacheM α).run cache s =
      ((.ok (x s).1, cache), (x s).2) :=
  rfl

theorem keyOf_run (l : Lambda) (hashing : Hashing) (s : Supply) :
    (keyOf l hashing).run s =
      (match (l.toExpr s.next).validate with
        | .ok () => .ok (.hashed hashing (l.toExpr s.next))
        | .error cause => .error (.structural cause), ⟨s.next + 1⟩) := by
  unfold keyOf
  have minted : (Expr.mkLambda l : ExceptT EvalError (StateM Supply) Expr) s =
      (.ok (l.toExpr s.next), ⟨s.next + 1⟩) :=
    rfl
  rw [ExceptT.run_bind, ExceptT.run, stateM_bind, minted]
  dsimp only
  unfold ShapeKey.ofExpr
  cases (l.toExpr s.next).validate <;> rfl

/-- The artifact of a lambda, and the callable that it makes with the constants of the lambda. -/
def freshArtifact (backend : Backend) (l : Lambda) :
    ExceptT EvalError (StateM Supply) (Callable × Callable) := do
  let x ← ExceptT.lift l.body.extractConstants
  let artifact ← backend.compile x.body (x.placeholders ++ l.params)
  return (artifact, bindConstants artifact x.values l.params.length)

theorem freshArtifact_run (backend : Backend) (l : Lambda) (s : Supply) :
    (freshArtifact backend l).run s =
      let (x, s) := (l.body.extractConstants : StateM Supply Extraction) s
      match (backend.compile x.body (x.placeholders ++ l.params)).run s with
      | (.error e, s) => (.error e, s)
      | (.ok artifact, s) => (.ok (artifact, bindConstants artifact x.values l.params.length), s) := by
  change (match (l.body.extractConstants : StateM Supply Extraction) s with
    | (x, s) => (match (backend.compile x.body (x.placeholders ++ l.params)).run s with
      | (r, s) => (ExceptT.bindCont (m := StateM Supply) (fun artifact =>
          (pure (artifact, bindConstants artifact x.values l.params.length) :
            ExceptT EvalError (StateM Supply) (Callable × Callable))) r) s)) = _
  rcases (l.body.extractConstants : StateM Supply Extraction) s with ⟨x, s₁⟩
  simp only
  rcases (backend.compile x.body (x.placeholders ++ l.params)).run s₁ with ⟨_ | _, _⟩ <;> rfl

/-- What compiling a lambda of a new shape comes to. -/
theorem compileNew_run (backend : Backend) (key : ShapeKey) (l : Lambda) (cache : Cache)
    (s : Supply) :
    (compileNew backend key l).run cache s =
      match (freshArtifact backend l).run s with
      | (.error e, s) => ((.error e, cache), s)
      | (.ok (artifact, callable), s) =>
        ((.ok callable, ⟨(key, artifact) :: cache.artifacts, cache.compiles + 1⟩), s) := by
  have extract := ((MintHom.except EvalError).comp
    (MintHom.state (m := StateM Supply) Cache)).map_extractConstants l.body
  rw [freshArtifact_run]
  unfold compileNew
  rw [← extract, bind_run, mints_run]
  rcases (l.body.extractConstants : StateM Supply Extraction) s with ⟨x, s₁⟩
  simp only [bind_run, lift_run]
  rcases (backend.compile x.body (x.placeholders ++ l.params)).run s₁ with ⟨_ | _, _⟩ <;> rfl

/-- What asking for a callable comes to. -/
theorem getOrCompile_run (backend : Backend) (hashing : Hashing) (l : Lambda) (cache : Cache)
    (s : Supply) :
    (getOrCompile backend hashing l).run cache s =
      match (l.toExpr s.next).validate with
      | .error cause => ((.error (.structural cause), cache), ⟨s.next + 1⟩)
      | .ok () =>
        match cache.find? (.hashed hashing (l.toExpr s.next)) with
        | some artifact =>
          ((.ok (bindConstants artifact l.body.constants l.params.length), cache), ⟨s.next + 1⟩)
        | none =>
          match (freshArtifact backend l).run ⟨s.next + 1⟩ with
          | (.error e, s') => ((.error e, cache), s')
          | (.ok (artifact, callable), s') =>
            ((.ok callable, ⟨(.hashed hashing (l.toExpr s.next), artifact) :: cache.artifacts,
              cache.compiles + 1⟩), s') := by
  unfold getOrCompile
  rw [bind_run, lift_run, keyOf_run]
  cases (l.toExpr s.next).validate with
  | error cause => rfl
  | ok _ =>
    change ExceptT.run (match cache.find? (.hashed hashing (l.toExpr s.next)) with
      | some artifact => (pure (bindConstants artifact l.body.constants l.params.length) : CacheM _)
      | none => compileNew backend _ l) cache ⟨s.next + 1⟩ = _
    cases cache.find? (.hashed hashing (l.toExpr s.next)) with
    | some artifact => rfl
    | none => exact compileNew_run backend _ l cache _

/-- Asking for a callable fails, finds an artifact, or adds one. Only the last changes the cache. -/
theorem getOrCompile_cases (backend : Backend) (hashing : Hashing) (l : Lambda) (cache : Cache)
    (s : Supply) :
    (∃ e s', (getOrCompile backend hashing l).run cache s = ((.error e, cache), s')) ∨
    (l.body.Supported ∧ (cache.find? (.hashed hashing (l.toExpr s.next))).isSome = true ∧
      ∃ callable s', (getOrCompile backend hashing l).run cache s = ((.ok callable, cache), s')) ∨
    (l.body.Supported ∧ cache.find? (.hashed hashing (l.toExpr s.next)) = none ∧
      ∃ callable artifact s', (getOrCompile backend hashing l).run cache s =
        ((.ok callable, ⟨(.hashed hashing (l.toExpr s.next), artifact) :: cache.artifacts,
          cache.compiles + 1⟩), s')) := by
  rw [getOrCompile_run]
  cases hv : (l.toExpr s.next).validate with
  | error cause => exact .inl ⟨_, _, rfl⟩
  | ok _ =>
    have hl : l.body.Supported := (Lambda.supported_toExpr_iff s.next).1 hv
    cases hf : cache.find? (.hashed hashing (l.toExpr s.next)) with
    | some artifact => exact .inr (.inl ⟨hl, rfl, _, _, rfl⟩)
    | none =>
      cases hc : (freshArtifact backend l).run ⟨s.next + 1⟩ with
      | mk r s' =>
        cases r with
        | error e => exact .inl ⟨e, s', rfl⟩
        | ok made => exact .inr (.inr ⟨hl, rfl, made.2, made.1, s', rfl⟩)

/-- The artifact that a key finds is one of the shape. -/
theorem exists_of_find? {key : ShapeKey} {artifact : Callable}
    (hfound : cache.find? key = some artifact) :
    ∃ p ∈ cache.artifacts, p.2 = artifact ∧ Expr.SameShape true key.lambda p.1.lambda := by
  rw [find?, List.lookup_eq_findSome?] at hfound
  obtain ⟨p, hp, hpick⟩ := List.exists_of_findSome?_eq_some hfound
  split at hpick
  · next hkey => exact ⟨p, hp, Option.some.inj hpick, ShapeKey.sameShape_of_beq hkey⟩
  · cases hpick

/-- What asking whether a lambda is cached comes to. -/
theorem isCached_run (cache : Cache) (hashing : Hashing) (l : Lambda) (s : Supply) :
    cache.isCached hashing l s =
      (match (l.toExpr s.next).validate with
        | .ok () => (cache.find? (.hashed hashing (l.toExpr s.next))).isSome
        | .error _ => false, ⟨s.next + 1⟩) := by
  unfold isCached
  rw [stateM_bind]
  have key := keyOf_run l hashing s
  unfold ExceptT.run at key
  rw [key]
  cases (l.toExpr s.next).validate <;> rfl

/-! ### Sessions -/

/-- A call on a cache. A backend may keep a state of its own, and identities are handed out elsewhere
as well, so a call comes with the backend and the supply that it meets. -/
inductive Request where
  /-- Ask for the callable of a lambda. -/
  | compile (backend : Backend) (supply : Supply) (l : Lambda)
  /-- Evaluate a tree through the cache. -/
  | evaluate (backend : Backend) (host : Host) (world : World) (e : Expr)
  /-- Ask whether a lambda is cached. -/
  | ask (supply : Supply) (l : Lambda)
  /-- Drop every artifact. -/
  | clear

/-- A cache, and the lambdas that it has answered with a callable since it was last cleared. -/
structure Session where
  cache : Cache := {}
  answered : List Lambda := []

namespace Session

/-- A session after asking for the callable of a lambda. -/
def compile (hashing : Hashing) (session : Session) (backend : Backend) (s : Supply) (l : Lambda) :
    Session :=
  match (getOrCompile backend hashing l).run session.cache s with
  | ((.ok _, cache), _) => ⟨cache, l :: session.answered⟩
  | ((.error _, cache), _) => ⟨cache, session.answered⟩

/-- A session after evaluating a tree. The cache is the one that the evaluator leaves behind. -/
def evaluate (hashing : Hashing) (session : Session) (backend : Backend) (host : Host) (w : World)
    (e : Expr) : Session where
  cache := (((Evaluator.caching backend hashing).evaluate e host).run session.cache w).1.2
  answered :=
    match e.ensureClosed with
    | .ok () => (session.compile hashing backend w.supply (.closed e)).answered
    | .error _ => session.answered

/-- A session after one more request. -/
def step (hashing : Hashing) (session : Session) : Request → Session
  | .compile backend s l => session.compile hashing backend s l
  | .evaluate backend host w e => session.evaluate hashing backend host w e
  | .ask .. => session
  | .clear => ⟨session.cache.clear, []⟩

/-- A session after some requests on a new cache, in order. -/
def run (hashing : Hashing) (requests : List Request) : Session := requests.foldl (step hashing) {}

/-- Evaluating a closed tree does to a cache what asking for its lambda without parameters does. -/
theorem evaluate_eq (hashing : Hashing) (session : Session) (backend : Backend) (host : Host)
    (w : World) (e : Expr) :
    session.evaluate hashing backend host w e =
      match e.ensureClosed with
      | .ok () => session.compile hashing backend w.supply (.closed e)
      | .error _ => session := by
  unfold evaluate Evaluator.caching
  simp only [EvaluatorM.bind_run]
  cases e.ensureClosed with
  | error cause => rfl
  | ok _ =>
    change (⟨((Evaluator.evaluateOnce backend hashing e host).run session.cache w).1.2, _⟩ :
      Session) = _
    unfold Evaluator.evaluateOnce compile
    simp only [EvaluatorM.bind_run, EvaluatorM.ofCache_run]
    rcases (getOrCompile backend hashing (.closed e)).run session.cache w.supply with
      ⟨⟨_ | _, _⟩, _⟩ <;> rfl

/-! ### The invariant -/

/-- What holds of a session at all times: the artifacts are those of the answered lambdas, one for
each of their shapes. -/
structure Faithful (hashing : Hashing) (session : Session) : Prop where
  /-- Every artifact is that of an answered lambda. -/
  keys : ∀ p ∈ session.cache.artifacts, ∃ l ∈ session.answered, ∃ n,
    p.1 = .hashed hashing (l.toExpr n)
  /-- Every answered lambda can be compared, and has an artifact. -/
  covers : ∀ l ∈ session.answered, l.body.Supported ∧
    ∃ p ∈ session.cache.artifacts, Expr.SameShape true (l.toExpr 0) p.1.lambda
  /-- No two artifacts are those of one shape. -/
  distinct : session.cache.artifacts.Pairwise fun p q =>
    ¬ Expr.SameShape true p.1.lambda q.1.lambda

variable {session : Session}

theorem Faithful.supported (h : session.Faithful hashing) (hl : l ∈ session.answered)
    (n : NodeId) : (l.toExpr n).Supported :=
  (Lambda.supported_toExpr_iff n).2 (h.covers l hl).1

/-- A key finds an artifact when there is one of the shape. -/
theorem Faithful.find?_isSome_iff_artifact (h : session.Faithful hashing) {e : Expr}
    (he : e.Supported) :
    (session.cache.find? (.hashed hashing e)).isSome = true ↔
      ∃ p ∈ session.cache.artifacts, Expr.SameShape true e p.1.lambda := by
  have key_iff {p : ShapeKey × Callable} (hp : p ∈ session.cache.artifacts) :
      (ShapeKey.hashed hashing e == p.1) = true ↔ Expr.SameShape true e p.1.lambda := by
    obtain ⟨l, -, n, hk⟩ := h.keys p hp
    rw [hk]
    exact ShapeKey.hashed_beq_iff he hashing
  rw [find?, List.lookup_isSome_iff]
  exact exists_congr fun p => and_congr_right key_iff

/-- A key finds an artifact when a lambda of the shape was answered. -/
theorem Faithful.find?_isSome_iff (h : session.Faithful hashing) (hl : l.body.Supported)
    (n : NodeId) :
    (session.cache.find? (.hashed hashing (l.toExpr n))).isSome = true ↔
      ∃ m ∈ session.answered, m.SameShape l := by
  have hle : (l.toExpr n).Supported := (Lambda.supported_toExpr_iff n).2 hl
  rw [h.find?_isSome_iff_artifact hle]
  constructor
  · rintro ⟨p, hp, hlp⟩
    obtain ⟨m, hm, k, hk⟩ := h.keys p hp
    rw [hk] at hlp
    exact ⟨m, hm, (Lambda.sameShape_iff k n).2 (hlp.symm hle)⟩
  · rintro ⟨m, hm, hml⟩
    obtain ⟨p, hp, hmp⟩ := (h.covers m hm).2
    have hlm := ((Lambda.sameShape_iff 0 n).1 hml).symm (h.supported hm 0)
    exact ⟨p, hp, hlm.trans hle hmp⟩

theorem faithful_new (hashing : Hashing) : Faithful hashing {} where
  keys p hp := by cases hp
  covers l hl := by cases hl
  distinct := .nil

theorem Faithful.compile (h : session.Faithful hashing) (backend : Backend) (s : Supply)
    (l : Lambda) : (session.compile hashing backend s l).Faithful hashing := by
  unfold Session.compile
  rcases getOrCompile_cases backend hashing l session.cache s with
    ⟨e, s', hrun⟩ | ⟨hl, hfound, callable, s', hrun⟩ | ⟨hl, hnew, callable, artifact, s', hrun⟩ <;>
    rw [hrun]
  case inl => exact h
  case inr.inl =>
    refine ⟨fun p hp => ?_, fun m hm => ?_, h.distinct⟩
    · obtain ⟨m, hm, hk⟩ := h.keys p hp
      exact ⟨m, List.mem_cons_of_mem _ hm, hk⟩
    · rcases List.mem_cons.1 hm with rfl | hm
      · have hme := (Lambda.supported_toExpr_iff s.next).2 hl
        obtain ⟨p, hp, hmp⟩ := (h.find?_isSome_iff_artifact hme).1 hfound
        have hself := (Lambda.sameShape_iff 0 s.next).1
          ((Lambda.sameShape_iff s.next s.next).2 (.refl true (m.toExpr s.next)))
        exact ⟨hl, p, hp, hself.trans ((Lambda.supported_toExpr_iff 0).2 hl) hmp⟩
      · exact h.covers m hm
  case inr.inr =>
    refine ⟨fun p hp => ?_, fun m hm => ?_, ?_⟩
    · rcases List.mem_cons.1 hp with rfl | hp
      · exact ⟨l, List.mem_cons_self, s.next, rfl⟩
      · obtain ⟨m, hm, hk⟩ := h.keys p hp
        exact ⟨m, List.mem_cons_of_mem _ hm, hk⟩
    · rcases List.mem_cons.1 hm with rfl | hm
      · refine ⟨hl, _, List.mem_cons_self, ?_⟩
        exact (Lambda.sameShape_iff 0 s.next).1
          ((Lambda.sameShape_iff 0 0).2 (.refl true (m.toExpr 0)))
      · obtain ⟨hms, p, hp, hmp⟩ := h.covers m hm
        exact ⟨hms, p, List.mem_cons_of_mem _ hp, hmp⟩
    · refine List.pairwise_cons.2 ⟨fun p hp hlp => ?_, h.distinct⟩
      have hfound := (h.find?_isSome_iff_artifact ((Lambda.supported_toExpr_iff s.next).2 hl)).2
        ⟨p, hp, hlp⟩
      rw [hnew] at hfound
      cases hfound

theorem Faithful.step (h : session.Faithful hashing) (request : Request) :
    (session.step hashing request).Faithful hashing := by
  cases request with
  | compile backend s l => exact h.compile backend s l
  | evaluate backend host w e =>
    rw [Session.step, evaluate_eq]
    cases e.ensureClosed with
    | ok _ => exact h.compile backend w.supply (.closed e)
    | error _ => exact h
  | ask s l => exact h
  | clear =>
    exact {
      keys := fun p hp => by cases hp
      covers := fun l hl => by cases hl
      distinct := .nil }

/-- What holds of a new session and is kept by every request holds after all of them. -/
theorem run_induction {P : Session → Prop} (hashing : Hashing) (requests : List Request)
    (hnew : P {})
    (hstep : ∀ session, ∀ request ∈ requests, P session → P (session.step hashing request)) :
    P (run hashing requests) := by
  have steps (session : Session) (h : P session) :
      P (requests.foldl (Session.step hashing) session) := by
    induction requests generalizing session with
    | nil => exact h
    | cons request requests ih =>
      refine ih (fun session r hr => hstep session r (List.mem_cons_of_mem _ hr)) _ ?_
      exact hstep session request List.mem_cons_self h
  exact steps {} hnew

/-- The invariant holds after any requests. -/
theorem faithful_run (hashing : Hashing) (requests : List Request) :
    (run hashing requests).Faithful hashing :=
  run_induction hashing requests (faithful_new hashing) fun _ request _ h => h.step request

/-! ### Other hashings -/

/-- The artifacts by tree, without the hashes. -/
def trees (session : Session) : List (Expr × Callable) :=
  session.cache.artifacts.map fun p => (p.1.lambda, p.2)

/-- Two sessions differ at most in the hashes of their keys. -/
structure Agrees (session session' : Session) : Prop where
  answered : session.answered = session'.answered
  compiles : session.cache.compiles = session'.cache.compiles
  trees : session.trees = session'.trees

variable {hashing' : Hashing} {session' : Session}

/-- What a key finds is found by comparing trees alone. -/
theorem Faithful.find?_eq (h : session.Faithful hashing) {e : Expr} (he : e.Supported) :
    session.cache.find? (.hashed hashing e) =
      session.trees.findSome? fun p =>
        if (Expr.equalNodes true e p.1).isPositive then some p.2 else none := by
  rw [find?, trees, List.lookup_eq_findSome?, List.findSome?_map]
  have keys := h.keys
  generalize session.cache.artifacts = artifacts at keys
  induction artifacts with
  | nil => rfl
  | cons p ps ih =>
    obtain ⟨l, -, n, hk⟩ := keys p List.mem_cons_self
    have key_eq : (ShapeKey.hashed hashing e == p.1) =
        (Expr.equalNodes true e p.1.lambda).isPositive := by
      rw [Bool.eq_iff_iff, hk, ShapeKey.hashed_beq_iff he, Verdict.isPositive_iff]
      rfl
    simp only [List.findSome?_cons, key_eq, Function.comp_apply,
      ih fun q hq => keys q (List.mem_cons_of_mem _ hq)]

theorem Agrees.add (h : session.Agrees session') (artifact : Callable) (e : Expr) (l : Lambda) :
    Agrees
      ⟨⟨(.hashed hashing e, artifact) :: session.cache.artifacts, session.cache.compiles + 1⟩,
        l :: session.answered⟩
      ⟨⟨(.hashed hashing' e, artifact) :: session'.cache.artifacts, session'.cache.compiles + 1⟩,
        l :: session'.answered⟩ where
  answered := congrArg (l :: ·) h.answered
  compiles := congrArg (· + 1) h.compiles
  trees := by
    have trees := h.trees
    unfold Session.trees at trees ⊢
    rw [List.map_cons, List.map_cons, trees, ShapeKey.hashed_lambda, ShapeKey.hashed_lambda]

/-- Sessions that agree answer alike, whatever their hashings are. -/
theorem Agrees.getOrCompile (h : session.Agrees session') (hf : session.Faithful hashing)
    (hf' : session'.Faithful hashing') (backend : Backend) (s : Supply) (l : Lambda) :
    ((Cache.getOrCompile backend hashing l).run session.cache s).1.1 =
      ((Cache.getOrCompile backend hashing' l).run session'.cache s).1.1 ∧
    ((Cache.getOrCompile backend hashing l).run session.cache s).2 =
      ((Cache.getOrCompile backend hashing' l).run session'.cache s).2 ∧
    (session.compile hashing backend s l).Agrees (session'.compile hashing' backend s l) := by
  unfold Session.compile
  rw [getOrCompile_run, getOrCompile_run]
  cases hv : (l.toExpr s.next).validate with
  | error cause => exact ⟨rfl, rfl, h⟩
  | ok _ =>
    have find_eq : session.cache.find? (.hashed hashing (l.toExpr s.next)) =
        session'.cache.find? (.hashed hashing' (l.toExpr s.next)) := by
      rw [hf.find?_eq hv, hf'.find?_eq hv, h.trees]
    rw [find_eq]
    cases session'.cache.find? (.hashed hashing' (l.toExpr s.next)) with
    | some artifact =>
      exact ⟨rfl, rfl, ⟨congrArg (l :: ·) h.answered, h.compiles, h.trees⟩⟩
    | none =>
      rcases (freshArtifact backend l).run ⟨s.next + 1⟩ with ⟨_ | made, s'⟩
      · exact ⟨rfl, rfl, h⟩
      · -- The keys differ in their hashes, which must not be compared.
        dsimp only
        exact ⟨rfl, rfl, h.add made.1 (l.toExpr s.next) l⟩

theorem Agrees.step (h : session.Agrees session') (hf : session.Faithful hashing)
    (hf' : session'.Faithful hashing') (request : Request) :
    (session.step hashing request).Agrees (session'.step hashing' request) := by
  cases request with
  | compile backend s l => exact (h.getOrCompile hf hf' backend s l).2.2
  | evaluate backend host w e =>
    rw [Session.step, Session.step, evaluate_eq, evaluate_eq]
    cases e.ensureClosed with
    | ok _ => exact (h.getOrCompile hf hf' backend w.supply (.closed e)).2.2
    | error _ => exact h
  | ask s l => exact h
  | clear => exact ⟨rfl, h.compiles, rfl⟩

/-- Sessions of the same requests with two hashings agree. -/
theorem agrees_run (hashing hashing' : Hashing) (requests : List Request) :
    (run hashing requests).Agrees (run hashing' requests) := by
  have steps (session session' : Session) (h : session.Agrees session')
      (hf : session.Faithful hashing) (hf' : session'.Faithful hashing') :
      (requests.foldl (step hashing) session).Agrees
        (requests.foldl (step hashing') session') := by
    induction requests generalizing session session' with
    | nil => exact h
    | cons request requests ih =>
      exact ih _ _ (h.step hf hf' request) (hf.step request) (hf'.step request)
  exact steps {} {} ⟨rfl, rfl, rfl⟩ (faithful_new hashing) (faithful_new hashing')

/-! ### Counting shapes -/

/-- The answer to whether a lambda is cached. -/
theorem Faithful.isCached_iff (h : session.Faithful hashing) (s : Supply) (m : Lambda) :
    (session.cache.isCached hashing m s).1 = true ↔ ∃ l ∈ session.answered, l.SameShape m := by
  rw [isCached_run]
  cases hv : (m.toExpr s.next).validate with
  | ok _ => exact h.find?_isSome_iff ((Lambda.supported_toExpr_iff s.next).1 hv) s.next
  | error cause =>
    refine iff_of_false Bool.false_ne_true ?_
    rintro ⟨l, hl, hlm⟩
    have hm := ((Lambda.sameShape_iff 0 s.next).1 hlm).supported (h.supported hl 0)
    rw [Expr.Supported, hv] at hm
    cases hm

/-- Lambdas have one class when they have one shape. -/
theorem Faithful.shapeClass_eq_iff (h : session.Faithful hashing) (hl : l ∈ session.answered)
    (hm : m ∈ session.answered) : l.shapeClass = m.shapeClass ↔ l.SameShape m := by
  constructor
  · intro heq
    have hself : m ∈ m.shapeClass := (Lambda.sameShape_iff 0 0).2 (.refl true _)
    rw [← heq] at hself
    exact hself
  · intro hlm
    have hlm := (Lambda.sameShape_iff 0 0).1 hlm
    ext k
    change l.SameShape k ↔ m.SameShape k
    rw [Lambda.sameShape_iff 0 0, Lambda.sameShape_iff 0 0]
    exact ⟨fun hlk => (hlm.symm (h.supported hl 0)).trans (h.supported hm 0) hlk,
      fun hmk => hlm.trans (h.supported hl 0) hmk⟩

/-- There are as many artifacts as shapes of answered lambdas. -/
theorem Faithful.size_eq (h : session.Faithful hashing) :
    session.cache.size = (Lambda.shapeClass '' { l | l ∈ session.answered }).ncard := by
  classical
  let classOf (p : ShapeKey × Callable) : Set Lambda :=
    { m | Expr.SameShape true p.1.lambda (m.toExpr 0) }
  have classOf_eq {l : Lambda} (hl : l ∈ session.answered) {p : ShapeKey × Callable}
      (hlp : Expr.SameShape true (l.toExpr 0) p.1.lambda) : classOf p = l.shapeClass := by
    ext m
    change Expr.SameShape true p.1.lambda (m.toExpr 0) ↔ l.SameShape m
    rw [Lambda.sameShape_iff 0 0]
    have hls := h.supported hl 0
    exact ⟨fun hpm => hlp.trans hls hpm, fun hlm => (hlp.symm hls).trans (hlp.supported hls) hlm⟩
  have covered {p : ShapeKey × Callable} (hp : p ∈ session.cache.artifacts) :
      ∃ l ∈ session.answered, Expr.SameShape true (l.toExpr 0) p.1.lambda := by
    obtain ⟨l, hl, n, hk⟩ := h.keys p hp
    rw [hk]
    exact ⟨l, hl, (Lambda.sameShape_iff 0 n).1 ((Lambda.sameShape_iff 0 0).2 (.refl true _))⟩
  have classes_eq : Lambda.shapeClass '' { l | l ∈ session.answered } =
      ((session.cache.artifacts.map classOf).toFinset : Set (Set Lambda)) := by
    ext c
    simp only [Set.mem_image, Set.mem_ofPred_eq, List.coe_toFinset, List.mem_map]
    constructor
    · rintro ⟨l, hl, rfl⟩
      obtain ⟨p, hp, hlp⟩ := (h.covers l hl).2
      exact ⟨p, hp, classOf_eq hl hlp⟩
    · rintro ⟨p, hp, rfl⟩
      obtain ⟨l, hl, hlp⟩ := covered hp
      exact ⟨l, hl, (classOf_eq hl hlp).symm⟩
  have distinct : (session.cache.artifacts.map classOf).Nodup := by
    refine List.pairwise_map.2 (h.distinct.imp_of_mem ?_)
    intro p q _ hq hpq heq
    obtain ⟨m, hm, hmq⟩ := covered hq
    have hqm : m ∈ classOf q := hmq.symm (h.supported hm 0)
    rw [← heq] at hqm
    obtain ⟨l, hl, hlp⟩ := covered ‹p ∈ _›
    exact hpq (hqm.trans (hlp.supported (h.supported hl 0)) hmq)
  rw [classes_eq, Set.ncard_coe_finset, List.toFinset_card_of_nodup distinct, List.length_map]
  rfl

end Session

/-! ### One artifact per shape -/

/-- **One artifact per shape.** After any requests on a new cache, whatever the backends do and
however keys are hashed:

* a lambda is cached exactly when a lambda of its shape was answered since the last clear,
* the size is the number of shapes that were answered since,
* asking for a callable compiles once more exactly when it answers for a shape that is not cached,
* asking for a callable leaves the cache as it is when it fails.

With any other hashing the same requests give the same answers, sizes and counts. -/
theorem one_artifact_per_shape (hashing : Hashing) (requests : List Request) :
    let session := Session.run hashing requests
    (∀ (s : Supply) (m : Lambda), (session.cache.isCached hashing m s).1 = true ↔
      ∃ l ∈ session.answered, l.SameShape m) ∧
    session.cache.size = (Lambda.shapeClass '' { l | l ∈ session.answered }).ncard ∧
    (∀ (backend : Backend) (s : Supply) (l : Lambda),
      let after := ((getOrCompile backend hashing l).run session.cache s).1
      after.2.compiles = session.cache.compiles +
        (if after.1.isOk ∧ ¬ (session.cache.isCached hashing l s).1 then 1 else 0) ∧
      (after.1.isOk = false → after.2 = session.cache)) ∧
    ∀ hashing' : Hashing,
      let session' := Session.run hashing' requests
      session'.answered = session.answered ∧
      session'.cache.size = session.cache.size ∧
      session'.cache.compiles = session.cache.compiles ∧
      (∀ (s : Supply) (m : Lambda),
        session'.cache.isCached hashing' m s = session.cache.isCached hashing m s) ∧
      ∀ (backend : Backend) (s : Supply) (l : Lambda),
        let after := (getOrCompile backend hashing l).run session.cache s
        let after' := (getOrCompile backend hashing' l).run session'.cache s
        after'.1.1 = after.1.1 ∧ after'.2 = after.2 := by
  intro session
  have hf : session.Faithful hashing := Session.faithful_run hashing requests
  refine ⟨hf.isCached_iff, hf.size_eq, fun backend s l => ?_, fun hashing' => ?_⟩
  · intro after
    have cached_iff (hl : l.body.Supported) : (session.cache.isCached hashing l s).1 =
        (session.cache.find? (.hashed hashing (l.toExpr s.next))).isSome := by
      rw [isCached_run, (Lambda.supported_toExpr_iff s.next).2 hl]
    rcases getOrCompile_cases backend hashing l session.cache s with
      ⟨e, s', hrun⟩ | ⟨hl, hfound, callable, s', hrun⟩ | ⟨hl, hnew, callable, artifact, s', hrun⟩
    · have after_eq : after = (.error e, session.cache) := congrArg Prod.fst hrun
      simp [after_eq, Except.isOk, Except.toBool]
    · have after_eq : after = (.ok callable, session.cache) := congrArg Prod.fst hrun
      simp [after_eq, Except.isOk, Except.toBool, cached_iff hl, hfound]
    · have after_eq : after.1.isOk = true ∧ after.2.compiles = session.cache.compiles + 1 := by
        simp [after, hrun, Except.isOk, Except.toBool]
      simp [after_eq, cached_iff hl, hnew]
  · intro session'
    have hf' : session'.Faithful hashing' := Session.faithful_run hashing' requests
    have hagree : session.Agrees session' := Session.agrees_run hashing hashing' requests
    refine ⟨hagree.answered.symm, ?_, hagree.compiles.symm, fun s m => ?_, fun backend s l => ?_⟩
    · have lengths := congrArg List.length hagree.trees
      simp only [Session.trees, List.length_map] at lengths
      exact lengths.symm
    · have answers : (session'.cache.isCached hashing' m s).1 =
          (session.cache.isCached hashing m s).1 := by
        rw [Bool.eq_iff_iff, hf'.isCached_iff, hf.isCached_iff, hagree.answered]
      rw [isCached_run, isCached_run] at answers ⊢
      exact Prod.ext answers rfl
    · have same := hagree.getOrCompile hf hf' backend s l
      exact ⟨same.1.symm, same.2.1.symm⟩

end Cache

end ExprTree
