import ExprTree.Proofs.CacheHistory
import ExprTree.Proofs.TemplateCode

/-!
# What a cache answers with

A cached artifact was compiled from some other lambda of the same shape. It does what a callable of
the lambda itself does as long as the two lambdas agree on what a shape leaves out: where each
parameter is declared. Shapes match parameters by name and type only, and two lambdas of one shape may
bind an occurrence differently; the later one then runs the code of the earlier.

## Main definitions

* `Lambda.IsShareable`: lambdas that may be run as instances of a template.
* `Lambda.CanUse`: one lambda may run the artifact of another.
* `Cache.Answers`: two requests for a callable are answered alike.

## Main results

* `Cache.artifact_answers`: an artifact does what the callable of an instance does.
* `Cache.getOrCompile_answers`: **a cache answers like a compiler**, after any requests.
-/

set_option autoImplicit false

namespace ExprTree

open ArgumentArray

namespace Lambda

/-! ### Lambdas that share an artifact -/

/-- All parameters, those of the body included, were minted before `n`. -/
structure Below (n : Nat) (l : Lambda) : Prop where
  params : ∀ p ∈ l.params, p.id < n
  body : l.body.Below n

theorem Below.mono {n n' : Nat} {l : Lambda} (h : l.Below n) (hn : n ≤ n') : l.Below n' where
  params p hp := Nat.lt_of_lt_of_le (h.params p hp) hn
  body := h.body.mono hn

/-- Whether no identity is declared twice on a path through a lambda. -/
def declaresOnce (l : Lambda) : Bool := l.body.declaresOnce l.paramIds

/-- Whether a lambda may be run as an instance of a template: constants are instances of their types,
no identity is declared twice on a path, no quote is told apart from another, and slots can be
numbered by an `i32`. -/
def isShareable (l : Lambda) : Bool :=
  l.body.constantsFit && l.declaresOnce && l.body.ignoresQuotes &&
    decide (l.body.constants.length + l.params.length ≤ 2 ^ 31)

theorem declaresOnce_of_isShareable {l : Lambda} (h : l.isShareable = true) :
    l.declaresOnce = true := by
  simp only [isShareable, Bool.and_eq_true] at h
  exact h.1.1.2

/-- What a shape does not see: `m` declares no identity twice, and each occurrence of a parameter is
bound in the same place as in `l`. -/
structure CanUse (l m : Lambda) : Prop where
  declaresOnce : m.declaresOnce = true
  bindings_eq : l.body.bindings l.paramIds = m.body.bindings m.paramIds

theorem CanUse.refl {l : Lambda} (h : l.declaresOnce = true) : l.CanUse l := ⟨h, rfl⟩

end Lambda

namespace Cache

/-! ### Answers that agree -/

/-- Two requests for a callable are answered alike: both fail, or both give a callable, and on every
list of arguments, from worlds of one dispatch, these give values that are alike or fail with the same
root cause. -/
def Answers (host : Host) : Except EvalError Callable → Except EvalError Callable → Prop
  | .ok f, .ok g => ∀ (args : List Value) (w w' : World), w.dispatch = w'.dispatch →
      Outcome.Agree Value.Alike ((f args).outcome host w).1 ((g args).outcome host w').1
  | .error _, .error _ => True
  | _, _ => False

variable {host : Host} {l m : Lambda} {s s' : Supply}

/-- The artifact of a lambda is the code of its template. -/
theorem freshArtifact_closures (hbelow : m.body.Below s.next) :
    ∃ t t' limit, Expr.IsTemplate s.next limit m.body t ∧ s.next ≤ limit ∧
      Slotted ⟨limit, limit, ArgumentArray.name, .array .object⟩
        (positions ((t.holes s.next ++ m.params).map .parameter)) t t' ∧
      ((freshArtifact .closures m).run s).1 = (t'.lower .native limit).map fun code =>
        let artifact := Backend.callableOf (t.holes s.next ++ m.params).length code
        (artifact, bindConstants artifact m.body.constants m.params.length) := by
  obtain ⟨t, s₁, hextract, htemplate, hle⟩ := Expr.exists_extraction m.body s hbelow
  obtain ⟨s₂, hrun⟩ := Backend.closures_compile_run t (t.holes s.next ++ m.params) s₁
  refine ⟨t, _, s₁.next, htemplate, hle, Backend.slotted_arrayBody .., ?_⟩
  rw [freshArtifact_run, hextract]
  dsimp only
  rw [hrun]
  cases (Backend.arrayBody t (t.holes s.next ++ m.params) s₁).lower .native s₁.next <;> rfl

/-- The callable of an instance and the artifact of the template, called with the constants of the
instance, agree when their code does. -/
theorem callable_agrees {constants : List Value} {holes : List Param} {code code' : Code}
    (hlength : constants.length = holes.length) (hparams : l.params.length = m.params.length)
    (hcode : ∀ (args : List Value) (d : Dispatch), args.length = l.params.length →
      EvalM.Simulates host (World.Dispatching d) Value.Alike (code ⟨args.toArray, []⟩)
        (code' ⟨(constants ++ args).toArray, []⟩)) (args : List Value) {w w' : World}
    (hw : w.dispatch = w'.dispatch) :
    Outcome.Agree Value.Alike ((Backend.callableOf l.params.length code args).outcome host w).1
      ((bindConstants (Backend.callableOf (holes ++ m.params).length code') constants
        l.params.length args).outcome host w').1 := by
  unfold bindConstants Backend.callableOf
  by_cases hargs : args.length = l.params.length
  · have hargs' : (constants ++ args).length = (holes ++ m.params).length := by
      rw [List.length_append, List.length_append, hlength, hargs, hparams]
    rw [if_pos hargs, if_pos hargs, if_pos hargs']
    exact (hcode args w.dispatch hargs w w' ⟨rfl, hw.symm⟩).1
  · rw [if_neg hargs, if_neg hargs]
    exact Eq.refl (EvalError.argumentCount l.params.length args.length).rootCause

/-- **An artifact does what the callable of an instance does.** -/
theorem artifact_answers (hhost : host.IsPureOver Value.Alike) (hsupported : l.body.Supported)
    (hl : l.isShareable = true) (hshape : Expr.SameShape true (l.toExpr 0) (m.toExpr 0))
    (huse : l.CanUse m) (hbelow : l.body.Below s.next) (hbelow' : m.Below s'.next) :
    Answers host ((Backend.closures.compile l.body l.params).run s).1
      (((freshArtifact .closures m).run s').1.map fun made =>
        bindConstants made.1 l.body.constants l.params.length) := by
  simp only [Lambda.isShareable, Bool.and_eq_true, decide_eq_true_eq] at hl
  obtain ⟨⟨⟨hfits, honce⟩, hquotes⟩, hsize⟩ := hl
  have honce' := huse.declaresOnce
  obtain ⟨s₁, hrun⟩ := Backend.closures_compile_run l.body l.params s
  have hslotted := Backend.slotted_arrayBody l.body l.params s
  obtain ⟨t, t', limit, htemplate, hle, hslotted', hmade⟩ := freshArtifact_closures hbelow'.body
  -- What the shape says of the bodies and the parameters.
  obtain ⟨hnames, hbody⟩ := (hshape.parallel rfl rfl).of_lambda
  have htypes : l.params.map Param.ty = m.params.map Param.ty := by
    have types := congrArg (List.map Prod.fst) hnames
    rwa [List.map_map, List.map_map] at types
  have hparams : l.params.length = m.params.length := by
    simpa using congrArg List.length htypes
  have hlength : l.body.constants.length = (t.holes s'.next).length := by
    rw [Expr.length_holes hbelow'.body htemplate.replaced, hbody.length_constants hsupported]
  -- Holes and parameters have positions of their own.
  have hholes (q : Param) (hq : q ∈ t.holes s'.next) : s'.next ≤ q.id := (htemplate.ids q hq).1
  have hnodup := Expr.nodup_of_declaresOnce honce
  have hnodup' := Expr.nodup_append_ids htemplate.sorted hholes
    (Expr.nodup_of_declaresOnce honce') hbelow'.params
  have places := Expr.sameIn_positions hnodup hnodup' htypes hholes hbelow'.params
  rw [← hlength] at places
  have instantiates := Expr.instantiates_of_sameShape hsupported hbody hfits hbelow'.body
    htemplate.replaced (Expr.forall₂_fills hnodup' hlength) huse.bindings_eq honce honce' places
  have within := positions_within (t.holes s'.next ++ m.params)
  rw [List.length_append, ← hlength, ← hparams] at within
  have same (d : Dispatch) := (Expr.sameCode_of_instantiates (d := d) hhost instantiates
    hslotted hslotted' hbelow (htemplate.below hbelow'.body hle) honce
    (Expr.declaresOnce_of_template htemplate.replaced honce') hquotes
    (positions_within l.params) (within.mono hsize)).1
  rw [hrun, hmade]
  by_cases hlowers : (Backend.arrayBody l.body l.params s).Lowers .native s.next
  · have hlowers' := (same ⟨fun _ _ => none, fun _ _ => none⟩).lowers_iff.1 hlowers
    rw [hlowers.eq, hlowers'.eq]
    intro args w w' hw
    refine callable_agrees hlength hparams (fun args d hargs => ?_) args hw
    have env : Env.SameIn l.body.constants l.paramIds m.paramIds ⟨args.toArray, []⟩
        ⟨(l.body.constants ++ args).toArray, []⟩ := by
      refine ⟨by simp, fun _ => rfl, fun _ h => (h rfl).elim, fun _ h => (h rfl).elim⟩
    exact ((same d).agrees hlowers hargs env).imp fun _ _ => Expr.alike_of_like
  · have hlowers' := mt (same ⟨fun _ _ => none, fun _ _ => none⟩).lowers_iff.2 hlowers
    obtain ⟨cause, hcause⟩ := Expr.eq_error_of_not_lowers hlowers
    obtain ⟨cause', hcause'⟩ := Expr.eq_error_of_not_lowers hlowers'
    rw [hcause, hcause']
    trivial

/-- What a lambda is answered with when it is compiled. -/
theorem eq_of_freshArtifact (hbelow : m.body.Below s.next) {made : Callable × Callable}
    (hmade : ((freshArtifact .closures m).run s).1 = .ok made) :
    made.2 = bindConstants made.1 m.body.constants m.params.length := by
  obtain ⟨t, t', limit, -, -, -, hrun⟩ := freshArtifact_closures hbelow
  rw [hrun] at hmade
  cases hcode : t'.lower .native limit with
  | error cause =>
    rw [hcode] at hmade
    cases hmade
  | ok code =>
    rw [hcode] at hmade
    cases hmade
    rfl

/-! ### Sessions -/

/-- A request for code of the closure backend, of a lambda whose parameters were minted before. -/
def Request.IsOverClosures : Request → Prop
  | .compile backend s l => backend = .closures ∧ l.Below s.next
  | .evaluate backend _ w e => backend = .closures ∧ e.Below w.supply.next
  | .ask .. => True
  | .clear => True

namespace Session

variable {session : Session} {hashing : Hashing}

/-- Every artifact was compiled by the closure backend for an answered lambda. -/
def Compiled (session : Session) : Prop :=
  ∀ p ∈ session.cache.artifacts, ∃ m ∈ session.answered, (∃ n, p.1.lambda = m.toExpr n) ∧
    ∃ (s : Supply) (callable : Callable), m.Below s.next ∧
      ((freshArtifact .closures m).run s).1 = .ok (p.2, callable)

theorem Compiled.answer (h : session.Compiled) (l : Lambda) :
    Compiled ⟨session.cache, l :: session.answered⟩ := by
  intro p hp
  obtain ⟨m, hm, hcompiled⟩ := h p hp
  exact ⟨m, List.mem_cons_of_mem _ hm, hcompiled⟩

theorem Compiled.compile (h : session.Compiled) {s : Supply} {l : Lambda} (hbelow : l.Below s.next) :
    (session.compile hashing .closures s l).Compiled := by
  unfold Session.compile
  rw [getOrCompile_run]
  cases (l.toExpr s.next).validate with
  | error cause => exact h
  | ok _ =>
    cases session.cache.find? (.hashed hashing (l.toExpr s.next)) with
    | some artifact => exact h.answer l
    | none =>
      cases hmade : (freshArtifact .closures l).run ⟨s.next + 1⟩ with
      | mk r s' =>
        cases r with
        | error e => exact h
        | ok made =>
          intro p hp
          rcases List.mem_cons.1 hp with rfl | hp
          · refine ⟨l, List.mem_cons_self, ⟨s.next, rfl⟩, ⟨s.next + 1⟩, made.2, ?_, ?_⟩
            · exact hbelow.mono (Nat.le_succ _)
            · rw [hmade]
          · exact h.answer l p hp

theorem Compiled.step (h : session.Compiled) {request : Request} (hrequest : request.IsOverClosures) :
    (session.step hashing request).Compiled := by
  cases request with
  | compile backend s l =>
    obtain ⟨rfl, hbelow⟩ := hrequest
    exact h.compile hbelow
  | evaluate backend host w e =>
    obtain ⟨rfl, hbelow⟩ := hrequest
    rw [Session.step, evaluate_eq]
    cases e.ensureClosed with
    | ok _ => exact h.compile ⟨List.forall_mem_nil _, hbelow⟩
    | error _ => exact h
  | ask s l => exact h
  | clear => exact List.forall_mem_nil _

/-- After requests for code of the closure backend, every artifact is such code. -/
theorem compiled_run {requests : List Request} (h : ∀ r ∈ requests, r.IsOverClosures) :
    (run hashing requests).Compiled :=
  run_induction hashing requests (List.forall_mem_nil _)
    fun _ request hrequest hcompiled => hcompiled.step (h request hrequest)

/-- The lambda whose artifact a session runs for `l`: one of its shape that was answered, or `l` itself
if there is none. -/
theorem exists_artifact (hf : session.Faithful hashing) (hc : session.Compiled)
    (hsupported : l.body.Supported) (hbelow : l.Below s.next) :
    ∃ m, (m ∈ session.answered ∧ m.SameShape l ∨ m = l ∧ ∀ k ∈ session.answered, ¬k.SameShape l) ∧
      ∃ s' : Supply, m.Below s'.next ∧
        ((getOrCompile .closures hashing l).run session.cache s).1.1 =
          ((freshArtifact .closures m).run s').1.map fun made =>
            bindConstants made.1 l.body.constants l.params.length := by
  have hvalid : (l.toExpr s.next).Supported := (Lambda.supported_toExpr_iff _).2 hsupported
  rw [getOrCompile_run, hvalid]
  dsimp only
  cases hfound : session.cache.find? (.hashed hashing (l.toExpr s.next)) with
  | some artifact =>
    obtain ⟨p, hp, rfl, hshape⟩ := exists_of_find? hfound
    obtain ⟨m, hm, ⟨n, hk⟩, s', callable, hbelow', hmade⟩ := hc p hp
    rw [hk] at hshape
    refine ⟨m, .inl ⟨hm, (Lambda.sameShape_iff n s.next).2 (hshape.symm hvalid)⟩, s', hbelow', ?_⟩
    rw [hmade]
    rfl
  | none =>
    have hbelow' : l.Below (⟨s.next + 1⟩ : Supply).next := hbelow.mono (Nat.le_succ _)
    refine ⟨l, .inr ⟨rfl, fun k hk hkl => ?_⟩, ⟨s.next + 1⟩, hbelow', ?_⟩
    · have hsome := (hf.find?_isSome_iff hsupported s.next).2 ⟨k, hk, hkl⟩
      rw [hfound] at hsome
      cases hsome
    · cases hmade : (freshArtifact .closures l).run ⟨s.next + 1⟩ with
      | mk r s' =>
        cases r with
        | error e => rfl
        | ok made => exact congrArg _ (eq_of_freshArtifact hbelow'.body (congrArg Prod.fst hmade))

/-- A lambda that can be compiled is all that a new cache has answered when it was asked for it. -/
theorem answered_compile_new (hhost : host.IsPureOver Value.Alike) (hsupported : m.body.Supported)
    (hm : m.isShareable = true) (hbelow : m.Below s.next) {f : Callable}
    (hdirect : ((Backend.closures.compile m.body m.params).run s).1 = .ok f) :
    (run hashing [.compile .closures s m]).answered = [m] := by
  have hcompiled : Compiled {} := List.forall_mem_nil _
  obtain ⟨k, hk, s', hbelow', answer_eq⟩ :=
    exists_artifact (faithful_new hashing) hcompiled hsupported hbelow
  obtain rfl : k = m := by
    rcases hk with ⟨hk, -⟩ | ⟨rfl, -⟩
    · cases hk
    · rfl
  have answers := artifact_answers hhost hsupported hm (.refl true _)
    (.refl (Lambda.declaresOnce_of_isShareable hm)) hbelow.body hbelow'
  rw [hdirect, ← answer_eq] at answers
  change (Session.compile hashing {} .closures s k).answered = [k]
  unfold Session.compile
  rcases hrun : (getOrCompile .closures hashing k).run ({} : Session).cache s with
    ⟨⟨_ | g, cache⟩, s''⟩
  · rw [hrun] at answers
    exact answers.elim
  · rfl

end Session

/-- **A cache answers like a compiler.** Take any requests for code of the closure backend, at any hash
depth, and then a lambda without foreign constructs that may be run as an instance of a template. If
all answered lambdas of its shape declare parameters in the same places, the cache has a callable for
it exactly when the backend has. On every list of arguments the two give values that are alike, that
is equal up to quotes that are structurally equal, or fail with the same root cause. -/
theorem getOrCompile_answers (hhost : host.IsPureOver Value.Alike) (hashing : Hashing)
    {requests : List Request} (hrequests : ∀ r ∈ requests, r.IsOverClosures)
    (hsupported : l.body.Supported) (hl : l.isShareable = true)
    (huse : ∀ m ∈ (Session.run hashing requests).answered, m.SameShape l → l.CanUse m)
    (hbelow : l.body.Below s.next) (hbelow' : l.Below s'.next) :
    Answers host ((Backend.closures.compile l.body l.params).run s).1
      ((getOrCompile .closures hashing l).run (Session.run hashing requests).cache s').1.1 := by
  obtain ⟨m, hm, s'', hbelow'', answer_eq⟩ := Session.exists_artifact
    (Session.faithful_run hashing requests) (Session.compiled_run hrequests) hsupported hbelow'
  rw [answer_eq]
  rcases hm with ⟨hm, hshape⟩ | ⟨rfl, -⟩
  · have hm' := (Session.faithful_run hashing requests).supported hm 0
    have hshape' := ((Lambda.sameShape_iff 0 0).1 hshape).symm hm'
    exact artifact_answers hhost hsupported hl hshape' (huse m hm hshape) hbelow hbelow''
  · exact artifact_answers hhost hsupported hl (.refl true _)
      (.refl (Lambda.declaresOnce_of_isShareable hl)) hbelow hbelow''

/-- The theorem for `(x, n) => n ?? x` with the conversion `y => y + 2`, after a request for the lambda
with `y => y + 1`. -/
theorem getOrCompile_answers_coalesce :
    let lambda (x n y : Param) (k : Int) : Lambda := ⟨[x, n], .binary ⟨20, .int .i32⟩ .coalesce {} none
      (.parameter n) (.parameter x) (some (.lambda ⟨21, .object⟩ [y]
        (.binary ⟨22, .int .i32⟩ .add {} none (.parameter y)
          (.constant ⟨23, .int .i32⟩ (.ofInt .i32 k)) none)))⟩
    let m := lambda ⟨0, 0, "x", .int .i32⟩ ⟨1, 1, "n", .nullable (.int .i32)⟩ ⟨2, 2, "y", .int .i32⟩ 1
    let l := lambda ⟨3, 3, "x", .int .i32⟩ ⟨4, 4, "n", .nullable (.int .i32)⟩ ⟨5, 5, "y", .int .i32⟩ 2
    let host : Host := ⟨fun _ => some fun _ _ => return .null⟩
    let hashing : Hashing := ⟨.bytewise, 5⟩
    Answers host ((Backend.closures.compile l.body l.params).run ⟨30⟩).1
      ((getOrCompile .closures hashing l).run
        (Session.run hashing [.compile .closures ⟨24⟩ m]).cache ⟨40⟩).1.1 := by
  intro lambda m l host hashing
  have hhost : host.IsPureOver Value.Alike := by
    intro id body hbody
    cases hbody
    exact ⟨fun _ _ => .ok .null, fun _ _ _ => rfl, fun _ _ _ _ _ _ => Value.Alike.refl .null⟩
  have hm : m.body.Supported := rfl
  have hbelow : m.Below 24 := ⟨by decide, by decide, by decide⟩
  have hl : l.Below 30 := ⟨by decide, by decide, by decide⟩
  obtain ⟨f, hf⟩ : ∃ f, ((Backend.closures.compile m.body m.params).run ⟨24⟩).1 = .ok f := ⟨_, rfl⟩
  have hanswered : (Session.run hashing [.compile .closures ⟨24⟩ m]).answered = [m] :=
    Session.answered_compile_new hhost hm (by decide) hbelow hf
  refine getOrCompile_answers hhost hashing ?_ rfl (by decide) ?_ hl.body (hl.mono (by decide))
  · exact List.forall_mem_singleton.2 ⟨rfl, hbelow⟩
  · intro k hk _
    rw [hanswered] at hk
    obtain rfl := List.mem_singleton.1 hk
    exact ⟨by decide, by decide⟩

/-- The places of declarations have to agree. Conversions `x => x` have one shape, whether they return
their own parameter or that of the lambda around them, and one is run as the other: called with two
numbers, the compiler gives the first and the cache gives the second. -/
theorem getOrCompile_confuses :
    let x : Param := ⟨0, 0, "x", .int .i32⟩
    let y : Param := ⟨1, 1, "x", .int .i32⟩
    let n : Param := ⟨2, 2, "n", .nullable (.int .i32)⟩
    let coalesce (result : Param) : Lambda := ⟨[x, n], .binary ⟨4, .int .i32⟩ .coalesce {} none
      (.parameter n) (.parameter x) (some (.lambda ⟨3, .object⟩ [y] (.parameter result)))⟩
    let l := coalesce x
    let hashing : Hashing := ⟨.bytewise, 5⟩
    let cache := (Session.run hashing [.compile .closures ⟨5⟩ (coalesce y)]).cache
    let host : Host := ⟨fun _ => none⟩
    l.body.Supported ∧ l.isShareable = true ∧
      ¬ Answers host ((Backend.closures.compile l.body l.params).run ⟨20⟩).1
        ((getOrCompile .closures hashing l).run cache ⟨20⟩).1.1 := by
  intro x y n coalesce l hashing cache host
  let m := coalesce y
  let args : List Value := [.ofInt .i32 1, .ofInt .i32 2]
  have hhost : host.IsPureOver Value.Alike := fun _ _ hbody => nomatch hbody
  refine ⟨rfl, by decide, fun answers => ?_⟩
  have hsupported : m.body.Supported := rfl
  have hm : m.isShareable = true := by decide
  have hbelow : m.Below 5 := ⟨by decide, by decide, by decide⟩
  have hl : l.Below 20 := ⟨by decide, by decide, by decide⟩
  -- What the compiler makes of the two.
  obtain ⟨f, hf, hfirst⟩ : ∃ f, ((Backend.closures.compile l.body l.params).run ⟨20⟩).1 = .ok f ∧
      ((f args).outcome host {}).1 = .ok (.ofInt .i32 1) := ⟨_, rfl, rfl⟩
  obtain ⟨g, hg, hsecond⟩ : ∃ g, ((Backend.closures.compile m.body m.params).run ⟨5⟩).1 = .ok g ∧
      ((g args).outcome host {}).1 = .ok (.ofInt .i32 2) := ⟨_, rfl, rfl⟩
  -- The cache runs the artifact of the other lambda, which has the shape of this one.
  have hanswered : (Session.run hashing [.compile .closures ⟨5⟩ m]).answered = [m] :=
    Session.answered_compile_new hhost hsupported hm hbelow hg
  have hshape : m.SameShape l := by
    refine (Lambda.sameShape_iff 0 0).2 (Expr.Alike.sameShape ?_)
    refine .of_parallel (.lambda ⟨rfl, .of_parallel (.binary _ _ _ ?_ ?_ (.some ?_)) rfl⟩) rfl
    · exact .refl rfl
    · exact .refl rfl
    · exact .of_parallel (.lambda ⟨rfl, Expr.alike_parameter rfl rfl⟩) rfl
  have hcompiled : (Session.run hashing [.compile .closures ⟨5⟩ m]).Compiled :=
    Session.compiled_run (List.forall_mem_singleton.2 ⟨rfl, hbelow⟩)
  obtain ⟨k, hk, s', hbelow', answer_eq⟩ := Session.exists_artifact (l := l) (s := ⟨20⟩)
    (Session.faithful_run hashing [.compile .closures ⟨5⟩ m]) hcompiled rfl hl
  obtain rfl : k = m := by
    rcases hk with ⟨hk, -⟩ | ⟨-, hnone⟩
    · rw [hanswered] at hk
      exact List.mem_singleton.1 hk
    · refine (hnone m ?_ hshape).elim
      rw [hanswered]
      exact List.mem_singleton_self m
  have other := artifact_answers hhost hsupported hm (.refl true _)
    (.refl (Lambda.declaresOnce_of_isShareable hm)) hbelow.body hbelow'
  rw [hf, answer_eq] at answers
  rw [hg] at other
  cases hmade : ((freshArtifact .closures m).run s').1 with
  | error e =>
    rw [hmade] at other
    exact other
  | ok made =>
    rw [hmade] at answers other
    -- Neither has constants, so it is one callable that would have to give both numbers.
    have constants_eq : l.body.constants = m.body.constants := rfl
    have first := answers args {} {} rfl
    have second := other args {} {} rfl
    rw [hfirst, constants_eq] at first
    rw [hsecond] at second
    cases hvalue : ((bindConstants made.1 m.body.constants m.params.length args).outcome host {}).1 with
    | error e =>
      rw [hvalue] at second
      exact second
    | ok v =>
      rw [hvalue] at first second
      have equal : Value.ofInt .i32 1 = Value.ofInt .i32 2 :=
        (Value.Alike.eq_of_not_inert first rfl).trans (Value.Alike.eq_of_not_inert second rfl).symm
      injection equal with words
      exact absurd words (by decide)

end Cache

end ExprTree
