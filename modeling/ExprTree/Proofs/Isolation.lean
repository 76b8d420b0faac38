import ExprTree.Bodies
import ExprTree.Proofs.CacheInvariants
import ExprTree.Proofs.Folding

/-!
# Members that are not to be folded

A member can be flagged so that partial evaluation leaves it alone. The predicate looks at the flag
where a node reads, calls or constructs; a node that refers to a flagged member is no candidate, and
so is nothing above it. What is evaluated ahead of time therefore refers to no flagged member.

Three things can still run one. The predicate does not look at the methods behind operators,
conversions and indexers. It looks at the member that a node names, and a call on an object runs the
implementation that the class of the object has, which may be flagged when the slot is not. And host
code may run what it likes.

## Main definitions

* `Expr.isolated`: the members that a tree refers to as ones that are not to be folded.
* `World.runsOf`: what the trace says of some members.
* `Dispatch.Avoids`, `Host.Avoids`: dispatch and host code that do not lead to some members.
* `Evaluator.Isolates`: an evaluator that runs no members but those that a tree leads to.
* `Expr.KeepsReferences`: a tree in which the references to some members are still in place.

## Main results

* `Evaluator.interpreting_isolates`, `Evaluator.compiling_isolates`, `Evaluator.caching_isolates`: the
  evaluators do.
* `Expr.partialEval_isolates`: **partial evaluation leaves flagged members alone**.
-/

set_option autoImplicit false

namespace ExprTree

/-! ### References -/

namespace MemberRef

/-- The identity of the member. -/
def id : MemberRef → MemberId
  | method m => m.id
  | member d => d.id
  | ctor c => c.id

/-- Whether the member is flagged as one that is not to be folded. -/
def nonFoldable : MemberRef → Bool
  | method m => m.flags.nonFoldable
  | member d => d.flags.nonFoldable
  | ctor c => c.flags.nonFoldable

end MemberRef

namespace Expr

/-- The members that a tree refers to as ones that are not to be folded. -/
def isolated (e : Expr) (id : MemberId) : Bool :=
  e.preOrder.any fun x => x.refersTo.any fun ref => ref.id = id && ref.nonFoldable

/-- No node of the tree refers to one of the members. -/
def Avoids (F : MemberId → Bool) (e : Expr) : Prop :=
  ∀ x ∈ e.preOrder, ∀ ref ∈ x.refersTo, F ref.id = false

/-- A node that refers to one of the members is one that the predicate rejects. -/
def ShowsReferences (F : MemberId → Bool) (e : Expr) : Prop :=
  ∀ x ∈ e.preOrder, ∀ ref ∈ x.refersTo, F ref.id = true → x.foldable = false

variable {F : MemberId → Bool} {e : Expr}

/-- The predicate sees all references, if flags belong to members and no operator, conversion or
indexer is flagged. -/
theorem showsReferences_isolated
    (hflags : ∀ x ∈ e.preOrder, ∀ ref ∈ x.refersTo, e.isolated ref.id = true →
      ref.nonFoldable = true)
    (hoverload : ∀ x ∈ e.preOrder, ∀ m ∈ x.overload?, m.flags.nonFoldable = false) :
    e.ShowsReferences e.isolated := by
  intro x hx ref href hisolated
  have hflag := hflags x hx ref href hisolated
  have hplain := hoverload x hx
  have byOverload {method : Option MethodDef} (hmethod : x.overload? = method)
      (hrefers : ref ∈ method.map MemberRef.method) : x.foldable = false := by
    obtain ⟨m, rfl, rfl⟩ := Option.map_eq_some_iff.1 hrefers
    exact (Bool.false_ne_true ((hplain m hmethod).symm.trans hflag)).elim
  cases x with
  | binary | unary | index => exact byOverload rfl href
  | member | call | new =>
    cases href
    simpa [foldable, MemberRef.nonFoldable] using hflag
  | _ => cases href

/-- What is folded refers to none of the members. -/
theorem avoids_of_isCandidate (hshows : e.ShowsReferences F)
    (h : e.isCandidate foldable = true) : e.Avoids F := by
  induction e using induction_children with
  | step e ih =>
    obtain ⟨hchildren, -, hfoldable⟩ := isCandidate_iff.1 h
    unfold ShowsReferences at hshows
    unfold Avoids
    rw [preOrder_eq, List.forall_mem_cons, List.forall_mem_flatMap] at hshows ⊢
    refine ⟨fun ref href => ?_, fun c hc => ih c hc (hshows.2 c hc) (hchildren c hc)⟩
    by_contra hF
    have hrejected := hshows.1 ref href (Bool.not_eq_false _ ▸ hF)
    rw [hfoldable] at hrejected
    cases hrejected

end Expr

/-! ### Members that do not run -/

/-- Dispatch leads from no other slot to one of the members. -/
structure Dispatch.Avoids (d : Dispatch) (F : MemberId → Bool) : Prop where
  method : ∀ c slot m, d.method c slot = some m → F m.id = true → F slot.id = true
  member : ∀ c slot m, d.member c slot = some m → F m.id = true → F slot.id = true

namespace Dispatch.Avoids

variable {d : Dispatch} {F : MemberId → Bool}

theorem methodTarget (h : d.Avoids F) {m : MethodDef} (hm : F m.id = false) (r : Option Value) :
    F (d.methodTarget m r).id = false := by
  unfold Dispatch.methodTarget
  split
  · exact hm
  · cases htarget : (r.bind Value.class?).bind fun c => d.method c m with
    | none => exact hm
    | some target =>
      obtain ⟨c, -, hc⟩ := Option.bind_eq_some_iff.1 htarget
      by_contra hF
      have hslot := h.method c m target hc (Bool.not_eq_false _ ▸ hF)
      rw [hm] at hslot
      cases hslot

theorem memberTarget (h : d.Avoids F) {m : MemberDef} (hm : F m.id = false) (r : Option Value) :
    F (d.memberTarget m r).id = false := by
  unfold Dispatch.memberTarget
  split
  · exact hm
  · cases htarget : (r.bind Value.class?).bind fun c => d.member c m with
    | none => exact hm
    | some target =>
      obtain ⟨c, -, hc⟩ := Option.bind_eq_some_iff.1 htarget
      by_contra hF
      have hslot := h.member c m target hc (Bool.not_eq_false _ ▸ hF)
      rw [hm] at hslot
      cases hslot

end Dispatch.Avoids

/-- Whether an event is a run of one of the members. -/
def Event.isRunOf (F : MemberId → Bool) : Event → Bool
  | ran id .. => F id
  | reached _ => false

namespace World

/-- The runs of some members, the latest first. -/
def runsOf (F : MemberId → Bool) (w : World) : List Event := w.trace.filter (Event.isRunOf F)

/-- Dispatch leads to none of the members, and their runs are these. -/
def Sheltered (F : MemberId → Bool) (runs : List Event) (w : World) : Prop :=
  w.dispatch.Avoids F ∧ w.runsOf F = runs

variable {F : MemberId → Bool} {runs : List Event} {w : World}

theorem sheltered_supply (w : World) (supply : Supply) (h : w.Sheltered F runs) :
    World.Sheltered F runs { w with supply } :=
  h

theorem Sheltered.alike {w' : World} (h : w.Sheltered F runs) (hw : w.Alike w') :
    w'.Sheltered F runs := by
  unfold Sheltered runsOf at h ⊢
  rwa [← hw.dispatch, ← hw.trace]

/-- Other events do not count. -/
theorem Sheltered.record (h : w.Sheltered F runs) (event : Event)
    (hevent : event.isRunOf F = false) :
    World.Sheltered F runs { w with trace := event :: w.trace } := by
  refine ⟨h.1, ?_⟩
  have hruns := h.2
  unfold runsOf at hruns ⊢
  rwa [List.filter_cons_of_neg (by simp [hevent])]

end World

/-- Where dispatch leads to none of some members, the code of the others runs none of them, and
dispatch does not come to lead to them. -/
def Host.Avoids (host : Host) (F : MemberId → Bool) : Prop :=
  ∀ id body, host.body id = some body → F id = false → ∀ r args runs w, w.Sheltered F runs →
    ((body r args).run w).2.Sheltered F runs

theorem Host.IsPure.avoids {host : Host} (h : host.IsPure) (F : MemberId → Bool) : host.Avoids F := by
  intro id body hbody _ r args runs w hw
  obtain ⟨f, hf⟩ := h id body hbody
  rw [hf]
  exact hw

namespace Reflector

variable {host : Host} {F : MemberId → Bool} {runs : List Event}

/-- Reaching another member runs none of the members. -/
theorem native_keepsAt (hhost : host.Avoids F) {ref : MemberRef} (href : F ref.id = false) :
    native.KeepsAt host (World.Sheltered F runs) (fun _ => True) ref := by
  have runBody {id : MemberId} (hid : F id = false) (missing : String) (r : Option Value)
      (args : List Value) {w : World} (hw : w.Sheltered F runs) :
      ((host.runBody id missing r args).run w).2.Sheltered F runs := by
    cases hbody : host.body id with
    | none =>
      rw [Host.runBody_eq_of_none hbody]
      exact hw
    | some body =>
      rw [Host.runBody_eq_of_some hbody]
      exact hhost id body hbody hid r args runs _ (hw.record (.ran id r args) hid)
  cases ref with
  | method m =>
    refine fun r args => .ofHost (fun _ _ => trivial) fun w hw => ?_
    rw [Host.invoke_run]
    exact runBody (hw.1.methodTarget href r) _ r args (hw.alike (Host.methodTarget_run m r w).2)
  | member d =>
    refine fun r => .ofHost (fun _ _ => trivial) fun w hw => ?_
    rw [Host.read_run]
    exact runBody (hw.1.memberTarget href r) _ r [] (hw.alike (Host.memberTarget_run d r w).2)
  | ctor c => exact fun args => .ofHost (fun _ _ => trivial) fun w hw => runBody href _ none args hw

/-- Nor does putting members on the trace. -/
theorem tracing_keepsAt (hhost : host.Avoids F) {ref : MemberRef} (href : F ref.id = false) :
    native.tracing.KeepsAt host (World.Sheltered F runs) (fun _ => True) ref := by
  have record (what : String) : EvalM.Keeps host (World.Sheltered F runs) (fun _ => True)
      (EvalM.record (.reached what)) :=
    fun w hw => ⟨hw.record (.reached what) rfl, trivial⟩
  have reached : native.KeepsAt host (World.Sheltered F runs) (fun _ => True) ref :=
    native_keepsAt hhost href
  cases ref with
  | method m => exact fun r args => (record _).bind fun _ => reached r args
  | member d => exact fun r => (record _).bind fun _ => reached r
  | ctor c => exact fun args => (record _).bind fun _ => reached args

end Reflector

/-! ### Evaluators -/

/-- The nodes of a tree that refers to none of the members keep that none of them runs. -/
theorem Expr.Avoids.tame {F : MemberId → Bool} {e : Expr} (he : e.Avoids F) {reflector : Reflector}
    {host : Host} {runs : List Event}
    (hreflector : ∀ ref, F ref.id = false →
      reflector.KeepsAt host (World.Sheltered F runs) (fun _ => True) ref) :
    ∀ x ∈ e.preOrder, x.Tame reflector host (World.Sheltered F runs) fun _ => True :=
  fun x hx => ⟨fun ref href => hreflector ref (he x hx ref href), fun _ _ => trivial⟩

namespace Evaluator

variable {σ : Type} {host : Host} {F : MemberId → Bool}

/-- Evaluating a tree that refers to none of some members runs none of them, where dispatch leads to
none of them. The evaluator may need an invariant of its own for that. -/
def Isolates (evaluator : Evaluator σ) (J : σ → Prop) (host : Host) (F : MemberId → Bool) : Prop :=
  ∀ e : Expr, e.Avoids F → ∀ runs st w, J st → w.Sheltered F runs →
    J ((evaluator.evaluate e host).run st w).1.2 ∧
      ((evaluator.evaluate e host).run st w).2.Sheltered F runs

theorem interpreting_isolates {reflector : Reflector}
    (hreflector : ∀ ref runs, F ref.id = false →
      reflector.KeepsAt host (World.Sheltered F runs) (fun _ => True) ref) :
    (interpreting reflector : Evaluator σ).Isolates (fun _ => True) host F := by
  intro e he runs st w hst hw
  have keeps := interpreting_keeps (J := fun _ : σ => True) (fun _ _ => trivial)
    (he.tame fun ref => hreflector ref runs) (fun _ _ => trivial) st w hst hw
  exact ⟨trivial, keeps.2.1⟩

theorem compiling_isolates (hhost : host.Avoids F) :
    (compiling .closures : Evaluator σ).Isolates (fun _ => True) host F := by
  intro e he runs st w hst hw
  have keeps := compiling_keeps (J := fun _ : σ => True) (fun _ _ => trivial)
    World.sheltered_supply (he.tame fun _ => Reflector.native_keepsAt hhost) (fun _ _ => trivial) st w hst hw
  exact ⟨trivial, keeps.2.1⟩

/-- No artifact of the cache runs one of the members, unless the lambda that it was compiled from
refers to one. -/
def CacheAvoids (host : Host) (F : MemberId → Bool) (cache : Cache) : Prop :=
  ∀ runs, cache.Keeps host (World.Sheltered F runs)

theorem caching_isolates (hhost : host.Avoids F) (hashing : Hashing) :
    (caching .closures hashing).Isolates (CacheAvoids host F) host F := by
  intro e he runs cache w hcache hw
  have request (cache : Cache) (l : Lambda) (s : Supply) (hcache : CacheAvoids host F cache) :
      CacheAvoids host F ((Cache.getOrCompile .closures hashing l).run cache s).1.2 :=
    fun runs => ((hcache runs).getOrCompile World.sheltered_supply l s).1
  have keeps := caching_keeps World.sheltered_supply (fun _ hcache => hcache runs) request
    (he.tame fun _ => Reflector.native_keepsAt hhost) cache w hcache hw
  exact ⟨keeps.1, keeps.2.1⟩

/-- A cache is such a cache whatever it was asked for. -/
theorem cacheAvoids_run (host : Host) (F : MemberId → Bool) (hashing : Hashing)
    {requests : List Cache.Request} (h : ∀ r ∈ requests, r.UsesClosures) :
    CacheAvoids host F (Cache.Session.run hashing requests).cache :=
  fun _ => Cache.Session.keeps_run World.sheltered_supply h

end Evaluator

/-! ### Partial evaluation -/

namespace Expr

/-- The node that a path of child positions leads to. -/
def at? (e : Expr) : List Nat → Option Expr
  | [] => some e
  | i :: path => e.children[i]?.bind fun c => c.at? path

/-- Every node of the first tree that refers to one of the members is still in its place in the
second, over other children. -/
def KeepsReferences (F : MemberId → Bool) (e e' : Expr) : Prop :=
  ∀ path x, e.at? path = some x → (∃ ref ∈ x.refersTo, F ref.id = true) →
    ∃ n news, e'.at? path = some (x.rebuild n news) ∧ news.length = x.children.length

variable {F : MemberId → Bool} {e e' : Expr}

/-- What a path leads to is a node of the tree. -/
theorem mem_preOrder_of_at? {path : List Nat} {x : Expr} (h : e.at? path = some x) :
    x ∈ e.preOrder := by
  induction path generalizing e with
  | nil =>
    cases h
    exact mem_preOrder_self _
  | cons i path ih =>
    obtain ⟨c, hc, h⟩ := Option.bind_eq_some_iff.1 h
    exact mem_preOrder_trans (mem_preOrder_of_mem_children (List.mem_of_getElem? hc)) (ih h)

/-- Where there are no references, none is lost. -/
theorem KeepsReferences.of_avoids (h : e.Avoids F) (e' : Expr) : e.KeepsReferences F e' := by
  rintro path x hx ⟨ref, href, hF⟩
  rw [h x (mem_preOrder_of_at? hx) ref href] at hF
  cases hF

/-- A node that is put together anew is over its new children. -/
theorem KeepsReferences.of_parallel
    (h : Parallel (KeepsReferences F) (SameParams (KeepsReferences F)) e e') :
    e.KeepsReferences F e' := by
  obtain ⟨n, news, rfl, hnews⟩ := h.exists_rebuild
  intro path x hx href
  cases path with
  | nil =>
    cases hx
    exact ⟨n, news, rfl, hnews.length_eq.symm⟩
  | cons i path =>
    obtain ⟨c, hc, hx⟩ := Option.bind_eq_some_iff.1 hx
    obtain ⟨c', hc', hkeeps⟩ := exists_getElem?_of_forall₂ hnews hc
    obtain ⟨n', news', hat, hlength⟩ := hkeeps path x hx href
    refine ⟨n', news', ?_, hlength⟩
    rw [at?, children_rebuild n hnews.length_eq, hc', Option.bind_some, hat]

variable {σ : Type} {J : σ → Prop} {host : Host}

/-- Partial evaluation as state passing. None of the members runs on the way, and dispatch does not
come to lead to them. -/
def shelteredView (J : σ → Prop) (host : Host) (F : MemberId → Bool) : StateView (RewriteM σ) where
  State := σ × World
  run x s := (((x host).run s.1 s.2).1.1, ((x host).run s.1 s.2).1.2, ((x host).run s.1 s.2).2)
  run_pure _ _ := rfl
  run_bind _ _ _ := rfl
  Inv s := J s.1 ∧ s.2.dispatch.Avoids F
  le s t := (J s.1 ∧ s.2.dispatch.Avoids F) → J t.1 ∧ t.2.Sheltered F (s.2.runsOf F)
  le_refl _ h := ⟨h.1, h.2, rfl⟩
  le_trans h h' hs := by
    obtain ⟨ht, ht'⟩ := h hs
    obtain ⟨hu, hu'⟩ := h' ⟨ht, ht'.1⟩
    rw [ht'.2] at hu'
    exact ⟨hu, hu'⟩
  inv_of_le hs h := ⟨(h hs).1, (h hs).2.1⟩
  le_mint _ h := ⟨h.1, h.2, rfl⟩

variable {evaluator : Evaluator σ}

/-- Computing a candidate runs none of the members, as it refers to none. -/
theorem from_precompute_sheltered (hevaluator : evaluator.Isolates J host F) (he : e.Avoids F)
    (s : σ × World) (hs : (shelteredView J host F).Inv s) :
    (shelteredView J host F).From s (precompute evaluator e) fun _ r =>
      e.KeepsReferences F (r.on e) := by
  have attempted : (shelteredView J host F).From s (RewriteM.attempt (evaluator.evaluate e))
      fun t _ => (shelteredView J host F).Inv t ∧ True := by
    obtain ⟨hJ, hsheltered⟩ := hevaluator e he (s.2.runsOf F) s.1 s.2 hs.1 ⟨hs.2, rfl⟩
    exact ⟨fun _ => ⟨hJ, hsheltered⟩, ⟨hJ, hsheltered.1⟩, trivial⟩
  exact from_precompute_of (P := fun _ => True) (fun _ => .of_avoids he _) attempted
    (fun _ _ _ => .of_avoids he _) fun _ _ _ _ _ => .of_avoids he _

/-- What partial evaluation makes of a tree, if the predicate sees the references to the members. -/
theorem from_partialEval_sheltered (hevaluator : evaluator.Isolates J host F)
    (hshows : e.ShowsReferences F) (s : σ × World) (hs : (shelteredView J host F).Inv s) :
    (shelteredView J host F).From s (e.partialEval evaluator foldable) fun _ r =>
      e.KeepsReferences F (r.on e) := by
  refine from_partialEval_of (J := ShowsReferences F) (fun e he c hc x hx => ?_)
    (fun e he hcandidate s hs => ?_) (fun _ _ _ h => .of_parallel h) hshows hs
  · exact he x (mem_preOrder_trans (mem_preOrder_of_mem_children hc) hx)
  · exact from_precompute_sheltered hevaluator (avoids_of_isCandidate he hcandidate) s hs

/-- **Partial evaluation leaves flagged members alone.** Take a tree in which flags belong to members,
and in which no method behind an operator, a conversion or an indexer is flagged. Where dispatch leads
from no other slot to a flagged member that the tree refers to, and other host code runs none, folding
with the default predicate runs none of them, and every node that refers to one is still in its place,
over other children. This holds of the interpreter, of the compiler, of the caching compiler after any
requests, and of every other evaluator that runs no members but those that a tree leads to. -/
theorem partialEval_isolates (e : Expr) (host : Host)
    (hflags : ∀ x ∈ e.preOrder, ∀ ref ∈ x.refersTo, e.isolated ref.id = true →
      ref.nonFoldable = true)
    (hoverload : ∀ x ∈ e.preOrder, ∀ m ∈ x.overload?, m.flags.nonFoldable = false)
    (hhost : host.Avoids e.isolated) :
    (∀ {σ : Type} (evaluator : Evaluator σ) (J : σ → Prop),
      evaluator.Isolates J host e.isolated →
      ∀ (st : σ) (w : World), J st → w.dispatch.Avoids e.isolated →
        let ((r, _), w') := (e.partialEval evaluator foldable host).run st w
        w'.runsOf e.isolated = w.runsOf e.isolated ∧ e.KeepsReferences e.isolated (r.on e)) ∧
    (∀ σ : Type, (Evaluator.interpreting .native : Evaluator σ).Isolates (fun _ => True) host
        e.isolated ∧
      (Evaluator.interpreting Reflector.native.tracing : Evaluator σ).Isolates (fun _ => True) host
        e.isolated ∧
      (Evaluator.compiling .closures : Evaluator σ).Isolates (fun _ => True) host e.isolated) ∧
    ∀ hashing, ∃ J, (Evaluator.caching .closures hashing).Isolates J host e.isolated ∧
      ∀ requests : List Cache.Request, (∀ r ∈ requests, r.UsesClosures) →
        J (Cache.Session.run hashing requests).cache := by
  refine ⟨fun evaluator J hevaluator st w hst hw => ?_, fun σ => ⟨?_, ?_, ?_⟩, fun hashing => ?_⟩
  · obtain ⟨sheltered, keeps⟩ := from_partialEval_sheltered hevaluator
      (showsReferences_isolated hflags hoverload) (st, w) ⟨hst, hw⟩
    exact ⟨(sheltered ⟨hst, hw⟩).2.2, keeps⟩
  · exact Evaluator.interpreting_isolates fun _ _ => Reflector.native_keepsAt hhost
  · exact Evaluator.interpreting_isolates fun _ _ => Reflector.tracing_keepsAt hhost
  · exact Evaluator.compiling_isolates hhost
  · exact ⟨_, Evaluator.caching_isolates hhost hashing, fun _ hrequests =>
      Evaluator.cacheAvoids_run host _ hashing hrequests⟩

/-- Where nothing is declared, a call runs the member that it names. -/
theorem dispatch_avoids_of_undeclared (F : MemberId → Bool) : (World.dispatch {}).Avoids F := by
  constructor <;> intro c slot m h hF
  · have none_found : World.findMethod {} c slot = none := by
      simp [World.findMethod, World.methodOn]
    change World.findMethod {} c slot = some m at h
    rw [none_found] at h
    cases h
  · have none_found : World.findMember {} c slot = none := by
      simp [World.findMember, World.memberOn]
    change World.findMember {} c slot = some m at h
    rw [none_found] at h
    cases h

/-- The theorem for `{ F(1, 2), 3 + 4 }`, where `F` is not to be folded: the sum is computed, and the
call stays and does not run. -/
theorem partialEval_isolates_call :
    let int (n : NodeId) (k : Int) : Expr := .constant ⟨n, .int .i32⟩ (.ofInt .i32 k)
    let m : MethodDef := ⟨1, "F", [.int .i32, .int .i32], .int .i32,
      { isStatic := true, nonFoldable := true }, [], none⟩
    let call : Expr := .call ⟨2, .int .i32⟩ none m [int 0 1, int 1 2]
    let sum : Expr := .binary ⟨5, .int .i32⟩ .add {} none (int 3 3) (int 4 4) none
    let e : Expr := .newArray ⟨6, .array (.int .i32)⟩ (.int .i32) [call, sum]
    let host : Host := ⟨fun _ => some (HostBody.constant (.ofInt .i32 7))⟩
    let result := (e.partialEval (Evaluator.interpreting .native) foldable host).run () {}
    e.isolated m.id = true ∧ result.2.runsOf e.isolated = [] ∧
      (∃ n news, (result.1.1.on e).at? [0] = some (call.rebuild n news) ∧ news.length = 2) ∧
      (result.1.1.on e).constants = [.ofInt .i32 1, .ofInt .i32 2, .ofInt .i32 7] := by
  intro int m call sum e host result
  have hhost : host.Avoids e.isolated := by
    refine Host.IsPure.avoids (fun id body hbody => ?_) _
    cases hbody
    exact ⟨fun _ _ => .ok (.ofInt .i32 7), fun _ _ _ => rfl⟩
  obtain ⟨isolates, evaluators, -⟩ := partialEval_isolates e host (by decide) (by decide) hhost
  obtain ⟨hruns, hkeeps⟩ := isolates (.interpreting .native) (fun _ => True) (evaluators Unit).1 () {}
    trivial (dispatch_avoids_of_undeclared _)
  exact ⟨by decide, hruns, hkeeps [0] call rfl ⟨.method m, rfl, by decide⟩, rfl⟩

/-- The methods behind operators have to be unflagged: `1 + 2` with a flagged method is folded, and
the method runs. -/
theorem partialEval_isolates_operator :
    let int (n : NodeId) (k : Int) : Expr := .constant ⟨n, .int .i32⟩ (.ofInt .i32 k)
    let m : MethodDef := ⟨1, "Plus", [.int .i32, .int .i32], .int .i32,
      { isStatic := true, nonFoldable := true }, [], none⟩
    let e : Expr := .binary ⟨2, .int .i32⟩ .add {} (some m) (int 0 1) (int 1 2) none
    let host : Host := ⟨fun _ => some (HostBody.constant (.ofInt .i32 7))⟩
    let result := (e.partialEval (Evaluator.interpreting .native) foldable host).run () {}
    e.refersTo = some (.method m) ∧ m.flags.nonFoldable = true ∧
      result.2.runsOf e.isolated = [.ran m.id none [.ofInt .i32 1, .ofInt .i32 2]] ∧
      ¬ e.KeepsReferences e.isolated (result.1.1.on e) := by
  intro int m e host result
  refine ⟨rfl, rfl, rfl, fun hkeeps => ?_⟩
  obtain ⟨n, news, hat, -⟩ := hkeeps [] e rfl ⟨.method m, rfl, by decide⟩
  cases hat

/-- Dispatch has to stay away from flagged members: `Speak` of a dog is folded, as the slot is not
flagged, and the method of the dog, which is, runs. -/
example :
    let animal : ClassDef := ⟨0, "Animal", .concrete, none, []⟩
    let dog : ClassDef := ⟨1, "Dog", .concrete, some animal, []⟩
    let speak : MethodDef := ⟨0, "Speak", [], .int .i32, { isVirtual := true }, [], none⟩
    let bark : MethodDef :=
      ⟨1, "Speak", [], .int .i32, { isVirtual := true, nonFoldable := true }, [0], none⟩
    let rex : Value := .object 0 dog []
    let spoken : Expr := .call ⟨1, .int .i32⟩ (some (.constant ⟨0, .ofClass dog⟩ rex)) speak []
    let barked : Expr := .call ⟨2, .int .i32⟩ (some (.parameter ⟨3, 0, "d", .ofClass dog⟩)) bark []
    let e : Expr := .newArray ⟨4, .array (.int .i32)⟩ (.int .i32) [spoken, barked]
    let host : Host := ⟨fun id => some (HostBody.constant (.ofInt .i32 id))⟩
    let w : World := (dog.addMethod bark {}).2
    let result := (e.partialEval (Evaluator.interpreting .native) foldable host).run () w
    result.2.runsOf e.isolated = [.ran bark.id (some rex) []] ∧
      (result.1.1.on e).constants = [.ofInt .i32 1] := by
  exact ⟨rfl, rfl⟩

end Expr

end ExprTree
