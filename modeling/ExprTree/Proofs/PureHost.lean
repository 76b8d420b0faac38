import ExprTree.Proofs.Simulation

/-!
# Dispatch, and what host code keeps

What a call on an object runs depends on the world only through the implementation that each class
has for each slot. `World.dispatch` collects these answers, from the override tables where they hold
one and by a fresh look elsewhere. Looking an implementation up fills in tables and changes no
answer, so evaluation against a host whose code is pure keeps the dispatch of the world it runs in
and depends on nothing else of it. Code that is not pure depends on what ran before; as long as it
does not see the tables, worlds with other entries there stay alike.

## Main definitions

* `World.dispatch`: the implementation of every slot on every class.
* `World.Dispatching`: worlds with a given dispatch.
* `World.Alike`, `World.Abreast`: worlds that differ in nothing but the entries of override tables.
* `Host.IsPureOver`: the code of the host is a function of receiver and arguments that does not tell
  related values apart; `Host.IsPure` is the case of equality.
* `Host.IsSteady`: the code of the host does not see override tables, and declares nothing.
* `Host.IsFunctional`: what the code of the host answers is a function of receiver and arguments.
* `Host.Oblivious`: worlds that the code of the host cannot tell apart.

## Main results

* `World.dispatch_resolveMethod`, `World.dispatch_resolveMember`: lookups keep the dispatch.
* `Host.IsPureOver.respects`, `Host.IsSteady.respects`, `Host.IsFunctional.respects`: what host code
  keeps.
* `Reflector.native_respects`: members give outcomes that agree where the host keeps relations.
-/

set_option autoImplicit false

namespace ExprTree

/-- The implementation that each class has for each slot. -/
structure Dispatch where
  method : ClassDef → MethodDef → Option MethodDef
  member : ClassDef → MemberDef → Option MemberDef

namespace World

/-- The implementation of every slot on every class, as lookups give it. -/
def dispatch (w : World) : Dispatch where
  method c slot := ((w.declared c.id).methodSlots c slot).getD (w.findMethod c slot)
  member c slot := ((w.declared c.id).memberSlots c slot).getD (w.findMember c slot)

/-! ### Lookups -/

theorem findMethod_congr {w w' : World}
    (h : ∀ c : ClassDef, (w.declared c.id).methods = (w'.declared c.id).methods) (c : ClassDef)
    (slot : MethodDef) :
    w.findMethod c slot = w'.findMethod c slot := by
  unfold findMethod declaredInInterface methodOn
  simp only [h]

theorem findMember_congr {w w' : World}
    (h : ∀ c : ClassDef, (w.declared c.id).members = (w'.declared c.id).members) (c : ClassDef)
    (slot : MemberDef) :
    w.findMember c slot = w'.findMember c slot := by
  unfold findMember declaredInInterface memberOn
  simp only [h]

theorem resolveMethod_fst (c : ClassDef) (slot : MethodDef) (w : World) :
    (c.resolveMethod slot w).1 = w.dispatch.method c slot := by
  unfold ClassDef.resolveMethod
  cases h : (w.declared c.id).methodSlots c slot <;> simp [dispatch, h]

theorem resolveMember_fst (c : ClassDef) (slot : MemberDef) (w : World) :
    (c.resolveMember slot w).1 = w.dispatch.member c slot := by
  unfold ClassDef.resolveMember
  cases h : (w.declared c.id).memberSlots c slot <;> simp [dispatch, h]

/-- An answer that is noted is all that changes. -/
theorem declared_noteMethod (c : ClassDef) (slot : MethodDef) (answer : Option MethodDef)
    (w : World) (c' : ClassDef) :
    ((c.noteMethod slot answer w).declared c'.id).methods = (w.declared c'.id).methods ∧
    ((c.noteMethod slot answer w).declared c'.id).members = (w.declared c'.id).members ∧
    ((c.noteMethod slot answer w).declared c'.id).memberSlots = (w.declared c'.id).memberSlots ∧
    ∀ slot', ((c.noteMethod slot answer w).declared c'.id).methodSlots c' slot' =
      if c' = c ∧ slot' = slot then some answer else (w.declared c'.id).methodSlots c' slot' := by
  by_cases hid : c'.id = c.id
  · rw [ClassDef.noteMethod, hid, declared_modifyDeclared_self]
    exact ⟨rfl, rfl, rfl, fun _ => rfl⟩
  · rw [ClassDef.noteMethod, declared_modifyDeclared_of_ne hid]
    refine ⟨rfl, rfl, rfl, fun slot' => ?_⟩
    rw [if_neg]
    rintro ⟨rfl, -⟩
    exact hid rfl

/-- An answer that is noted is all that changes. -/
theorem declared_noteMember (c : ClassDef) (slot : MemberDef) (answer : Option MemberDef)
    (w : World) (c' : ClassDef) :
    ((c.noteMember slot answer w).declared c'.id).methods = (w.declared c'.id).methods ∧
    ((c.noteMember slot answer w).declared c'.id).members = (w.declared c'.id).members ∧
    ((c.noteMember slot answer w).declared c'.id).methodSlots = (w.declared c'.id).methodSlots ∧
    ∀ slot', ((c.noteMember slot answer w).declared c'.id).memberSlots c' slot' =
      if c' = c ∧ slot' = slot then some answer else (w.declared c'.id).memberSlots c' slot' := by
  by_cases hid : c'.id = c.id
  · rw [ClassDef.noteMember, hid, declared_modifyDeclared_self]
    exact ⟨rfl, rfl, rfl, fun _ => rfl⟩
  · rw [ClassDef.noteMember, declared_modifyDeclared_of_ne hid]
    refine ⟨rfl, rfl, rfl, fun slot' => ?_⟩
    rw [if_neg]
    rintro ⟨rfl, -⟩
    exact hid rfl

/-- Looking up a method changes no answer. -/
theorem dispatch_resolveMethod (c : ClassDef) (slot : MethodDef) (w : World) :
    (c.resolveMethod slot w).2.dispatch = w.dispatch := by
  unfold ClassDef.resolveMethod
  cases hs : (w.declared c.id).methodSlots c slot with
  | some answer => rfl
  | none =>
    have noted := declared_noteMethod c slot (w.findMethod c slot) w
    simp only [dispatch, Dispatch.mk.injEq]
    constructor
    · funext c' slot'
      rw [(noted c').2.2.2, findMethod_congr fun c' => (noted c').1]
      split
      · next hsame =>
        obtain ⟨rfl, rfl⟩ := hsame
        rw [hs]
        rfl
      · rfl
    · funext c' slot'
      rw [(noted c').2.2.1, findMember_congr fun c' => (noted c').2.1]

/-- Looking up a field or property changes no answer. -/
theorem dispatch_resolveMember (c : ClassDef) (slot : MemberDef) (w : World) :
    (c.resolveMember slot w).2.dispatch = w.dispatch := by
  unfold ClassDef.resolveMember
  cases hs : (w.declared c.id).memberSlots c slot with
  | some answer => rfl
  | none =>
    have noted := declared_noteMember c slot (w.findMember c slot) w
    simp only [dispatch, Dispatch.mk.injEq]
    constructor
    · funext c' slot'
      rw [(noted c').2.2.1, findMethod_congr fun c' => (noted c').1]
    · funext c' slot'
      rw [(noted c').2.2.2, findMember_congr fun c' => (noted c').2.1]
      split
      · next hsame =>
        obtain ⟨rfl, rfl⟩ := hsame
        rw [hs]
        rfl
      · rfl

/-- Worlds that differ in nothing but the entries of override tables. -/
structure Alike (w w' : World) : Prop where
  dispatch : w.dispatch = w'.dispatch
  supply : w.supply = w'.supply
  trace : w.trace = w'.trace
  methods : ∀ c : ClassDef, (w.declared c.id).methods = (w'.declared c.id).methods
  members : ∀ c : ClassDef, (w.declared c.id).members = (w'.declared c.id).members

namespace Alike

theorem refl (w : World) : w.Alike w := ⟨rfl, rfl, rfl, fun _ => rfl, fun _ => rfl⟩

theorem symm {w w' : World} (h : w.Alike w') : w'.Alike w where
  dispatch := h.dispatch.symm
  supply := h.supply.symm
  trace := h.trace.symm
  methods c := (h.methods c).symm
  members c := (h.members c).symm

theorem trans {w w' w'' : World} (h : w.Alike w') (h' : w'.Alike w'') : w.Alike w'' where
  dispatch := h.dispatch.trans h'.dispatch
  supply := h.supply.trans h'.supply
  trace := h.trace.trans h'.trace
  methods c := (h.methods c).trans (h'.methods c)
  members c := (h.members c).trans (h'.members c)

end Alike

theorem alike_resolveMethod (c : ClassDef) (slot : MethodDef) (w : World) :
    w.Alike (c.resolveMethod slot w).2 := by
  have kept := dispatch_resolveMethod c slot w
  unfold ClassDef.resolveMethod at kept ⊢
  split at kept
  · exact .refl w
  · have noted := declared_noteMethod c slot (w.findMethod c slot) w
    exact ⟨kept.symm, rfl, rfl, fun c' => (noted c').1.symm, fun c' => (noted c').2.1.symm⟩

theorem alike_resolveMember (c : ClassDef) (slot : MemberDef) (w : World) :
    w.Alike (c.resolveMember slot w).2 := by
  have kept := dispatch_resolveMember c slot w
  unfold ClassDef.resolveMember at kept ⊢
  split at kept
  · exact .refl w
  · have noted := declared_noteMember c slot (w.findMember c slot) w
    exact ⟨kept.symm, rfl, rfl, fun c' => (noted c').1.symm, fun c' => (noted c').2.1.symm⟩

end World

namespace Dispatch

/-- The method that a call of `m` on a receiver of some class runs. -/
def methodTarget (d : Dispatch) (m : MethodDef) (receiver : Option Value) : MethodDef :=
  if m.flags.isStatic then m
  else ((receiver.bind Value.class?).bind fun c => d.method c m).getD m

/-- The member that a read of `m` on a receiver of some class runs. -/
def memberTarget (d : Dispatch) (m : MemberDef) (receiver : Option Value) : MemberDef :=
  if m.kind = .field ∨ m.flags.isStatic then m
  else ((receiver.bind Value.class?).bind fun c => d.member c m).getD m

end Dispatch

namespace Host

variable {host : Host} {R : Value → Value → Prop}

/-- The target of a call is read off the dispatch of the world, and finding it fills in tables. -/
theorem methodTarget_run (m : MethodDef) (receiver : Option Value) (w : World) :
    (methodTarget m receiver w).1 = w.dispatch.methodTarget m receiver ∧
      w.Alike (methodTarget m receiver w).2 := by
  unfold methodTarget Dispatch.methodTarget
  cases m.flags.isStatic with
  | true => exact ⟨rfl, .refl w⟩
  | false =>
    rcases receiver with _ | v
    · exact ⟨rfl, .refl w⟩
    cases v with
    | object i c state =>
      have answer := World.resolveMethod_fst c m w
      have kept := World.alike_resolveMethod c m w
      change ((c.resolveMethod m w).1.getD m) = _ ∧ w.Alike (c.resolveMethod m w).2
      rw [answer]
      exact ⟨rfl, kept⟩
    | _ => exact ⟨rfl, .refl w⟩

/-- The target of a read is read off the dispatch of the world, and finding it fills in tables. -/
theorem memberTarget_run (m : MemberDef) (receiver : Option Value) (w : World) :
    (memberTarget m receiver w).1 = w.dispatch.memberTarget m receiver ∧
      w.Alike (memberTarget m receiver w).2 := by
  unfold memberTarget Dispatch.memberTarget
  cases m.kind with
  | field => exact ⟨rfl, .refl w⟩
  | property =>
    cases m.flags.isStatic with
    | true => exact ⟨rfl, .refl w⟩
    | false =>
      rcases receiver with _ | v
      · exact ⟨rfl, .refl w⟩
      cases v with
      | object i c state =>
        have answer := World.resolveMember_fst c m w
        have kept := World.alike_resolveMember c m w
        change ((c.resolveMember m w).1.getD m) = _ ∧ w.Alike (c.resolveMember m w).2
        rw [answer]
        exact ⟨rfl, kept⟩
      | _ => exact ⟨rfl, .refl w⟩

/-- A call runs the body of its target. -/
theorem invoke_run (m : MethodDef) (r : Option Value) (args : List Value) (w : World) :
    (host.invoke m r args).run w =
      (host.runBody (w.dispatch.methodTarget m r).id
        ("method " ++ codeQuoted (w.dispatch.methodTarget m r).name ++ " has no body") r
        args).run (methodTarget m r w).2 := by
  rw [← (methodTarget_run m r w).1]
  rfl

/-- A read runs the getter of its target. -/
theorem read_run (m : MemberDef) (r : Option Value) (w : World) :
    (host.read m r).run w =
      (host.runBody (w.dispatch.memberTarget m r).id
        ("member " ++ codeQuoted (w.dispatch.memberTarget m r).name ++ " has no getter") r
        []).run (memberTarget m r w).2 := by
  rw [← (memberTarget_run m r w).1]
  rfl

/-! ### Pure host code -/

/-- Results of host code that are related, or the same failure. -/
def Agree (R : Value → Value → Prop) : Except HostError Value → Except HostError Value → Prop
  | .ok v, .ok w => R v w
  | .error e, .error e' => e = e'
  | _, _ => False

theorem Agree.refl (x : Except HostError Value) : Agree Eq x x := by
  cases x with
  | ok v => exact Eq.refl v
  | error e => exact Eq.refl e

/-- The code of every member is a function of receiver and arguments, and takes related ones to
results that agree. -/
def IsPureOver (host : Host) (R : Value → Value → Prop) : Prop :=
  ∀ id body, host.body id = some body → ∃ f : Option Value → List Value → Except HostError Value,
    (∀ r args w, (body r args).run w = (f r args, w)) ∧
    ∀ r r' args args', Option.Rel R r r' → List.Forall₂ R args args' →
      Agree R (f r args) (f r' args')

/-- The code of every member is a function of receiver and arguments. -/
def IsPure (host : Host) : Prop :=
  ∀ id body, host.body id = some body → ∃ f : Option Value → List Value → Except HostError Value,
    ∀ r args w, (body r args).run w = (f r args, w)

theorem IsPure.over_eq (h : host.IsPure) : host.IsPureOver Eq := by
  intro id body hbody
  obtain ⟨f, hf⟩ := h id body hbody
  refine ⟨f, hf, fun r r' args args' hr hargs => ?_⟩
  have hr : r = r' := by cases hr <;> simp_all
  rw [List.forall₂_eq_eq_eq] at hargs
  rw [hr, hargs]
  exact Agree.refl _

theorem IsPureOver.isPure {R : Value → Value → Prop} (h : host.IsPureOver R) : host.IsPure := by
  intro id body hbody
  obtain ⟨f, hf, -⟩ := h id body hbody
  exact ⟨f, hf⟩

end Host

namespace World

/-- Two worlds with a given dispatch. -/
def Dispatching (d : Dispatch) (w w' : World) : Prop := w.dispatch = d ∧ w'.dispatch = d

/-- Two worlds with a given dispatch that differ in nothing but the entries of override tables. -/
def Abreast (d : Dispatch) (w w' : World) : Prop := w.dispatch = d ∧ w.Alike w'

end World

namespace Host

variable {host : Host} {R : Value → Value → Prop}

/-- The code of every member declares nothing, and does not look into the override tables. It may
depend on all that was run before. -/
def IsSteady (host : Host) : Prop :=
  ∀ id body, host.body id = some body → ∀ r args d w w', World.Abreast d w w' →
    ((body r args).run w).1 = ((body r args).run w').1 ∧
      World.Abreast d ((body r args).run w).2 ((body r args).run w').2

theorem IsPure.isSteady (h : host.IsPure) : host.IsSteady := by
  intro id body hbody r args d w w' hw
  obtain ⟨f, hf⟩ := h id body hbody
  rw [hf, hf]
  exact ⟨rfl, hw⟩

/-- From related worlds, which have the given dispatch, code that runs on related values comes to
results that agree, in worlds that are related again. Filling in override tables leaves worlds
related. -/
structure Respects (host : Host) (d : Dispatch) (W : World → World → Prop)
    (R : Value → Value → Prop) : Prop where
  dispatch : ∀ {w w'}, W w w' → w.dispatch = d ∧ w'.dispatch = d
  alike : ∀ {w w' u u'}, W w w' → w.Alike u → w'.Alike u' → W u u'
  runBody : ∀ (id : MemberId) (missing : String) {r r' : Option Value} {args args' : List Value},
    Option.Rel R r r' → List.Forall₂ R args args' → ∀ {w w'}, W w w' →
      Agree R ((host.runBody id missing r args).run w).1
          ((host.runBody id missing r' args').run w').1 ∧
        W ((host.runBody id missing r args).run w).2 ((host.runBody id missing r' args').run w').2

theorem runBody_eq_of_none {id : MemberId} (hb : host.body id = none) (missing : String)
    (r : Option Value) (args : List Value) (w : World) :
    (host.runBody id missing r args).run w = (.error ⟨missing⟩, w) := by
  unfold runBody
  rw [hb]
  rfl

theorem runBody_eq_of_some {id : MemberId} {body : HostBody} (hb : host.body id = some body)
    (missing : String) (r : Option Value) (args : List Value) (w : World) :
    (host.runBody id missing r args).run w =
      (body r args).run { w with trace := .ran id r args :: w.trace } := by
  unfold runBody
  rw [hb]
  rfl

theorem IsPureOver.respects (h : host.IsPureOver R) (d : Dispatch) :
    host.Respects d (World.Dispatching d) R where
  dispatch := id
  alike hw hu hu' := ⟨hu.dispatch.symm.trans hw.1, hu'.dispatch.symm.trans hw.2⟩
  runBody id missing r r' args args' hr hargs w w' hw := by
    cases hb : host.body id with
    | none =>
      rw [runBody_eq_of_none hb, runBody_eq_of_none hb]
      exact ⟨rfl, hw⟩
    | some body =>
      obtain ⟨f, hf, hagree⟩ := h id body hb
      rw [runBody_eq_of_some hb, runBody_eq_of_some hb, hf, hf]
      exact ⟨hagree r r' args args' hr hargs, hw⟩

theorem IsSteady.respects (h : host.IsSteady) (d : Dispatch) :
    host.Respects d (World.Abreast d) Eq where
  dispatch hw := ⟨hw.1, hw.2.dispatch.symm.trans hw.1⟩
  alike hw hu hu' := ⟨hu.dispatch.symm.trans hw.1, hu.symm.trans (hw.2.trans hu')⟩
  runBody id missing r r' args args' hr hargs w w' hw := by
    obtain rfl : r = r' := by cases hr <;> simp_all
    rw [List.forall₂_eq_eq_eq] at hargs
    subst hargs
    cases hb : host.body id with
    | none =>
      rw [runBody_eq_of_none hb, runBody_eq_of_none hb]
      exact ⟨rfl, hw⟩
    | some body =>
      have recorded : World.Abreast d { w with trace := .ran id r args :: w.trace }
          { w' with trace := .ran id r args :: w'.trace } :=
        ⟨hw.1, hw.2.dispatch, hw.2.supply, congrArg (Event.ran id r args :: ·) hw.2.trace,
          hw.2.methods, hw.2.members⟩
      obtain ⟨heq, hnext⟩ := h id body hb r args d _ _ recorded
      rw [runBody_eq_of_some hb, runBody_eq_of_some hb, heq]
      exact ⟨Agree.refl _, hnext⟩

/-! ### Effects that no code sees -/

/-- What the code of a member answers is a function of receiver and arguments, whatever else it does.
It keeps dispatch. -/
def IsFunctional (host : Host) : Prop :=
  ∀ id body, host.body id = some body → ∃ f : Option Value → List Value → Except HostError Value,
    ∀ r args w, ((body r args).run w).1 = f r args ∧ ((body r args).run w).2.dispatch = w.dispatch

theorem IsPure.isFunctional (h : host.IsPure) : host.IsFunctional := by
  intro id body hbody
  obtain ⟨f, hf⟩ := h id body hbody
  refine ⟨f, fun r args w => ?_⟩
  rw [hf]
  exact ⟨rfl, rfl⟩

theorem IsFunctional.respects (h : host.IsFunctional) (d : Dispatch) :
    host.Respects d (World.Dispatching d) Eq where
  dispatch := id
  alike hw hu hu' := ⟨hu.dispatch.symm.trans hw.1, hu'.dispatch.symm.trans hw.2⟩
  runBody id missing r r' args args' hr hargs w w' hw := by
    obtain rfl : r = r' := by cases hr <;> simp_all
    rw [List.forall₂_eq_eq_eq] at hargs
    subst hargs
    cases hb : host.body id with
    | none =>
      rw [runBody_eq_of_none hb, runBody_eq_of_none hb]
      exact ⟨rfl, hw⟩
    | some body =>
      obtain ⟨f, hf⟩ := h id body hb
      rw [runBody_eq_of_some hb, runBody_eq_of_some hb, (hf ..).1, (hf ..).1]
      exact ⟨Agree.refl _, (hf ..).2.trans hw.1, (hf ..).2.trans hw.2⟩

/-- Worlds with the given dispatch fall into classes that host code cannot tell apart. -/
structure Oblivious (host : Host) (d : Dispatch) (W : World → World → Prop) : Prop where
  respects : host.Respects d W Eq
  symm : ∀ {w w'}, W w w' → W w' w
  trans : ∀ {u v w}, W u v → W v w → W u w

theorem IsFunctional.oblivious (h : host.IsFunctional) (d : Dispatch) :
    host.Oblivious d (World.Dispatching d) where
  respects := h.respects d
  symm hw := ⟨hw.2, hw.1⟩
  trans hw hw' := ⟨hw.1, hw'.2⟩

theorem IsSteady.oblivious (h : host.IsSteady) (d : Dispatch) :
    host.Oblivious d (World.Abreast d) where
  respects := h.respects d
  symm hw := ⟨hw.2.dispatch.symm.trans hw.1, hw.2.symm⟩
  trans hw hw' := ⟨hw.1, hw.2.trans hw'.2⟩

namespace Oblivious

variable {d : Dispatch} {W : World → World → Prop} {w w' : World}

theorem refl_left (h : host.Oblivious d W) (hw : W w w') : W w w := h.trans hw (h.symm hw)

theorem refl_right (h : host.Oblivious d W) (hw : W w w') : W w' w' := h.trans (h.symm hw) hw

end Oblivious

end Host

namespace Reflector

variable {host : Host} {d : Dispatch} {W : World → World → Prop} {R : Value → Value → Prop}

theorem class?_eq (hR : Value.Congruence R) {r r' : Option Value} (hr : Option.Rel R r r') :
    r.bind Value.class? = r'.bind Value.class? := by
  cases hr with
  | none => rfl
  | some hv => exact hR.class? hv

/-- Host code that agrees gives evaluations that agree. -/
theorem ofHost_simulates {x x' : Host → HostM Value}
    (h : ∀ w w', W w w' → Host.Agree R ((x host).run w).1 ((x' host).run w').1 ∧
      W ((x host).run w).2 ((x' host).run w').2) :
    EvalM.Simulates host W R (.ofHost x) (.ofHost x') := by
  intro w w' hw
  obtain ⟨hagree, hnext⟩ := h w w' hw
  rw [EvalM.outcome_ofHost, EvalM.outcome_ofHost]
  refine ⟨?_, hnext⟩
  cases hx : ((x host).run w).1 <;> cases hx' : ((x' host).run w').1 <;> rw [hx, hx'] at hagree
  case ok.ok => exact hagree
  case error.error e e' => exact congrArg (fun e : HostError => EvalError.host e.message) hagree
  all_goals exact hagree.elim

/-- Calls that run the same method agree. -/
theorem invoke_simulates (h : host.Respects d W R) {m m' : MethodDef} {r r' : Option Value}
    {args args' : List Value} (hr : Option.Rel R r r') (hargs : List.Forall₂ R args args')
    (htarget : d.methodTarget m r = d.methodTarget m' r') :
    EvalM.Simulates host W R (native.invoke m r args) (native.invoke m' r' args') := by
  refine ofHost_simulates fun w w' hw => ?_
  rw [Host.invoke_run, Host.invoke_run, (h.dispatch hw).1, (h.dispatch hw).2, htarget]
  exact h.runBody _ _ hr hargs
    (h.alike hw (Host.methodTarget_run m r w).2 (Host.methodTarget_run m' r' w').2)

/-- Reads that run the same getter agree. -/
theorem read_simulates (h : host.Respects d W R) {m m' : MemberDef} {r r' : Option Value}
    (hr : Option.Rel R r r') (htarget : d.memberTarget m r = d.memberTarget m' r') :
    EvalM.Simulates host W R (native.read m r) (native.read m' r') := by
  refine ofHost_simulates fun w w' hw => ?_
  rw [Host.read_run, Host.read_run, (h.dispatch hw).1, (h.dispatch hw).2, htarget]
  exact h.runBody _ _ hr .nil
    (h.alike hw (Host.memberTarget_run m r w).2 (Host.memberTarget_run m' r' w').2)

/-- Members give outcomes that agree where the host respects the relations. -/
theorem native_respects (hR : Value.Congruence R) (h : host.Respects d W R) :
    native.Respects host W R where
  invoke m r r' args args' hr hargs := by
    refine invoke_simulates h hr hargs ?_
    unfold Dispatch.methodTarget
    rw [class?_eq hR hr]
  read m r r' hr := by
    refine read_simulates h hr ?_
    unfold Dispatch.memberTarget
    rw [class?_eq hR hr]
  construct _ _ _ hargs := ofHost_simulates fun _ _ hw => h.runBody _ _ .none hargs hw

end Reflector

end ExprTree
