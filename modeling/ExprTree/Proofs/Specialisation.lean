import ExprTree.Proofs.Casts
import ExprTree.Proofs.FreeParameters
import ExprTree.Proofs.Overriding
import ExprTree.Proofs.Scopes

/-!
# Specialised trees

A specialised tree reads properties and calls methods through what the static class of a receiver
has for them, and leaves out casts that have become assignments. Neither is seen when the tree is
evaluated, if the values keep to the static types: what the class of an object has for a slot is the
same whether it is asked for the slot or for what a base class has for it, and a value of a type is
what a cast to a supertype makes of it.

Static types are an assumption about the frame, as nothing in evaluation checks them. The assumption
is about the tree that is not specialised. What it says of the specialised one comes out on the way:
the static type of a specialised subtree is one that the subtree, or an operand below a cast that is
left out, had before.

## Main definitions

* `Expr.Comes`, `Expr.Visits`: what a tree may come to, and where its evaluation may get to.
* `Expr.TypedIn`: the values that subtrees come to keep to their static types.
* `Expr.Specialised`: a tree with lookups repeated and casts left out.

## Main results

* `Expr.interpret_self`: a tree agrees with itself wherever dispatch is the same.
* `Expr.Specialised.agrees`: **a specialised tree comes to what the tree comes to**.
-/

set_option autoImplicit false

namespace ExprTree

open EvalM

/-- Null, or an object of a concrete class that derives from `c`. -/
def Value.IsInstance (classes : ClassDef → Prop) (c : ClassDef) (v : Value) : Prop :=
  v.isNull = true ∨ ∃ d, v.class? = some d ∧ classes d ∧ d.kind = .concrete ∧ c ∈ d.supertypes

namespace Expr

/-! ### Values that keep to their types -/

/-- A value that a tree may come to in a frame, where members dispatch as given. -/
def Comes (host : Host) (d : Dispatch) (frame : Frame) (e : Expr) (v : Value) : Prop :=
  ∃ w : World, w.dispatch = d ∧ ((e.interpret .native frame).outcome host w).1 = .ok v

/-- Where the evaluation of a tree may get to. Operands are evaluated in the frame of the node, and
a conversion over whatever the left operand comes to. The body of a quote is not evaluated. -/
inductive Visits (host : Host) (d : Dispatch) : Expr → Frame → Expr → Frame → Prop
  | here (e : Expr) (frame : Frame) : Visits host d e frame e frame
  | operand {e c x : Expr} {frame frame' : Frame} (hlambda : e.lambda? = none)
      (hc : c ∈ e.operands) (h : Visits host d c frame x frame') : Visits host d e frame x frame'
  | conversion {s s' : Stamp} {lifting : Lifting} {l r b x : Expr} {p : Param} {v : Value}
      {frame frame' : Frame} (hv : Comes host d frame l v) (hnull : v.isNull = false)
      (h : Visits host d b ((p.id, v) :: frame) x frame') :
      Visits host d (.binary s .coalesce lifting none l r (some (.lambda s' [p] b))) frame x frame'

/-- Wherever evaluation gets to, what has a class as its type comes to null or to an instance of
that class, and what is cast comes to an instance of its type. -/
structure TypedIn (host : Host) (d : Dispatch) (classes : ClassDef → Prop) (frame : Frame)
    (e : Expr) : Prop where
  instances : ∀ {x frame' c}, Visits host d e frame x frame' → x.ty = .ofClass c →
    ∀ v, Comes host d frame' x v → v.IsInstance classes c
  casts : ∀ {s op x frame'}, Visits host d e frame (.unary s op false none x) frame' →
    op = .convert ∨ op = .typeAs → ∀ v, Comes host d frame' x v → v.isInstanceOf x.ty = true

variable {host : Host} {d : Dispatch} {classes : ClassDef → Prop} {frame : Frame} {e c : Expr}

theorem TypedIn.operand (h : TypedIn host d classes frame e) (hlambda : e.lambda? = none)
    (hc : c ∈ e.operands) : TypedIn host d classes frame c where
  instances hx := h.instances (.operand hlambda hc hx)
  casts hx := h.casts (.operand hlambda hc hx)

theorem TypedIn.conversion {s s' : Stamp} {lifting : Lifting} {l r b : Expr} {p : Param} {v : Value}
    (h : TypedIn host d classes frame
      (.binary s .coalesce lifting none l r (some (.lambda s' [p] b))))
    (hv : Comes host d frame l v) (hnull : v.isNull = false) :
    TypedIn host d classes ((p.id, v) :: frame) b where
  instances hx := h.instances (.conversion hv hnull hx)
  casts hx := h.casts (.conversion hv hnull hx)

/-- Reading a member of a variable is typed where the variable is. -/
theorem typedIn_member {s : Stamp} {p : Param} {m : MemberDef} {v : Value}
    (hs : ∀ c, s.ty ≠ .ofClass c) (hv : frame.get? p.id = some v)
    (hp : ∀ c, p.ty = .ofClass c → v.IsInstance classes c) :
    TypedIn host d classes frame (.member s (some (.parameter p)) m) where
  instances {x frame' c} hx hc v' hcomes := by
    cases hx with
    | here => exact (hs c hc).elim
    | operand _ hmem hx =>
      cases List.mem_singleton.1 hmem
      cases hx with
      | here =>
        obtain ⟨w, -, hw⟩ := hcomes
        rw [interpret.eq_def] at hw
        simp only [hv] at hw
        cases hw
        exact hp c hc
      | operand _ hmem _ => cases hmem
  casts {s' op x frame'} hx _ _ _ := by
    cases hx with
    | operand _ hmem hx =>
      cases List.mem_singleton.1 hmem
      cases hx with
      | operand _ hmem _ => cases hmem

/-- Two trees that agree come to equal values, and the value is one that the first comes to. -/
theorem simulates_and_comes {y : EvalM Value}
    (h : Simulates host (World.Abreast d) Eq (e.interpret .native frame) y) :
    Simulates host (World.Abreast d) (fun v v' => v = v' ∧ Comes host d frame e v)
      (e.interpret .native frame) y := by
  intro w w' hw
  obtain ⟨hagree, hkept⟩ := h w w' hw
  refine ⟨?_, hkept⟩
  cases hx : ((e.interpret .native frame).outcome host w).1 <;>
    cases hy : (y.outcome host w').1 <;> rw [hx, hy] at hagree
  case ok.ok v v' => exact ⟨hagree, w, hw.1, hx⟩
  all_goals exact hagree

/-- A tree agrees with itself in worlds that host code cannot tell apart. -/
theorem interpret_self_of_respects {W : World → World → Prop} (hhost : host.Respects d W Eq)
    (e : Expr) (frame : Frame) :
    Simulates host W Eq (e.interpret .native frame) (e.interpret .native frame) :=
  interpret_respects (Reflector.native_respects Value.congruence_eq hhost) e frame

/-- A tree agrees with itself wherever dispatch is the same. -/
theorem interpret_self (hhost : host.IsSteady) (e : Expr) (frame : Frame) :
    Simulates host (World.Abreast d) Eq (e.interpret .native frame)
      (e.interpret .native frame) :=
  interpret_self_of_respects (hhost.respects d) e frame

/-! ### Specialised trees -/

/-- A quote is the same quote; other trees may differ. -/
def SameQuote (e e' : Expr) : Prop := e.lambda? = none ∨ e' = e

/-- The second tree is the first with lookups repeated and casts left out. Where a member is looked
up again, the static type of the receiver is the class that was asked. A cast is left out if it
casts to a type that accepts what it casts. Quotes are the same, and conversions are applied on both
sides or on none. -/
inductive Specialised (w : World) (classes : ClassDef → Prop) : Expr → Expr → Prop
  | same (e : Expr) : Specialised w classes e e
  | node {e e' : Expr} (halike : Parallel (fun _ _ => True) (fun ps ps' _ _ => ps = ps') e e')
      (htypes : TypesAlike e e')
      (hoperands : List.Forall₂ (Specialised w classes) e.operands e'.operands)
      (hquotes : List.Forall₂ SameQuote e.operands e'.operands)
      (hconversion : Option.Rel (Specialised w classes) e.conversion? e'.conversion?)
      (hlambda : Option.Rel (fun c c' => c.lambda?.isSome = c'.lambda?.isSome) e.conversion?
        e'.conversion?) :
      Specialised w classes e e'
  | member {s s' : Stamp} {r r' : Expr} {m m' : MemberDef} {c : ClassDef}
      (hr : Specialised w classes r r') (hquote : SameQuote r r') (hc : r'.ty = .ofClass c)
      (hclass : classes c) (hslot : w.memberLookup.IsSlot classes m)
      (hm : w.dispatch.member c m = some m') (hne : m'.id ≠ m.id) (hs : s.ty = m.ty)
      (hs' : s'.ty = m'.ty) :
      Specialised w classes (.member s (some r) m) (.member s' (some r') m')
  | call {s s' : Stamp} {r r' : Expr} {m m' : MethodDef} {as as' : List Expr} {c : ClassDef}
      (hr : Specialised w classes r r') (hquote : SameQuote r r') (hc : r'.ty = .ofClass c)
      (hclass : classes c) (hslot : w.methodLookup.IsSlot classes m)
      (hm : w.dispatch.method c m = some m') (has : List.Forall₂ (Specialised w classes) as as')
      (hquotes : List.Forall₂ SameQuote as as') (hs : s.ty = m.ret) (hs' : s'.ty = m'.ret) :
      Specialised w classes (.call s (some r) m as) (.call s' (some r') m' as')
  | cast {s : Stamp} {op : UnaryOp} {x x' : Expr} (hop : op = .convert ∨ op = .typeAs)
      (hx : Specialised w classes x x') (hquote : SameQuote x x')
      (hproper : s.ty.isProper = true) (hnullable : s.ty.isNullable = false)
      (haccepts : s.ty.accepts x'.ty = true) :
      Specialised w classes (.unary s op false none x) x'

/-- What is known of two trees in a frame: they come to the same, and what they come to keeps to the
static type of the second. -/
structure AgreesIn (host : Host) (d : Dispatch) (classes : ClassDef → Prop) (frame : Frame)
    (e e' : Expr) : Prop where
  simulates : Simulates host (World.Abreast d) Eq (e.interpret .native frame)
    (e'.interpret .native frame)
  instances : ∀ {c v}, Comes host d frame e v → e'.ty = .ofClass c → v.IsInstance classes c
  casts : ∀ {v}, Comes host d frame e v → v.isInstanceOf e.ty = true → v.isInstanceOf e'.ty = true

/-- What is known of two specialised trees: they agree where they are no different quotes, and the
bodies of lambdas agree. -/
structure Agrees (host : Host) (d : Dispatch) (classes : ClassDef → Prop) (e e' : Expr) : Prop where
  tree : SameQuote e e' → ∀ frame, TypedIn host d classes frame e →
    AgreesIn host d classes frame e e'
  body : ∀ {s ps b}, e = .lambda s ps b → ∃ s' b', e' = .lambda s' ps b' ∧
    ∀ frame, TypedIn host d classes frame b →
      Simulates host (World.Abreast d) Eq (b.interpret .native frame)
        (b'.interpret .native frame)

variable {w : World} {e' : Expr}

/-- Trees of one type that agree keep to it. -/
theorem TypedIn.agreesIn (h : TypedIn host d classes frame e) (hty : e.ty = e'.ty)
    (hsimulates : Simulates host (World.Abreast d) Eq (e.interpret .native frame)
      (e'.interpret .native frame)) : AgreesIn host d classes frame e e' where
  simulates := hsimulates
  instances hv hc := h.instances (.here e frame) (hty.trans hc) _ hv
  casts _ hv := hty ▸ hv

theorem agrees_same (hhost : host.IsSteady) (e : Expr) : Agrees host d classes e e where
  tree _ frame htyped := htyped.agreesIn rfl (interpret_self hhost e frame)
  body {s _ b} he := ⟨s, b, he, fun frame _ => interpret_self hhost b frame⟩

/-- The conversions of specialised nodes agree on what the left operand comes to. -/
theorem convertLeft_agrees {s : Stamp} {lifting : Lifting} {l r : Expr} {c c' : Option Expr}
    (hc : Option.Rel (Agrees host d classes) c c')
    (hlambda : Option.Rel (fun c c' => c.lambda?.isSome = c'.lambda?.isSome) c c')
    (htyped : TypedIn host d classes frame (.binary s .coalesce lifting none l r c)) {v : Value}
    (hv : Comes host d frame l v) (hnull : v.isNull = false) :
    Simulates host (World.Abreast d) Eq (convertLeft .native frame c v)
      (convertLeft .native frame c' v) := by
  cases hc with
  | none => exact .pure rfl
  | @some c c' hc =>
    rcases hlambda with hlambda | _
    cases hl : c.lambda? with
    | none =>
      rw [hl] at hlambda
      have hl' : c'.lambda? = none := Option.isNone_iff_eq_none.1 (by simpa using hlambda.symm)
      simp only [convertLeft, Option.bind_some, hl, hl']
      exact .pure rfl
    | some l =>
      obtain ⟨ps, b⟩ := l
      obtain ⟨s, rfl⟩ := eq_of_lambda? hl
      obtain ⟨s', b', rfl, hb⟩ := hc.body rfl
      simp only [convertLeft, Option.bind_some, lambda?]
      split
      · next hone =>
        obtain ⟨p, rfl⟩ := List.length_eq_one_iff.1 hone
        exact hb _ (htyped.conversion hv hnull)
      · exact .throw rfl

/-- Nodes over specialised operands agree. -/
theorem agrees_node (hhost : host.IsSteady)
    (halike : Parallel (fun _ _ => True) (fun ps ps' _ _ => ps = ps') e e')
    (htypes : TypesAlike e e')
    (hoperands : List.Forall₂ (Agrees host d classes) e.operands e'.operands)
    (hquotes : List.Forall₂ SameQuote e.operands e'.operands)
    (hconversion : Option.Rel (Agrees host d classes) e.conversion? e'.conversion?)
    (hlambda : Option.Rel (fun c c' => c.lambda?.isSome = c'.lambda?.isSome) e.conversion?
      e'.conversion?) :
    Agrees host d classes e e' where
  tree hsame frame htyped := by
    by_cases heq : e' = e
    · rw [heq]
      exact (agrees_same hhost e).tree (.inr rfl) frame htyped
    have hl : e.lambda? = none := hsame.resolve_right heq
    have hp : e.parameter? = none := by
      cases halike with
      | parameter p => exact (heq rfl).elim
      | _ => rfl
    have hp' : e'.parameter? = none := by cases halike <;> first | rfl | cases hp
    refine htyped.agreesIn halike.ty_eq ?_
    rw [interpret_eq _ _ hp, interpret_eq _ _ hp']
    refine .located_left _ (.located_right _ ?_)
    refine meaning_simulates_of_operands (Q := fun c v v' => v = v' ∧ Comes host d frame c v)
      Value.congruence_eq (Reflector.native_respects Value.congruence_eq (hhost.respects d))
      (fun _ _ _ _ hv => hv.1) ?_ halike htypes hl ?_ ?_
    · rintro s op lifting l r c - - v _ v' _ ⟨rfl, -⟩ ⟨rfl, -⟩
      exact .refl (fun _ => rfl) _
    · have both := hoperands.mp (fun _ _ h hq => And.intro h hq) hquotes
      refine forall₂_imp_of_mem both fun c hc c' _ ⟨h, hquote⟩ => ?_
      exact simulates_and_comes (h.tree hquote frame (htyped.operand hl hc)).simulates
    · rintro s lifting l r c rfl v _ ⟨rfl, hv⟩ hnull
      exact convertLeft_agrees hconversion hlambda htyped hv hnull
  body {s ps b} he := by
    subst he
    cases halike with
    | lambda hps =>
      subst hps
      rcases hoperands with _ | ⟨hb, _⟩
      rcases hquotes with _ | ⟨hquote, _⟩
      exact ⟨_, _, rfl, fun frame htyped => (hb.tree hquote frame htyped).simulates⟩

/-- Receivers of a class agree on objects of that class. -/
theorem AgreesIn.receiver {c : ClassDef} {r r' : Expr} (h : AgreesIn host d classes frame r r')
    (hc : r'.ty = .ofClass c) :
    Simulates host (World.Abreast d) (fun v v' => v = v' ∧ v.IsInstance classes c)
      (r.interpret .native frame) (r'.interpret .native frame) :=
  (simulates_and_comes h.simulates).imp fun _ _ hv => ⟨hv.1, h.instances hv.2 hc⟩

/-- A property that is looked up again reads the same. -/
theorem agrees_member (hw : w.Disciplined classes) (hhost : host.IsSteady) {s s' : Stamp}
    {r r' : Expr} {m m' : MemberDef} {c : ClassDef} (hr : Agrees host w.dispatch classes r r')
    (hquote : SameQuote r r') (hc : r'.ty = .ofClass c) (hclass : classes c)
    (hslot : w.memberLookup.IsSlot classes m) (hm : w.dispatch.member c m = some m')
    (hne : m'.id ≠ m.id) (hs : s.ty = m.ty) (hs' : s'.ty = m'.ty) :
    Agrees host w.dispatch classes (.member s (some r) m) (.member s' (some r') m') where
  tree _ frame htyped := by
    have hr := hr.tree hquote frame (htyped.operand rfl List.mem_cons_self)
    obtain ⟨hname, hty, -⟩ := hw.member_like hclass hslot hm
    refine htyped.agreesIn (hs.trans (hty.symm.trans hs'.symm)) ?_
    rw [interpret_eq _ _ rfl, interpret_eq _ _ rfl]
    refine .located_left _ (.located_right _ ?_)
    refine Step.member_simulates_of_read (fun _ _ hv => congrArg Value.isNull hv.1) hname.symm
      (hr.receiver hc) ?_
    rintro v _ ⟨rfl, hnull' | ⟨k, hv, hk, hconcrete, hck⟩⟩ hnull
    · rw [hnull] at hnull'
      cases hnull'
    · exact Reflector.read_simulates (hhost.respects w.dispatch) (.some rfl)
        (hw.memberTarget_narrowed hk hconcrete hck hslot hm hne hv).symm
  body he := nomatch he

/-- A method that is looked up again does the same. -/
theorem agrees_call (hw : w.Disciplined classes) (hhost : host.IsSteady) {s s' : Stamp}
    {r r' : Expr} {m m' : MethodDef} {as as' : List Expr} {c : ClassDef}
    (hr : Agrees host w.dispatch classes r r') (hquote : SameQuote r r') (hc : r'.ty = .ofClass c)
    (hclass : classes c) (hslot : w.methodLookup.IsSlot classes m)
    (hm : w.dispatch.method c m = some m')
    (has : List.Forall₂ (Agrees host w.dispatch classes) as as')
    (hquotes : List.Forall₂ SameQuote as as') (hs : s.ty = m.ret) (hs' : s'.ty = m'.ret) :
    Agrees host w.dispatch classes (.call s (some r) m as) (.call s' (some r') m' as') where
  tree _ frame htyped := by
    have hr := hr.tree hquote frame (htyped.operand rfl List.mem_cons_self)
    obtain ⟨hname, hret, -⟩ := hw.method_like hclass hslot hm
    refine htyped.agreesIn (hs.trans (hret.symm.trans hs'.symm)) ?_
    rw [interpret_eq _ _ rfl, interpret_eq _ _ rfl]
    refine .located_left _ (.located_right _ ?_)
    refine Step.call_simulates_of_invoke (fun _ _ hv => congrArg Value.isNull hv.1) hname.symm
      (hr.receiver hc) ?_ ?_
    · rw [List.forall₂_map_left_iff, List.forall₂_map_right_iff]
      have both := has.mp (fun _ _ h hq => And.intro h hq) hquotes
      refine forall₂_imp_of_mem both fun a ha a' _ ⟨h, hquote⟩ => ?_
      exact (h.tree hquote frame (htyped.operand rfl (List.mem_cons_of_mem _ ha))).simulates
    · rintro v _ vs vs' ⟨rfl, hnull' | ⟨k, hv, hk, hconcrete, hck⟩⟩ hnull hvs
      · rw [hnull] at hnull'
        cases hnull'
      · exact Reflector.invoke_simulates (hhost.respects w.dispatch) (.some rfl) hvs
          (hw.methodTarget_narrowed hk hconcrete hck hslot hm hv).symm
  body he := nomatch he

/-- A cast of instances does what the operand does. -/
theorem cast_simulates {s : Stamp} {op : UnaryOp} (hop : op = .convert ∨ op = .typeAs) {x : Expr}
    (hnullable : s.ty.isNullable = false)
    (hcast : ∀ v, Comes host d frame x v → v.isInstanceOf s.ty = true) {y : EvalM Value}
    (hx : Simulates host (World.Abreast d) Eq (x.interpret .native frame) y) :
    Simulates host (World.Abreast d) Eq ((unary s op false none x).interpret .native frame) y := by
  rw [interpret_eq _ _ rfl, ← bind_pure y]
  refine .located_left _ ((simulates_and_comes hx).bind ?_)
  rintro v _ ⟨rfl, hv⟩
  have applied := Step.applyUnary_of_isInstanceOf hop false x.ty hnullable (hcast v hv)
  dsimp only
  rw [applied]
  exact .pure rfl

/-- A cast that is left out does nothing. -/
theorem agrees_cast (hhost : host.IsSteady) {s : Stamp} {op : UnaryOp}
    (hop : op = .convert ∨ op = .typeAs) {x x' : Expr} (hx : Agrees host d classes x x')
    (hquote : SameQuote x x') (hproper : s.ty.isProper = true) (hnullable : s.ty.isNullable = false)
    (haccepts : s.ty.accepts x'.ty = true) :
    Agrees host d classes (.unary s op false none x) x' where
  tree _ frame htyped := by
    have hx := hx.tree hquote frame (htyped.operand rfl List.mem_cons_self)
    have operand (v : Value) (hv : Comes host d frame x v) : v.isInstanceOf x'.ty = true :=
      hx.casts hv (htyped.casts (.here _ _) hop v hv)
    have hcast (v : Value) (hv : Comes host d frame x v) : v.isInstanceOf s.ty = true :=
      Value.isInstanceOf_of_accepts hproper haccepts (operand v hv)
    have comes {v : Value} (hv : Comes host d frame (.unary s op false none x) v) :
        Comes host d frame x v := by
      obtain ⟨w, hw, hv⟩ := hv
      have self := interpret_self (d := d) hhost x frame
      have same := cast_simulates hop hnullable hcast self w w ⟨hw, .refl w⟩
      refine ⟨w, hw, ?_⟩
      rw [hv] at same
      cases hxo : ((x.interpret .native frame).outcome host w).1 with
      | error => rw [hxo] at same; exact same.1.elim
      | ok v' => rw [hxo] at same; exact congrArg _ (Eq.symm same.1)
    exact {
      simulates := cast_simulates hop hnullable hcast hx.simulates
      instances := fun hv hc => hx.instances (comes hv) hc
      casts := fun hv _ => operand _ (comes hv) }
  body he := nomatch he

/-- **A specialised tree comes to what the tree comes to**, in frames where values keep to the
static types of the tree. -/
theorem Specialised.agrees (hw : w.Disciplined classes) (hhost : host.IsSteady)
    (h : Specialised w classes e e') : Agrees host w.dispatch classes e e' := by
  induction e using induction_children generalizing e' with
  | step e ih =>
    have list {as as' : List Expr} (hmem : ∀ c ∈ as, c ∈ e.children)
        (has : List.Forall₂ (Specialised w classes) as as') :
        List.Forall₂ (Agrees host w.dispatch classes) as as' :=
      forall₂_imp_of_mem has fun c hc _ _ h => ih c (hmem c hc) h
    cases h with
    | same e => exact agrees_same hhost e
    | node halike htypes hoperands hquotes hconversion hlambda =>
      refine agrees_node hhost halike htypes ?_ hquotes ?_ hlambda
      · exact list (fun c => mem_children_of_mem_operands) hoperands
      · exact optionRel_imp_of_mem hconversion fun c hc _ _ h =>
          ih c (mem_children_of_mem_conversion? hc) h
    | member hr hquote hc hclass hslot hm hne hs hs' =>
      exact agrees_member hw hhost (ih _ List.mem_cons_self hr) hquote hc hclass hslot hm hne hs hs'
    | call hr hquote hc hclass hslot hm has hquotes hs hs' =>
      exact agrees_call hw hhost (ih _ List.mem_cons_self hr) hquote hc hclass hslot hm
        (list (fun c hc => List.mem_cons_of_mem _ hc) has) hquotes hs hs'
    | cast hop hx hquote hproper hnullable haccepts =>
      exact agrees_cast hhost hop (ih _ List.mem_cons_self hx) hquote hproper hnullable haccepts

end Expr

end ExprTree
