import ExprTree.Bodies
import ExprTree.Canon.Simplify
import ExprTree.Proofs.QuoteFree
import ExprTree.Proofs.Scopes
import ExprTree.Proofs.ShortCircuits
import ExprTree.Proofs.Specialisation

/-!
# Simplification keeps what trees come to

Simplification leaves out operands of `&&`, `||` and conditionals. What they would have failed with is
gone, and so is what they would have done, but where a tree comes to a value the simplified tree comes
to the same one.

Two things can go wrong. A reduction does not ask whether the operator is implemented by a method, and
it looks at a constant through casts that need not leave it alone: a cast can be implemented by a method
as well, and `true as string` is null. So the theorem asks of every reduction that it is one of a
built-in operator, and that the operand that decides it comes to the constant that it is taken for.
Casts to `bool`, `bool?` and `object` that no method implements leave a truth value alone.

What a dropped operand would have done may be seen by host code that runs later. Worlds are therefore
compared up to what host code can tell apart. For host code that always answers alike, that is
nothing but the dispatch.

The theorem speaks of the tree before simplification, while a reduction looks at what has become of the
children below it. That the two fit is `Expr.Simplified.twins`: however the new identities fall, the
simplified children look the same to a reduction.

## Main definitions

* `Expr.Simplified`: what simplification makes of a tree, identities aside.
* `Reduction`, `Expr.reduction?`: what is left of a node, on account of which operand, and which one is
  dropped.
* `Expr.Throughout`: what holds wherever evaluation gets to.

## Main results

* `Expr.Simplified.twins`: two simplifications of a tree differ in nothing that a reduction looks at.
* `Expr.settles_of_plainCasts`: constants under plain casts are what they are taken for.
* `Expr.simplify_carries`: **a simplified tree comes to what the tree comes to**.
-/

set_option autoImplicit false

namespace ExprTree

open EvalM

namespace Expr

/-! ### What simplification makes of a tree -/

/-- The second tree is the first one simplified: its children are, and then it is reduced. -/
inductive Simplified : Expr → Expr → Prop
  | node {e e₁ : Expr} (n : NodeId) (news : List Expr) (h : List.Forall₂ Simplified e.children news)
      (he₁ : e₁ = e.rebuild n news) : Simplified e (e₁.reduced?.getD e₁)

/-- Simplification, in any monad. -/
theorem from_simplify {m : Type → Type} [Monad m] [MonadMint m] [LawfulMonad m] (V : StateView m)
    {s : V.State} (hs : V.Inv s) (e : Expr) :
    V.From s e.simplify fun _ r => Simplified e (r.on e) := by
  refine StateView.from_rewrite_after (T := fun _ => Simplified) (fun _ _ _ h => h) ?_ e hs
  rintro e s r - ⟨n, news, hr, hnews⟩
  have reduced := Simplified.node n news hnews hr
  unfold reduce
  cases hside : (r.on e).reduced? with
  | none =>
    rw [hside] at reduced
    exact .pure reduced
  | some side =>
    rw [hside] at reduced
    exact .pure reduced

/-- A tree, simplified. The identities of new nodes start with the first one. -/
def simplified (e : Expr) : Expr := (e.simplify (m := StateM Supply) {}).1.on e

theorem simplified_simplified (e : Expr) : Simplified e e.simplified :=
  (from_simplify supplyView trivial e).2

variable {e e' e'' : Expr}

theorem reduced?_ty {side : Expr} (h : e.reduced? = some side) : side.ty = e.ty := by
  unfold reduced? at h
  simpa using (Option.filter_eq_some_iff.1 h).2

/-- The parts of a simplified tree. -/
theorem Simplified.exists_parallel (h : Simplified e e') :
    ∃ e₁, Parallel Simplified (SameParams Simplified) e e₁ ∧ e' = e₁.reduced?.getD e₁ := by
  cases h with
  | node n news h he₁ =>
    subst he₁
    exact ⟨_, parallel_rebuild n h, rfl⟩

theorem Simplified.ty_eq (h : Simplified e e') : e.ty = e'.ty := by
  obtain ⟨e₁, hparallel, rfl⟩ := h.exists_parallel
  cases hside : e₁.reduced? with
  | none => exact hparallel.ty_eq
  | some side => exact hparallel.ty_eq.trans (reduced?_ty hside).symm

/-- A simplified lambda is a lambda. -/
theorem Simplified.of_lambda {s : Stamp} {ps : List Param} {b : Expr}
    (h : Simplified (.lambda s ps b) e') : ∃ s' b', e' = .lambda s' ps b' ∧ Simplified b b' := by
  obtain ⟨e₁, hparallel, rfl⟩ := h.exists_parallel
  cases hparallel with
  | lambda hb =>
    obtain ⟨rfl, hb⟩ := hb
    exact ⟨_, _, rfl, hb⟩

/-! ### Reductions -/

theorem decidedSide?_shortCircuit {op : BinaryOp} {unit : Bool} (hop : op.unit? = some unit)
    (s : Stamp) (lifting : Lifting) (method : Option MethodDef) (l r : Expr) (c : Option Expr) :
    (binary s op lifting method l r c).decidedSide? =
      if l.isBool unit then some r
      else if l.isBool (!unit) then some l
      else if r.isBool unit then some l
      else if r.isBool (!unit) then some r
      else none := by
  cases op <;> cases hop <;> rfl

theorem decidedSide?_eq_none {op : BinaryOp} (hop : op.unit? = none) (s : Stamp)
    (lifting : Lifting) (method : Option MethodDef) (l r : Expr) (c : Option Expr) :
    (binary s op lifting method l r c).decidedSide? = none := by
  cases op <;> first | rfl | cases hop

section Twins

variable {host : Host} {d : Dispatch} {W : World → World → Prop} {a a' : Expr}
  {B : List Param → List Param → Expr → Expr → Prop}

/-- Two trees that a reduction cannot tell apart, and if a constant is seen in them, what the first
comes to the second comes to as well. -/
structure Twins (host : Host) (W : World → World → Prop) (a a' : Expr) : Prop where
  ty : a.ty = a'.ty
  isBool : ∀ b, a.isBool b = a'.isBool b
  carries : ∀ b, a.isBool b = true → ∀ frame,
    Carries host W (a.interpret .native frame) (a'.interpret .native frame)

/-- Nodes that are alike over twins are twins. -/
theorem Twins.of_parallel (hreflector : Reflector.native.Respects host W Eq)
    (h : Parallel (Twins host W) B a a') : Twins host W a a' := by
  have cast {n n' : NodeId} {t : Ty} (op : UnaryOp) (lifted : Bool) (method : Option MethodDef)
      {x x' : Expr} (hx : Twins host W x x') {b : Bool} (hb : x.isBool b = true) (frame : Frame) :
      Carries host W ((unary ⟨n, t⟩ op lifted method x).interpret .native frame)
        ((unary ⟨n', t⟩ op lifted method x').interpret .native frame) := by
    have nodes : Parallel (fun c c' => c.ty = c'.ty ∧
        Carries host W (c.interpret .native frame) (c'.interpret .native frame)) (fun _ _ _ _ => True)
        (unary ⟨n, t⟩ op lifted method x) (unary ⟨n', t⟩ op lifted method x') :=
      .unary op lifted method ⟨hx.ty, hx.carries b hb frame⟩
    exact interpret_carries hreflector nodes
      (nodes.typesCarry fun c _ c' hc => hc.1 ▸ .refl c.ty) rfl (fun _ _ => rfl)
      (fun _ _ _ hc => hc.2) fun heq => nomatch heq
  refine ⟨h.ty_eq, fun b => ?_, fun b hb frame => ?_⟩
  · cases h with
    | unary op lifted method hx => cases op <;> first | exact hx.isBool b | rfl
    | _ => rfl
  · cases h with
    | constant s v =>
      rw [interpret_eq _ _ rfl]
      exact .located_left _ (.located_right _ (.pure v))
    | unary op lifted method hx =>
      cases op with
      | convert | typeAs => exact cast _ lifted method hx (b := b) hb frame
      | _ => cases hb
    | _ => cases hb

/-- Reductions of twins are twins. -/
theorem Twins.reduced? (h : Parallel (Twins host W) B a a') :
    Option.Rel (Twins host W) a.reduced? a'.reduced? := by
  have decided : Option.Rel (Twins host W) a.decidedSide? a'.decidedSide? := by
    cases h with
    | binary op lifting method hl hr hc =>
      cases hop : op.unit? with
      | none =>
        rw [decidedSide?_eq_none hop, decidedSide?_eq_none hop]
        exact .none
      | some unit =>
        rw [decidedSide?_shortCircuit hop, decidedSide?_shortCircuit hop, ← hl.isBool, ← hl.isBool,
          ← hr.isBool, ← hr.isBool]
        split_ifs <;> first | exact .some hl | exact .some hr | exact .none
    | conditional ht hx hy =>
      simp only [decidedSide?, ← ht.isBool]
      split_ifs <;> first | exact .some hx | exact .some hy | exact .none
    | _ => exact .none
  unfold Expr.reduced?
  generalize a.decidedSide? = side at decided
  generalize a'.decidedSide? = side' at decided
  cases decided with
  | none => exact .none
  | some hside =>
    rw [Option.filter_some, Option.filter_some, hside.ty, h.ty_eq]
    split
    · exact .some hside
    · exact .none

/-- Two simplifications of a tree are twins. -/
theorem Simplified.twins (hreflector : Reflector.native.Respects host W Eq) (h : Simplified e e')
    (h' : Simplified e e'') : Twins host W e' e'' := by
  induction e using induction_children generalizing e' e'' with
  | step e ih =>
    obtain ⟨e₁, h₁, rfl⟩ := h.exists_parallel
    obtain ⟨e₂, h₂, rfl⟩ := h'.exists_parallel
    have children : Parallel (fun c c' => c ∈ e.children ∧ Simplified c c') (fun _ _ _ _ => True)
        e e₁ :=
      h₁.imp_of_mem (fun c hc _ _ hcc => ⟨hc, hcc⟩) fun _ _ _ _ _ _ _ => trivial
    have nodes : Parallel (Twins host W) (fun _ _ _ _ => True) e₁ e₂ :=
      (children.flip.comp h₂).imp_of_mem (fun _ _ _ _ ⟨c, ⟨hc, hcc⟩, hcc'⟩ => ih c hc hcc hcc')
        fun _ _ _ _ _ _ _ => trivial
    have sides := Twins.reduced? nodes
    generalize e₁.reduced? = side at sides
    generalize e₂.reduced? = side' at sides
    cases sides with
    | none => exact .of_parallel hreflector nodes
    | some h => exact h

end Twins

/-! ### Where reductions are sound -/

end Expr

/-- A reduction of a node: the operand that decides it and the truth value that it is taken for, the
operand that is left, and one that was evaluated and is not any more. -/
structure Reduction where
  decider : Expr
  truth : Bool
  kept : Expr
  dropped : Option Expr

namespace Expr

/-- How a node is reduced once its children are simplified. -/
def reduction? : Expr → Option Reduction
  | binary s op _ _ l r _ =>
    (op.unit?.bind fun unit =>
      if l.simplified.isBool unit then some ⟨l, unit, r, some l⟩
      else if l.simplified.isBool (!unit) then some ⟨l, !unit, l, none⟩
      else if r.simplified.isBool unit then some ⟨r, unit, l, some r⟩
      else if r.simplified.isBool (!unit) then some ⟨r, !unit, r, some l⟩
      else none).filter fun ρ => ρ.kept.ty = s.ty
  | conditional s t x y =>
    (if t.simplified.isBool true then some ⟨t, true, x, some t⟩
      else if t.simplified.isBool false then some ⟨t, false, y, some t⟩
      else none : Option Reduction).filter fun ρ => ρ.kept.ty = s.ty
  | _ => none

/-- A reduction of the node is one of a built-in operator, and the operand that decides comes to the
constant that it is taken for. -/
def ReducesSoundly (host : Host) (W : World → World → Prop) (e : Expr) : Prop :=
  ∀ ρ ∈ e.reduction?, e.overload? = none ∧
    ∀ frame, Settles host W (ρ.decider.simplified.interpret .native frame) (.bool ρ.truth)

/-- Whether the casts around a constant leave truth values alone: none is implemented by a method, and
the type of each holds truth values. -/
def plainCasts : Expr → Bool
  | unary s .convert _ method operand | unary s .typeAs _ method operand =>
    method.isNone && s.ty.accepts .bool && operand.plainCasts
  | _ => true

/-- What holds of the nodes and frames that evaluation may get to. -/
def Throughout (host : Host) (d : Dispatch) (frame : Frame) (e : Expr)
    (P : Expr → Frame → Prop) : Prop :=
  ∀ x frame', Visits host d e frame x frame' → P x frame'

/-- The operands of `&&` and `||` come to truth values or null. -/
def LogicalAt (host : Host) (d : Dispatch) : Expr → Frame → Prop
  | binary _ op _ _ l r _, frame => op = .andAlso ∨ op = .orElse →
    ∀ x ∈ [l, r], ∀ v, Comes host d frame x v → v.IsTruth
  | _, _ => True

/-- Host code cannot tell that the operand was run that a reduction of the node drops. -/
def DropsUnseen (host : Host) (W : World → World → Prop) (e : Expr) (frame : Frame) : Prop :=
  ∀ ρ ∈ e.reduction?, ∀ c ∈ ρ.dropped, Unseen host W (c.interpret .native frame)

section

variable {host : Host} {d : Dispatch} {W : World → World → Prop} {frame : Frame} {e e' c : Expr}
  {P : Expr → Frame → Prop}

theorem Throughout.here (h : Throughout host d frame e P) : P e frame := h e frame (.here e frame)

theorem Throughout.operand (h : Throughout host d frame e P) (hlambda : e.lambda? = none)
    (hc : c ∈ e.operands) : Throughout host d frame c P :=
  fun x frame' hx => h x frame' (.operand hlambda hc hx)

theorem Throughout.conversion {s s' : Stamp} {lifting : Lifting} {l r b : Expr} {p : Param} {v : Value}
    (h : Throughout host d frame (.binary s .coalesce lifting none l r (some (.lambda s' [p] b))) P)
    (hv : Comes host d frame l v) (hnull : v.isNull = false) :
    Throughout host d ((p.id, v) :: frame) b P :=
  fun x frame' hx => h x frame' (.conversion hv hnull hx)

theorem throughout_of_operands (hconversion : e.conversion? = none) (here : P e frame)
    (operands : ∀ c ∈ e.operands, Throughout host d frame c P) : Throughout host d frame e P := by
  intro x frame' hx
  cases hx with
  | here => exact here
  | operand _ hc hx => exact operands _ hc x frame' hx
  | conversion => cases hconversion

/-- A constant under plain casts is what it is taken for. -/
theorem settles_of_plainCasts {b : Bool} (hplain : e.plainCasts = true) (hb : e.isBool b = true)
    (frame : Frame) : Settles host W (e.interpret .native frame) (.bool b) := by
  intro w hw
  refine ⟨w, ?_, hw⟩
  induction e using plainCasts.induct with
  | case1 s lifted method operand ih | case2 s lifted method operand ih =>
    simp only [plainCasts, Bool.and_eq_true, Option.isNone_iff_eq_none] at hplain
    obtain ⟨⟨rfl, haccepts⟩, hplain⟩ := hplain
    rw [interpret_eq _ _ rfl, outcome_located_ok]
    refine outcome_bind_ok.2 ⟨_, w, ih hplain hb, ?_⟩
    simp only [Step.applyUnary_bool (.inl rfl) lifted _ haccepts,
      Step.applyUnary_bool (.inr rfl) lifted _ haccepts]
    rfl
  | case3 e hconvert htypeAs =>
    cases e with
    | constant s v =>
      obtain rfl : v = .bool b := by
        have hv : (v == .bool b) = true := hb
        rw [Value.beq_bool, decide_eq_true_eq] at hv
        exact Value.bool?_eq_some_iff.1 hv
      rw [interpret_eq _ _ rfl]
      rfl
    | unary s op lifted method x =>
      cases op with
      | convert => exact (hconvert _ _ _ _ rfl).elim
      | typeAs => exact (htypeAs _ _ _ _ rfl).elim
      | _ => cases hb
    | _ => cases hb

/-- Where host code always answers alike, it can tell of nothing that was run. -/
theorem unseen_of_isFunctional (hhost : host.IsFunctional) (e : Expr) (frame : Frame) :
    Unseen host (World.Dispatching d) (e.interpret .native frame) :=
  fun w hw => ⟨hw.1, (interpret_self_of_respects (hhost.respects d) e frame w w hw).2.1⟩

/-- Where host code always answers alike, nothing that is dropped is missed. -/
theorem dropsUnseen_of_isFunctional (hhost : host.IsFunctional) (e : Expr) :
    Throughout host d frame e (DropsUnseen host (World.Dispatching d)) :=
  fun _ frame' _ _ _ c _ => unseen_of_isFunctional hhost c frame'

/-! ### What simplified trees come to -/

theorem mem_operands_of_reduced? {side : Expr} (h : e.reduced? = some side) : side ∈ e.operands := by
  have hside := (Option.filter_eq_some_iff.1 h).1
  cases e with
  | binary s op lifting method l r c =>
    cases hop : op.unit? with
    | none =>
      rw [decidedSide?_eq_none hop] at hside
      cases hside
    | some unit =>
      rw [decidedSide?_shortCircuit hop] at hside
      split_ifs at hside <;> cases hside <;> simp [operands]
  | conditional s t x y =>
    simp only [decidedSide?] at hside
    split_ifs at hside <;> cases hside <;> simp [operands, children]
  | _ => cases hside

/-- A simplified tree is no quote, if only conversions are lambdas. -/
theorem Simplified.lambda?_eq_none (h : Simplified e e') (he : e.onlyConversions = true) :
    e'.lambda? = none := by
  induction e using induction_children generalizing e' with
  | step e ih =>
    obtain ⟨e₁, hparallel, rfl⟩ := h.exists_parallel
    have hl := lambda?_of_onlyConversions he
    cases hside : e₁.reduced? with
    | none => simpa [hl] using hparallel.isSome_lambda?
    | some side =>
      refine forall_right_of_forall₂ (P := fun c => c.lambda? = none) (hparallel.operands hl)
        (fun c hc c' hcc => ?_) side (mem_operands_of_reduced? hside)
      exact ih c (mem_children_of_mem_operands hc) hcc (onlyConversions_operand he hc)

theorem comes_of_mayGive (hhost : host.Oblivious d W) {v : Value}
    (h : MayGive host W (e.interpret .native frame) v) : Comes host d frame e v := by
  obtain ⟨w, w', u, hw, hv⟩ := h
  exact ⟨w, (hhost.respects.dispatch hw).1, congrArg Prod.fst hv⟩

/-- Two simplifications of a tree are taken for the same constants. -/
theorem Simplified.isBool_eq (hhost : host.Oblivious d W) (h : Simplified e e') (b : Bool) :
    e'.isBool b = e.simplified.isBool b :=
  (h.twins (Reflector.native_respects Value.congruence_eq hhost.respects)
    (simplified_simplified e)).isBool b

/-- A constant that is seen in a simplified operand settles it, if it settles the operand simplified
once. -/
theorem Simplified.settles (hhost : host.Oblivious d W) (h : Simplified e e') {b : Bool}
    (hb : e.simplified.isBool b = true)
    (hsettles : ∀ frame, Settles host W (e.simplified.interpret .native frame) (.bool b)) :
    Settles host W (e'.interpret .native frame) (.bool b) := by
  have hreflector := Reflector.native_respects Value.congruence_eq hhost.respects
  have twins := (simplified_simplified e).twins hreflector h
  exact (twins.carries b hb frame).settles hhost (hsettles frame)

theorem reduction?_shortCircuit {op : BinaryOp} {unit : Bool} (hop : op.unit? = some unit) (s : Stamp)
    (lifting : Lifting) (method : Option MethodDef) (l r : Expr) (c : Option Expr) :
    (binary s op lifting method l r c).reduction? =
      (if l.simplified.isBool unit then some ⟨l, unit, r, some l⟩
        else if l.simplified.isBool (!unit) then some ⟨l, !unit, l, none⟩
        else if r.simplified.isBool unit then some ⟨r, unit, l, some r⟩
        else if r.simplified.isBool (!unit) then some ⟨r, !unit, r, some l⟩
        else none : Option Reduction).filter fun ρ => ρ.kept.ty = s.ty := by
  rw [reduction?, hop, Option.bind_some]

/-- A node whose children are simplified is reduced as the node is. -/
theorem exists_reduction (hhost : host.Oblivious d W) {e₁ side : Expr}
    (h : Parallel Simplified (SameParams Simplified) e e₁) (hside : e₁.reduced? = some side) :
    ∃ ρ ∈ e.reduction?, Simplified ρ.kept side := by
  have hty := (reduced?_ty hside).trans h.ty_eq.symm
  have hdecided := (Option.filter_eq_some_iff.1 hside).1
  have found {ρ : Reduction} {o : Option Reduction} (ho : o = some ρ)
      (hkept : Simplified ρ.kept side) :
      ∃ ρ ∈ o.filter fun ρ => ρ.kept.ty = e.ty, Simplified ρ.kept side :=
    ⟨ρ, Option.mem_filter_iff.2 ⟨ho, decide_eq_true (hkept.ty_eq.trans hty)⟩, hkept⟩
  cases h with
  | binary op lifting method hl hr hc =>
    cases hop : op.unit? with
    | none =>
      rw [decidedSide?_eq_none hop] at hdecided
      cases hdecided
    | some unit =>
      rw [decidedSide?_shortCircuit hop, hl.isBool_eq hhost, hl.isBool_eq hhost, hr.isBool_eq hhost,
        hr.isBool_eq hhost] at hdecided
      rw [reduction?_shortCircuit hop]
      split_ifs at hdecided with hover hdecides hover' hdecides' <;> cases hdecided
      · exact found (if_pos hover) hr
      · exact found (by rw [if_neg hover, if_pos hdecides]) hl
      · exact found (by rw [if_neg hover, if_neg hdecides, if_pos hover']) hl
      · exact found (by rw [if_neg hover, if_neg hdecides, if_neg hover', if_pos hdecides']) hr
  | conditional ht hx hy =>
    simp only [decidedSide?, ht.isBool_eq hhost] at hdecided
    split_ifs at hdecided with htrue hfalse <;> cases hdecided
    · exact found (if_pos htrue) hx
    · exact found (by rw [if_neg htrue, if_pos hfalse]) hy
  | _ => cases hdecided

theorem interpret_shortCircuit (reflector : Reflector) {s : Stamp} {op : BinaryOp} {unit : Bool}
    (hop : op.unit? = some unit) (lifting : Lifting) (l r : Expr) (c : Option Expr) :
    (binary s op lifting none l r c).interpret reflector frame =
      .located (binary s op lifting none l r c)
        (Step.shortCircuit unit (l.interpret reflector frame) (r.interpret reflector frame)) := by
  rw [interpret_eq _ _ rfl]
  cases op <;> cases hop
  · exact congrArg _ (Step.andAlso_eq_shortCircuit _ _)
  · exact congrArg _ (Step.orElse_eq_shortCircuit _ _)

/-- A node that is reduced. The operands are known to come to what they come to when simplified, in
whatever way: the operand that is left as it is in the result, and the one that decides as `simplified`
has it. -/
theorem carries_reduced (hhost : host.Oblivious d W) {ρ : Reduction} (hρ : ρ ∈ e.reduction?)
    {side : Expr} (hkept : Simplified ρ.kept side)
    (hoperands : ∀ c ∈ e.operands, ∀ c', Simplified c c' →
      Carries host W (c.interpret .native frame) (c'.interpret .native frame))
    (hsound : e.ReducesSoundly host W) (hlogical : LogicalAt host d e frame)
    (hunseen : DropsUnseen host W e frame) :
    Carries host W (e.interpret .native frame) (side.interpret .native frame) := by
  obtain ⟨hmethod, hsettles⟩ := hsound ρ hρ
  have hdropped := hunseen ρ hρ
  have decided (hdecider : ρ.decider ∈ e.operands) :
      GivesOnly host W (ρ.decider.interpret .native frame) (.bool ρ.truth) :=
    (hoperands _ hdecider _ (simplified_simplified _)).givesOnly hhost (hsettles frame)
  cases e with
  | binary s op lifting method l r c =>
    obtain rfl : method = none := hmethod
    cases hop : op.unit? with
    | none =>
      rw [reduction?, hop] at hρ
      cases hρ
    | some unit =>
      have hl : l ∈ (binary s op lifting none l r c).operands := List.mem_cons_self
      have hr : r ∈ (binary s op lifting none l r c).operands :=
        List.mem_cons_of_mem _ List.mem_cons_self
      rw [interpret_shortCircuit _ hop]
      refine .located_left _ ?_
      rw [reduction?_shortCircuit hop] at hρ
      have hcases := (Option.mem_filter_iff.1 hρ).1
      split_ifs at hcases with hover hdecides hover' hdecides' <;> cases hcases
      · exact shortCircuit_carries_right hhost (decided hl) (hdropped l rfl) (hoperands r hr _ hkept)
      · exact shortCircuit_carries_decider (decided hl) (hoperands l hl _ hkept)
      · refine shortCircuit_carries_left hhost (fun a ha => ?_) (decided hr) (hdropped r rfl)
          (hoperands l hl _ hkept)
        exact hlogical (BinaryOp.eq_of_unit? hop) l List.mem_cons_self a (comes_of_mayGive hhost ha)
      · exact shortCircuit_carries_decision hhost (hdropped l rfl) (hoperands r hr _ hkept)
          (hkept.settles hhost hdecides' hsettles)
  | conditional s t x y =>
    have ht : t ∈ (conditional s t x y).operands := List.mem_cons_self
    have hx : x ∈ (conditional s t x y).operands := List.mem_cons_of_mem _ List.mem_cons_self
    have hy : y ∈ (conditional s t x y).operands :=
      List.mem_cons_of_mem _ (List.mem_cons_of_mem _ List.mem_cons_self)
    rw [interpret_eq _ _ rfl]
    refine .located_left _ ?_
    have hcases := (Option.mem_filter_iff.1 hρ).1
    split_ifs at hcases with htrue hfalse <;> cases hcases
    · exact conditional_carries_branch hhost t.ty (b := true) (decided ht) (hdropped t rfl)
        (hoperands x hx _ hkept)
    · exact conditional_carries_branch hhost t.ty (b := false) (decided ht) (hdropped t rfl)
        (hoperands y hy _ hkept)
  | _ => cases hρ

/-- A node that is not reduced. -/
theorem carries_rebuilt (hhost : host.Oblivious d W) {e₁ : Expr}
    (h : Parallel Simplified (SameParams Simplified) e e₁) (he : e.onlyConversions = true)
    (hoperands : ∀ c ∈ e.operands, ∀ c', Simplified c c' →
      Carries host W (c.interpret .native frame) (c'.interpret .native frame))
    (hbodies : ∀ {s lifting l r s' p b b' v}, e = .binary s .coalesce lifting none l r
      (some (.lambda s' [p] b)) → Simplified b b' → Comes host d frame l v → v.isNull = false →
        Carries host W (b.interpret .native ((p.id, v) :: frame))
          (b'.interpret .native ((p.id, v) :: frame))) :
    Carries host W (e.interpret .native frame) (e₁.interpret .native frame) := by
  refine interpret_carries (Reflector.native_respects Value.congruence_eq hhost.respects) h
    (h.typesCarry fun c _ c' hcc => hcc.ty_eq ▸ .refl c.ty) (lambda?_of_onlyConversions he)
    (fun _ _ => rfl) hoperands ?_
  intro s lifting l r c heq v hv hnull
  have conversion := h.conversion?
  subst heq
  generalize e₁.conversion? = c' at conversion ⊢
  cases conversion with
  | none => exact .pure v
  | @some c c' hc =>
    change Carries host W (convertLeft .native frame (some c) v)
      (convertLeft .native frame (some c') v)
    cases hcl : c.lambda? with
    | none =>
      have hcl' := hc.lambda?_eq_none (onlyConversions_conversion he rfl hcl)
      simp only [convertLeft, Option.bind_some, hcl, hcl']
      exact .pure v
    | some l =>
      obtain ⟨ps, b⟩ := l
      obtain ⟨s', rfl⟩ := eq_of_lambda? hcl
      obtain ⟨s'', b', rfl, hb⟩ := hc.of_lambda
      simp only [convertLeft, Option.bind_some, lambda?]
      split
      · next hone =>
        obtain ⟨p, rfl⟩ := List.length_eq_one_iff.1 hone
        exact hbodies rfl hb (comes_of_mayGive hhost hv) hnull
      · exact .throw _ _

/-- A simplified tree comes to what the tree comes to. -/
theorem Simplified.carries (hhost : host.Oblivious d W) (h : Simplified e e')
    (he : e.onlyConversions = true) (hsound : ∀ x ∈ e.preOrder, x.ReducesSoundly host W)
    (hlogical : Throughout host d frame e (LogicalAt host d))
    (hunseen : Throughout host d frame e (DropsUnseen host W)) :
    Carries host W (e.interpret .native frame) (e'.interpret .native frame) := by
  induction e using induction_preOrder generalizing e' frame with
  | step e ih =>
    have hlambda := lambda?_of_onlyConversions he
    have below {c x : Expr} (hc : c ∈ e.children) (hx : x ∈ c.preOrder) :
        ∀ y ∈ x.preOrder, y.ReducesSoundly host W := fun y hy =>
      hsound y (mem_preOrder_trans (mem_preOrder_of_mem_children hc) (mem_preOrder_trans hx hy))
    have operand (c : Expr) (hc : c ∈ e.operands) (c' : Expr) (hcc : Simplified c c') :
        Carries host W (c.interpret .native frame) (c'.interpret .native frame) := by
      have hchild := mem_children_of_mem_operands hc
      exact ih c hchild c (mem_preOrder_self c) hcc (onlyConversions_operand he hc)
        (below hchild (mem_preOrder_self c)) (hlogical.operand hlambda hc) (hunseen.operand hlambda hc)
    obtain ⟨e₁, hparallel, rfl⟩ := h.exists_parallel
    cases hside : e₁.reduced? with
    | none =>
      refine carries_rebuilt hhost hparallel he operand ?_
      rintro s lifting l r s' p b b' v rfl hb hv hnull
      have hchild : lambda s' [p] b ∈
          (binary s .coalesce lifting none l r (some (lambda s' [p] b))).children :=
        mem_children_of_mem_conversion? rfl
      have hbody : b ∈ (lambda s' [p] b).preOrder := mem_preOrder_of_mem_children List.mem_cons_self
      exact ih _ hchild b hbody hb (onlyConversions_body he rfl) (below hchild hbody)
        (hlogical.conversion hv hnull) (hunseen.conversion hv hnull)
    | some side =>
      obtain ⟨ρ, hρ, hkept⟩ := exists_reduction hhost hparallel hside
      exact carries_reduced hhost hρ hkept operand (hsound e (mem_preOrder_self e)) hlogical.here
        hunseen.here

end

/-- **A simplified tree comes to what the tree comes to.** Take a tree with no lambdas but conversions,
in which every reduction is one of a built-in operator, decided by an operand that comes to the
constant that it is taken for. Simplifying it changes nothing but the supply of identities. In every
frame in which `&&` and `||` get nothing but truth values and null wherever evaluation gets to, what the
tree comes to the simplified tree comes to as well, from every world that host code cannot tell from the
first, as long as it cannot tell either whether the dropped operands were run. Of host code that always
answers alike the last is true already. -/
theorem simplify_carries {host : Host} {d : Dispatch} {W : World → World → Prop}
    (hhost : host.Oblivious d W) (e : Expr) (w₀ : World) (hquotes : e.onlyConversions = true)
    (hsound : ∀ x ∈ e.preOrder, x.ReducesSoundly host W) :
    let (r, w₁) := e.simplify (m := WorldM) w₀
    (∃ supply, w₁ = { w₀ with supply }) ∧
    ∀ frame, Throughout host d frame e (LogicalAt host d) →
      Throughout host d frame e (DropsUnseen host W) →
      ∀ w w' v u, W w w' → (e.interpret .native frame).outcome host w = (.ok v, u) →
        ∃ u', ((r.on e).interpret .native frame).outcome host w' = (.ok v, u') ∧ W u u' := by
  obtain ⟨minted, simplified⟩ := from_simplify mintingView (s := w₀) trivial e
  exact ⟨minted, fun frame hlogical hunseen =>
    simplified.carries hhost hquotes hsound hlogical hunseen⟩

/-- The theorem for `x && (bool?)true` where `x` is null: the variable is left, and it is null as
well. -/
theorem simplify_carries_variable :
    let x : Param := ⟨0, 0, "x", .nullable .bool⟩
    let cast : Expr :=
      .unary ⟨2, .nullable .bool⟩ .convert true none (.constant ⟨1, .bool⟩ (.bool true))
    let e : Expr := .binary ⟨3, .nullable .bool⟩ .andAlso { lifted := true, toNull := true } none
      (.parameter x) cast none
    let host : Host := ⟨fun _ => none⟩
    let (r, w₁) := e.simplify (m := WorldM) {}
    e.reduction? = some ⟨cast, true, .parameter x, some cast⟩ ∧ r.on e = .parameter x ∧
      (((r.on e).interpret .native [(x.id, .null)]).outcome host w₁).1 = .ok .null := by
  intro x cast e host
  have hhost : host.IsFunctional := Host.IsPure.isFunctional fun _ _ h => nomatch h
  have reduced : e.reduction? = some ⟨cast, true, .parameter x, some cast⟩ := rfl
  have sound : ∀ y ∈ e.preOrder, y.ReducesSoundly host (World.Dispatching (World.dispatch {})) := by
    intro y hy ρ hρ
    change y ∈ [e, .parameter x, cast, .constant ⟨1, .bool⟩ (.bool true)] at hy
    simp only [List.mem_cons, List.not_mem_nil, or_false] at hy
    rcases hy with rfl | rfl | rfl | rfl
    · obtain rfl : ⟨cast, true, .parameter x, some cast⟩ = ρ := Option.some.inj (reduced ▸ hρ)
      exact ⟨rfl, settles_of_plainCasts rfl rfl⟩
    all_goals cases hρ
  have variable_truth (v : Value)
      (hv : Comes host (World.dispatch {}) [(x.id, .null)] (.parameter x) v) : v.IsTruth := by
    obtain ⟨w, -, hv⟩ := hv
    cases hv
    exact .inl rfl
  have cast_truth (v : Value) (hv : Comes host (World.dispatch {}) [(x.id, .null)] cast v) :
      v.IsTruth := by
    obtain ⟨w, -, hv⟩ := hv
    obtain ⟨u, hu, -⟩ := settles_of_plainCasts (W := Eq) (e := cast) (b := true) rfl rfl _ w rfl
    rw [hu] at hv
    cases hv
    exact .inr ⟨true, rfl⟩
  have leaf {y : Expr} (hconversion : y.conversion? = none) (hy : y.operands = [])
      (here : LogicalAt host (World.dispatch {}) y [(x.id, .null)]) :
      Throughout host (World.dispatch {}) [(x.id, .null)] y (LogicalAt host (World.dispatch {})) :=
    throughout_of_operands hconversion here fun c hc => by rw [hy] at hc; cases hc
  have logical : Throughout host (World.dispatch {}) [(x.id, .null)] e
      (LogicalAt host (World.dispatch {})) :=
    throughout_of_operands rfl
      (fun _ => List.forall_mem_cons.2 ⟨variable_truth, List.forall_mem_singleton.2 cast_truth⟩)
      (List.forall_mem_cons.2 ⟨leaf rfl rfl trivial, List.forall_mem_singleton.2
        (throughout_of_operands rfl trivial (List.forall_mem_singleton.2 (leaf rfl rfl trivial)))⟩)
  obtain ⟨⟨supply, hsupply⟩, carries⟩ := simplify_carries (hhost.oblivious (World.dispatch {})) e {}
    rfl sound
  have hw : World.Dispatching (World.dispatch {}) {} (e.simplify (m := WorldM) {}).2 := by
    refine ⟨rfl, ?_⟩
    rw [hsupply]
    rfl
  obtain ⟨u, hu, -⟩ := carries _ logical (dropsUnseen_of_isFunctional hhost e) _ _ .null {} hw rfl
  exact ⟨reduced, rfl, congrArg Prod.fst hu⟩

/-- Overloaded operators are reduced all the same: `true && true` is simplified to `true`, even where the
method behind the operator answers false. -/
theorem simplify_carries_overload :
    let truth (n : NodeId) : Expr := .constant ⟨n, .bool⟩ (.bool true)
    let m : MethodDef := ⟨0, "op_And", [.bool, .bool], .bool, { isStatic := true }, [], none⟩
    let e : Expr := .binary ⟨2, .bool⟩ .andAlso {} (some m) (truth 0) (truth 1) none
    let host : Host := ⟨fun _ => some (HostBody.constant (.bool false))⟩
    let (r, w₁) := e.simplify (m := WorldM) {}
    e.onlyConversions = true ∧
      ((e.interpret .native []).outcome host {}).1 = .ok (.bool false) ∧
      (((r.on e).interpret .native []).outcome host w₁).1 = .ok (.bool true) := by
  exact ⟨rfl, rfl, rfl⟩

/-- Nor is it asked what a cast makes of a constant: `(bool?)(true as string) && (bool?)true` is
simplified to `(bool?)true`, although the left operand is null, and so is the node. -/
example :
    let truth (n : NodeId) : Expr := .constant ⟨n, .bool⟩ (.bool true)
    let lost : Expr :=
      .unary ⟨2, .nullable .bool⟩ .convert true none (.unary ⟨1, .str⟩ .typeAs false none (truth 0))
    let kept : Expr := .unary ⟨4, .nullable .bool⟩ .convert true none (truth 3)
    let e : Expr :=
      .binary ⟨5, .nullable .bool⟩ .andAlso { lifted := true, toNull := true } none lost kept none
    ((e.interpret .native []).outcome ⟨fun _ => none⟩ {}).1 = .ok .null ∧
      (e.simplify (m := WorldM) {}).1.on e = kept := by
  exact ⟨rfl, rfl⟩

end Expr

end ExprTree
