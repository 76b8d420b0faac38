import ExprTree.Proofs.Compilation
import ExprTree.Proofs.QuoteFree
import ExprTree.Proofs.Quotes

/-!
# Quotes are closures

Compiled code that reaches a lambda node quotes it with what the node refers to put in as constants:
the arguments of the call and the values that the conversions around the node were applied to. The
quote is a closure of the node. It refers to nothing outside itself, and calling it does what the
body of the node does where the node was reached.

The node is rewritten twice on the way, once into reads of the argument array and once by capture.
`Expr.Closes` is what the two rewrites come to: constants stand in the place of the parameters that
the surroundings bind, under the types that the parameters are declared with, and nothing else has
changed. Both properties of quotes are proved from it by one induction over the tree each.

Where a call gets to is said by `Expr.Reached`. It leaves open which values the conversions are
applied to, and which operands are skipped, so what holds wherever a node is reached holds for every
call.

## Main definitions

* `Lambda.interpretIn`: a lambda as a function of its arguments, with what is around it bound.
* `Expr.Reached`: where the code of a body gets to.
* `Expr.fitsDeclarations`: occurrences of parameters have the types of their declarations.
* `Expr.Closes`: a tree with constants in the place of what a frame binds.

## Main results

* `Expr.Closes.freeOccurrences_eq_nil`: no parameters are left that the frame binds.
* `Expr.Closes.interpret_agrees`: the tree does what it did in the frame.
* `Lambda.compile_quotes`: **quotes are closures**.
-/

set_option autoImplicit false

namespace ExprTree

open EvalM ArgumentArray

/-- A lambda as a function that interprets its body, in a frame that binds what is around it. -/
def Lambda.interpretIn (l : Lambda) (reflector : Reflector) (outer : Frame) : Callable := fun args =>
  if args.length = l.params.length then l.body.interpret reflector (outer.bind l.params args)
  else throw (.argumentCount l.params.length args.length)

/-! ### Frames around a tree -/

/-- In `frame` is bound what is bound in `outer`, and the rest as in `inner`. -/
structure Frame.Within (outer inner frame : Frame) : Prop where
  bound : ∀ id v, outer.get? id = some v → frame.get? id = some v
  free : ∀ id, outer.get? id = none → frame.get? id = inner.get? id

namespace Frame.Within

variable {outer inner frame : Frame}

theorem root (outer : Frame) : Frame.Within outer [] outer where
  bound _ _ h := h
  free _ h := h

/-- Parameters that are not bound around the tree are bound on both sides. -/
theorem bind (h : Frame.Within outer inner frame) {ps : List Param}
    (hps : ∀ p ∈ ps, outer.get? p.id = none) (vs : List Value) :
    Frame.Within outer (inner.bind ps vs) (frame.bind ps vs) := by
  have hpairs : ∀ pv ∈ ps.zip vs, outer.get? pv.1.id = none :=
    fun pv hpv => hps pv.1 (List.of_mem_zip hpv).1
  unfold Frame.bind
  revert hpairs
  induction ps.zip vs generalizing inner frame with
  | nil => exact fun _ => h
  | cons pv pairs ih =>
    intro hpairs
    rw [List.forall_mem_cons] at hpairs
    refine ih ⟨fun id v hv => ?_, fun id hid => ?_⟩ hpairs.2
    · have hne : id ≠ pv.1.id := by
        rintro rfl
        rw [hpairs.1] at hv
        cases hv
      rw [Frame.get?_cons_of_ne hne, h.bound id v hv]
    · by_cases heq : id = pv.1.id
      · rw [heq, Frame.get?_cons_self, Frame.get?_cons_self]
      · rw [Frame.get?_cons_of_ne heq, Frame.get?_cons_of_ne heq, h.free id hid]

end Frame.Within

namespace Expr

/-! ### Closed trees -/

/-- The second tree is the first with constants in the place of the parameters that the frame binds.
Other nodes are alike. -/
def Closes (outer : Frame) : Expr → Expr → Prop :=
  fold fun e below r =>
    match e with
    | parameter p =>
      match outer.get? p.id with
      | some v => ∃ n, r = .constant ⟨n, p.ty⟩ v
      | none => r = .parameter p
    | e => ∃ n news, r = e.rebuild n news ∧ List.Forall₂ (fun P c => P c) (below ()) news

variable {outer inner frame : Frame} {e r : Expr}

theorem closes_parameter {p : Param} :
    Closes outer (.parameter p) r ↔
      match outer.get? p.id with
      | some v => ∃ n, r = .constant ⟨n, p.ty⟩ v
      | none => r = .parameter p := by
  rw [Closes, fold_eq]

theorem closes_node (h : e.parameter? = none) :
    Closes outer e r ↔ Parallel (Closes outer) (SameParams (Closes outer)) e r := by
  have unfolded : Closes outer e r ↔
      ∃ n news, r = e.rebuild n news ∧ List.Forall₂ (Closes outer) e.children news := by
    rw [Closes, fold_eq]
    split
    · cases h
    · simp only [List.forall₂_map_left_iff]
  rw [unfolded]
  exact ⟨fun ⟨n, _, hr, h⟩ => hr ▸ parallel_rebuild n h, Parallel.exists_rebuild⟩

theorem Closes.ty_eq (h : Closes outer e r) : e.ty = r.ty := by
  cases hp : e.parameter? with
  | none => exact ((closes_node hp).1 h).ty_eq
  | some p =>
    obtain rfl := eq_of_parameter? hp
    rw [closes_parameter] at h
    split at h
    · obtain ⟨n, rfl⟩ := h
      rfl
    · rw [h]

/-- No parameters are left that the frame binds. -/
theorem Closes.freeOccurrences_eq_nil {bound kept : List ParamId} (h : Closes outer e r)
    (hfree : e.freeOccurrences bound = [])
    (hbound : ∀ id ∈ bound, id ∈ kept ∨ outer.get? id ≠ none) : r.freeOccurrences kept = [] := by
  induction e using induction_children generalizing r bound kept with
  | step e ih =>
    cases hp : e.parameter? with
    | some p =>
      obtain rfl := eq_of_parameter? hp
      rw [closes_parameter] at h
      split at h
      · obtain ⟨n, rfl⟩ := h
        rw [freeOccurrences_eq]
        rfl
      · next hnone =>
        have hmem := mem_bound_of_parameter hfree
        rw [h, freeOccurrences_eq]
        exact if_pos ((hbound p.id hmem).resolve_right (not_not.2 hnone))
    | none =>
      have hparallel := (closes_node hp).1 h
      have hp' : r.parameter? = none := by cases hparallel <;> first | rfl | cases hp
      have below_eq : r.boundBelow kept = e.declaredAt ++ kept := by
        cases hparallel with
        | lambda hb => rw [boundBelow_eq, ← hb.1]; rfl
        | _ => rfl
      have hbelow : ∀ id ∈ e.boundBelow bound, id ∈ r.boundBelow kept ∨ outer.get? id ≠ none := by
        rw [below_eq, boundBelow_eq]
        intro id hid
        rcases List.mem_append.1 hid with hid | hid
        · exact .inl (List.mem_append_left _ hid)
        · exact (hbound id hid).imp_left (List.mem_append_right _)
      have children : ∀ d ∈ r.children, d.freeOccurrences (r.boundBelow kept) = [] :=
        forall_right_of_forall₂ (hparallel.children fun _ _ _ _ hb => hb.2) fun c hc d hcd =>
          ih c hc hcd (freeOccurrences_children hfree c hc) hbelow
      rw [freeOccurrences_eq]
      split
      · cases hp'
      · exact List.flatMap_eq_nil_iff.2 children

/-- The tree does without the frame what it did in it, if it declares nothing that the frame binds.
A conversion does so where it is applied. Quotes are left out, as the two sides quote other trees. -/
theorem Closes.agrees {reflector : Reflector} {host : Host} (h : Closes outer e r)
    (hquotes : e.noLambdaOperands = true) (hfresh : ∀ id ∈ e.declaredIds, outer.get? id = none)
    (hwithin : Frame.Within outer inner frame) :
    (e.lambda? = none →
      Simulates host Eq Eq (e.interpret reflector frame) (r.interpret reflector inner)) ∧
    ConversionRel (ConversionsAgree host Eq Eq reflector frame inner) e r := by
  induction e using induction_children generalizing r inner frame with
  | step e ih =>
    obtain ⟨hoperands, hchildren⟩ := noLambdaOperands_iff.1 hquotes
    have hfresh' : ∀ c ∈ e.children, ∀ id ∈ c.declaredIds, outer.get? id = none := by
      intro c hc id hid
      refine hfresh id ?_
      rw [declaredIds_eq]
      exact List.mem_append_right _ (List.mem_flatMap.2 ⟨c, hc, hid⟩)
    cases hp : e.parameter? with
    | some p =>
      obtain rfl := eq_of_parameter? hp
      rw [closes_parameter] at h
      split at h
      · next v hv =>
        obtain ⟨n, rfl⟩ := h
        refine ⟨fun _ => ?_, .other rfl rfl⟩
        unfold interpret
        dsimp only
        rw [hwithin.bound p.id v hv]
        exact .located_left _ (.located_right _ (.pure rfl))
      · next hnone =>
        obtain rfl := h
        refine ⟨fun _ => ?_, .other rfl rfl⟩
        unfold interpret
        dsimp only
        rw [hwithin.free p.id hnone]
        exact .of_eq (fun _ => rfl) _
    | none =>
      have hparallel := (closes_node hp).1 h
      cases hl : e.lambda? with
      | some l =>
        refine ⟨fun hnone => (Option.some_ne_none l hnone).elim, ?_⟩
        cases hparallel with
        | @lambda n n' t ps ps' b b' hb =>
          obtain ⟨rfl, hb⟩ := hb
          have hmem : b ∈ (Expr.lambda ⟨n, t⟩ ps b).children := List.mem_cons_self
          refine .lambda ⟨rfl, ?_⟩
          rintro - v _ rfl
          have hps : ∀ p ∈ ps, outer.get? p.id = none := by
            intro p hp
            refine hfresh p.id ?_
            rw [declaredIds_eq]
            exact List.mem_append_left _ (List.mem_map_of_mem hp)
          exact (ih b hmem hb (hchildren b hmem) (hfresh' b hmem) (hwithin.bind hps [v])).1
            (hoperands b hmem)
        | _ => cases hl
      | none =>
        have hl' : r.lambda? = none := by cases hparallel <;> first | rfl | cases hl
        refine ⟨fun _ => ?_, .other hl hl'⟩
        refine interpret_simulates Value.congruence_eq (Reflector.respects_eq _ _) ?_ hparallel hl
          (fun p heq => ?_) (fun c hc c' hS => ?_) fun c hc c' hS => ?_
        · rintro op lifting v _ w _ rfl rfl
          exact .refl (fun _ => rfl) _
        · rw [heq] at hp
          cases hp
        · have hmem := mem_children_of_mem_operands hc
          have operand := ih c hmem hS (hchildren c hmem) (hfresh' c hmem) hwithin
          exact ⟨hS.ty_eq, operand.1 (hoperands c hc)⟩
        · have hmem := mem_children_of_mem_conversion? hc
          exact (ih c hmem hS (hchildren c hmem) (hfresh' c hmem) hwithin).2

/-! ### Occurrences and declarations -/

/-- Whether occurrences of parameters have the types of their declarations. -/
def fitsDeclarations : Expr → (scope : List Param) → Bool :=
  fold fun e below scope =>
    e.fitsScope scope && (below ()).all fun fits => fits (e.scopeBelow scope)

theorem fitsDeclarations_iff {scope : List Param} :
    e.fitsDeclarations scope = true ↔ e.fitsScope scope = true ∧
      ∀ c ∈ e.children, c.fitsDeclarations (e.scopeBelow scope) = true := by
  rw [fitsDeclarations, fold_eq]
  simp

end Expr

/-! ### Where code gets to -/

/-- What is bound around a node that a call reaches with some locals: the parameters of conversions,
and those of the lambda. -/
def Frame.around (params : List Param) (values : List Value) (locals : Frame) : Frame :=
  locals ++ Frame.bind [] params values

theorem Frame.get?_around (params : List Param) (values : List Value) (locals : Frame)
    (id : ParamId) : (Frame.around params values locals).get? id =
      (locals.get? id).or ((Frame.bind [] params values).get? id) :=
  List.lookup_append

/-- Code of `body'`, which was made from `body`, gets to a node of `body'`, made from a node of
`body`, with some locals. Operands are evaluated where the node is, and a conversion is applied to
whatever value there is. The body of a quote is not evaluated. -/
inductive Expr.Reached (body body' : Expr) : Expr → Expr → Frame → Prop
  | root : Reached body body' body body' []
  | operand {e e' c c' : Expr} {locals : Frame} (h : Reached body body' e e' locals)
      (hlambda : e.lambda? = none) (hc : (c, c') ∈ e.operands.zip e'.operands) :
      Reached body body' c c' locals
  | conversion {e e' b b' : Expr} {s s' : Stamp} {p p' : Param} {locals : Frame}
      (h : Reached body body' e e' locals) (hc : .lambda s [p] b ∈ e.conversion?)
      (hc' : .lambda s' [p'] b' ∈ e'.conversion?) (v : Value) :
      Reached body body' b b' ((p'.id, v) :: locals)

/-- A node of a body over an array of arguments, made from a node of a closed body, with locals that
bind the parameters of conversions in scope. -/
structure Sits (params : List Param) (args : Param) (scope : List Param) (locals : Frame)
    (e e' : Expr) : Prop where
  slotted : Slotted args (positions (params.map .parameter)) e e'
  below : e.Below args.id
  closed : e.freeOccurrences (scope.map Param.id) = []
  once : e.declaresOnce (scope.map Param.id) = true
  fits : e.fitsDeclarations scope = true
  subset : params ⊆ scope
  bound : ∀ p ∈ scope, p ∈ params ∨ locals.get? p.id ≠ none
  mem_scope : ∀ id, locals.get? id ≠ none → id ∈ scope.map Param.id
  unbound : ∀ p ∈ params, locals.get? p.id = none

namespace Sits

variable {params scope : List Param} {args : Param} {locals : Frame} {e e' : Expr}

/-- The invariants of a node hold of its children, if the locals know what it declares. -/
theorem child (h : Sits params args scope locals e e') {c c' : Expr} (hc : c ∈ e.children)
    (hslotted : Slotted args (positions (params.map .parameter)) c c') (locals' : Frame)
    (hbound : ∀ p ∈ e.scopeBelow scope, p ∈ params ∨ locals'.get? p.id ≠ none)
    (hmem : ∀ id, locals'.get? id ≠ none → id ∈ (e.scopeBelow scope).map Param.id)
    (hunbound : ∀ p ∈ params, locals'.get? p.id = none) :
    Sits params args (e.scopeBelow scope) locals' c c' where
  slotted := hslotted
  below := h.below.children c hc
  closed := by
    rw [← Expr.boundBelow_map_id]
    exact Expr.freeOccurrences_children h.closed c hc
  once := by
    rw [← Expr.boundBelow_map_id]
    exact (Expr.declaresOnce_iff.1 h.once).2 c hc
  fits := (Expr.fitsDeclarations_iff.1 h.fits).2 c hc
  subset := by
    cases e with
    | lambda s ps b => exact List.subset_append_of_subset_right ps h.subset
    | _ => exact h.subset
  bound := hbound
  mem_scope := hmem
  unbound := hunbound

end Sits

variable {params scope : List Param} {args : Param} {locals : Frame} {e e' : Expr}

/-- The operands of a node sit where it does. -/
theorem Sits.operand (h : Sits params args scope locals e e') (hlambda : e.lambda? = none)
    {c c' : Expr} (hc : (c, c') ∈ e.operands.zip e'.operands) :
    Sits params args scope locals c c' := by
  have hscope : e.scopeBelow scope = scope := by cases e <;> first | rfl | cases hlambda
  have hmem := Expr.mem_children_of_mem_operands (List.of_mem_zip hc).1
  have hplace : ¬HasPlace (positions (params.map .parameter)) e := by
    intro hplace
    obtain ⟨place, hplace⟩ := Option.ne_none_iff_exists'.1 hplace
    obtain ⟨p, rfl, -⟩ := exists_of_place? hplace
    cases hmem
  have operands := (h.slotted.parallel hplace).1.operands hlambda
  have child := h.child hmem ((List.forall₂_iff_zip.1 operands).2 hc) locals
  rw [hscope] at child
  exact child h.bound h.mem_scope h.unbound

/-- In the body of a conversion its parameter is bound to the value that it is applied to. -/
theorem Sits.conversion (h : Sits params args scope locals e e') {s s' : Stamp} {p p' : Param}
    {b b' : Expr} (hc : .lambda s [p] b ∈ e.conversion?) (hc' : .lambda s' [p'] b' ∈ e'.conversion?)
    (v : Value) : Sits params args (p :: scope) ((p'.id, v) :: locals) b b' := by
  have hmem := Expr.mem_children_of_mem_conversion? hc
  have hparameter : e.parameter? = none := by cases e <;> first | rfl | cases hc
  have hscope : e.scopeBelow scope = scope := by cases e <;> first | rfl | cases hc
  have conversions := (h.slotted.parallel (not_hasPlace_of_parameter? hparameter)).1.conversion?
  rw [hc, hc'] at conversions
  cases conversions with
  | some hslotted =>
    have hlambda := h.child hmem hslotted locals
    rw [hscope] at hlambda
    have hlambda := hlambda h.bound h.mem_scope h.unbound
    have hplace : ¬HasPlace (positions (params.map .parameter)) (.lambda s [p] b) :=
      not_hasPlace_of_parameter? rfl
    obtain ⟨hps, hb⟩ := (hslotted.parallel hplace).1.of_lambda
    cases hps
    have hnew : p.id ∉ scope.map Param.id :=
      Expr.notMem_of_declaresOnce hlambda.once p List.mem_cons_self
    refine hlambda.child List.mem_cons_self hb _ (fun q hq => ?_) (fun id hid => ?_) fun q hq => ?_
    · rcases List.mem_cons.1 hq with rfl | hq
      · rw [Frame.get?_cons_self]
        exact .inr (Option.some_ne_none v)
      · have hne : q.id ≠ p.id := fun heq => hnew (heq ▸ List.mem_map_of_mem hq)
        rw [Frame.get?_cons_of_ne hne]
        exact h.bound q hq
    · change id ∈ p.id :: scope.map Param.id
      by_cases heq : id = p.id
      · exact heq ▸ List.mem_cons_self
      · rw [Frame.get?_cons_of_ne heq] at hid
        exact List.mem_cons_of_mem _ (h.mem_scope id hid)
    · have hne : q.id ≠ p.id := fun heq => hnew (heq ▸ List.mem_map_of_mem (h.subset hq))
      rw [Frame.get?_cons_of_ne hne]
      exact h.unbound q hq

/-- What is reached sits in its surroundings. -/
theorem Expr.Reached.sits {body body' : Expr} (h : Reached body body' e e' locals)
    (hbody : Sits params args params [] body body') : ∃ scope, Sits params args scope locals e e' := by
  induction h with
  | root => exact ⟨params, hbody⟩
  | operand _ hlambda hc ih =>
    obtain ⟨scope, ih⟩ := ih
    exact ⟨scope, ih.operand hlambda hc⟩
  | conversion _ hc hc' v ih =>
    obtain ⟨scope, ih⟩ := ih
    exact ⟨_, ih.conversion hc hc' v⟩

/-! ### Quotes -/

/-- Capture puts a constant in the place of all that is bound around a node, under the type that it
is declared with. -/
theorem Expr.closes_of_captured {values : List Value} {r : Expr}
    (hlength : values.length = params.length) (hnodup : (params.map Param.id).Nodup)
    (hsize : params.length ≤ 2 ^ 31) (hunbound : ∀ p ∈ params, locals.get? p.id = none)
    (hsubset : params ⊆ scope) (hfits : e.fitsDeclarations scope = true) (hbelow : e.Below args.id)
    (hslotted : Slotted args (positions (params.map .parameter)) e e')
    (hr : Captured args.id ⟨values.toArray, locals⟩ e' r) :
    Closes (Frame.around params values locals) e r := by
  induction e using induction_children generalizing e' r scope with
  | step e ih =>
    obtain ⟨hfits, hbelow_fits⟩ := fitsDeclarations_iff.1 hfits
    cases hp : e.parameter? with
    | some p =>
      obtain rfl := eq_of_parameter? hp
      rw [closes_parameter, Frame.get?_around]
      cases hplace : (positions (params.map .parameter))[p.id]? with
      | some place =>
        obtain ⟨i, ty⟩ := place
        obtain ⟨q, hq, hid, rfl⟩ := exists_of_position hplace
        obtain ⟨hi, -⟩ := List.getElem?_eq_some_iff.1 hq
        have hv : values[i]? = some values[i] := List.getElem?_eq_getElem (by omega)
        have hty : q.ty = p.ty := by
          have hall := List.all_eq_true.1 hfits q (hsubset (List.mem_of_getElem? hq))
          simpa [hid] using hall
        obtain ⟨n, rfl⟩ := (Slotted.isSlot hslotted hplace).capturedAs (Nat.lt_of_lt_of_le hi hsize)
          (List.getElem?_toArray.trans hv) hr
        rw [← hid, hunbound q (List.mem_of_getElem? hq), Option.none_or,
          Frame.get?_bind hnodup hlength hq, hv]
        exact ⟨n, by rw [hty]⟩
      | none =>
        obtain rfl := Slotted.eq_parameter hslotted hplace
        rw [Frame.get?_bind_eq_none (ne_of_position_eq_none hplace), Option.or_none]
        exact captured_parameter hr
    | none =>
      have slotted := (hslotted.parallel (not_hasPlace_of_parameter? hp)).1
      have captured := (hr.parallel (Slotted.not_isCaptured hslotted hbelow hp)).1
      have hsubset' : params ⊆ e.scopeBelow scope := by
        cases e with
        | lambda s ps b => exact List.subset_append_of_subset_right ps hsubset
        | _ => exact hsubset
      have closes {c r : Expr} (hc : c ∈ e.children)
          (h : ∃ c', Slotted args (positions (params.map .parameter)) c c' ∧
            Captured args.id ⟨values.toArray, locals⟩ c' r) :
          Closes (Frame.around params values locals) c r := by
        obtain ⟨c', hslotted, hr⟩ := h
        exact ih c hc hsubset' (hbelow_fits c hc) (hbelow.children c hc) hslotted hr
      refine (closes_node hp).2 ((slotted.comp captured).imp_of_mem (fun c hc _ _ => closes hc) ?_)
      rintro ps ps' b hb b' - ⟨qs, c', ⟨rfl, hslotted⟩, ⟨rfl, hcaptured⟩⟩
      exact ⟨rfl, closes hb ⟨c', hslotted, hcaptured⟩⟩

namespace Sits

/-- All that is in scope is bound around a node. -/
theorem around_ne_none (h : Sits params args scope locals e e') {values : List Value}
    (hlength : values.length = params.length) (hnodup : (params.map Param.id).Nodup) :
    ∀ id ∈ scope.map Param.id, (Frame.around params values locals).get? id ≠ none := by
  intro id hid
  obtain ⟨p, hp, rfl⟩ := List.mem_map.1 hid
  rw [Frame.get?_around]
  rcases h.bound p hp with hparam | hlocal
  · obtain ⟨i, hi⟩ := List.getElem?_of_mem hparam
    have hv : i < values.length := hlength ▸ (List.getElem?_eq_some_iff.1 hi).1
    rw [h.unbound p hparam, Option.none_or, Frame.get?_bind hnodup hlength hi,
      List.getElem?_eq_getElem hv]
    exact Option.some_ne_none _
  · obtain ⟨v, hv⟩ := Option.ne_none_iff_exists'.1 hlocal
    rw [hv, Option.some_or]
    exact Option.some_ne_none v

/-- Nothing that a node declares is bound around it. -/
theorem around_eq_none (h : Sits params args scope locals e e') (values : List Value) :
    ∀ id ∈ e.declaredIds, (Frame.around params values locals).get? id = none := by
  intro id hid
  have hscope := Expr.declaredIds_notMem h.once id hid
  have hlocal : locals.get? id = none := by
    by_contra hne
    exact hscope (h.mem_scope id hne)
  rw [Frame.get?_around, hlocal, Option.none_or]
  exact Frame.get?_bind_eq_none fun p hp heq => hscope (heq ▸ List.mem_map_of_mem (h.subset hp))

/-- A lambda node is quoted with all that is around it put in. -/
theorem exists_quote (h : Sits params args scope locals e e') (hlambda : e.lambda?.isSome = true)
    {values : List Value} (hlength : values.length = params.length)
    (hnodup : (params.map Param.id).Nodup) (hsize : params.length ≤ 2 ^ 31) (host : Host)
    (w : World) :
    ∃ r w', (e'.code .native args.id ⟨values.toArray, locals⟩).outcome host w =
      (.ok (.lambda r), w') ∧ Expr.Closes (Frame.around params values locals) e r := by
  have hparameter : e.parameter? = none := by cases e <;> first | rfl | cases hlambda
  have hlambda' : e'.lambda?.isSome = true := by
    cases (h.slotted.parallel (not_hasPlace_of_parameter? hparameter)).1 <;>
      first | rfl | cases hlambda
  have hwithout : e'.isClosed = true →
      Expr.Without (Expr.IsCaptured args.id ⟨values.toArray, locals⟩) e' :=
    Slotted.without_captured h.slotted h.below h.once h.mem_scope
  obtain ⟨r, w', hrun, -, hcaptured⟩ := Expr.quote_outcome hwithout host w
  refine ⟨r, w', ?_, Expr.closes_of_captured hlength hnodup hsize h.unbound h.subset h.fits h.below
    h.slotted hcaptured⟩
  rw [Expr.code, Expr.lower_lambda hlambda']
  exact hrun

end Sits

/-- Lambdas of which one is closed by what is around the other do the same. -/
theorem Lambda.interpretIn_agrees {outer : Frame} {ps : List Param} {b q : Expr}
    (h : Expr.Closes outer b q) (honly : b.onlyConversions = true)
    (hps : ∀ p ∈ ps, outer.get? p.id = none) (hfresh : ∀ id ∈ b.declaredIds, outer.get? id = none)
    (reflector : Reflector) (values : List Value) (host : Host) :
    Simulates host Eq Eq (Lambda.interpretIn ⟨ps, b⟩ reflector outer values)
      (Lambda.interpret ⟨ps, q⟩ reflector values) := by
  simp only [Expr.onlyConversions, Bool.and_eq_true, Option.isNone_iff_eq_none] at honly
  unfold Lambda.interpretIn Lambda.interpret
  split
  · exact (h.agrees honly.2 hfresh ((Frame.Within.root outer).bind hps values)).1 honly.1
  · exact .throw rfl

/-- **Quotes are closures.** Wherever a call of compiled code gets to a lambda node without quotes
inside, the value is a closed quote over the parameters of the node. Calling it comes to what the
body of the node comes to in a frame that binds those parameters to the arguments, the parameters of
the conversions around it to the values they were applied to, and the parameters of the compiled
lambda to the values it was called with. The positions of these parameters fit an `i32`. -/
theorem Lambda.compile_quotes (l : Lambda) {s s' : Supply} {callable : Callable}
    (hcompile : (Backend.closures.compile l.body l.params).run s = (.ok callable, s'))
    (hclosed : l.body.freeOccurrences l.paramIds = [])
    (honce : l.body.declaresOnce l.paramIds = true)
    (hfits : l.body.fitsDeclarations l.params = true) (hbelow : l.body.Below s.next)
    (hsize : l.params.length ≤ 2 ^ 31) :
    callable = Backend.callableOf l.params.length
      ((Backend.arrayBody l.body l.params s).code .native s.next) ∧
    ∀ (values : List Value), values.length = l.params.length →
    ∀ (e e' : Expr) (locals : Frame),
      Expr.Reached l.body (Backend.arrayBody l.body l.params s) e e' locals →
    ∀ (stamp : Stamp) (ps : List Param) (b : Expr), e = .lambda stamp ps b →
      b.onlyConversions = true →
    ∀ (host : Host) (w : World), ∃ n q w',
      (e'.code .native s.next ⟨values.toArray, locals⟩).outcome host w =
        (.ok (.lambda (.lambda ⟨n, stamp.ty⟩ ps q)), w') ∧
      (Expr.lambda ⟨n, stamp.ty⟩ ps q).isClosed = true ∧
      ∀ (reflector : Reflector) (args : List Value) (w : World),
        Outcome.Agree Eq
          ((Lambda.interpretIn ⟨ps, b⟩ reflector (Frame.around l.params values locals) args).outcome
            host w).1
          ((Lambda.interpret ⟨ps, q⟩ reflector args).outcome host w).1 ∧
        ((Lambda.interpretIn ⟨ps, b⟩ reflector (Frame.around l.params values locals) args).outcome
            host w).2 =
          ((Lambda.interpret ⟨ps, q⟩ reflector args).outcome host w).2 := by
  refine ⟨?_, ?_⟩
  · obtain ⟨s'', hrun⟩ := Backend.closures_compile_run l.body l.params s
    rw [hcompile] at hrun
    unfold Expr.code
    cases hlower : (Backend.arrayBody l.body l.params s).lower .native s.next with
    | error err =>
      rw [hlower] at hrun
      cases hrun
    | ok code =>
      rw [hlower] at hrun
      cases hrun
      rfl
  rintro values hlength e e' locals hreached stamp ps b rfl honly host w
  have hnodup := Expr.nodup_of_declaresOnce honce
  have hbody : Sits l.params ⟨s.next, s.next, ArgumentArray.name, .array .object⟩ l.params []
      l.body (Backend.arrayBody l.body l.params s) :=
    { slotted := Backend.slotted_arrayBody l.body l.params s
      below := hbelow
      closed := hclosed
      once := honce
      fits := hfits
      subset := List.Subset.refl _
      bound := fun _ hp => .inl hp
      mem_scope := fun _ h => (h rfl).elim
      unbound := fun _ _ => rfl }
  obtain ⟨scope, sits⟩ := hreached.sits hbody
  obtain ⟨r, w', hrun, hcloses⟩ := sits.exists_quote rfl hlength hnodup hsize host w
  have hfree : r.freeOccurrences [] = [] :=
    hcloses.freeOccurrences_eq_nil sits.closed fun id hid =>
      .inr (sits.around_ne_none hlength hnodup id hid)
  have hfresh := sits.around_eq_none values
  cases (Expr.closes_node rfl).1 hcloses with
  | @lambda n n' t ps ps' b q hb =>
    obtain ⟨rfl, hb⟩ := hb
    refine ⟨n', q, w', hrun, List.isEmpty_iff.2 hfree, fun reflector args w => ?_⟩
    refine Lambda.interpretIn_agrees hb honly (fun p hp => hfresh p.id ?_) (fun id hid => hfresh id ?_)
      reflector args host w w rfl
    · rw [Expr.declaredIds_eq]
      exact List.mem_append_left _ (List.mem_map_of_mem hp)
    · rw [Expr.declaredIds_eq]
      exact List.mem_append_right _ (List.mem_flatMap.2 ⟨b, List.mem_cons_self, hid⟩)

/-- The theorem for `(x, n) => n ?? x` with the conversion `y => (z => z + y + x)`, called with two
numbers: the quote that the conversion comes to adds both of them to its argument. -/
theorem Lambda.compile_quotes_coalesce :
    let x : Param := ⟨0, 0, "x", .int .i32⟩
    let n : Param := ⟨1, 1, "n", .nullable (.int .i32)⟩
    let y : Param := ⟨2, 2, "y", .int .i32⟩
    let z : Param := ⟨3, 3, "z", .int .i32⟩
    let sum (n : NodeId) (a b : Expr) : Expr := .binary ⟨n, .int .i32⟩ .add {} none a b none
    let mu : Expr := .lambda ⟨6, .func [.int .i32] (.int .i32)⟩ [z]
      (sum 5 (sum 4 (.parameter z) (.parameter y)) (.parameter x))
    let l : Lambda := ⟨[x, n], .binary ⟨8, .object⟩ .coalesce {} none (.parameter n) (.parameter x)
      (some (.lambda ⟨7, .object⟩ [y] mu))⟩
    let host : Host := ⟨fun _ => none⟩
    ∃ callable s' mu' stamp q w',
      (Backend.closures.compile l.body l.params).run ⟨9⟩ = (.ok callable, s') ∧
      Expr.Reached l.body (Backend.arrayBody l.body l.params ⟨9⟩) mu mu' [(y.id, .ofInt .i32 2)] ∧
      (mu'.code .native 9 ⟨[.ofInt .i32 1, .ofInt .i32 2].toArray, [(y.id, .ofInt .i32 2)]⟩).outcome
        host {} = (.ok (.lambda (.lambda stamp [z] q)), w') ∧
      (Expr.lambda stamp [z] q).isClosed = true ∧
      ((Lambda.interpret ⟨[z], q⟩ .native [.ofInt .i32 3]).outcome host {}).1 =
        .ok (.ofInt .i32 6) := by
  intro x n y z sum mu l host
  obtain ⟨callable, s', hcompile⟩ : ∃ callable s',
      (Backend.closures.compile l.body l.params).run ⟨9⟩ = (.ok callable, s') := ⟨_, _, rfl⟩
  obtain ⟨mu', stamp', hmu'⟩ : ∃ mu' stamp',
      .lambda stamp' [y] mu' ∈ (Backend.arrayBody l.body l.params ⟨9⟩).conversion? := ⟨_, _, rfl⟩
  have reached : Expr.Reached l.body (Backend.arrayBody l.body l.params ⟨9⟩) mu mu'
      [(y.id, .ofInt .i32 2)] := .conversion .root rfl hmu' _
  obtain ⟨-, quotes⟩ := Lambda.compile_quotes l hcompile (by decide) (by decide) (by decide)
    ⟨by decide, by decide⟩ (by decide)
  obtain ⟨k, q, w', hrun, hclosed, agrees⟩ :=
    quotes [.ofInt .i32 1, .ofInt .i32 2] rfl mu mu' _ reached _ _ _ rfl rfl host {}
  refine ⟨callable, s', mu', _, q, w', hcompile, reached, hrun, hclosed, ?_⟩
  have agree := (agrees .native [.ofInt .i32 3] {}).1
  have sum_eq : ((Lambda.interpretIn ⟨[z], sum 5 (sum 4 (.parameter z) (.parameter y)) (.parameter x)⟩
      .native (Frame.around l.params [.ofInt .i32 1, .ofInt .i32 2] [(y.id, .ofInt .i32 2)])
      [.ofInt .i32 3]).outcome host {}).1 = .ok (.ofInt .i32 6) := rfl
  rw [sum_eq] at agree
  cases hvalue : ((Lambda.interpret ⟨[z], q⟩ .native [.ofInt .i32 3]).outcome host {}).1 with
  | error err =>
    rw [hvalue] at agree
    exact agree.elim
  | ok v =>
    rw [hvalue] at agree
    exact congrArg Except.ok (Eq.symm agree)

end ExprTree
