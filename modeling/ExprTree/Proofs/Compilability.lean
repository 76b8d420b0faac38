import ExprTree.Proofs.ArgumentSlots
import ExprTree.Proofs.StructuralEquality

/-!
# What can be compiled

Lowering fails on nodes of foreign kinds, and on two kinds of nodes that evaluation can do without as
long as it does not come to them: accesses of an array with other than one index, and conversions of
coalesce nodes with other than one parameter. Lowering does not wait for evaluation to come to them.
It comes to every node that is not inside of a quote, in branches that are never taken as well, and
one such node is enough for nothing to be compiled.

Nothing else makes lowering fail, and no parameter list does. A lambda node that is quoted may hold
anything, since only its shape is looked at.

## Main definitions

* `Expr.Meets`: the nodes that lowering comes to.

## Main results

* `Expr.Lowers.step`: what holds of a node that can be lowered.
* `Backend.closures_compiles_iff`: what can be compiled, and what is said of the rest.
* `Backend.closures_refuse_unreached`: something that can be run and cannot be compiled.
-/

set_option autoImplicit false

namespace ExprTree

namespace Expr

variable {reflector : Reflector} {args : ParamId} {e e' c d : Expr} {err : EvalError}

/-! ### Nodes that lowering comes to -/

/-- The nodes that lowering comes to: the root and, unless that is a lambda node, what is lowered
with it. -/
inductive Meets : Expr → Expr → Prop
  | here (e : Expr) : Meets e e
  | under {e c d : Expr} (hlambda : e.lambda? = none) (hc : c ∈ e.lowered) (h : Meets c d) :
      Meets e d

/-- A read of one element by position can be lowered. -/
theorem lowers_element (s s' : Stamp) (p : Param) (v : Value) :
    (index s (parameter p) none [constant s' v]).Lowers reflector args := by
  have hposition : (constant s' v).Lowers reflector args := (lowers_iff rfl).2 ⟨rfl, nofun⟩
  refine (lowers_iff rfl).2 ⟨rfl, ?_⟩
  exact List.forall_mem_cons.2 ⟨lowers_parameter p, List.forall_mem_singleton.2 hposition⟩

/-- A unary node can be lowered with its operand, whether it is a read of an argument or not. -/
theorem lowers_unary {s : Stamp} {op : UnaryOp} {lifted : Bool} {method : Option MethodDef}
    (h : e.Lowers reflector args) : (unary s op lifted method e).Lowers reflector args := by
  cases hslot : (unary s op lifted method e).convertedSlot? args with
  | some i => exact ⟨_, lower_of_convertedSlot? hslot⟩
  | none =>
    have hplain : (unary s op lifted method e).isPlain args = true := by
      simp [isPlain, parameter?, lambda?, hslot]
    exact (lowers_iff hplain).2 ⟨rfl, List.forall_mem_singleton.2 h⟩

theorem lowers_of_argumentSlot? {i : Nat} (h : e.argumentSlot? args = some i) :
    e.Lowers reflector args := by
  unfold argumentSlot? at h
  split at h
  · exact lowers_element _ _ _ _
  · cases h

/-- If a node can be lowered, then it is not refused, and what is lowered with it can be lowered. -/
theorem Lowers.step (hlambda : e.lambda? = none) (h : e.Lowers reflector args) :
    e.refusal? = none ∧ ∀ c ∈ e.lowered, c.Lowers reflector args := by
  rw [refusal?_eq_none_iff]
  by_cases hplain : e.isPlain args = true
  · exact lowers_of_lowers hplain h
  cases e with
  | parameter p => exact ⟨rfl, nofun⟩
  | lambda => cases hlambda
  | unary s op lifted method x =>
    refine ⟨rfl, List.forall_mem_singleton.2 ?_⟩
    have hslot : (unary s op lifted method x).convertedSlot? args ≠ none := by
      simpa [isPlain, parameter?, lambda?] using hplain
    obtain ⟨i, hi⟩ := Option.ne_none_iff_exists'.1 hslot
    unfold convertedSlot? at hi
    split at hi
    · next heq =>
      cases heq
      exact lowers_of_argumentSlot? hi
    · cases hi
  | _ => exact (hplain rfl).elim

/-! ### Nodes that are alike -/

variable {S : Expr → Expr → Prop}

/-- What is lowered with nodes that are alike is related. -/
theorem Parallel.lowered (h : Parallel S (SameParams S) e e')
    (hconversion : Option.Rel (ConversionRel (SameParams S)) e.conversion? e'.conversion?) :
    List.Forall₂ S e.lowered e'.lowered := by
  refine List.rel_append h.operands_of_sameParams ?_
  have lambdas := optionRel_lambda? hconversion
  generalize e.conversion?.bind lambda? = l at lambdas
  generalize e'.conversion?.bind lambda? = l' at lambdas
  cases lambdas with
  | none => exact .nil
  | some hb => exact .cons hb.2 .nil

end Expr

/-! ### Trees over an array of arguments -/

namespace ArgumentArray

variable {args : Param} {places : Positions} {e e' d : Expr}

open ExprTree.Expr

theorem IsSlot.lowers {i : Nat} {ty : Ty} (h : IsSlot args i ty e) (reflector : Reflector) :
    e.Lowers reflector args.id := by
  obtain ⟨n, lifted, s, s', rfl⟩ := h
  exact lowers_unary (lowers_element s s' args _)

theorem HasPlace.lambda?_eq_none (h : HasPlace places e) : e.lambda? = none := by
  obtain ⟨p, -, rfl, -⟩ := h.exists_position
  rfl

theorem SlotFor.lambda?_eq_none (h : SlotFor args places e e') : e'.lambda? = none := by
  obtain ⟨i, ty, -, n, lifted, s, s', rfl⟩ := h
  rfl

/-- What becomes of a node that is not replaced: it is refused if it was before, and what is lowered
with it becomes of what was. -/
theorem Slotted.lowered (h : Slotted args places e e') (hplace : ¬ HasPlace places e) :
    e.refusal? = e'.refusal? ∧ List.Forall₂ (Slotted args places) e.lowered e'.lowered := by
  have hsame := (h.parallel hplace).1
  have conversions := optionRel_imp_of_mem hsame.conversion? fun _ _ _ _ hc =>
    Replaced.conversionRel HasPlace.lambda?_eq_none SlotFor.lambda?_eq_none hc
  exact ⟨hsame.refusal?_eq conversions fun hb => congrArg List.length hb.1, hsame.lowered conversions⟩

/-- If a tree over an array can be lowered, then the tree that it was made of holds nothing that is
refused where lowering comes to it. -/
theorem Slotted.refusal?_eq_none (h : Slotted args places e e') {reflector : Reflector}
    (hlowers : e'.Lowers reflector args.id) (hd : e.Meets d) : d.refusal? = none := by
  induction hd generalizing e' with
  | here e =>
    by_cases hplace : HasPlace places e
    · obtain ⟨p, -, rfl, -⟩ := hplace.exists_position
      rfl
    rw [(h.lowered hplace).1]
    cases hlambda : e'.lambda? with
    | none => exact (hlowers.step hlambda).1
    | some l => cases e' <;> first | rfl | cases hlambda
  | @under e c d hlambda hc _ ih =>
    have hplace : ¬ HasPlace places e := by
      intro hplace
      obtain ⟨p, -, rfl, -⟩ := hplace.exists_position
      cases hc
    have hlambda' : e'.lambda? = none := by
      simpa [hlambda] using (h.parallel hplace).1.isSome_lambda?
    obtain ⟨i, hi⟩ := List.getElem?_of_mem hc
    obtain ⟨c', hi', hcc'⟩ := exists_getElem?_of_forall₂ (h.lowered hplace).2 hi
    exact ih hcc' ((hlowers.step hlambda').2 c' (List.mem_of_getElem? hi'))

/-- If it cannot, then for the sake of such a node. -/
theorem Slotted.exists_refusal? (h : Slotted args places e e') {reflector : Reflector}
    {err : EvalError} (herror : e'.lower reflector args.id = .error err) :
    ∃ d, e.Meets d ∧ d.refusal? = some err := by
  induction e using induction_lowered generalizing e' with
  | step e ih =>
    have hplace : ¬ HasPlace places e := by
      intro hplace
      obtain ⟨i, ty, -, hslot⟩ := Slotted.exists_slot h hplace
      obtain ⟨code, hcode⟩ := hslot.lowers reflector
      rw [hcode] at herror
      cases herror
    have hlambda : e.lambda? = none := by
      cases hl : e.lambda? with
      | none => rfl
      | some l =>
        have hsome : e'.lambda?.isSome = true := by
          rw [← (h.parallel hplace).1.isSome_lambda?, hl]
          rfl
        rw [lower_lambda hsome] at herror
        cases herror
    obtain ⟨hrefusal, hlowered⟩ := h.lowered hplace
    have below : ∀ c' ∈ e'.lowered, c'.lower reflector args.id = .error err →
        ∃ d, e.Meets d ∧ d.refusal? = some err := by
      refine forall_right_of_forall₂ hlowered fun c hc c' hcc' herror' => ?_
      obtain ⟨d, hd, hrefused⟩ := ih c hc hcc' herror'
      exact ⟨d, .under hlambda hc hd, hrefused⟩
    rcases Outcome.FailsOnly.iff_forall.1 (lower_failsWith reflector args.id e') err herror with
      herr | ⟨c', hc', herror'⟩
    · exact ⟨e, .here e, hrefusal.trans herr⟩
    · exact below c' hc' herror'

end ArgumentArray

/-! ### Compilation -/

namespace Backend

/-- **What can be compiled**, whatever the parameters: the bodies in which lowering comes to no node
that is refused. If it comes to one, then a failure says why such a node is refused. -/
theorem closures_compiles_iff (body : Expr) (params : List Param) (s : Supply) :
    ((∃ callable s', (closures.compile body params).run s = (.ok callable, s')) ↔
      ∀ d, body.Meets d → d.refusal? = none) ∧
    ∀ err s', (closures.compile body params).run s = (.error err, s') →
      ∃ d, body.Meets d ∧ d.refusal? = some err := by
  have hslotted := slotted_arrayBody body params s
  obtain ⟨t, hrun⟩ := closures_compile_run body params s
  rw [hrun]
  cases hlower : (arrayBody body params s).lower .native s.next with
  | ok code =>
    refine ⟨iff_of_true ⟨_, t, rfl⟩ fun d hd => ?_, fun err s' h => by cases h⟩
    exact hslotted.refusal?_eq_none ⟨code, hlower⟩ hd
  | error err =>
    obtain ⟨d, hd, hrefusal⟩ := hslotted.exists_refusal? hlower
    refine ⟨iff_of_false ?_ fun h => ?_, fun err' s' h => ?_⟩
    · rintro ⟨callable, s', h⟩
      cases h
    · rw [h d hd] at hrefusal
      cases hrefusal
    · cases h
      exact ⟨d, hd, hrefusal⟩

/-- Two bodies without foreign nodes that can be run, since evaluation does not come to the node that
is refused, and that cannot be compiled: `true ? 1 : new[] { 1 }[0, 0]`, and `null ?? 1` with the
conversion `(x, y) => x`. -/
theorem closures_refuse_unreached :
    let one : Expr := .constant ⟨0, .int .i32⟩ (.ofInt .i32 1)
    let access : Expr :=
      .index ⟨2, .int .i32⟩ (.newArray ⟨1, .array (.int .i32)⟩ (.int .i32) [one]) none [one, one]
    let choice : Expr :=
      .conditional ⟨4, .int .i32⟩ (.constant ⟨3, .bool⟩ (.bool true)) one access
    let x : Param := ⟨5, 5, "x", .int .i32⟩
    let y : Param := ⟨6, 6, "y", .int .i32⟩
    let first : Expr := .lambda ⟨7, .func [.int .i32, .int .i32] (.int .i32)⟩ [x, y] (.parameter x)
    let coalesce : Expr := .binary ⟨9, .int .i32⟩ .coalesce {} none
      (.constant ⟨8, .nullable (.int .i32)⟩ .null) one (some first)
    (choice.Supported ∧ coalesce.Supported) ∧
      (∀ host w, ((⟨[], choice⟩ : Lambda).interpret .native [] host).run w =
          (.ok (.ofInt .i32 1), w) ∧
        ((⟨[], coalesce⟩ : Lambda).interpret .native [] host).run w = (.ok (.ofInt .i32 1), w)) ∧
      (∃ s', (closures.compile choice []).run ⟨10⟩ =
        (.error (.unsupported "multi-dimensional array access"), s')) ∧
      ∃ s', (closures.compile coalesce []).run ⟨10⟩ =
        (.error (.unsupported "a coalesce conversion without exactly one parameter"), s') := by
  intro one access choice x y first coalesce
  refine ⟨⟨rfl, rfl⟩, fun host w => ⟨?_, ?_⟩, ⟨_, rfl⟩, ⟨_, rfl⟩⟩
  · rfl
  · rfl

end Backend

end ExprTree
