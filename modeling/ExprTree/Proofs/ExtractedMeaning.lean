import ExprTree.Proofs.Compilation
import ExprTree.Proofs.Placeholders
import ExprTree.Proofs.QuoteFree

/-!
# Extraction keeps the meaning of a tree

An extracted body comes to what the tree comes to, in a frame that also binds every placeholder to
the value that was lifted out for it. A conversion binds its parameter in front of what its frame
binds, and its parameter was minted before the placeholders, so they stay in reach below it.

A quoted lambda is a value, and the quote of a lambda over placeholders is another value. The
theorem is therefore about trees whose only lambdas are conversions.

## Main definitions

* `Frame.Extends`: a frame that binds more than another.
* `Expr.Reads`: a parameter that is bound to the constant that it stands for.

## Main results

* `Expr.Replaced.simulates`: trees agree in which constants are read from the frame.
* `Expr.extractConstants_simulates`: **extraction keeps the meaning of a tree**.
-/

set_option autoImplicit false

namespace ExprTree

open EvalM

/-! ### Frames with more bindings -/

/-- The frame `frame'` binds what `frame` binds to parameters minted before `base`, and others as
`bound` has it. -/
structure Frame.Extends (base : Nat) (bound : ParamId → Option Value) (frame frame' : Frame) :
    Prop where
  below : ∀ id < base, frame'.get? id = frame.get? id
  above : ∀ id, base ≤ id → frame'.get? id = bound id

namespace Frame

variable {base : Nat} {bound : ParamId → Option Value} {frame frame' : Frame}

/-- One more parameter that was minted before. -/
theorem Extends.cons (h : Extends base bound frame frame') {id : ParamId} (hid : id < base)
    (v : Value) : Extends base bound ((id, v) :: frame) ((id, v) :: frame') where
  below other hother := by
    by_cases heq : other = id
    · rw [heq, get?_cons_self, get?_cons_self]
    · rw [get?_cons_of_ne heq, get?_cons_of_ne heq]
      exact h.below other hother
  above other hother := by
    rw [get?_cons_of_ne (Nat.ne_of_gt (Nat.lt_of_lt_of_le hid hother))]
    exact h.above other hother

/-- Binding parameters that were minted later. -/
theorem extends_bind {params : List Param} (hparams : ∀ p ∈ params, base ≤ p.id)
    (args : List Value) (frame : Frame) :
    Extends base (frame.bind params args).get? frame (frame.bind params args) where
  below id hid := by
    refine get?_push_of_notMem frame fun pv hpv => ?_
    exact Nat.ne_of_gt (Nat.lt_of_lt_of_le hid (hparams _ (List.of_mem_zip hpv).1))
  above _ _ := rfl

end Frame

namespace Expr

variable {e t : Expr} {base : Nat} {bound : ParamId → Option Value}

/-! ### Constants read from the frame -/

/-- A parameter of the type of a constant that is bound to its value. -/
def Reads (base : Nat) (bound : ParamId → Option Value) (e t : Expr) : Prop :=
  ∃ s v q, e = .constant s v ∧ t = .parameter q ∧ s.ty = q.ty ∧ base ≤ q.id ∧ bound q.id = some v

theorem Reads.ty_eq (h : Reads base bound e t) : e.ty = t.ty := by
  obtain ⟨s, v, q, rfl, rfl, hty, -⟩ := h
  exact hty

theorem Reads.lambda?_eq_none (h : Reads base bound e t) : t.lambda? = none := by
  obtain ⟨s, v, q, -, rfl, -⟩ := h
  rfl

theorem IsConstant.lambda?_eq_none (h : e.IsConstant) : e.lambda? = none := by
  cases e <;> first | rfl | exact absurd rfl h

/-- Trees agree in which constants are read from the frame. -/
theorem Replaced.simulates {reflector : Reflector} {host : Host}
    (h : Replaced IsConstant (Reads base bound) e t) (he : e.onlyConversions = true)
    (hbelow : e.Below base) {frame frame' : Frame} (hframes : frame.Extends base bound frame') :
    Simulates host Eq Eq (e.interpret reflector frame) (t.interpret reflector frame') := by
  induction hsize : sizeOf e using Nat.strong_induction_on generalizing e t frame frame' with
  | h size ih =>
    subst hsize
    by_cases hroot : e.IsConstant
    · obtain ⟨s, v, q, rfl, rfl, -, hq, hv⟩ := h.leaf_of_hit hroot
      unfold interpret
      dsimp only
      rw [hframes.above q.id hq, hv]
      exact .located_left _ (.located_right _ (.pure rfl))
    have hsame := (h.parallel hroot).1
    have hlambda : e.lambda? = none := by
      simp only [onlyConversions, Bool.and_eq_true, Option.isNone_iff_eq_none] at he
      exact he.1
    refine interpret_simulates Value.congruence_eq (reflector.respects_eq host) ?_ hsame hlambda
      ?_ ?_ ?_
    · rintro op lifting v _ w _ rfl rfl
      exact .refl (fun _ => rfl) _
    · rintro p rfl
      rw [hframes.below p.id hbelow.parameter]
      cases frame.get? p.id with
      | none => exact .none
      | some v => exact .some rfl
    · intro c hc c' hcc
      have hchild := mem_children_of_mem_operands hc
      refine ⟨hcc.ty_eq Reads.ty_eq, ?_⟩
      exact ih _ (sizeOf_lt_of_mem_children hchild) hcc (onlyConversions_operand he hc)
        (hbelow.children c hchild) hframes rfl
    · intro c hc c' hcc
      have hchild := mem_children_of_mem_conversion? hc
      have hrel := hcc.conversionRel IsConstant.lambda?_eq_none Reads.lambda?_eq_none
      cases hrel with
      | other hc hc' => exact .other hc hc'
      | @lambda s s' ps ps' b b' hb =>
        obtain ⟨rfl, hb⟩ := hb
        refine .lambda ⟨rfl, fun hone v _ hv => ?_⟩
        subst hv
        obtain ⟨p, rfl⟩ := List.length_eq_one_iff.1 hone
        have hlambda := hbelow.children _ hchild
        have hp : p.id < base := by
          refine hlambda.declared p.id ?_
          rw [declaredIds_eq]
          exact List.mem_append_left _ List.mem_cons_self
        have hbody : b ∈ (Expr.lambda s [p] b).children := List.mem_cons_self
        have hsmaller := Nat.lt_trans (sizeOf_lt_of_mem_children hbody)
          (sizeOf_lt_of_mem_children hchild)
        exact ih _ hsmaller hb (onlyConversions_body he hc) (hlambda.children b hbody)
          (hframes.cons hp v) rfl

/-! ### Extraction -/

/-- **Extraction keeps the meaning of a tree.** The extracted body, in the frame that also binds the
placeholders to the values, comes to what the tree comes to or fails with the same root cause, and
runs the same code in the same order. -/
theorem extractConstants_simulates (reflector : Reflector) (host : Host)
    (he : e.onlyConversions = true) {s : Supply} (hbelow : e.Below s.next) (frame : Frame) :
    let x := ((e.extractConstants : StateM Supply Extraction) s).1
    Simulates host Eq Eq (e.interpret reflector frame)
      (x.body.interpret reflector (frame.bind x.placeholders x.values)) := by
  intro x
  have hx : x.IsOf e := extractConstants_isOf e s
  have ids : (∀ p ∈ x.placeholders, s.next ≤ p.id) ∧ (x.placeholders.map Param.id).Nodup :=
    extractConstants_ids e s hbelow
  let bound := (frame.bind x.placeholders x.values).get?
  have reads : List.Forall₂ (Reads s.next bound) e.constantNodes (e.standIns x.body) := by
    have nodes := e.constantNodes_values
    rw [← hx.values] at nodes
    have types := map_eq_map_iff.1 hx.types.symm
    have values := forall₂_trans nodes (Frame.forall₂_get?_bind hx.length_eq ids.2 frame).flip
    rw [hx.standIns, List.forall₂_map_right_iff]
    refine forall₂_imp_of_mem (forall₂_and types values) fun d _ q hq h => ?_
    obtain ⟨hty, v, -, hd, hv⟩ := h
    cases d with
    | constant s w =>
      cases hd
      exact ⟨s, _, q, rfl, rfl, hty, ids.1 q hq, hv⟩
    | _ => cases hd
  exact (hx.replaced.imp_standIns reads).simulates he hbelow
    (Frame.extends_bind ids.1 x.values frame)

/-- The theorem for `n ?? 1` with a conversion `y => y`, in a frame where `n` is null. -/
theorem extractConstants_simulates_coalesce :
    let n : Param := ⟨0, 0, "n", .nullable (.int .i32)⟩
    let y : Param := ⟨1, 1, "y", .int .i32⟩
    let e : Expr := .binary ⟨2, .int .i32⟩ .coalesce {} none (.parameter n)
      (.constant ⟨3, .int .i32⟩ (.ofInt .i32 1))
      (some (.lambda ⟨4, .func [.int .i32] (.int .i32)⟩ [y] (.parameter y)))
    let x := ((e.extractConstants : StateM Supply Extraction) ⟨5⟩).1
    let frame : Frame := [(0, .null)]
    let host : Host := ⟨fun _ => none⟩
    e.onlyConversions = true ∧ e.Below 5 ∧ x.values = [.ofInt .i32 1] ∧
      Simulates host Eq Eq (e.interpret .native frame)
        (x.body.interpret .native (frame.bind x.placeholders x.values)) := by
  intro n y e x frame host
  have hbelow : e.Below 5 := ⟨by decide, by decide⟩
  exact ⟨by rfl, hbelow, by rfl,
    extractConstants_simulates .native host (s := ⟨5⟩) (by rfl) hbelow frame⟩

end Expr

end ExprTree
