import ExprTree.Proofs.PureHost
import ExprTree.Proofs.Successes

/-!
# Operands that are dropped

Where an operand of `&&`, `||` or a conditional is known, the operator can be left out together with
one of its operands. What the dropped operand would have failed with is then gone, and what it would
have done as well, so the shorter evaluation comes to the same value only if host code that runs later
cannot tell. The five lemmas differ in which operand is known and which is left.

A constant on the right that is passed over needs more: the operator answers null where the left
operand is no truth value, and the left operand alone would come to what it is.

## Main definitions

* `Step.shortCircuit`: `&&` and `||` at once.
* `EvalM.Unseen`, `EvalM.Settles`: evaluations that leave no trace, and evaluations of known value.

## Main results

* `EvalM.shortCircuit_carries_right`, `EvalM.shortCircuit_carries_left`: an operand that is passed over
  can be dropped.
* `EvalM.shortCircuit_carries_decider`, `EvalM.shortCircuit_carries_decision`: an operand that decides
  can stand for the node.
* `EvalM.conditional_carries_branch`: a known test can be dropped.
-/

set_option autoImplicit false

namespace ExprTree

open EvalM

/-! ### Short-circuit operators -/

/-- The truth value of operands that a short-circuit operator passes over. -/
def BinaryOp.unit? : BinaryOp → Option Bool
  | .andAlso => some true
  | .orElse => some false
  | _ => none

theorem BinaryOp.eq_of_unit? {op : BinaryOp} {unit : Bool} (h : op.unit? = some unit) :
    op = .andAlso ∨ op = .orElse := by
  cases op <;> first | exact .inl rfl | exact .inr rfl | cases h

/-- A truth value, or null. -/
def Value.IsTruth (v : Value) : Prop := v = .null ∨ ∃ b, v = .bool b

namespace Step

/-- What a short-circuit operator makes of two operands, if the left one does not decide. -/
def joined (unit : Bool) (l r : Value) : Value :=
  if l.bool? = some unit then r else if r.bool? = some (!unit) then .bool !unit else .null

/-- `&&` and `||` at once. -/
def shortCircuit (unit : Bool) (left right : EvalM Value) : EvalM Value := do
  let l ← left
  if l.bool? = some !unit then return l
  else
    let r ← right
    return joined unit l r

theorem andAlso_eq_shortCircuit (left right : EvalM Value) :
    andAlso left right = shortCircuit true left right := by
  unfold andAlso shortCircuit
  congr 1
  funext l
  simp only [Value.beq_bool, decide_eq_true_eq, andAlso_eq]
  rfl

theorem orElse_eq_shortCircuit (left right : EvalM Value) :
    orElse left right = shortCircuit false left right := by
  unfold orElse shortCircuit
  congr 1
  funext l
  simp only [Value.beq_bool, decide_eq_true_eq, orElse_eq]
  rfl

/-- A short-circuit operator comes to a value because the left operand decides, or because both are
evaluated. -/
theorem shortCircuit_ok {host : Host} {unit : Bool} {x y : EvalM Value} {w u : World} {v : Value}
    (h : (shortCircuit unit x y).outcome host w = (.ok v, u)) :
    ∃ a t, x.outcome host w = (.ok a, t) ∧
      (a = .bool (!unit) ∧ v = a ∧ u = t ∨
        a ≠ .bool (!unit) ∧ ∃ b, y.outcome host t = (.ok b, u) ∧ v = joined unit a b) := by
  obtain ⟨a, t, ha, h⟩ := outcome_bind_ok.1 h
  refine ⟨a, t, ha, ?_⟩
  split at h
  · next hdecides =>
    cases h
    exact .inl ⟨Value.bool?_eq_some_iff.1 hdecides, rfl, rfl⟩
  · next hdecides =>
    obtain ⟨b, t', hb, h⟩ := outcome_bind_ok.1 h
    cases h
    exact .inr ⟨fun hbool => hdecides (Value.bool?_eq_some_iff.2 hbool), b, hb, rfl⟩

end Step

/-! ### Operands that are dropped -/

namespace EvalM

variable {host : Host} {d : Dispatch} {W : World → World → Prop} {x y x' y' : EvalM Value}
  {v : Value}

/-- Host code cannot tell that the evaluation was run. -/
def Unseen (host : Host) (W : World → World → Prop) (x : EvalM Value) : Prop :=
  ∀ w, W w w → W w (x.outcome host w).2

/-- The evaluation comes to `v` wherever it is run, and host code cannot tell that it was. -/
def Settles (host : Host) (W : World → World → Prop) (x : EvalM Value) (v : Value) : Prop :=
  ∀ w, W w w → ∃ u, x.outcome host w = (.ok v, u) ∧ W w u

/-- If the evaluation comes to a value, it is `v`. -/
def GivesOnly (host : Host) (W : World → World → Prop) (x : EvalM Value) (v : Value) : Prop :=
  ∀ a, MayGive host W x a → a = v

theorem Carries.settles (hhost : host.Oblivious d W) (h : Carries host W x y)
    (hx : Settles host W x v) : Settles host W y v := by
  intro w hw
  obtain ⟨u, hu, hwu⟩ := hx w hw
  obtain ⟨u', hu', huu'⟩ := h w w v u hw hu
  exact ⟨u', hu', hhost.trans hwu huu'⟩

theorem Carries.givesOnly (hhost : host.Oblivious d W) (h : Carries host W x y)
    (hy : Settles host W y v) : GivesOnly host W x v := by
  rintro a ⟨w, w', u, hw, ha⟩
  obtain ⟨u', hu', -⟩ := h w w' a u hw ha
  obtain ⟨u'', hu'', -⟩ := hy w' (hhost.refl_right hw)
  rw [hu'] at hu''
  cases hu''
  rfl

variable {unit : Bool}

/-- An operand on the left that is passed over can be dropped. -/
theorem shortCircuit_carries_right (hhost : host.Oblivious d W)
    (hx : GivesOnly host W x (.bool unit)) (hunseen : Unseen host W x) (hy : Carries host W y y') :
    Carries host W (Step.shortCircuit unit x y) y' := by
  intro w w' v u hw h
  obtain ⟨a, t, ha, h⟩ := Step.shortCircuit_ok h
  have hwt := hunseen w (hhost.refl_left hw)
  rw [ha] at hwt
  obtain rfl := hx a ⟨w, w', t, hw, ha⟩
  rcases h with ⟨hdecides, -⟩ | ⟨-, b, hb, rfl⟩
  · cases unit <;> cases hdecides
  · have hjoined : Step.joined unit (.bool unit) b = b := if_pos rfl
    rw [hjoined]
    exact hy t w' b u (hhost.trans (hhost.symm hwt) hw) hb

/-- An operand on the left that decides can stand for the node. -/
theorem shortCircuit_carries_decider (hx : GivesOnly host W x (.bool (!unit)))
    (h : Carries host W x x') : Carries host W (Step.shortCircuit unit x y) x' := by
  intro w w' v u hw hv
  obtain ⟨a, t, ha, hv⟩ := Step.shortCircuit_ok hv
  rcases hv with ⟨-, rfl, rfl⟩ | ⟨hdecides, -⟩
  · exact h w w' v u hw ha
  · exact (hdecides (hx a ⟨w, w', t, hw, ha⟩)).elim

/-- An operand on the right that is passed over can be dropped, if the left one comes to a truth value
or null. -/
theorem shortCircuit_carries_left (hhost : host.Oblivious d W)
    (htruth : ∀ a, MayGive host W x a → a.IsTruth) (hy : GivesOnly host W y (.bool unit))
    (hunseen : Unseen host W y) (h : Carries host W x x') :
    Carries host W (Step.shortCircuit unit x y) x' := by
  intro w w' v u hw hv
  obtain ⟨a, t, ha, hv⟩ := Step.shortCircuit_ok hv
  obtain ⟨t', ha', ht⟩ := h w w' a t hw ha
  rcases hv with ⟨-, rfl, rfl⟩ | ⟨hdecides, b, hb, rfl⟩
  · exact ⟨t', ha', ht⟩
  · have htu := hunseen t (hhost.refl_left ht)
    rw [hb] at htu
    obtain rfl := hy b ⟨t, t', u, ht, hb⟩
    have hjoined : Step.joined unit a (.bool unit) = a := by
      rcases htruth a ⟨w, w', t, hw, ha⟩ with rfl | ⟨c, rfl⟩
      · cases unit <;> rfl
      · cases unit <;> cases c <;> first | rfl | exact (hdecides rfl).elim
    rw [hjoined]
    exact ⟨t', ha', hhost.trans (hhost.symm htu) ht⟩

/-- An operand on the right that decides can stand for the node. -/
theorem shortCircuit_carries_decision (hhost : host.Oblivious d W) (hunseen : Unseen host W x)
    (hy : Carries host W y y') (hy' : Settles host W y' (.bool (!unit))) :
    Carries host W (Step.shortCircuit unit x y) y' := by
  intro w w' v u hw hv
  obtain ⟨a, t, ha, hv⟩ := Step.shortCircuit_ok hv
  have hwt := hunseen w (hhost.refl_left hw)
  rw [ha] at hwt
  have htw' := hhost.trans (hhost.symm hwt) hw
  rcases hv with ⟨rfl, rfl, rfl⟩ | ⟨-, b, hb, rfl⟩
  · obtain ⟨u', hu', hwu'⟩ := hy' w' (hhost.refl_right hw)
    exact ⟨u', hu', hhost.trans htw' hwu'⟩
  · obtain ⟨u', hb', hu⟩ := hy t w' b u htw' hb
    obtain rfl := hy.givesOnly hhost hy' b ⟨t, w', u, htw', hb⟩
    have hjoined : Step.joined unit a (.bool !unit) = .bool !unit := by
      unfold Step.joined
      split
      · rfl
      · exact if_pos rfl
    rw [hjoined]
    exact ⟨u', hb', hu⟩

/-- A test that always comes out the same can be dropped. -/
theorem conditional_carries_branch (hhost : host.Oblivious d W) (testTy : Ty) {t z : EvalM Value}
    {b : Bool} (ht : GivesOnly host W t (.bool b)) (hunseen : Unseen host W t)
    (h : Carries host W (if b then x else y) z) :
    Carries host W (Step.conditional testTy t x y) z := by
  rw [Step.conditional_eq]
  intro w w' v u hw hv
  obtain ⟨a, t', ha, hv⟩ := outcome_bind_ok.1 hv
  have hwt := hunseen w (hhost.refl_left hw)
  rw [ha] at hwt
  obtain rfl := ht a ⟨w, w', t', hw, ha⟩
  refine h t' w' v u (hhost.trans (hhost.symm hwt) hw) ?_
  cases b <;> exact hv

end EvalM

end ExprTree
