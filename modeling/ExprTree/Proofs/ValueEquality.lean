import ExprTree.Structure.Hash

/-!
# Equality of values

Equality of values compares objects, quoted expressions and captured failures by identity and
everything else by content. It is an equivalence, and the hash of a value is a function of what it
looks at: a hasher is fed the same bytes for equal values, and an array is hashed by its items.
Structural equality of trees rests on both.

## Main results

* `Value.beq_comm`, `Value.beq_trans`: the order of the two sides does not matter, and equality goes
  on to a third value. With them `==` is an equivalence.
* `Value.hashCode_eq_of_beq`: equal values have equal hashes over every hasher.
* `Value.beq_isHashEquality`: both together.
-/

set_option autoImplicit false

namespace ExprTree.Value

/-! ### An equivalence -/

mutual

theorem beq_comm : (v w : Value) → beq v w = beq w v
  | .array s as, w => by
    cases w with
    | array t bs => simp only [beq, beqAll_comm as bs, eq_comm (a := s)]
    | _ => simp [beq]
  | .null, w | .void, w => by cases w <;> simp [beq]
  | .bool _, w | .char _, w | .int _, w | .f32 _, w | .f64 _, w | .str _, w => by
    cases w <;> simp [beq, eq_comm]
  | .ofEnum .., w | .object .., w | .error _, w => by cases w <;> simp [beq, eq_comm]
  | .lambda _, w => by cases w <;> simp [beq, Expr.same, eq_comm]

theorem beqAll_comm : (vs ws : List Value) → beqAll vs ws = beqAll ws vs
  | [], [] => rfl
  | [], _ :: _ => rfl
  | _ :: _, [] => rfl
  | v :: vs, w :: ws => by simp only [beqAll, beq_comm v w, beqAll_comm vs ws]

end

mutual

theorem beq_trans {u v w : Value} (huv : beq u v = true) (hvw : beq v w = true) :
    beq u w = true := by
  cases u <;> cases v <;> simp only [beq, Bool.false_eq_true] at huv <;>
    cases w <;> simp only [beq, Bool.false_eq_true] at hvw
  case array.array.array =>
    simp only [Bool.and_eq_true, decide_eq_true_eq, beq] at huv hvw ⊢
    exact ⟨huv.1.trans hvw.1, beqAll_trans huv.2 hvw.2⟩
  all_goals simp_all [beq, Expr.same]
termination_by structural u

theorem beqAll_trans {us vs ws : List Value} (huv : beqAll us vs = true)
    (hvw : beqAll vs ws = true) : beqAll us ws = true := by
  cases us <;> cases vs <;> simp only [beqAll, Bool.false_eq_true] at huv <;>
    cases ws <;> simp only [beqAll, Bool.false_eq_true] at hvw
  case nil.nil.nil => rfl
  case cons.cons.cons =>
    simp only [Bool.and_eq_true, beqAll] at huv hvw ⊢
    exact ⟨beq_trans huv.1 hvw.1, beqAll_trans huv.2 hvw.2⟩
termination_by structural us

end

instance : EquivBEq Value where
  symm {v w} h := (beq_comm w v).trans h
  trans {_ _ _} h h' := beq_trans h h'

theorem beq_equivalence : Equivalence fun v w : Value => (v == w) = true where
  refl _ := BEq.rfl
  symm := BEq.symm
  trans := BEq.trans

/-! ### Hashes -/

/-- Equal values are of one form. -/
theorem discriminant_eq_of_beq {v w : Value} (h : beq v w = true) :
    v.discriminant = w.discriminant := by
  cases v <;> cases w <;> simp_all [beq, discriminant]

/-- A hasher is fed the same bytes for equal values. -/
theorem hashedBytes_eq_of_beq (hasher : LeafHasher) {v w : Value} (h : beq v w = true) :
    v.hashedBytes hasher = w.hashedBytes hasher := by
  cases v <;> cases w <;> simp_all [beq, hashedBytes, Expr.same]

theorem items?_eq_none_of_beq {v w : Value} (hv : v.items? = none) (h : beq v w = true) :
    w.items? = none := by
  cases v <;> cases w <;> simp_all [beq, items?]

mutual

/-- Equal values have equal hashes, whatever the hasher is. -/
theorem hashCode_eq_of_beq (hasher : LeafHasher) {v w : Value} (h : beq v w = true) :
    v.hashCode hasher = w.hashCode hasher := by
  have leaf (hv : v.items? = none) : v.hashCode hasher = w.hashCode hasher := by
    rw [hashCode_leaf hasher hv, hashCode_leaf hasher (items?_eq_none_of_beq hv h),
      discriminant_eq_of_beq h, hashedBytes_eq_of_beq hasher h]
  cases v with
  | array s as =>
    cases w with
    | array t bs =>
      simp only [beq, Bool.and_eq_true] at h
      rw [hashCode_array, hashCode_array, map_hashCode_eq_of_beqAll hasher h.2]
    | _ => cases h
  | _ => exact leaf rfl
termination_by structural v

/-- Equal items have equal hashes, one by one. -/
theorem map_hashCode_eq_of_beqAll (hasher : LeafHasher) {vs ws : List Value}
    (h : beqAll vs ws = true) :
    (vs.map fun v => some (v.hashCode hasher)) = ws.map fun w => some (w.hashCode hasher) := by
  cases vs <;> cases ws <;> simp only [beqAll, Bool.false_eq_true] at h
  case nil.nil => rfl
  case cons.cons =>
    simp only [Bool.and_eq_true] at h
    rw [List.map_cons, List.map_cons, hashCode_eq_of_beq hasher h.1,
      map_hashCode_eq_of_beqAll hasher h.2]
termination_by structural vs

end

/-- Equality of values is an equivalence, and equal values have equal hashes over every hasher. -/
theorem beq_isHashEquality :
    (Equivalence fun v w : Value => (v == w) = true) ∧
      ∀ (hasher : LeafHasher) (v w : Value), (v == w) = true →
        v.hashCode hasher = w.hashCode hasher :=
  ⟨beq_equivalence, fun hasher _ _ h => hashCode_eq_of_beq hasher h⟩

/-- The theorem for an array within an array that holds a NaN, an enum value, an object, a quoted
expression and a captured failure. What is noted of the state of an object makes no difference. -/
theorem beq_isHashEquality_nested :
    let nan : Value := .f64 0x7ff8000000000000
    let red : Value := .ofEnum (.mk 1 "Color" (.int .i32) [("Red", .wrap .i64 0)]) (.wrap .i64 0)
    let point (state : List Value) : Value := .object 2 ⟨3, "Point", .concrete, none, []⟩ state
    let quote : Value := .lambda (.constant ⟨4, .f64⟩ nan)
    let failure : Value := .error (.mk 5 (.host "failed"))
    let nested (state : List Value) : Value :=
      .array (.array .object) [.array .object [nan, red, point state, quote, failure]]
    (nested [] == nested [nan]) = true ∧
      (nested []).hashCode .bytewise = (nested [nan]).hashCode .bytewise := by
  intro nan red point quote failure nested
  have equal : (nested [] == nested [nan]) = true := rfl
  exact ⟨equal, beq_isHashEquality.2 .bytewise (nested []) (nested [nan]) equal⟩

end ExprTree.Value
