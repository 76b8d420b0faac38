import ExprTree.Proofs.Simulation

/-!
# How built-in operations fail

Operators, conversions and calls say what went wrong. What they report is never that a parameter has
no value, and never names a node: the first is reported by parameter nodes alone, and the second is
added to a failure on its way out of a node. Conversions report less than operators: a value that
cannot be converted, or, if they are checked, one that does not fit.

## Main definitions

* `EvalError.IsOperational`: the failures that operations report.
* `Outcome.FailsOnly`: a result that is a value or an expected failure.

## Main results

* `Convert.convert_failsOnly`: how conversions fail.
* `Operators.binary_failsOnly`, `Operators.unary_failsOnly`, `Operators.arrayElement_failsOnly`: how
  operators fail.
-/

set_option autoImplicit false

namespace ExprTree

/-- What operators, conversions, members and calls report. -/
def EvalError.IsOperational : EvalError → Prop
  | overflow _ | invalidCast .. | divideByZero | nullReference _ | indexOutOfRange .. |
    unsupported _ | argumentCount .. | host _ => True
  | _ => False

theorem EvalError.IsOperational.rootCause_eq {e : EvalError} (h : e.IsOperational) :
    e.rootCause = e := by
  cases e <;> first | rfl | cases h

/-- A sequence answers where both of its steps do. -/
theorem Outcome.bind_eq_ok_iff {α β : Type} {x : Except EvalError α}
    {f : α → Except EvalError β} {b : β} : x >>= f = .ok b ↔ ∃ a, x = .ok a ∧ f a = .ok b := by
  cases x with
  | error e =>
    constructor
    · intro h
      cases h
    · rintro ⟨_, ha, -⟩
      cases ha
  | ok a =>
    constructor
    · exact fun h => ⟨a, rfl, h⟩
    · rintro ⟨_, ha, h⟩
      cases ha
      exact h

/-- A result that is a value, or a failure of an expected kind. -/
def Outcome.FailsOnly {α : Type} (E : EvalError → Prop) : Except EvalError α → Prop
  | .ok _ => True
  | .error e => E e

namespace Outcome.FailsOnly

variable {α β : Type} {E E' : EvalError → Prop}

@[simp] theorem ok (E : EvalError → Prop) (a : α) : FailsOnly E (.ok a) := trivial

@[simp] theorem error_iff {e : EvalError} : FailsOnly E (.error e : Except EvalError α) ↔ E e :=
  .rfl

theorem imp (h : ∀ e, E e → E' e) {x : Except EvalError α} (hx : FailsOnly E x) :
    FailsOnly E' x := by
  cases x with
  | ok a => trivial
  | error e => exact h e hx

theorem iff_forall {x : Except EvalError α} : FailsOnly E x ↔ ∀ e, x = .error e → E e := by
  cases x with
  | ok a => exact iff_of_true trivial nofun
  | error e => simp

theorem bind_of_eq {x : Except EvalError α} {f : α → Except EvalError β} (hx : FailsOnly E x)
    (hf : ∀ a, x = .ok a → FailsOnly E (f a)) : FailsOnly E (x >>= f) := by
  cases x with
  | ok a => exact hf a rfl
  | error e => exact hx

theorem bind {x : Except EvalError α} {f : α → Except EvalError β} (hx : FailsOnly E x)
    (hf : ∀ a, FailsOnly E (f a)) : FailsOnly E (x >>= f) :=
  hx.bind_of_eq fun a _ => hf a

end Outcome.FailsOnly

open Outcome EvalError

/-! ### Conversions -/

namespace Convert

/-- How a conversion may fail. -/
def MayFail (checked : Bool) : EvalError → Prop
  | .invalidCast .. => True
  | .overflow _ => checked = true
  | _ => False

theorem isOperational_of_mayFail {checked : Bool} {e : EvalError} (h : MayFail checked e) :
    e.IsOperational := by
  cases e <;> trivial

theorem narrow_failsOnly (v : Value) (target : IntegralTarget) (n : Int) (checked : Bool) :
    FailsOnly (MayFail checked) (narrow v target n) := by
  cases target with
  | int k => trivial
  | char =>
    simp only [narrow]
    split <;> trivial

theorem integral_failsOnly (v : Value) (target : IntegralTarget) (n : Int) (checked : Bool) :
    FailsOnly (MayFail checked) (integral v target n checked) := by
  unfold integral
  split
  · next h => exact (Bool.and_eq_true_iff.1 h).1
  · exact narrow_failsOnly v target n checked

theorem fromFloat_failsOnly (v : Value) (format : Binary.Format) (bits : Nat)
    (target : IntegralTarget) (checked : Bool) :
    FailsOnly (MayFail checked) (fromFloat v format bits target checked) := by
  cases checked with
  | true =>
    rw [fromFloat, if_pos rfl]
    split
    · exact integral_failsOnly v target _ true
    · trivial
  | false => exact integral_failsOnly v target _ false

theorem toIntegral_failsOnly (v : Value) (target : IntegralTarget) (checked : Bool) :
    FailsOnly (MayFail checked) (toIntegral v target checked) := by
  unfold toIntegral
  split
  · exact fromFloat_failsOnly ..
  · exact fromFloat_failsOnly ..
  · split
    · exact integral_failsOnly ..
    · trivial

theorem toSingle_failsOnly (v : Value) (checked : Bool) :
    FailsOnly (MayFail checked) (toSingle v) := by
  unfold toSingle
  split <;> trivial

theorem toDouble_failsOnly (v : Value) (checked : Bool) :
    FailsOnly (MayFail checked) (toDouble v) := by
  unfold toDouble
  split <;> trivial

theorem toEnum_failsOnly (v : Value) (d : EnumDef) (checked : Bool) :
    FailsOnly (MayFail checked) (toEnum v d) := by
  unfold toEnum
  split <;> trivial

mutual

theorem convertValue_failsOnly (v : Value) (target : Ty) (checked : Bool) :
    FailsOnly (MayFail checked) (convertValue v target checked) := by
  unfold convertValue
  split
  · trivial
  · cases target with
    | ofEnum d =>
      exact (convertUnderlying_failsOnly v d checked).bind fun u => toEnum_failsOnly u d checked
    | f32 => exact toSingle_failsOnly v checked
    | f64 => exact toDouble_failsOnly v checked
    | int k => exact toIntegral_failsOnly v _ checked
    | char => exact toIntegral_failsOnly v _ checked
    | _ => trivial
termination_by structural target

theorem convertUnderlying_failsOnly (v : Value) (d : EnumDef) (checked : Bool) :
    FailsOnly (MayFail checked) (convertUnderlying v d checked) := by
  cases d with
  | mk _ _ underlying _ => exact convertValue_failsOnly v underlying checked
termination_by structural d

end

/-- A conversion that fails had a value that cannot be converted, or was checked. -/
theorem convert_failsOnly (v : Value) (source target : Ty) (checked : Bool) :
    FailsOnly (MayFail checked) (convert v source target checked) := by
  cases target with
  | nullable inner =>
    unfold convert
    split
    · trivial
    · exact convert_failsOnly v source.nonNullable inner checked
  | _ =>
    unfold convert
    split
    · split <;> trivial
    split
    · split <;> trivial
    split
    · unfold unbox
      split <;> trivial
    · exact convertValue_failsOnly v _ checked
termination_by structural target

end Convert

/-! ### Operators -/

namespace Operators

theorem compareAs_failsOnly (op : BinaryOp) (o : Ordering) (left right : Value) :
    FailsOnly IsOperational (compareAs op o left right) := by
  unfold compareAs
  split <;> trivial

theorem checkedInt_failsOnly (op : BinaryOp) (k : IntTy) (n : Int) :
    FailsOnly IsOperational (checkedInt op k n) := by
  unfold checkedInt
  split <;> trivial

theorem integers_failsOnly (op : BinaryOp) (k : IntTy) (a b : Word) :
    FailsOnly IsOperational (integers op k a b) := by
  unfold integers
  split
  case h_4 | h_5 | h_6 => exact checkedInt_failsOnly ..
  case h_7 =>
    split
    · trivial
    · exact checkedInt_failsOnly ..
  case h_8 =>
    split
    · trivial
    · split <;> trivial
  case h_12 => exact compareAs_failsOnly ..
  all_goals trivial

theorem singles_failsOnly (op : BinaryOp) (a b : UInt32) :
    FailsOnly IsOperational (singles op a b) := by
  cases op <;> trivial

theorem doubles_failsOnly (op : BinaryOp) (a b : UInt64) :
    FailsOnly IsOperational (doubles op a b) := by
  cases op <;> trivial

theorem bools_failsOnly (op : BinaryOp) (a b : Bool) : FailsOnly IsOperational (bools op a b) := by
  cases op <;> trivial

theorem strings_failsOnly (op : BinaryOp) (a b : String) :
    FailsOnly IsOperational (strings op a b) := by
  cases op <;> trivial

theorem unrelated_failsOnly (op : BinaryOp) (left right : Value) :
    FailsOnly IsOperational (unrelated op left right) := by
  cases op <;> trivial

theorem binary_failsOnly (op : BinaryOp) (left right : Value) :
    FailsOnly IsOperational (binary op left right) := by
  unfold binary
  split
  · split
    · trivial
    · split
      · exact integers_failsOnly ..
      · exact unrelated_failsOnly ..
  · exact singles_failsOnly ..
  · exact doubles_failsOnly ..
  · exact bools_failsOnly ..
  · exact compareAs_failsOnly ..
  · exact strings_failsOnly ..
  · split
    · exact compareAs_failsOnly ..
    · exact unrelated_failsOnly ..
  · exact unrelated_failsOnly ..

theorem arrayElement_failsOnly (array index : Value) :
    FailsOnly IsOperational (arrayElement array index) := by
  unfold arrayElement
  split
  · trivial
  · split
    · trivial
    · split <;> trivial

theorem negate_failsOnly (op : UnaryOp) (operand : Value) :
    FailsOnly IsOperational (negate op operand) := by
  unfold negate
  split
  · split
    · trivial
    · split
      · split <;> trivial
      · trivial
  all_goals trivial

theorem complement_failsOnly (op : UnaryOp) (operand : Value) :
    FailsOnly IsOperational (complement op operand) := by
  unfold complement
  split <;> trivial

theorem arrayLength_failsOnly (operand : Value) :
    FailsOnly IsOperational (arrayLength operand) := by
  unfold arrayLength
  split
  · trivial
  · split <;> trivial

theorem unary_failsOnly (op : UnaryOp) (operand : Value) :
    FailsOnly IsOperational (unary op operand) := by
  unfold unary
  split
  · trivial
  · exact negate_failsOnly ..
  · exact negate_failsOnly ..
  · split
    · trivial
    · exact complement_failsOnly ..
  · exact complement_failsOnly ..
  · exact arrayLength_failsOnly ..
  all_goals trivial

end Operators

namespace Step

theorem builtinResult_failsOnly (op : BinaryOp) (lifting : Lifting) (l r : Value) :
    FailsOnly IsOperational (builtinResult op lifting l r) := by
  unfold builtinResult
  split
  · trivial
  · exact Operators.binary_failsOnly op l r

theorem applyUnary_failsOnly (op : UnaryOp) (lifted : Bool) (source target : Ty) (v : Value) :
    FailsOnly IsOperational (applyUnary op lifted source target v) := by
  have converted (checked : Bool) :
      FailsOnly IsOperational (Convert.convert v source target checked) :=
    (Convert.convert_failsOnly v source target checked).imp fun _ =>
      Convert.isOperational_of_mayFail
  unfold applyUnary
  split
  · exact converted false
  · exact converted true
  · trivial
  · split
    · trivial
    · split
      · trivial
      · exact Operators.unary_failsOnly ..

end Step

end ExprTree
