import ExprTree.World

/-!
# Built-in operators

Operators on values that are not null, and what short-circuit and lifted operators make of null. The
two operands of an arithmetic or comparison operator have one type; a shift takes an `i32` count.

Integer arithmetic wraps, unless the operator is a checked one, which fails on overflow. Division
and remainder always check: a zero divisor and the quotient of the least value by minus one fail.

## Main definitions

* `Operators.binary`, `Operators.unary`: the operators.
* `Operators.andAlso`, `Operators.orElse`: three-valued logic once both operands are known.
* `Operators.liftedNull`: a lifted operator with a null operand.
* `Operators.arrayElement`: array indexing.
-/

set_option autoImplicit false

namespace ExprTree.Operators

/-! ### Comparison -/

/-- The answer of a comparison operator to how two operands are ordered. -/
def comparisonOf (op : BinaryOp) (o : Ordering) : Option Bool :=
  match op with
  | .equal => some (o = .eq)
  | .notEqual => some (o ≠ .eq)
  | .lessThan => some (o = .lt)
  | .lessThanOrEqual => some (o ≠ .gt)
  | .greaterThan => some (o = .gt)
  | .greaterThanOrEqual => some (o ≠ .lt)
  | _ => none

/-- Compare two operands that are ordered as given. -/
def compareAs (op : BinaryOp) (o : Ordering) (left right : Value) : Except EvalError Value :=
  match comparisonOf op o with
  | some b => .ok (.bool b)
  | none => .error (.badOperands op left right)

/-! ### Integers -/

/-- The exact result, if the type holds it. -/
def checkedInt (op : BinaryOp) (k : IntTy) (n : Int) : Except EvalError Value :=
  match Word.ofInt? k n with
  | some w => .ok (.int w)
  | none => .error (.binaryOverflow op (.int k))

/-- An operator on two integers of type `k`. -/
def integers (op : BinaryOp) (k : IntTy) (a b : Word) : Except EvalError Value :=
  match op with
  | .add => .ok (.ofInt k (a.val + b.val))
  | .subtract => .ok (.ofInt k (a.val - b.val))
  | .multiply => .ok (.ofInt k (a.val * b.val))
  | .addChecked => checkedInt op k (a.val + b.val)
  | .subtractChecked => checkedInt op k (a.val - b.val)
  | .multiplyChecked => checkedInt op k (a.val * b.val)
  | .divide =>
    if b.val = 0 then .error .divideByZero else checkedInt op k (a.val.tdiv b.val)
  | .modulo =>
    if b.val = 0 then .error .divideByZero
    else
      -- The remainder of a quotient that overflows overflows as well.
      match Word.ofInt? k (a.val.tdiv b.val) with
      | some _ => .ok (.ofInt k (a.val.tmod b.val))
      | none => .error (.binaryOverflow op (.int k))
  | .and => .ok (.int (.ofPattern k (a.pattern &&& b.pattern)))
  | .or => .ok (.int (.ofPattern k (a.pattern ||| b.pattern)))
  | .exclusiveOr => .ok (.int (.ofPattern k (a.pattern ^^^ b.pattern)))
  | _ => compareAs op (compare a.val b.val) (.int a) (.int b)

/-- Whether integers of a type can be shifted. -/
def shiftable : IntTy → Bool
  | .i32 | .u32 | .i64 | .u64 => true
  | .i8 | .u8 | .i16 | .u16 => false

/-- Whether the operator shifts. -/
def isShift : BinaryOp → Bool
  | .leftShift | .rightShift => true
  | _ => false

/-- Shift an integer by a count. -/
def shift (op : BinaryOp) (w count : Word) : Value :=
  .int (if op = .leftShift then w.shiftLeft count.val else w.shiftRight count.val)

/-! ### Floating-point numbers -/

/-- An operator on two numbers of the single format. -/
def singles (op : BinaryOp) (a b : UInt32) : Except EvalError Value :=
  let x := Float32.ofBits a
  let y := Float32.ofBits b
  match op with
  | .add | .addChecked => .ok (.f32 (x + y).toBits)
  | .subtract | .subtractChecked => .ok (.f32 (x - y).toBits)
  | .multiply | .multiplyChecked => .ok (.f32 (x * y).toBits)
  | .divide => .ok (.f32 (x / y).toBits)
  | .modulo => .ok (.f32 (.ofNat (Binary.single.remainder a.toNat b.toNat)))
  | .power => .ok (.f32 (x.pow y).toBits)
  | .equal => .ok (.bool (x == y))
  | .notEqual => .ok (.bool (x != y))
  | .lessThan => .ok (.bool (x < y))
  | .lessThanOrEqual => .ok (.bool (x ≤ y))
  | .greaterThan => .ok (.bool (y < x))
  | .greaterThanOrEqual => .ok (.bool (y ≤ x))
  | _ => .error (.badOperands op (.f32 a) (.f32 b))

/-- An operator on two numbers of the double format. -/
def doubles (op : BinaryOp) (a b : UInt64) : Except EvalError Value :=
  let x := Float.ofBits a
  let y := Float.ofBits b
  match op with
  | .add | .addChecked => .ok (.f64 (x + y).toBits)
  | .subtract | .subtractChecked => .ok (.f64 (x - y).toBits)
  | .multiply | .multiplyChecked => .ok (.f64 (x * y).toBits)
  | .divide => .ok (.f64 (x / y).toBits)
  | .modulo => .ok (.f64 (.ofNat (Binary.double.remainder a.toNat b.toNat)))
  | .power => .ok (.f64 (x.pow y).toBits)
  | .equal => .ok (.bool (x == y))
  | .notEqual => .ok (.bool (x != y))
  | .lessThan => .ok (.bool (x < y))
  | .lessThanOrEqual => .ok (.bool (x ≤ y))
  | .greaterThan => .ok (.bool (y < x))
  | .greaterThanOrEqual => .ok (.bool (y ≤ x))
  | _ => .error (.badOperands op (.f64 a) (.f64 b))

/-! ### Truth values and texts -/

/-- An operator on two truth values. -/
def bools (op : BinaryOp) (a b : Bool) : Except EvalError Value :=
  match op with
  | .and | .andAlso => .ok (.bool (a && b))
  | .or | .orElse => .ok (.bool (a || b))
  | .exclusiveOr | .notEqual => .ok (.bool (a ^^ b))
  | .equal => .ok (.bool (a == b))
  | _ => .error (.badOperands op (.bool a) (.bool b))

/-- An operator on two texts. -/
def strings (op : BinaryOp) (a b : String) : Except EvalError Value :=
  match op with
  | .add => .ok (.str (a ++ b))
  | .equal => .ok (.bool (a == b))
  | .notEqual => .ok (.bool (a != b))
  | _ => .error (.badOperands op (.str a) (.str b))

/-- Operands without operators of their own can still be told apart. -/
def unrelated (op : BinaryOp) (left right : Value) : Except EvalError Value :=
  match op with
  | .equal => .ok (.bool (left == right))
  | .notEqual => .ok (.bool (!(left == right)))
  | _ => .error (.badOperands op left right)

/-! ### Binary operators -/

/-- A binary operator on two operands that are not null. -/
def binary (op : BinaryOp) (left right : Value) : Except EvalError Value :=
  match left, right with
  | .int a, .int b =>
    if isShift op && shiftable a.kind && b.kind = .i32 then .ok (shift op a b)
    else if a.kind = b.kind then integers op a.kind a b
    else unrelated op left right
  | .f32 a, .f32 b => singles op a b
  | .f64 a, .f64 b => doubles op a b
  | .bool a, .bool b => bools op a b
  | .char a, .char b => compareAs op (compare a.toNat b.toNat) left right
  | .str a, .str b => strings op a b
  | .ofEnum d a, .ofEnum e b =>
    if d = e then compareAs op (compare a.val b.val) left right else unrelated op left right
  | _, _ => unrelated op left right

/-! ### Null operands -/

/-- `left && right`, where the left operand did not decide it. -/
def andAlso (left right : Value) : Value :=
  match left, right with
  | .bool true, right => right
  | _, .bool false => .bool false
  | _, _ => .null

/-- `left || right`, where the left operand did not decide it. -/
def orElse (left right : Value) : Value :=
  match left, right with
  | .bool false, right => right
  | _, .bool true => .bool true
  | _, _ => .null

/-- A lifted operator when at least one operand is null. -/
def liftedNull (op : BinaryOp) (lifting : Lifting) (left right : Value) : Value :=
  if lifting.toNull then .null
  else
    let bothNull := left.isNull && right.isNull
    match op with
    | .equal => .bool bothNull
    | .notEqual => .bool !bothNull
    | _ => .bool false

/-! ### Arrays -/

/-- The index that a value stands for. -/
def arrayIndex? : Value → Option Int
  | .int w => if w.kind = .i32 || w.kind = .i64 then some w.val else none
  | _ => none

/-- The element of an array at an `i32` or `i64` index. -/
def arrayElement (array index : Value) : Except EvalError Value :=
  match array.items? with
  | none => .error (.unsupported ("indexing " ++ array.text))
  | some items =>
    match arrayIndex? index with
    | none => .error (.unsupported ("array index " ++ index.text))
    | some i =>
      match (if 0 ≤ i then items[i.toNat]? else none) with
      | some v => .ok v
      | none => .error (.indexOutOfRange i items.length)

/-! ### Unary operators -/

/-- Types of integers that can be negated. -/
def negatable : IntTy → Bool
  | .u8 | .u16 => false
  | .i8 | .i16 | .i32 | .u32 | .i64 | .u64 => true

/-- The negated operand. -/
def negate (op : UnaryOp) (operand : Value) : Except EvalError Value :=
  match operand with
  | .int w =>
    if !negatable w.kind then .error (.badOperand op operand)
    else if op = .negateChecked then
      match Word.ofInt? w.kind (-w.val) with
      | some n => .ok (.int n)
      | none => .error (.overflow ("negation of " ++ w.kind.text))
    else .ok (.ofInt w.kind (-w.val))
  | .f32 bits => .ok (.f32 (.ofNat (Binary.single.negate bits.toNat)))
  | .f64 bits => .ok (.f64 (.ofNat (Binary.double.negate bits.toNat)))
  | _ => .error (.badOperand op operand)

/-- The operand with its bits flipped. -/
def complement (op : UnaryOp) (operand : Value) : Except EvalError Value :=
  match operand with
  | .int w => .ok (.int w.complement)
  | _ => .error (.badOperand op operand)

/-- The number of items of an array. -/
def arrayLength (operand : Value) : Except EvalError Value :=
  match operand.items? with
  | none => .error (.badOperand .arrayLength operand)
  | some items =>
    match Word.ofInt? .i32 items.length with
    | some n => .ok (.int n)
    | none => .error (.overflow "array length")

/-- A unary operator, conversions apart, on an operand that is not null. -/
def unary (op : UnaryOp) (operand : Value) : Except EvalError Value :=
  match op with
  | .unaryPlus => .ok operand
  | .negate | .negateChecked => negate op operand
  | .not =>
    match operand with
    | .bool b => .ok (.bool !b)
    | _ => complement op operand
  | .onesComplement => complement op operand
  | .arrayLength => arrayLength operand
  | .convert | .convertChecked | .typeAs => .error (.badOperand op operand)

end ExprTree.Operators
