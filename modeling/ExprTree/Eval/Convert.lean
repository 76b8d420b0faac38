import ExprTree.World

/-!
# Conversions

Converting values between types, and testing what type they have.

Integers, characters and enum values are converted through the integer they stand for,
floating-point numbers through their integer part. An unchecked conversion to fewer bits keeps the
low bits; a checked one fails when the value does not fit. From a reference type to a value type a
conversion unboxes: the value must have exactly that type already. Null converts to every type that
admits it.

## Main definitions

* `Convert.convert`: the conversion operators.
* `Convert.typeAs`, `Convert.typeIs`: the cast that answers null, and the test.
-/

set_option autoImplicit false

namespace ExprTree.Convert

/-- Types whose values are reached through an integer: the integer types and `char`. -/
inductive IntegralTarget where
  | int (kind : IntTy)
  | char
deriving DecidableEq, Repr

namespace IntegralTarget

/-- The target as an integer type; a character counts as 16 bits without a sign. -/
def range : IntegralTarget → IntTy
  | int k => k
  | char => .u16

/-- The target as a type. -/
def ty : IntegralTarget → Ty
  | int k => .int k
  | char => .char

end IntegralTarget

/-- The value of an integral target with the low bits of `n`. Surrogates are no characters. -/
def narrow (v : Value) (target : IntegralTarget) (n : Int) : Except EvalError Value :=
  match target with
  | .int k => .ok (.ofInt k n)
  | .char =>
    let unit := (Word.wrap .u16 n).val.toNat
    if unit.isValidChar then .ok (.char (Char.ofNat unit)) else .error (.badCast v .char)

/-- Whether an integral target can hold `n`. -/
def fits (target : IntegralTarget) (n : Int) : Bool :=
  target.range.lo ≤ n && n ≤ target.range.hi

/-- Convert the integer `n` that `v` stands for. -/
def integral (v : Value) (target : IntegralTarget) (n : Int) (checked : Bool) :
    Except EvalError Value :=
  if checked && !fits target n then .error (.conversionOverflow v target.ty)
  else narrow v target n

/-- What stands for a floating-point number whose integer part no integral target can hold: zero for
NaN, and the integer beyond all of them for an infinity. -/
def saturated (format : Binary.Format) (bits : Nat) : Int :=
  match format.integerPart bits with
  | some n => n
  | none =>
    match format.decode bits with
    | .infinite negative => if negative then -Nat.pow 2 127 else Nat.pow 2 127 - 1
    | _ => 0

/-- Convert a floating-point number. Without the check a number out of range becomes the nearest
value of the target. -/
def fromFloat (v : Value) (format : Binary.Format) (bits : Nat) (target : IntegralTarget)
    (checked : Bool) : Except EvalError Value :=
  if checked then
    match format.integerPart bits with
    | some n => integral v target n true
    | none => .error (.conversionOverflow v target.ty)
  else
    integral v target (max target.range.lo (min target.range.hi (saturated format bits))) false

/-- Convert a value to an integral target. -/
def toIntegral (v : Value) (target : IntegralTarget) (checked : Bool) : Except EvalError Value :=
  match v with
  | .f32 bits => fromFloat v Binary.single bits.toNat target checked
  | .f64 bits => fromFloat v Binary.double bits.toNat target checked
  | _ =>
    match v.integer? with
    | some n => integral v target n checked
    | none => .error (.badCast v target.ty)

/-- Convert a number to an `f32`, by way of an `f64`. -/
def toSingle (v : Value) : Except EvalError Value :=
  match v.double? with
  | some bits => .ok (.f32 (.ofNat (Binary.double.recode Binary.single bits.toNat)))
  | none => .error (.badCast v .f32)

/-- Convert a number to an `f64`. -/
def toDouble (v : Value) : Except EvalError Value :=
  match v.double? with
  | some bits => .ok (.f64 bits)
  | none => .error (.badCast v .f64)

/-- The enum value whose raw value is the integer that `v` stands for. -/
def toEnum (v : Value) (d : EnumDef) : Except EvalError Value :=
  match v.integer?.bind (Word.ofInt? .i64) with
  | some raw => .ok (.ofEnum d raw)
  | none => .error (.badCast .null (.ofEnum d))

mutual

/-- Convert a value that is not null to a value type, from a value type. -/
def convertValue (v : Value) (target : Ty) (checked : Bool) : Except EvalError Value :=
  if v.runtimeTy = some target then .ok v
  else match target with
    | .ofEnum d => do toEnum (← convertUnderlying v d checked) d
    | .f32 => toSingle v
    | .f64 => toDouble v
    | .int k => toIntegral v (.int k) checked
    | .char => toIntegral v .char checked
    | target => .error (.badCast v target)

/-- Convert a value to the type that an enum rests on. -/
def convertUnderlying (v : Value) (d : EnumDef) (checked : Bool) : Except EvalError Value :=
  match d with
  | .mk _ _ underlying _ => convertValue v underlying checked

end

/-- Convert a value that is not null out of a reference type. -/
def unbox (v : Value) (target : Ty) : Except EvalError Value :=
  if v.runtimeTy = some target then .ok v else .error (.badCast v target)

/-- Convert a value of a static type to another type. -/
def convert (v : Value) (source target : Ty) (checked : Bool) : Except EvalError Value :=
  match target with
  | .nullable inner => if v.isNull then .ok .null else convert v source.nonNullable inner checked
  | target =>
    if v.isNull then if target.canBeNull then .ok .null else .error (.badCast v target)
    else if !target.isValueType then
      if v.isInstanceOf target then .ok v else .error (.badCast v target)
    else if !source.nonNullable.isValueType then unbox v target
    else convertValue v target checked
termination_by structural target

/-- The value if it is an instance of the type, else null. -/
def typeAs (v : Value) (target : Ty) : Value := if v.isInstanceOf target then v else .null

/-- Whether the value is an instance of the type and not null. -/
def typeIs (v : Value) (target : Ty) : Bool := !v.isNull && v.isInstanceOf target

end ExprTree.Convert
