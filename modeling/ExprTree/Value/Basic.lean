import ExprTree.Binary.Format
import ExprTree.Ty.Assignable
import ExprTree.Expr.Build

/-!
# Values

Views of values, their equality, and what types they are instances of.

Equality of values is by content, except for objects, quoted expressions and captured failures,
which are equal when they are the same instance. Floating-point numbers are equal when their bits
are, so a NaN is equal to itself and the two zeros differ.

## Main definitions

* `Value.integer?`, `Value.double?`: the numeric views.
* `Value.isInstanceOf`: whether a slot of a type can hold the value.
* `Value.beq`: equality of values, the `==` of the type.
-/

set_option autoImplicit false

namespace ExprTree

/-- Identity of a captured failure. -/
def Deferred.id : Deferred → FailureId
  | mk i _ => i

/-- What was captured. -/
def Deferred.cause : Deferred → Failure
  | mk _ c => c

namespace Value

/-- Whether this is null. -/
def isNull : Value → Bool
  | null => true
  | _ => false

/-- The truth value, of a truth value. -/
def bool? : Value → Option Bool
  | bool b => some b
  | _ => none

/-- The integer that an integer, a character or an enum value stands for. -/
def integer? : Value → Option Int
  | int w => some w.val
  | char c => some c.toNat
  | ofEnum _ raw => some raw.val
  | _ => none

/-- A number as the bits of an `f64`; integers are rounded to the nearest one. -/
def double? : Value → Option UInt64
  | f32 bits => some (.ofNat (Binary.single.recode Binary.double bits.toNat))
  | f64 bits => some bits
  | v => v.integer?.map fun n => .ofNat (Binary.double.ofInt n)

/-- The items of an array. -/
def items? : Value → Option (List Value)
  | array _ items => some items
  | _ => none

/-- The quoted lambda, if the value is one. -/
def quoted? : Value → Option Lambda
  | lambda e => e.lambda?
  | _ => none

/-- An integer as a value of an integer type, reduced into it. -/
def ofInt (k : IntTy) (n : Int) : Value := int (.wrap k n)

/-- Whether a slot of type `target` can hold the value. -/
def isInstanceOf (v : Value) (target : Ty) : Bool :=
  match v.runtimeTy with
  | some t => target.accepts t
  | none => target.canBeNull

/-! ### Equality -/

mutual

/-- Equality of values. -/
def beq : Value → Value → Bool
  | null, null => true
  | void, void => true
  | bool a, bool b => a = b
  | char a, char b => a = b
  | int a, int b => a = b
  | f32 a, f32 b => a = b
  | f64 a, f64 b => a = b
  | str a, str b => a = b
  | ofEnum d a, ofEnum e b => d = e && a = b
  | array s as, array t bs => s = t && beqAll as bs
  | object i _ _, object j _ _ => i = j
  | lambda a, lambda b => a.same b
  | error c, error d => c.id = d.id
  | _, _ => false

/-- Equality of lists of values. -/
def beqAll : List Value → List Value → Bool
  | [], [] => true
  | a :: as, b :: bs => beq a b && beqAll as bs
  | _, _ => false

end

mutual

theorem beq_self : (v : Value) → beq v v = true
  | null | void | bool _ | char _ | int _ | f32 _ | f64 _ | str _ | ofEnum .. => by simp [beq]
  | array _ items => by simp [beq, beqAll_self items]
  | object .. | error _ => by simp [beq]
  | lambda _ => by simp [beq, Expr.same]

theorem beqAll_self : (vs : List Value) → beqAll vs vs = true
  | [] => rfl
  | v :: vs => by simp [beqAll, beq_self v, beqAll_self vs]

end

/-- A value equals itself, so two values that are one object in memory need no comparison. -/
instance : BEq Value := ⟨fun a b => withPtrEq a b (fun _ => beq a b) fun h => h ▸ beq_self a⟩

instance : ReflBEq Value := ⟨fun {v} => beq_self v⟩

end Value

end ExprTree
