import ExprTree.Ty.Basic
import ExprTree.Ty.Hierarchy

/-!
# Assignability

When a value of one static type can be stored in a slot of another without a conversion. Anything
can be stored as `object`, a plain value in a nullable slot, an instance of a class wherever one of
its supertypes is expected, and an array of references wherever its elements could be stored.

## Main definitions

* `Ty.accepts`: whether a slot of one type takes values of another.
-/

set_option autoImplicit false

namespace ExprTree.Ty

/-- Whether a slot of type `target` accepts values statically typed `source`. -/
def accepts (target source : Ty) : Bool :=
  target = source ||
    match target, source with
    | object, _ => true
    | nullable inner, s => inner = s
    | ofClass t, ofClass s => s.derivesFrom t
    | array t, array s => !s.isValueType && accepts t s
    | _, _ => false
termination_by structural target

@[simp] theorem accepts_self (t : Ty) : t.accepts t = true := by
  unfold accepts
  simp

@[simp] theorem object_accepts (t : Ty) : object.accepts t = true := by
  unfold accepts
  simp

end ExprTree.Ty
