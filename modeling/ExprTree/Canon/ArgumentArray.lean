import ExprTree.Expr.Rewrite
import ExprTree.Value.Basic
import Std.Data.TreeMap.Lemmas

/-!
# Parameters as one argument array

The calling convention of compiled lambdas: a lambda over any number of parameters becomes a lambda
over a single array of objects, in which every reference to the `i`-th parameter is element `i` of
the array, converted back to the declared type.

## Main definitions

* `ArgumentArray.positions`: where each parameter stands.
* `ArgumentArray.slot`: the expression that reads one argument.
* `ArgumentArray.rewrite`: a body with its parameters turned into slots.

## Main results

* `ArgumentArray.getElem?_positions`: of two equal declarations the later position counts.
-/

set_option autoImplicit false

namespace ExprTree.ArgumentArray

/-- Positions and declared types of parameters. -/
abbrev Positions := Std.TreeMap ParamId (Nat × Ty)

namespace Positions

/-- Note where a parameter stands, in place of what was noted before. -/
def note (positions : Positions) (entry : Expr × Nat) : Positions :=
  match entry.1.parameter? with
  | some p => positions.insert p.id (entry.2, p.ty)
  | none => positions

/-- What an entry says about the parameter `id`. -/
def place? (id : ParamId) (entry : Expr × Nat) : Option (Nat × Ty) :=
  entry.1.parameter?.bind fun p => if p.id = id then some (entry.2, p.ty) else none

theorem getElem?_note (positions : Positions) (entry : Expr × Nat) (id : ParamId) :
    (positions.note entry)[id]? = (place? id entry).or positions[id]? := by
  unfold note place?
  split
  · next p h =>
    rw [h, Option.bind_some, Std.TreeMap.getElem?_insert]
    by_cases hp : p.id = id <;> simp [hp]
  · next h => rw [h, Option.bind_none, Option.none_or]

theorem getElem?_foldl_note (positions : Positions) (entries : List (Expr × Nat)) (id : ParamId) :
    (entries.foldl note positions)[id]? =
      (entries.reverse.findSome? (place? id)).or positions[id]? := by
  induction entries generalizing positions with
  | nil => rfl
  | cons entry entries ih =>
    rw [List.foldl_cons, ih, getElem?_note, List.reverse_cons, List.findSome?_append,
      Option.or_assoc]
    simp

end Positions

/-- Where each parameter stands, and its declared type. Expressions that are not parameters take a
position of their own. -/
def positions (params : List Expr) : Positions := params.zipIdx.foldl Positions.note {}

theorem getElem?_positions (params : List Expr) (id : ParamId) :
    (positions params)[id]? = params.zipIdx.reverse.findSome? (Positions.place? id) := by
  rw [positions, Positions.getElem?_foldl_note]
  simp

/-- The name of the array. -/
def name : String := "args"

variable {m : Type → Type} [Monad m] [MonadMint m]

/-- Argument `i` of the array, as a value of a type. -/
def slot (args : Param) (i : Nat) (ty : Ty) : m Expr := do
  let position ← Expr.mkLiteral (.ofInt .i32 i)
  let element ← Expr.mkIndex (.parameter args) none [position]
  Expr.mkUnaryTo .convert element ty

/-- The slot for a parameter with a position. -/
def replace (args : Param) (positions : Positions) : Expr → Option (m Rewritten)
  | .parameter p => positions[p.id]?.map fun (i, ty) => do
      return .changed (← slot args i ty)
  | _ => none

/-- The lambda over an argument array that does what `body` does over `params`. -/
def rewrite (body : Expr) (params : List Expr) : m Lambda := do
  let args ← Expr.mkParam name (.array .object)
  let rewritten ← body.rewrite (replace args (positions params)) Expr.asIs
  return ⟨[args], rewritten.on body⟩

end ExprTree.ArgumentArray
