import ExprTree.World

/-!
# Ready-made member bodies

Bodies of host members that need no host of their own: constants, failures, the parts of a call, and
new objects.

## Main definitions

* `HostBody.constant`, `HostBody.failing`: bodies that always answer alike.
* `HostBody.receiver`, `HostBody.argument`, `HostBody.state`: bodies that answer with a part of the
  call.
* `HostBody.sum`, `HostBody.join`, `HostBody.create`: bodies that put the arguments together.
-/

set_option autoImplicit false

namespace ExprTree.HostBody

/-- Gives the same value on every call. -/
def constant (v : Value) : HostBody := fun _ _ => return v

/-- Fails on every call. -/
def failing (message : String) : HostBody := fun _ _ => throw ⟨message⟩

/-- Gives the receiver, null without one. -/
def receiver : HostBody := fun r _ => return r.getD .null

/-- Gives argument `i`, null without one. -/
def argument (i : Nat) : HostBody := fun _ args => return args[i]?.getD .null

/-- Part `i` of the state of a receiver. -/
def part? (i : Nat) : Option Value → Option Value
  | some (.object _ _ state) => state[i]?
  | _ => none

/-- Gives part `i` of the receiver's state. -/
def state (i : Nat) : HostBody := fun r _ =>
  match part? i r with
  | some v => return v
  | none => throw ⟨"no state"⟩

/-- The number that an `i32` adds to a sum; other values add nothing. -/
def summand : Value → Int
  | .int w => if w.kind = .i32 then w.val else 0
  | _ => 0

/-- Gives the sum of the `i32` arguments, wrapped. -/
def sum : HostBody := fun _ args =>
  return .ofInt .i32 (args.foldl (fun n v => n + summand v) 0)

/-- Gives the printed arguments, joined. -/
def join (separator : String) : HostBody := fun _ args =>
  return .str (String.intercalate separator (args.map Value.text))

/-- Gives a new object whose state is the arguments. -/
def create (c : ClassDef) : HostBody := fun _ args => return .object (← mint) c args

end ExprTree.HostBody
