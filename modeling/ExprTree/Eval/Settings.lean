import ExprTree.Eval.Expand
import ExprTree.Text.Count

/-!
# Settings

The two numbers that can be set from outside. Each is given as text, and counts only if it can be
read.

## Main definitions

* `Settings.hashDepth`: the depth to which the keys of a cache are hashed.
* `Settings.expansionLimit`: the longest chain of rule applications.
-/

set_option autoImplicit false

namespace ExprTree.Settings

/-- A number given as text, or the default if there is none or it cannot be read. -/
def countOr (default : Nat) (given : Option String) : Nat :=
  (given.bind Text.readCount?).getD default

/-- The hash depth of cache keys. -/
def hashDepth (given : Option String) : Nat := countOr defaultHashDepth given

/-- The limit of expansion. -/
def expansionLimit (given : Option String) : Nat := countOr Registry.defaultLimit given

end ExprTree.Settings
