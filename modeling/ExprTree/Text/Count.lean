/-!
# Reading a count from free text

A setting given as text holds a count when, without the blanks around it, it is a non-empty run of
decimal digits, perhaps after a plus sign, whose value fits 64 bits.

## Main definitions

* `Text.isBlank`: the characters of the Unicode property `White_Space`.
* `Text.readCount?`: the count that a text holds, if any.
-/

set_option autoImplicit false

namespace ExprTree.Text

/-- Whether a character is white space. -/
def isBlank (c : Char) : Bool :=
  let n := c.toNat
  (9 ≤ n && n ≤ 13) || n = 0x20 || n = 0x85 || n = 0xa0 || n = 0x1680 || (0x2000 ≤ n && n ≤ 0x200a)
    || n = 0x2028 || n = 0x2029 || n = 0x202f || n = 0x205f || n = 0x3000

/-- A text without the blanks at both ends. -/
def trimBlanks (cs : List Char) : List Char :=
  ((cs.dropWhile isBlank).reverse.dropWhile isBlank).reverse

/-- The value of a non-empty run of decimal digits. -/
def digitsValue? (cs : List Char) : Option Nat :=
  if cs.isEmpty || !cs.all Char.isDigit then none
  else some (cs.foldl (fun n c => 10 * n + (c.toNat - '0'.toNat)) 0)

/-- The greatest count that can be set. -/
def countLimit : Nat := Nat.pow 2 64 - 1

/-- The count that a text holds. -/
def readCount? (s : String) : Option Nat := do
  let digits := match trimBlanks s.toList with
    | '+' :: rest => rest
    | cs => cs
  let n ← digitsValue? digits
  if n ≤ countLimit then some n else none

end ExprTree.Text
