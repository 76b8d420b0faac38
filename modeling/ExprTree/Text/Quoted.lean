import ExprTree.Text.Glyph

/-!
# Quoted text

Strings and characters are printed between quotes. The quote itself, the backslash and the common
controls have two-character escapes; a character without a glyph is written by its code point.

## Main definitions

* `Text.escape`: the written form of one character under a given quote.
* `Text.quoteString`, `Text.quoteChar`: the two kinds of literal.
-/

set_option autoImplicit false

namespace ExprTree.Text

/-- Lower-case hexadecimal digits of a number. -/
def hexDigits (n : Nat) : List Char := Nat.toDigits 16 n

/-- The written form of a character inside a literal closed by `quote`. -/
def escape (quote c : Char) : List Char :=
  if c = '\x00' then ['\\', '0']
  else if c = '\t' then ['\\', 't']
  else if c = '\n' then ['\\', 'n']
  else if c = '\r' then ['\\', 'r']
  else if c = '\\' || c = quote then ['\\', c]
  else if hasGlyph c then [c]
  else ['\\', 'u', '\x7b'] ++ hexDigits c.toNat ++ ['\x7d']

/-- A string literal. -/
def quoteString (s : String) : String :=
  String.ofList ('\x22' :: s.toList.flatMap (escape '\x22') ++ ['\x22'])

/-- A character literal. -/
def quoteChar (c : Char) : String :=
  String.ofList ('\x27' :: escape '\x27' c ++ ['\x27'])

end ExprTree.Text
