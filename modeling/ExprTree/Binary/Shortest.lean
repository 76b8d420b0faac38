import ExprTree.Binary.Format

/-!
# The shortest decimal text of a floating-point number

A number is printed with the fewest decimal digits that read back as the same number, and with the
digits nearest to it among those. The reals that round to a number form an interval, with its ends
included when the significand is even. The search goes through the grids `10 ^ e` from coarse to
fine and stops at the first one with a point in the interval: if any point of a grid lies there, so
does one of the two neighbours of the number on that grid.

## Main definitions

* `Binary.Decimal`: digits and a power of ten.
* `Format.shortest`: the shortest decimal of a finite non-zero number.
* `Format.text`: the printed form, which is always positional.
-/

set_option autoImplicit false

namespace ExprTree.Binary

/-- The number `digits * 10 ^ exponent`. -/
structure Decimal where
  digits : Nat
  exponent : Int
deriving DecidableEq, Repr

namespace Decimal

/-- Positional text, without an exponent and without a fraction of zeros. -/
def text (d : Decimal) : String :=
  let digits := (toString d.digits).toList
  if 0 ≤ d.exponent then String.ofList (digits ++ List.replicate d.exponent.toNat '0')
  else
    let places := (-d.exponent).toNat
    let padded := List.replicate (places + 1 - digits.length) '0' ++ digits
    let whole := padded.length - places
    String.ofList (padded.take whole ++ '.' :: padded.drop whole)

end Decimal

/-- The reals that round to a number, as quarters of the last place of its significand. -/
structure Rounding where
  low : Nat
  value : Nat
  high : Nat
  /-- Whether the two ends round to the number as well. -/
  closed : Bool
deriving DecidableEq, Repr

namespace Rounding

/-- Whether `p / q` quarters round to the number. -/
def contains (r : Rounding) (p q : Nat) : Bool :=
  if r.closed then r.low * q ≤ p && p ≤ r.high * q else r.low * q < p && p < r.high * q

/-- The point of the grid of step `q / p` quarters that is nearest to the number and rounds to it.
Of two equally near points the greater one is taken. -/
def onGrid (r : Rounding) (p q : Nat) : Option Nat :=
  let below := r.value * p / q
  let hitBelow := r.contains (below * q) p
  let hitAbove := r.contains ((below + 1) * q) p
  match hitBelow, hitAbove with
  | true, true => if r.value * p * 2 < (2 * below + 1) * q then some below else some (below + 1)
  | true, false => some below
  | false, true => some (below + 1)
  | false, false => none

/-- Search the grids `10 ^ e`, `10 ^ (e - 1)`, and so on. A quarter is `2 ^ power`. -/
def search (r : Rounding) (power : Int) : Nat → Int → Option Decimal
  | 0, _ => none
  | fuel + 1, e =>
    let p := Nat.pow 2 power.toNat * Nat.pow 10 (-e).toNat
    let q := Nat.pow 2 (-power).toNat * Nat.pow 10 e.toNat
    match r.onGrid p q with
    | some digits => some ⟨digits, e⟩
    | none => search r power fuel (e - 1)

end Rounding

namespace Format

/-- The interval that rounds to a finite number, and the power of two of its quarters. Below a power
of two the gap to the next number is half as wide. -/
def rounding (f : Format) (bits : Nat) : Rounding × Int :=
  let (m, shift) := f.significand bits
  let narrow := m = Nat.pow 2 f.fractionBits && 0 < shift
  (⟨if narrow then 4 * m - 1 else 4 * m - 2, 4 * m, 4 * m + 2, m % 2 = 0⟩,
    (shift : Int) - f.scale - 2)

/-- The shortest decimal of a finite non-zero number. The first grid tried is coarser than the
number itself, and no number needs more than `precision` digits. -/
def shortest (f : Format) (bits : Nat) : Decimal :=
  let (r, power) := f.rounding bits
  let top := ((r.value.log2 : Int) + power) * 30103 / 100000 + 2
  (r.search power (f.precision + 3) top).getD ⟨0, 0⟩

/-- Printed form of a number: `NaN`, `inf`, or a signed positional decimal. -/
def text (f : Format) (bits : Nat) : String :=
  let sign := if f.isNegative bits then "-" else ""
  match f.decode bits with
  | .nan => "NaN"
  | .infinite _ => sign ++ "inf"
  | .finite _ 0 => sign ++ "0"
  | .finite _ _ => sign ++ (f.shortest bits).text

end Format

end ExprTree.Binary
