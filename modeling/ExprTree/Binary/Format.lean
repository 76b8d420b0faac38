/-!
# Binary floating-point formats

Reading and writing the bits of a binary floating-point number in exact integer arithmetic.
Every finite number of a format is a whole multiple of its least positive one, so a finite number
is a sign and a natural number counted in that unit. Rounding, widening, remainders and the integer
part are then statements about natural numbers.

## Main definitions

* `Binary.Format`: precision and exponent width; `single` and `double`.
* `Binary.Datum`: not a number, an infinity, or a signed multiple of the unit.
* `Format.decode`, `Format.encode`: bits to datum, and the nearest number's bits.
* `Format.remainder`, `Format.integerPart`: exact operations on the bits.
-/

set_option autoImplicit false

namespace ExprTree.Binary

/-- A binary interchange format: significand precision (hidden bit included) and exponent width. -/
structure Format where
  precision : Nat
  exponentBits : Nat
deriving DecidableEq, Repr

/-- The format of `f32`. -/
def single : Format := ⟨24, 8⟩

/-- The format of `f64`. -/
def double : Format := ⟨53, 11⟩

/-- What the bits of a number stand for. A finite magnitude counts units of `2 ^ -scale`. -/
inductive Datum where
  | nan
  | infinite (negative : Bool)
  | finite (negative : Bool) (units : Nat)
deriving DecidableEq, Repr

namespace Format

/-- The unit of the format is `2 ^ -scale`, its least positive number. -/
def scale (f : Format) : Nat := Nat.pow 2 (f.exponentBits - 1) - 3 + f.precision

/-- Bits of the fraction field. -/
def fractionBits (f : Format) : Nat := f.precision - 1

/-- The bits of positive infinity, which are also the first bits too large for a finite number. -/
def infinityBits (f : Format) : Nat :=
  (Nat.pow 2 f.exponentBits - 1) * Nat.pow 2 f.fractionBits

/-- The sign bit. -/
def signBit (f : Format) : Nat := Nat.pow 2 (f.exponentBits + f.fractionBits)

/-- The bits of the canonical quiet NaN. -/
def nanBits (f : Format) : Nat := f.infinityBits + Nat.pow 2 (f.fractionBits - 1)

/-- Whether the sign bit is set. -/
def isNegative (f : Format) (bits : Nat) : Bool := f.signBit ≤ bits

/-- The bits without the sign. -/
def magnitudeBits (f : Format) (bits : Nat) : Nat := bits % f.signBit

/-- The significand and the power of two it is shifted by, in units. -/
def significand (f : Format) (bits : Nat) : Nat × Nat :=
  let magnitude := f.magnitudeBits bits
  let exponent := magnitude / Nat.pow 2 f.fractionBits
  let fraction := magnitude % Nat.pow 2 f.fractionBits
  if exponent = 0 then (fraction, 0) else (fraction + Nat.pow 2 f.fractionBits, exponent - 1)

/-- The number that the bits stand for. -/
def decode (f : Format) (bits : Nat) : Datum :=
  let magnitude := f.magnitudeBits bits
  if f.infinityBits < magnitude then .nan
  else if magnitude = f.infinityBits then .infinite (f.isNegative bits)
  else
    let (m, shift) := f.significand bits
    .finite (f.isNegative bits) (m * Nat.pow 2 shift)

/-- Half-way cases go to the even neighbour. -/
def divideToEven (n d : Nat) : Nat :=
  let q := n / d
  let r := n % d
  if 2 * r < d then q else if d < 2 * r then q + 1 else q + q % 2

/-- The bits of the number of the format nearest to `n * 2 ^ -fractional` units. A magnitude beyond
the greatest finite number becomes an infinity. -/
def encodeMagnitude (f : Format) (n fractional : Nat) : Nat :=
  let dropped := max fractional (n.log2 + 1 - f.precision)
  let rounded := divideToEven n (Nat.pow 2 dropped)
  min (rounded + (dropped - fractional) * Nat.pow 2 f.fractionBits) f.infinityBits

/-- Put a sign on the bits of a magnitude. -/
def withSign (f : Format) (negative : Bool) (magnitude : Nat) : Nat :=
  if negative then magnitude + f.signBit else magnitude

/-- The nearest number's bits, for a datum whose finite magnitudes count `2 ^ -scale`. -/
def encode (f : Format) (scale : Nat) : Datum → Nat
  | .nan => f.nanBits
  | .infinite negative => f.withSign negative f.infinityBits
  | .finite negative units =>
    f.withSign negative
      (if f.scale ≤ scale then f.encodeMagnitude units (scale - f.scale)
        else f.encodeMagnitude (units * Nat.pow 2 (f.scale - scale)) 0)

/-- The same number in another format, rounded to nearest when it has to be. -/
def recode (source target : Format) (bits : Nat) : Nat :=
  target.encode source.scale (source.decode bits)

/-- The nearest number to an integer. -/
def ofInt (f : Format) (n : Int) : Nat :=
  f.encode 0 (.finite (n < 0) n.natAbs)

/-- The sign flipped, whatever the bits stand for. -/
def negate (f : Format) (bits : Nat) : Nat :=
  if f.isNegative bits then bits - f.signBit else bits + f.signBit

/-- The remainder of the truncated quotient. It has the sign of the dividend, and is not a number
when the dividend is infinite or the divisor is zero. -/
def remainder (f : Format) (a b : Nat) : Nat :=
  match f.decode a, f.decode b with
  | .nan, _ | _, .nan | .infinite _, _ => f.nanBits
  | .finite _ _, .infinite _ => a
  | .finite negative m, .finite _ n =>
    if n = 0 then f.nanBits else f.encode f.scale (.finite negative (m % n))

/-- The integer part, rounded towards zero; `none` for infinities and NaN. -/
def integerPart (f : Format) (bits : Nat) : Option Int :=
  match f.decode bits with
  | .finite negative units =>
    let whole : Int := (units / Nat.pow 2 f.scale : Nat)
    some (if negative then -whole else whole)
  | .nan | .infinite _ => none

end Format

end ExprTree.Binary
