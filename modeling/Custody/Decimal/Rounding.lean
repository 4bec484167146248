import Custody.Decimal.Double

/-!
# Rounding to a double

The double nearest to a quotient of natural numbers, by exact arithmetic: the quotient is scaled so
that its whole part has 53 bits, or counts units of `2 ^ -1074` if it has fewer, and is then rounded
to the nearest integer, ties to even.
-/

namespace Custody.Decimal

/-- `a / b` rounded to the nearest integer, a tie to the even one. -/
def roundDiv (a b : Nat) : Nat :=
  let q := a / b
  let r := a % b
  if 2 * r < b then q
  else if b < 2 * r then q + 1
  else q + q % 2

/-- The magnitude nearest to `a / b`; none when it would be infinite. -/
def nearestQuotient? (a b : Nat) : Option Magnitude :=
  let units := a * unitsPerOne
  let shift := (units / b).log2 - 52
  let mantissa := roundDiv units (b <<< shift)
  if mantissa = 0x20000000000000 then Magnitude.ofParts? 0x10000000000000 (shift + 1)
  else Magnitude.ofParts? mantissa shift

/-- How many digits a number has in decimal, one for zero. -/
def digitCount (n : Nat) : Nat := (Nat.toDigits 10 n).length

/-- The number `significand · 10 ^ exponent`. -/
structure Scientific where
  significand : Nat
  exponent : Int
  deriving DecidableEq, Repr

/-- The magnitude nearest to a decimal number; none when it would be infinite.  A number whose
leading digit stands far outside the range of doubles is settled without its power of ten. -/
def Scientific.nearest? (d : Scientific) : Option Magnitude :=
  if d.significand = 0 then some Magnitude.zero
  else
    let top := d.exponent + digitCount d.significand
    if 320 < top then none
    else if top < -340 then some Magnitude.zero
    else if 0 ≤ d.exponent then nearestQuotient? (d.significand * Nat.pow 10 d.exponent.toNat) 1
    else nearestQuotient? d.significand (Nat.pow 10 (-d.exponent).toNat)

end Custody.Decimal
