import Custody.Decimal.Rounding

/-!
# Shortest decimals

The decimal with the fewest digits that reads back as a given magnitude and, among those, the one
nearest to it.  For each number of digits only two decimals can be that one: the neighbours of the
magnitude on the grid of decimals with so many digits.  Whether a candidate reads back is decided
by reading it, so reading undoes writing by construction.
-/

namespace Custody.Decimal

namespace Magnitude

/-- The exponent of the leading decimal digit of a positive magnitude. -/
def decimalOrder (x : Magnitude) : Int :=
  if unitsPerOne ≤ x.units then
    (digitCount (x.units / unitsPerOne) : Int) - 1
  else
    -(digitCount ((unitsPerOne - 1) / x.units) : Int)

/-- The two decimals next to `x` among the multiples of `10 ^ exponent`, the nearer first. -/
def neighbours (x : Magnitude) (exponent : Int) : List Scientific :=
  let (a, b) :=
    if 0 ≤ exponent then (x.units, unitsPerOne * Nat.pow 10 exponent.toNat)
    else (x.units * Nat.pow 10 (-exponent).toNat, unitsPerOne)
  let below : Scientific := ⟨a / b, exponent⟩
  let above : Scientific := ⟨a / b + 1, exponent⟩
  if roundDiv a b = a / b then [below, above] else [above, below]

/-- The value in decimal, to the last digit. -/
def exactDecimal (x : Magnitude) : Scientific := ⟨x.units * Nat.pow 5 1074, -1074⟩

/-- The shortest decimal that reads back as `x`.  Seventeen digits are always enough, so the exact
value is never used for want of one. -/
def shortest (x : Magnitude) : Scientific :=
  if x.mantissa = 0 then ⟨0, 0⟩
  else
    let order := x.decimalOrder
    let found := (List.range 17).findSome? fun (n : Nat) =>
      (x.neighbours (order - n)).find? fun d => d.nearest? = some x
    found.getD x.exactDecimal

end Magnitude

end Custody.Decimal
