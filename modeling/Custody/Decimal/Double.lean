/-!
# Finite doubles

A finite IEEE double is a sign and a magnitude, and a magnitude is a whole number of units of
`2 ^ -1074`: a mantissa of at most 53 bits, shifted left by an exponent.  Outside the lowest
binade the mantissa has all 53 bits, so every magnitude has one representation.
-/

namespace Custody.Decimal

/-- The number of smallest positive doubles that make up one. -/
def unitsPerOne : Nat := 1 <<< 1074

/-- `mantissa · 2 ^ exponent` units of `2 ^ -1074`. -/
structure Magnitude where
  mantissa : Nat
  exponent : Nat
  mantissa_lt : mantissa < 0x20000000000000
  exponent_le : exponent ≤ 2045
  normal : exponent = 0 ∨ 0x10000000000000 ≤ mantissa
  deriving DecidableEq

namespace Magnitude

/-- The magnitude with these parts, if they are those of a finite double. -/
def ofParts? (mantissa exponent : Nat) : Option Magnitude :=
  if h : mantissa < 0x20000000000000 ∧ exponent ≤ 2045 ∧
      (exponent = 0 ∨ 0x10000000000000 ≤ mantissa) then
    some ⟨mantissa, exponent, h.1, h.2.1, h.2.2⟩
  else none

def zero : Magnitude := ⟨0, 0, by decide, by decide, by decide⟩

/-- The value, counted in units of `2 ^ -1074`. -/
def units (x : Magnitude) : Nat := x.mantissa <<< x.exponent

/-- The value, if it is a whole number. -/
def toNat? (x : Magnitude) : Option Nat :=
  if x.units % unitsPerOne = 0 then some (x.units / unitsPerOne) else none

@[simp] theorem ofParts?_self (x : Magnitude) : ofParts? x.mantissa x.exponent = some x :=
  dif_pos ⟨x.mantissa_lt, x.exponent_le, x.normal⟩

end Magnitude

/-- A finite double; zero has two signs. -/
structure Double where
  negative : Bool
  magnitude : Magnitude
  deriving DecidableEq

namespace Double

/-- The double with this bit pattern, unless that is an infinity or no number. -/
def ofBits? (bits : UInt64) : Option Double :=
  let n := bits.toNat
  let fraction := n % 0x10000000000000
  let biased := n / 0x10000000000000 % 0x800
  let magnitude :=
    if biased = 0 then Magnitude.ofParts? fraction 0
    else Magnitude.ofParts? (0x10000000000000 + fraction) (biased - 1)
  magnitude.map fun x => ⟨decide (0x8000000000000000 ≤ n), x⟩

/-- The value, if it is a whole number of magnitude at most `2 ^ 53`: up to there every whole
number is a double, so the double and the number say the same.  Both zeros give zero. -/
def toInt? (x : Double) : Option Int :=
  match x.magnitude.toNat? with
  | some n =>
    if n ≤ 0x20000000000000 then some (if x.negative then -(n : Int) else n) else none
  | none => none

end Double

end Custody.Decimal
