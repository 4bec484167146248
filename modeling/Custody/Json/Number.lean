import Custody.Decimal.Shortest

/-!
# Numbers

A number is an integer that fits 64 bits, signed or unsigned, or a finite double.  The two kinds
stay apart: `1` and `1.0` are different numbers, written differently, although they are equal.

Numbers have two texts.  The plain one keeps the kinds apart; the canonical one writes a double as
an integer wherever that loses nothing, so that `1.0` and `1` have one canonical text.
-/

namespace Custody

open Decimal (Double Magnitude Scientific)

/-- An integer that fits 64 bits, signed or unsigned. -/
structure Integer where
  val : Int
  lower : -0x8000000000000000 ≤ val
  upper : val < 0x10000000000000000
  deriving DecidableEq

namespace Integer

/-- The integer with this value, if it fits. -/
def ofInt? (n : Int) : Option Integer :=
  if h : -0x8000000000000000 ≤ n ∧ n < 0x10000000000000000 then some ⟨n, h.1, h.2⟩ else none

def ofInt64 (n : Int64) : Integer :=
  ⟨n.toInt, n.le_toInt, Int.lt_trans n.toInt_lt (by decide)⟩

def ofUInt64 (n : UInt64) : Integer :=
  ⟨n.toNat, by omega, by have := n.toNat_lt; omega⟩

/-- The signed word of this value, if it fits one. -/
def toInt64? (n : Integer) : Option Int64 :=
  if n.val < 0x8000000000000000 then some (Int64.ofInt n.val) else none

/-- The unsigned word of this value, if it fits one. -/
def toUInt64? (n : Integer) : Option UInt64 :=
  if 0 ≤ n.val then some (UInt64.ofNat n.val.toNat) else none

@[simp] theorem ofInt?_val (n : Integer) : ofInt? n.val = some n :=
  dif_pos ⟨n.lower, n.upper⟩

@[simp] theorem toInt64?_ofInt64 (n : Int64) : (ofInt64 n).toInt64? = some n := by
  have h : (ofInt64 n).val < 0x8000000000000000 := n.toInt_lt
  rw [toInt64?, if_pos h]
  simp [ofInt64]

@[simp] theorem toUInt64?_ofUInt64 (n : UInt64) : (ofUInt64 n).toUInt64? = some n := by
  simp [toUInt64?, ofUInt64]

end Integer

/-- A JSON number. -/
inductive Number where
  | int (n : Integer)
  | float (x : Double)
  deriving DecidableEq

namespace Number

def intText (n : Int) : List Char :=
  if n < 0 then '-' :: Nat.toDigits 10 n.natAbs else Nat.toDigits 10 n.natAbs

/-- The digits of `n` without the zeros at its end, and how many those were; at most `fuel`. -/
def trimZeros : Nat → Nat → Nat × Nat
  | 0, n => (n, 0)
  | fuel + 1, n =>
    if n % 10 = 0 ∧ n ≠ 0 then
      let (trimmed, zeros) := trimZeros fuel (n / 10)
      (trimmed, zeros + 1)
    else (n, 0)

/-- `digits` with the decimal point before index `point`, a zero on either side of it if need
be. -/
def positional (digits : List Char) (point : Int) : List Char :=
  if point ≤ 0 then
    ['0', '.'] ++ List.replicate (-point).toNat '0' ++ digits
  else if digits.length ≤ point.toNat then
    digits ++ List.replicate (point.toNat - digits.length) '0' ++ ['.', '0']
  else
    digits.take point.toNat ++ '.' :: digits.drop point.toNat

/-- `digits` with the point after the first, and a signed exponent. -/
def exponential (digits : List Char) (exponent : Int) : List Char :=
  let fraction := digits.drop 1
  digits.take 1 ++ (if fraction.isEmpty then [] else '.' :: fraction) ++
    ['e', if exponent < 0 then '-' else '+'] ++ Nat.toDigits 10 exponent.natAbs

/-- A decimal number as text: positional from `0.00001` up to sixteen places before the point,
exponential outside that range, with a point or an exponent in any case. -/
def scientificText (d : Scientific) : List Char :=
  let (significand, zeros) := trimZeros (Decimal.digitCount d.significand) d.significand
  if significand = 0 then ['0', '.', '0']
  else
    let digits := Nat.toDigits 10 significand
    let point := d.exponent + zeros + digits.length
    if -5 < point ∧ point ≤ 16 then positional digits point
    else exponential digits (point - 1)

def doubleText (x : Double) : List Char :=
  let text := scientificText x.magnitude.shortest
  if x.negative then '-' :: text else text

def text : Number → List Char
  | .int n => intText n.val
  | .float x => doubleText x

def canonicalText : Number → List Char
  | .int n => intText n.val
  | .float x =>
    match x.toInt? with
    | some n => intText n
    | none => doubleText x

/-- The number with a double written as an integer wherever its canonical text does so. -/
def norm : Number → Number
  | .int n => .int n
  | .float x =>
    match x.toInt?.bind Integer.ofInt? with
    | some n => .int n
    | none => .float x

end Number

end Custody
