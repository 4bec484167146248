/-!
# Hexadecimal text

Bytes are written as two lower-case digits each and read in either case.  Reading looks at bytes,
not characters: a character outside ASCII counts as several bad bytes.
-/

namespace Custody.Text

/-- The lower-case digit for a value below 16. -/
def hexDigit (n : Nat) : Char :=
  Nat.digitChar n

/-- The value of a hexadecimal digit in either case, given by its code. -/
def hexValue? (code : Nat) : Option Nat :=
  if 48 ≤ code ∧ code ≤ 57 then some (code - 48)
  else if 97 ≤ code ∧ code ≤ 102 then some (code - 87)
  else if 65 ≤ code ∧ code ≤ 70 then some (code - 55)
  else none

/-- The two digits of a byte, the high half first. -/
def hexByte (b : UInt8) : List Char :=
  [hexDigit (b.toNat / 16), hexDigit (b.toNat % 16)]

def hexEncode (bytes : List UInt8) : List Char :=
  bytes.flatMap hexByte

/-- Why a text is not the hexadecimal form of a sequence of bytes. -/
inductive HexFault where
  /-- The text has an odd number of bytes. -/
  | oddLength
  /-- The byte at this index is no hexadecimal digit. -/
  | badDigit (byte : UInt8) (index : Nat)
  deriving Repr, DecidableEq

/-- The values of the digits in a sequence of bytes whose first has this index. -/
def hexValues : Nat → List UInt8 → Except HexFault (List Nat)
  | _, [] => .ok []
  | i, b :: rest =>
    match hexValue? b.toNat with
    | none => .error (.badDigit b i)
    | some v => (hexValues (i + 1) rest).map (v :: ·)

def pairUp : List Nat → List UInt8
  | high :: low :: rest => UInt8.ofNat (16 * high + low) :: pairUp rest
  | _ => []

/-- Reads pairs of digits.  An odd length is reported before a bad digit. -/
def hexDecode (bytes : List UInt8) : Except HexFault (List UInt8) :=
  if bytes.length % 2 = 1 then .error .oddLength
  else (hexValues 0 bytes).map pairUp

@[simp] theorem length_hexByte (b : UInt8) : (hexByte b).length = 2 := rfl

theorem length_hexEncode (bytes : List UInt8) : (hexEncode bytes).length = 2 * bytes.length := by
  induction bytes with
  | nil => rfl
  | cons b rest ih =>
    have : hexEncode (b :: rest) = hexByte b ++ hexEncode rest := rfl
    rw [this, List.length_append, ih, length_hexByte, List.length_cons]
    omega

end Custody.Text
