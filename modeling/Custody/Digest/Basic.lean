import Custody.Text.Hex
import Custody.Text.Quoted

/-!
# Digests

A digest is 32 bytes, written as 64 hexadecimal digits.  Everything here that needs a hash function
takes one as an argument: nothing depends on which function it is.
-/

namespace Custody

/-- A digest of 32 bytes. -/
structure Digest where
  bytes : List UInt8
  length_eq : bytes.length = 32
  deriving DecidableEq

abbrev Hasher := ByteArray → Digest

/-- Why something is not a digest. -/
inductive DigestError where
  /-- There are not 32 bytes but this many. -/
  | invalidLength (actual : Nat)
  /-- The text is not hexadecimal. -/
  | hex (fault : Text.HexFault)
  /-- The key of a map has no text. -/
  | keyWithoutText
  deriving DecidableEq, Repr

namespace DigestError

def message : DigestError → String
  | .invalidLength actual => s!"invalid hash length: expected 32, got {actual}"
  | .hex .oddLength => "hex decode error: Odd number of digits"
  | .hex (.badDigit byte index) =>
    let shown := Text.quoteChar (Char.ofNat byte.toNat)
    s!"hex decode error: Invalid character {shown} at position {index}"
  | .keyWithoutText => "serialization error: key must be a string"

end DigestError

namespace Digest

def ofBytes (bytes : List UInt8) : Except DigestError Digest :=
  if h : bytes.length = 32 then .ok ⟨bytes, h⟩ else .error (.invalidLength bytes.length)

/-- The 64 digits of a digest, in lower case. -/
def hex (d : Digest) : String := String.ofList (Text.hexEncode d.bytes)

/-- The first 16 digits, enough to tell digests apart on a page. -/
def short (d : Digest) : String := String.ofList (Text.hexEncode (d.bytes.take 8))

def parse (s : String) : Except DigestError Digest :=
  match Text.hexDecode s.toUTF8.toList with
  | .error fault => .error (.hex fault)
  | .ok bytes => ofBytes bytes

def cmp (a b : Digest) : Ordering := compare a.bytes b.bytes

@[simp] theorem ofBytes_bytes (d : Digest) : ofBytes d.bytes = .ok d :=
  dif_pos d.length_eq

end Digest

end Custody
