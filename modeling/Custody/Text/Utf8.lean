/-!
# Bytes as characters

A file is a sequence of bytes and is read as UTF-8.  Bytes that are not UTF-8 are not refused at
once: a reader may find fault with what stands before them.
-/

namespace Custody.Text

/-- The characters at the start of `bytes` from index `i` on, as far as they are UTF-8, for at most
`fuel` characters. -/
def decodeFrom (bytes : ByteArray) : Nat → Nat → List Char
  | 0, _ => []
  | fuel + 1, i =>
    match bytes.utf8DecodeChar? i with
    | some c => c :: decodeFrom bytes fuel (i + c.utf8Size)
    | none => []

/-- The characters of a file.  If it is not UTF-8, a NUL stands where it stops being so, and nothing
after: a NUL is no part of any text that is read here. -/
def decode (bytes : ByteArray) : List Char :=
  match bytes.utf8Decode? with
  | some chars => chars.toList
  | none => decodeFrom bytes bytes.size 0 ++ ['\x00']

/-- Reading undoes writing. -/
theorem decode_utf8Encode (chars : List Char) : decode chars.utf8Encode = chars := by
  simp [decode, List.utf8Decode?_utf8Encode]

/-- A text comes back from its bytes. -/
theorem decode_toByteArray (s : String) : decode s.toByteArray = s.toList := by
  rw [← String.ofList_toList (s := s), String.toByteArray_ofList, decode_utf8Encode,
    String.toList_ofList]

end Custody.Text
