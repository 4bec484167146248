import Custody.Codec.Basic
import Custody.Digest.Basic

/-!
# Written digests

In a document a digest is its 64 hexadecimal digits, read in either case and written in lower case.
-/

namespace Custody.Digest

def codec : Codec Digest :=
  Codec.text.refine (fun s => (parse s).mapError DigestError.message) hex

def ofCanonical (hash : Hasher) (v : Json) : Digest := hash v.canonical.toUTF8

end Custody.Digest
