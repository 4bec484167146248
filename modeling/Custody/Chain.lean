import Custody.Digest.Basic
import Custody.Json.Writer

/-!
# Hash chains

A chain commits to a list of keyed values in their order.  Each element has a digest of its own,
taken of its key, a colon and the canonical text of its value.  The running digest starts as that of
the first element; each further element is linked to it through the hexadecimal texts of both.  The
root is the running digest after the last element, so an empty chain has none.
-/

namespace Custody

/-- One element of a chain: its key and its own digest. -/
structure Entry where
  key : String
  digest : Digest
  deriving DecidableEq

/-- A chain: its entries in order, and the running digest after the last of them. -/
structure Chain where
  entries : List Entry
  current : Option Digest
  deriving DecidableEq

namespace Chain

/-- What is hashed for an element. -/
def elementText (key : String) (value : Json) : String :=
  key ++ ":" ++ value.canonical

/-- What is hashed when the digest of an element is linked to the running digest. -/
def linkText (previous element : Digest) : String :=
  previous.hex ++ ":" ++ element.hex

def elementDigest (hash : Hasher) (key : String) (value : Json) : Digest :=
  hash (elementText key value).toUTF8

/-- The running digest after one more element. -/
def link (hash : Hasher) (previous element : Digest) : Digest :=
  hash (linkText previous element).toUTF8

def empty : Chain := ⟨[], none⟩

instance : Inhabited Chain := ⟨empty⟩

def append (hash : Hasher) (chain : Chain) (key : String) (value : Json) : Chain :=
  let element := elementDigest hash key value
  { entries := chain.entries ++ [⟨key, element⟩]
    current :=
      match chain.current with
      | none => some element
      | some previous => some (link hash previous element) }

/-- Appends an element, and tells the running digest after it. -/
def push (hash : Hasher) (chain : Chain) (key : String) (value : Json) : Digest × Chain :=
  let element := elementDigest hash key value
  let next :=
    match chain.current with
    | none => element
    | some previous => link hash previous element
  (next, ⟨chain.entries ++ [⟨key, element⟩], some next⟩)

def ofElements (hash : Hasher) (elements : List (String × Json)) : Chain :=
  elements.foldl (fun chain element => chain.append hash element.1 element.2) empty

/-- The root, if there is an element. -/
def root (chain : Chain) : Option Digest := chain.current

def size (chain : Chain) : Nat := chain.entries.length

def isEmpty (chain : Chain) : Bool := chain.entries.isEmpty

def verifyRoot (hash : Hasher) (elements : List (String × Json)) (expected : Digest) : Bool :=
  (ofElements hash elements).root = some expected

/-- Pushing is appending, with an answer. -/
@[simp] theorem push_snd (hash : Hasher) (chain : Chain) (key : String) (value : Json) :
    (chain.push hash key value).2 = chain.append hash key value := by
  rw [push, append]
  cases chain.current <;> rfl

@[simp] theorem entries_append (hash : Hasher) (chain : Chain) (key : String) (value : Json) :
    (chain.append hash key value).entries =
      chain.entries ++ [⟨key, elementDigest hash key value⟩] := rfl

/-- What is told is the running digest of the chain that comes of it. -/
@[simp] theorem current_append (hash : Hasher) (chain : Chain) (key : String) (value : Json) :
    (chain.append hash key value).current = some (chain.push hash key value).1 := by
  rw [push, append]
  cases chain.current <;> rfl

end Chain

end Custody
