import Custody.Codec.Basic

/-!
# Choices

A choice among named alternatives is written as its name.  It may also be read from an object whose
only member has that name and holds null.
-/

namespace Custody.Codec

variable {α : Type}

def variant? (name : α → String) (all : List α) (text : String) : Except Fault α :=
  match all.find? fun a => name a = text with
  | some a => .ok a
  | none => .error (.unknownVariant text (all.map name))

def readNothing (d : Document) : Except Fault Unit :=
  match d with
  | .null => .ok ()
  | d => .error (.ofKind "unit" d)

/-- Reads an alternative from the members of an object in a text: the first member names it, and
nothing may follow. -/
def readVariantText (name : α → String) (all : List α) :
    List (String × Document) → ObjectEnd → Except Fault α
  | (key, payload) :: rest, ending =>
    match variant? name all key with
    | .error fault => .error fault
    | .ok a =>
      match readNothing payload with
      | .error fault => .error fault
      | .ok () => if rest.isEmpty && ending.isClosed then .ok a else .error .malformed
  | [], _ => .error .malformed

/-- Reads an alternative from the members of an object that is a value. -/
def readVariantValue (name : α → String) (all : List α) :
    List (String × Document) → Except Fault α
  | [(key, payload)] =>
    match variant? name all key with
    | .error fault => .error fault
    | .ok a => (readNothing payload).map fun _ => a
  | _ => .error .notSingleKey

/-- A choice among `all`, each with a name of its own. -/
def choice (name : α → String) (all : List α) : Codec α where
  read mode d :=
    match d, mode with
    | .str s, _ => variant? name all s
    | .obj fields ending, .text room =>
      match Mode.enter (.text room) with
      | none => .error .malformed
      | some _ => readVariantText name all fields ending
    | .obj fields _, .value => readVariantValue name all fields
    | d, .value => .error (.ofKind "string or map" d)
    | _, .text _ => .error .malformed
  write a := .str (name a)

end Custody.Codec
