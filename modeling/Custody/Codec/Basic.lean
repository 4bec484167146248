import Custody.Codec.Fault
import Custody.Json.Reader

/-!
# Codecs

A codec says how the things of one type are written as documents and read back.  Reading reports the
first fault that it meets, in the order of the document.
-/

namespace Custody

/-- How the things of a type are read and written. -/
structure Codec (α : Type) where
  read : Mode → Document → Except Fault α
  write : α → Document

namespace Codec

variable {α β : Type}

/-- A thing as a text, without any blanks. -/
def encode (c : Codec α) (a : α) : String := (c.write a).compact

/-- Reads a text that holds nothing else.  What follows the thing is looked at last. -/
def decode (c : Codec α) (text : List Char) : Except Fault α :=
  let (d, ended) := Document.read text
  match c.read .fromText d with
  | .error fault => .error fault
  | .ok a => if ended then .ok a else .error .malformed

def ofJson (c : Codec α) (v : Json) : Except Fault α := c.read .value (.ofJson v)

/-- Reads a text as a value first, and then the value. -/
def decodeValue (c : Codec α) (text : List Char) : Except Fault α :=
  match Json.parse? text with
  | none => .error .malformed
  | some v => c.ofJson v

def text : Codec String where
  read _ d :=
    match d with
    | .str s => .ok s
    | d => .error (.ofKind "a string" d)
  write := .str

def flag : Codec Bool where
  read _ d :=
    match d with
    | .bool b => .ok b
    | d => .error (.ofKind "a boolean" d)
  write := .bool

def int64 : Codec Int64 where
  read _ d :=
    match d with
    | .num (.int n) =>
      match n.toInt64? with
      | some word => .ok word
      | none => .error (.outOfRange n.val "i64")
    | d => .error (.ofKind "i64" d)
  write n := .num (.int (.ofInt64 n))

def uint64 : Codec UInt64 where
  read _ d :=
    match d with
    | .num (.int n) =>
      match n.toUInt64? with
      | some word => .ok word
      | none => .error (.outOfRange n.val "usize")
    | d => .error (.ofKind "usize" d)
  write n := .num (.int (.ofUInt64 n))

def table : Codec Table where
  read mode d :=
    match d with
    | .obj fields ending =>
      match h : (Document.obj fields ending).value? mode with
      | some _ => .ok (.ofJson (Document.ordered_of_value? _ h))
      | none => .error .malformed
    | d => .error (.ofKind "a map" d)
  write t := .ofJson t.toJson

def readItems (c : Codec α) (mode : Mode) : List Document → Except Fault (List α)
  | [] => .ok []
  | d :: rest =>
    match c.read mode d with
    | .error fault => .error fault
    | .ok a =>
      match c.readItems mode rest with
      | .error fault => .error fault
      | .ok more => .ok (a :: more)

def list (c : Codec α) : Codec (List α) where
  read mode d :=
    match d with
    | .arr items closed =>
      match mode.enter with
      | none => .error .malformed
      | some inner =>
        match c.readItems inner items with
        | .error fault => .error fault
        | .ok things => if closed then .ok things else .error .malformed
    | d => .error (.ofKind "a sequence" d)
  write things := .array (things.map c.write)

/-- A thing, or null. -/
def optional (c : Codec α) : Codec (Option α) where
  read mode d :=
    match d with
    | .null => .ok none
    | d => (c.read mode d).map some
  write
    | none => .null
    | some a => c.write a

/-- A thing that is written as one of another type, and read from it by a rule that it may break. -/
def refine (c : Codec α) (pack : α → Except String β) (unpack : β → α) : Codec β where
  read mode d :=
    match c.read mode d with
    | .error fault => .error fault
    | .ok a => (pack a).mapError .rule
  write b := c.write (unpack b)

/-- A thing that is written as one of another type, and read from any of them. -/
def iso (c : Codec α) (pack : α → β) (unpack : β → α) : Codec β where
  read mode d := (c.read mode d).map pack
  write b := c.write (unpack b)

end Codec

end Custody
