import Custody.Codec.Basic

/-!
# Records

A record is a fixed row of named members, each with a codec.  It is written as an object with its
members in the order of the row.  It is read from an object with the members in any order, or from
an array that lists the values of the members in the order of the row.

Members are read as they come.  A member that comes twice is at fault before its second value is
looked at, and a missing one only after all that are there have been read.
-/

namespace Custody

/-- One member of a record. -/
structure Field (α : Type) where
  name : String
  codec : Codec α
  /-- What a missing member stands for; nothing if it must not be missing. -/
  absent : Option α
  /-- What stands for the member if an array ends before it; nothing if it must not. -/
  pad : Option α
  /-- Whether the member is left out when it has this value. -/
  omits : α → Bool

namespace Field

variable {α : Type}

/-- A member that must be there. -/
def required (name : String) (codec : Codec α) : Field α :=
  ⟨name, codec, none, none, fun _ => false⟩

/-- A member that stands for `default` if it is missing, in an object or at the end of an array. -/
def withDefault (name : String) (codec : Codec α) (default : α) : Field α :=
  ⟨name, codec, some default, some default, fun _ => false⟩

/-- A member that may be null.  It may be missing from an object, but an array must list it. -/
def nullable (name : String) (codec : Codec α) : Field (Option α) :=
  ⟨name, codec.optional, some none, none, fun _ => false⟩

def nullableWithDefault (name : String) (codec : Codec α) : Field (Option α) :=
  ⟨name, codec.optional, some none, some none, fun _ => false⟩

/-- A member that may be null or missing, and that is left out rather than written as null. -/
def omittable (name : String) (codec : Codec α) : Field (Option α) :=
  ⟨name, codec.optional, some none, some none, Option.isNone⟩

end Field

/-- The members of a record, in order. -/
inductive Fields : List Type → Type 1 where
  | nil : Fields []
  | cons {α : Type} {types : List Type} (field : Field α) (rest : Fields types) :
      Fields (α :: types)

@[reducible] def Row : List Type → Type
  | [] => Unit
  | α :: types => α × Row types

/-- What has been read so far: for some members a value, for others none yet. -/
@[reducible] def Slots : List Type → Type
  | [] => Unit
  | α :: types => Option α × Slots types

namespace Fields

variable {types : List Type}

def names : {types : List Type} → Fields types → List String
  | _, .nil => []
  | _, .cons field rest => field.name :: rest.names

def size : {types : List Type} → Fields types → Nat
  | _, .nil => 0
  | _, .cons _ rest => rest.size + 1

/-- The members of a written record, in order, those that are left out excepted. -/
def write : {types : List Type} → Fields types → Row types → List (String × Document)
  | _, .nil, _ => []
  | _, .cons field rest, (a, row) =>
    if field.omits a then rest.write row
    else (field.name, field.codec.write a) :: rest.write row

def blank : {types : List Type} → Fields types → Slots types
  | _, .nil => ()
  | _, .cons _ rest => (none, rest.blank)

/-- Reads the value of one member into its slot; nothing if the record has no such member. -/
def put (mode : Mode) (name : String) (d : Document) :
    {types : List Type} → Fields types → Slots types → Option (Except Fault (Slots types))
  | _, .nil, _ => none
  | _, .cons field rest, (slot, slots) =>
    if name = field.name then
      some (if slot.isSome then .error (.duplicateField name)
        else (field.codec.read mode d).map fun a => (some a, slots))
    else (rest.put mode name d slots).map (·.map fun slots => (slot, slots))

/-- The row, once all that is there has been read. -/
def complete : {types : List Type} → Fields types → Slots types → Except Fault (Row types)
  | _, .nil, _ => .ok ()
  | _, .cons field rest, (slot, slots) =>
    match slot.or field.absent with
    | none => .error (.missingField field.name)
    | some a => (rest.complete slots).map fun row => (a, row)

/-- Passes over the value of a member that the record does not have. -/
def skip (fields : Fields types) (strict : Bool) (mode : Mode) (name : String) (d : Document) :
    Except Fault Unit :=
  if strict then .error (.unknownField name fields.names)
  else
    match mode with
    | .value => .ok ()
    | .text _ => if d.isWhole then .ok () else .error .malformed

/-- Reads the members of an object, one after the other. -/
def gather (fields : Fields types) (strict : Bool) (mode : Mode) :
    List (String × Document) → Slots types → Except Fault (Slots types)
  | [], slots => .ok slots
  | (name, d) :: rest, slots =>
    match fields.put mode name d slots with
    | some (.error fault) => .error fault
    | some (.ok slots) => fields.gather strict mode rest slots
    | none =>
      match fields.skip strict mode name d with
      | .error fault => .error fault
      | .ok () => fields.gather strict mode rest slots

def readObject (fields : Fields types) (strict : Bool) (mode : Mode)
    (members : List (String × Document)) (ending : ObjectEnd) : Except Fault (Row types) :=
  match fields.gather strict mode members fields.blank with
  | .error fault => .error fault
  | .ok slots => if ending.isClosed then fields.complete slots else .error .malformed

/-- Reads the values of members from an array in which they begin at `index`, and gives the items
that are left over.  If the array ends early, `ended` tells what is wrong, given the number of its
items; a text that breaks off has no end. -/
def readItems (mode : Mode) (closed : Bool) (ended : Nat → Fault) :
    {types : List Type} → Nat → Fields types → List Document →
      Except Fault (Row types × List Document)
  | _, _, .nil, items => .ok ((), items)
  | _, index, .cons field rest, [] =>
    if !closed then .error .malformed
    else
      match field.pad with
      | none => .error (ended index)
      | some a => (rest.readItems mode closed ended (index + 1) []).map fun (row, items) =>
          ((a, row), items)
  | _, index, .cons field rest, d :: items =>
    match field.codec.read mode d with
    | .error fault => .error fault
    | .ok a => (rest.readItems mode closed ended (index + 1) items).map fun (row, items) =>
        ((a, row), items)

def readArray (fields : Fields types) (record : String) (mode : Mode) (items : List Document)
    (closed : Bool) : Except Fault (Row types) :=
  match readItems mode closed (.tooShort · record fields.size) 0 fields items with
  | .error fault => .error fault
  | .ok (row, leftOver) =>
    if !closed then .error .malformed
    else if leftOver.isEmpty then .ok row
    else
      match mode with
      | .text _ => .error .malformed
      | .value => .error (.tooLong items.length)

end Fields

namespace Codec

variable {α : Type} {types : List Type}

/-- A record.  A strict record has no members but its own; any other passes over those that it does
not know. -/
def record (name : String) (strict : Bool) (fields : Fields types) : Codec (Row types) where
  read mode d :=
    match d with
    | .obj members ending =>
      match mode.enter with
      | none => .error .malformed
      | some inner => fields.readObject strict inner members ending
    | .arr items closed =>
      match mode.enter with
      | none => .error .malformed
      | some inner => fields.readArray name inner items closed
    | d => .error (.ofKind ("struct " ++ name) d)
  write row := .object (fields.write row)

end Codec

end Custody
