import Custody.Json.Writer
import Custody.Text.Position
import Custody.Text.Quoted

/-!
# Faults of documents

What can be wrong with a document that should say something particular, and how that is worded.
-/

namespace Custody

/-- What stands where something else was expected. -/
inductive Found where
  | null
  | bool (b : Bool)
  | int (n : Int)
  | float (x : Decimal.Double)
  | text (s : String)
  | sequence
  | map
  deriving DecidableEq

namespace Found

def message : Found → String
  | .null => "null"
  | .bool b => s!"boolean `{b}`"
  | .int n => s!"integer `{n}`"
  | .float x =>
    let shown := String.ofList (Number.doubleText x)
    s!"floating point `{shown}`"
  | .text s => "string " ++ Text.quote s
  | .sequence => "sequence"
  | .map => "map"

/-- What a document is, as far as its first characters tell; nothing if they are no JSON. -/
def ofDocument? : Document → Option Found
  | .null => some .null
  | .bool b => some (.bool b)
  | .num (.int n) => some (.int n.val)
  | .num (.float x) => some (.float x)
  | .str s => some (.text s)
  | .arr _ _ => some .sequence
  | .obj _ _ => some .map
  | .unreadable => none
  | .broken => none

end Found

/-- Why a document does not say what it should. -/
inductive Fault where
  /-- The text is not JSON. -/
  | malformed
  /-- Something of the wrong kind. -/
  | wrongKind (found : Found) (expected : String)
  /-- An integer beyond the limits of its type. -/
  | outOfRange (n : Int) (expected : String)
  /-- A member that a record must have is missing. -/
  | missingField (name : String)
  /-- A member of a record occurs twice. -/
  | duplicateField (name : String)
  /-- A member that the record does not have. -/
  | unknownField (name : String) (known : List String)
  /-- A name that is none of the choices. -/
  | unknownVariant (name : String) (known : List String)
  /-- An array ends before the record of which it lists the members. -/
  | tooShort (length : Nat) (record : String) (size : Nat)
  /-- An array goes on after the record of which it lists the members. -/
  | tooLong (length : Nat)
  /-- An object that should name one choice has no member or several. -/
  | notSingleKey
  /-- All members are there, but together they break a rule.  A position at the end of the message
  is not told. -/
  | rule (message : String)
  deriving DecidableEq

namespace Fault

/-- A list of alternatives, each between grave accents. -/
def alternatives : List String → String
  | [] => "nothing"
  | [name] => s!"`{name}`"
  | [first, second] => s!"`{first}` or `{second}`"
  | names => "one of " ++ ", ".intercalate (names.map fun name => s!"`{name}`")

def message : Fault → String
  | .malformed => "invalid JSON"
  | .wrongKind found expected => s!"invalid type: {found.message}, expected {expected}"
  | .outOfRange n expected => s!"invalid value: integer `{n}`, expected {expected}"
  | .missingField name => s!"missing field `{name}`"
  | .duplicateField name => s!"duplicate field `{name}`"
  | .unknownField name known => s!"unknown field `{name}`, expected {alternatives known}"
  | .unknownVariant name known => s!"unknown variant `{name}`, expected {alternatives known}"
  | .tooShort length record size =>
    s!"invalid length {length}, expected struct {record} with {size} elements"
  | .tooLong length => s!"invalid length {length}, expected fewer elements in array"
  | .notSingleKey => "invalid value: map, expected map with a single key"
  | .rule message => Text.withoutPosition message

/-- The fault of a document that should have been of another kind. -/
def ofKind (expected : String) (d : Document) : Fault :=
  match Found.ofDocument? d with
  | some found => .wrongKind found expected
  | none => .malformed

end Fault

end Custody
