import Custody.Digest.Codec

/-!
# Maps with keys of other kinds

The keys of a JSON object are texts.  A map with numbers or truth values for keys becomes an object
by writing them; one whose keys are lists does not become an object at all.
-/

namespace Custody

/-- A key of a map. -/
inductive MapKey where
  | text (s : String)
  | int (n : Int)
  | flag (b : Bool)
  | list
  deriving DecidableEq, Repr

/-- The text of a key, if it has one. -/
def MapKey.text? : MapKey → Option String
  | .text s => some s
  | .int n => some (String.ofList (Number.intText n))
  | .flag true => some "true"
  | .flag false => some "false"
  | .list => none

namespace Json

/-- The members of a map, under the texts of their keys. -/
def membersOfMap : List (MapKey × Json) → Except DigestError (List (String × Json))
  | [] => .ok []
  | (key, value) :: rest =>
    match key.text? with
    | none => .error .keyWithoutText
    | some text => (membersOfMap rest).map ((text, value) :: ·)

/-- The object of a map; of equal keys the last counts. -/
def ofMap (entries : List (MapKey × Json)) : Except DigestError Json :=
  (membersOfMap entries).map fun members => .obj (Assoc.ofList members)

end Json

end Custody
