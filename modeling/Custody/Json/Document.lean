import Custody.Json.Basic

/-!
# JSON documents

A document is a text as it was written: members in written order, repeated members kept.  Where a
text stops being JSON, the document stops too, at a broken place or with an array or object that
was never closed, and all that stands before that point is still there.  A string may be well formed
and yet have no value; where it should name a member, the members that are listed end before it.  So
one document serves a reader that needs the whole value and a reader that takes members as they come
and may object to one of them long before the text breaks off.

`Document.value?` gives the value of a document that is whole, and `Document.ofJson` the document
of a value.
-/

namespace Custody

/-- How the text of an object goes on after the members that are listed. -/
inductive ObjectEnd where
  /-- With the brace that closes it. -/
  | closed
  /-- With a member whose name has no value.  All is well formed up to the closing brace. -/
  | unnamed
  /-- With something that is not JSON, at once or after a member whose name has no value. -/
  | broken
  deriving DecidableEq, Repr

namespace ObjectEnd

def isClosed : ObjectEnd → Bool
  | .closed => true
  | _ => false

def isWhole : ObjectEnd → Bool
  | .broken => false
  | _ => true

end ObjectEnd

/-- A JSON text as it was written. -/
inductive Document where
  | null
  | bool (b : Bool)
  | num (n : Number)
  | str (s : String)
  | arr (items : List Document) (closed : Bool)
  | obj (fields : List (String × Document)) (ending : ObjectEnd)
  /-- A well-formed piece of text without a value: a number beyond the range of doubles, or a
  string with one half of a surrogate pair. -/
  | unreadable
  /-- A place where the text is not JSON. -/
  | broken

/-- How a document is read.  Straight from a text, arrays and objects may be nested only so deep;
the value of a document that has been read already is under no such limit. -/
inductive Mode where
  | text (room : Nat)
  | value
  deriving DecidableEq, Repr

/-- How what stands inside an array or object is read, unless that is nested too deep. -/
def Mode.enter : Mode → Option Mode
  | .text 0 => none
  | .text (room + 1) => some (.text room)
  | .value => some .value

/-- How a whole text is read: at most 127 arrays and objects inside one another. -/
def Mode.fromText : Mode := .text 127

namespace Document

mutual
/-- The value of a document that is whole and not nested too deep. -/
def value? (mode : Mode) : Document → Option Json
  | .null => some .null
  | .bool b => some (.bool b)
  | .num n => some (.num n)
  | .str s => some (.str s)
  | .arr items closed =>
    match mode.enter with
    | none => none
    | some inner => if closed then (itemValues? inner items).map .arr else none
  | .obj fields ending =>
    match mode.enter with
    | none => none
    | some inner =>
      if ending.isClosed then (fieldValues? inner fields).map (.obj ∘ Assoc.ofList) else none
  | .unreadable => none
  | .broken => none
def itemValues? (mode : Mode) : List Document → Option (List Json)
  | [] => some []
  | item :: rest =>
    match item.value? mode with
    | none => none
    | some value => (itemValues? mode rest).map (value :: ·)
/-- The values of all members, in written order. -/
def fieldValues? (mode : Mode) : List (String × Document) → Option (List (String × Json))
  | [] => some []
  | (key, member) :: rest =>
    match member.value? mode with
    | none => none
    | some value => (fieldValues? mode rest).map ((key, value) :: ·)
end

mutual
def ofJson : Json → Document
  | .null => .null
  | .bool b => .bool b
  | .num n => .num n
  | .str s => .str s
  | .arr items => .arr (ofItems items) true
  | .obj fields => .obj (ofFields fields) .closed
def ofItems : List Json → List Document
  | [] => []
  | item :: rest => ofJson item :: ofItems rest
def ofFields : List (String × Json) → List (String × Document)
  | [] => []
  | (key, value) :: rest => (key, ofJson value) :: ofFields rest
end

mutual
/-- Whether the text of a document is well formed from end to end, at any depth. -/
def isWhole : Document → Bool
  | .arr items closed => itemsAreWhole items && closed
  | .obj fields ending => fieldsAreWhole fields && ending.isWhole
  | .broken => false
  | _ => true
def itemsAreWhole : List Document → Bool
  | [] => true
  | item :: rest => item.isWhole && itemsAreWhole rest
def fieldsAreWhole : List (String × Document) → Bool
  | [] => true
  | (_, member) :: rest => member.isWhole && fieldsAreWhole rest
end

def object (fields : List (String × Document)) : Document := .obj fields .closed

def array (items : List Document) : Document := .arr items true

/-- A text, or null. -/
def ofText? : Option String → Document
  | some s => .str s
  | none => .null

mutual
/-- Every object in the value of a document has its keys in order. -/
theorem ordered_of_value? : ∀ (d : Document) {mode : Mode} {v : Json},
    d.value? mode = some v → v.Ordered
  | .null, _, _, h => by simp only [value?, Option.some.injEq] at h; subst h; exact .null
  | .bool b, _, _, h => by simp only [value?, Option.some.injEq] at h; subst h; exact .bool b
  | .num n, _, _, h => by simp only [value?, Option.some.injEq] at h; subst h; exact .num n
  | .str s, _, _, h => by simp only [value?, Option.some.injEq] at h; subst h; exact .str s
  | .arr items closed, mode, v, h => by
    simp only [value?] at h
    split at h
    · cases h
    · split at h
      · obtain ⟨vs, hvs, rfl⟩ := Option.map_eq_some_iff.1 h
        exact .arr (ordered_of_itemValues? items hvs)
      · cases h
  | .obj fields ending, mode, v, h => by
    simp only [value?] at h
    split at h
    · cases h
    · split at h
      · obtain ⟨vs, hvs, rfl⟩ := Option.map_eq_some_iff.1 h
        exact .obj (Assoc.sorted_ofList vs) fun field hfield =>
          ordered_of_fieldValues? fields hvs field (Assoc.mem_of_mem_ofList hfield)
      · cases h
  | .unreadable, _, _, h => by cases h
  | .broken, _, _, h => by cases h
/-- Every object in the value of an item has its keys in order. -/
theorem ordered_of_itemValues? : ∀ (items : List Document) {mode : Mode} {vs : List Json},
    itemValues? mode items = some vs → ∀ v ∈ vs, v.Ordered
  | [], _, _, h => by simp only [itemValues?, Option.some.injEq] at h; subst h; simp
  | item :: rest, mode, vs, h => by
    simp only [itemValues?] at h
    split at h
    · cases h
    · next value hvalue =>
      obtain ⟨more, hmore, rfl⟩ := Option.map_eq_some_iff.1 h
      intro v hv
      rcases List.mem_cons.1 hv with rfl | hv
      · exact ordered_of_value? item hvalue
      · exact ordered_of_itemValues? rest hmore v hv
/-- Every object in the value of a member has its keys in order. -/
theorem ordered_of_fieldValues? : ∀ (fields : List (String × Document)) {mode : Mode}
    {vs : List (String × Json)}, fieldValues? mode fields = some vs →
    ∀ field ∈ vs, field.2.Ordered
  | [], _, _, h => by simp only [fieldValues?, Option.some.injEq] at h; subst h; simp
  | (key, member) :: rest, mode, vs, h => by
    simp only [fieldValues?] at h
    split at h
    · cases h
    · next value hvalue =>
      obtain ⟨more, hmore, rfl⟩ := Option.map_eq_some_iff.1 h
      intro v hv
      rcases List.mem_cons.1 hv with rfl | hv
      · exact ordered_of_value? member hvalue
      · exact ordered_of_fieldValues? rest hmore v hv
end

end Document

end Custody
