import Custody.Assoc
import Custody.Json.Number

/-!
# JSON values

A value is what a JSON document means: its objects are finite maps, so the order in which members
were written is gone, and a member written twice counts once.  `Json.Ordered` says that every
object in a value is such a map.  A `Table` is an ordered object on its own: the contexts, grants,
results and details that this library carries about without looking into them.
-/

namespace Custody

/-- A JSON value. -/
inductive Json where
  | null
  | bool (b : Bool)
  | num (n : Number)
  | str (s : String)
  | arr (items : List Json)
  | obj (fields : List (String × Json))

namespace Json

/-- Every object in the value has its keys in strictly ascending order. -/
inductive Ordered : Json → Prop where
  | null : Ordered .null
  | bool (b : Bool) : Ordered (.bool b)
  | num (n : Number) : Ordered (.num n)
  | str (s : String) : Ordered (.str s)
  | arr {items : List Json} : (∀ item ∈ items, Ordered item) → Ordered (.arr items)
  | obj {fields : List (String × Json)} : Assoc.Sorted fields →
      (∀ field ∈ fields, Ordered field.2) → Ordered (.obj fields)

mutual
/-- How deep arrays and objects are nested; a value without any has depth 0. -/
def depth : Json → Nat
  | .arr items => depthItems items + 1
  | .obj fields => depthFields fields + 1
  | _ => 0
def depthItems : List Json → Nat
  | [] => 0
  | item :: rest => max item.depth (depthItems rest)
def depthFields : List (String × Json) → Nat
  | [] => 0
  | (_, value) :: rest => max value.depth (depthFields rest)
end

mutual
/-- The value with every double written as an integer that loses nothing by it. -/
def norm : Json → Json
  | .num n => .num n.norm
  | .arr items => .arr (normItems items)
  | .obj fields => .obj (normFields fields)
  | .null => .null
  | .bool b => .bool b
  | .str s => .str s
/-- `norm` on every item. -/
def normItems : List Json → List Json
  | [] => []
  | item :: rest => item.norm :: normItems rest
/-- `norm` on every member. -/
def normFields : List (String × Json) → List (String × Json)
  | [] => []
  | (key, value) :: rest => (key, value.norm) :: normFields rest
end

/-- The member of an object under a key; other values have no members. -/
def member? (key : String) : Json → Option Json
  | .obj fields => fields.lookup key
  | _ => none

/-- The member under a key, or null. -/
def memberOrNull (key : String) (value : Json) : Json :=
  (value.member? key).getD .null

def isNull : Json → Bool
  | .null => true
  | _ => false

def ofText? : Option String → Json
  | some s => .str s
  | none => .null

/-- An instant, in milliseconds since the start of 1970. -/
def ofInt64 (n : Int64) : Json := .num (.int (Integer.ofInt64 n))

end Json

/-- An object whose members are ordered, at every level. -/
structure Table where
  fields : List (String × Json)
  ordered : (Json.obj fields).Ordered

namespace Table

def empty : Table := ⟨[], .obj .nil (by simp)⟩

instance : Inhabited Table := ⟨empty⟩

def toJson (t : Table) : Json := .obj t.fields

def get? (t : Table) (key : String) : Option Json := t.fields.lookup key

def insert (t : Table) (key : String) (value : Json) (h : value.Ordered) : Table where
  fields := Assoc.insert key value t.fields
  ordered := by
    cases t.ordered with
    | obj sorted members =>
      refine .obj (sorted.insert key value) fun field hfield => ?_
      rcases Assoc.mem_insert hfield with rfl | hfield
      · exact h
      · exact members field hfield

/-- The table of a value: its members if it is an object, else none. -/
def ofJson {value : Json} (h : value.Ordered) : Table :=
  match value, h with
  | .obj fields, h => ⟨fields, h⟩
  | _, _ => empty

@[ext] theorem ext {s t : Table} (h : s.fields = t.fields) : s = t := by
  cases s; cases t; cases h; rfl

end Table

end Custody
