import Custody.Toml.Value

/-!
# Documents of TOML

What a list of statements comes to.  A table may be filled only once: by a header, by the parts of
keys, or as a value.  A header may fill a table that so far was only mentioned as the parent of
another one, and keys may go on filling tables that came about through keys.
-/

namespace Custody.Toml

/-- How a table came about. -/
inductive Origin where
  /-- By a header of its own. -/
  | header
  /-- As the parent of a table with a header. -/
  | parent
  /-- Through the parts of a key. -/
  | key
  deriving DecidableEq, Repr

/-- What stands under a key while a document is put together. -/
inductive Node where
  | value (v : Value)
  | table (origin : Origin) (entries : List (String × Node))
  /-- The tables of an array, the latest first. -/
  | tables (latest : List (String × Node)) (before : List (List (String × Node)))

namespace Node

/-- Goes down a path, through the latest of the tables of an array, and changes the table at its
end, to which it also tells how that came about.  Tables that are missing are put there; one that
has a header is no place for the parts of a key. -/
def descend (origin : Origin)
    (change : Origin → List (String × Node) → Option (List (String × Node))) :
    List String → Origin → List (String × Node) → Option (List (String × Node))
  | [], here, entries => change here entries
  | part :: path, _, entries => alter part (fun
      | none => (descend origin change path origin []).map (.table origin)
      | some (.value _) => none
      | some (.tables latest before) =>
        (descend origin change path .header latest).map fun latest => .tables latest before
      | some (.table found inner) =>
        if origin = .key ∧ found = .header then none
        else (descend origin change path found inner).map (.table found)) entries

def openTable (key : Key) (root : List (String × Node)) : Option (List (String × Node)) :=
  descend .parent (fun _ entries => alter key.last (fun
    | none => some (.table .header [])
    | some (.table .parent inner) => some (.table .header inner)
    | some _ => none) entries) key.parts .header root

def openArrayTable (key : Key) (root : List (String × Node)) : Option (List (String × Node)) :=
  descend .parent (fun _ entries => alter key.last (fun
    | none => some (.tables [] [])
    | some (.tables latest before) => some (.tables [] (latest :: before))
    | some _ => none) entries) key.parts .header root

/-- Puts a value under a key of a table.  The last part of the key must be new, and the part before
it must name a table that came about through keys. -/
def assignIn (key : Key) (v : Value) (entries : List (String × Node)) :
    Option (List (String × Node)) :=
  descend .key (fun here entries =>
    if here = .key ∨ key.parts.isEmpty then
      alter key.last (fun
        | none => some (.value v)
        | some _ => none) entries
    else none) key.parts .header entries

def assign (current : List String) (key : Key) (v : Value) (root : List (String × Node)) :
    Option (List (String × Node)) :=
  descend .parent (fun _ entries => assignIn key v entries) current .header root

mutual
def toValue : Node → Value
  | .value v => v
  | .table _ entries => .table (entryValues entries)
  | .tables latest before => .array ((.table (entryValues latest) :: tableValues before).reverse)
def entryValues : List (String × Node) → List (String × Value)
  | [] => []
  | (key, node) :: rest => (key, node.toValue) :: entryValues rest
/-- The values of several tables. -/
def tableValues : List (List (String × Node)) → List Value
  | [] => []
  | entries :: rest => .table (entryValues entries) :: tableValues rest
end

end Node

/-- A document under construction: the entries so far and the path of the table that is being
filled. -/
structure Draft where
  root : List (String × Node)
  current : List String

namespace Draft

def path (key : Key) : List String := key.parts ++ [key.last]

/-- A document without entries, whose own table is being filled. -/
def empty : Draft := ⟨[], []⟩

def next? (draft : Draft) : Statement → Option Draft
  | .header key => (Node.openTable key draft.root).map fun root => ⟨root, path key⟩
  | .arrayHeader key => (Node.openArrayTable key draft.root).map fun root => ⟨root, path key⟩
  | .assign key v =>
    (Node.assign draft.current key v draft.root).map fun root => ⟨root, draft.current⟩

end Draft

def ofStatements? (statements : List Statement) : Option (List (String × Value)) :=
  (statements.foldlM Draft.next? Draft.empty).map fun draft => Node.entryValues draft.root

/-- The text without a byte order mark at its start. -/
def dropMark : List Char → List Char
  | '\ufeff' :: rest => rest
  | cs => cs

def read? (text : List Char) : Option (List (String × Value)) :=
  (statements? (text.length + 2) (dropMark text)).bind ofStatements?

end Custody.Toml
