import Custody.Bundle.Verification

/-!
# Archives

An archive keeps bundles under their names until they are removed.  Storing a bundle replaces the
one that had its name.
-/

namespace Custody

/-- Bundles in the order of their names, each under its own. -/
structure Archive where
  bundles : List (String × Bundle)
  sorted : Assoc.Sorted bundles
  named : ∀ entry ∈ bundles, entry.1 = entry.2.id

namespace Archive

def empty : Archive := ⟨[], .nil, by simp⟩

instance : Inhabited Archive := ⟨empty⟩

/-- The archive with one more bundle, in place of one with the same name. -/
def store (a : Archive) (b : Bundle) : Archive where
  bundles := Assoc.insert b.id b a.bundles
  sorted := a.sorted.insert b.id b
  named entry h := by
    rcases Assoc.mem_insert h with rfl | h
    · rfl
    · exact a.named entry h

def get? (a : Archive) (id : String) : Option Bundle := a.bundles.lookup id

def erase (a : Archive) (id : String) : Archive where
  bundles := Assoc.erase id a.bundles
  sorted := a.sorted.erase id
  named entry h := a.named entry (List.mem_filter.1 h).1

/-- The bundle of this name, and the archive without it. -/
def remove (a : Archive) (id : String) : Option Bundle × Archive := (a.get? id, a.erase id)

/-- The names of all bundles, in order. -/
def ids (a : Archive) : List String := a.bundles.map Prod.fst

def size (a : Archive) : Nat := a.bundles.length

def isEmpty (a : Archive) : Bool := a.bundles.isEmpty

def exported (a : Archive) (id : String) : Except EvidenceError String :=
  match a.get? id with
  | none => .error (.bundleNotFound id)
  | some b => .ok b.exported

end Archive

end Custody
