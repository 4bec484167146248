/-!
# Sorted association lists

Finite maps with text keys, as lists of pairs in strictly ascending order of their keys.  Texts are
ordered by code point, which is also the order of their UTF-8 bytes.  Two such lists with the same
members are equal.
-/

namespace Custody.Assoc

universe u

variable {α : Type u}

/-- Every key comes before all keys that follow it. -/
def Sorted (fields : List (String × α)) : Prop :=
  fields.Pairwise fun a b => a.1 < b.1

/-- Puts a value under a key, in place of what was there. -/
def insert (key : String) (value : α) : List (String × α) → List (String × α)
  | [] => [(key, value)]
  | (k, v) :: rest =>
    if key < k then (key, value) :: (k, v) :: rest
    else if key = k then (key, value) :: rest
    else (k, v) :: insert key value rest

def erase (key : String) (fields : List (String × α)) : List (String × α) :=
  fields.filter fun field => field.1 ≠ key

/-- The map of a list of pairs in any order; of equal keys the last counts. -/
def ofList (fields : List (String × α)) : List (String × α) :=
  fields.foldl (fun acc field => insert field.1 field.2 acc) []

theorem mem_insert {key : String} {value : α} {fields : List (String × α)} {field : String × α}
    (h : field ∈ insert key value fields) : field = (key, value) ∨ field ∈ fields := by
  induction fields with
  | nil => simpa [insert] using h
  | cons head rest ih =>
    simp only [insert] at h
    split at h
    · simpa using h
    · split at h
      · simp only [List.mem_cons] at h ⊢
        exact h.imp_right Or.inr
      · simp only [List.mem_cons] at h ⊢
        rcases h with h | h
        · exact Or.inr (Or.inl h)
        · exact (ih h).imp_right Or.inr

theorem Sorted.insert {fields : List (String × α)} (h : Sorted fields) (key : String)
    (value : α) : Sorted (insert key value fields) := by
  induction fields with
  | nil => simp [Assoc.insert, Sorted]
  | cons head rest ih =>
    obtain ⟨hhead, hrest⟩ := List.pairwise_cons.1 h
    simp only [Assoc.insert]
    split
    · next hlt =>
      refine List.pairwise_cons.2 ⟨fun field hfield => ?_, h⟩
      rcases List.mem_cons.1 hfield with rfl | hfield
      · exact hlt
      · exact String.lt_trans hlt (hhead field hfield)
    · next hnlt =>
      split
      · next heq =>
        subst heq
        exact List.pairwise_cons.2 ⟨hhead, hrest⟩
      · next hne =>
        refine List.pairwise_cons.2 ⟨fun field hfield => ?_, ih hrest⟩
        rcases mem_insert hfield with rfl | hfield
        · exact Std.lt_of_le_of_ne (String.not_lt.1 hnlt) (Ne.symm hne)
        · exact hhead field hfield

theorem Sorted.erase {fields : List (String × α)} (h : Sorted fields) (key : String) :
    Sorted (erase key fields) :=
  h.filter _

/-- What a fold of insertions holds comes from the start or from the list. -/
theorem mem_foldl_insert {fields acc : List (String × α)} {field : String × α}
    (h : field ∈ fields.foldl (fun acc field => insert field.1 field.2 acc) acc) :
    field ∈ acc ∨ field ∈ fields := by
  induction fields generalizing acc with
  | nil => exact Or.inl h
  | cons head rest ih =>
    rcases ih h with h | h
    · rcases mem_insert h with rfl | h
      · exact Or.inr List.mem_cons_self
      · exact Or.inl h
    · exact Or.inr (List.mem_cons_of_mem _ h)

theorem Sorted.foldl_insert {acc : List (String × α)} (h : Sorted acc)
    (fields : List (String × α)) :
    Sorted (fields.foldl (fun acc field => Assoc.insert field.1 field.2 acc) acc) := by
  induction fields generalizing acc with
  | nil => exact h
  | cons head rest ih => exact ih (h.insert head.1 head.2)

theorem sorted_ofList (fields : List (String × α)) : Sorted (ofList fields) :=
  Sorted.foldl_insert List.Pairwise.nil fields

theorem mem_of_mem_ofList {fields : List (String × α)} {field : String × α}
    (h : field ∈ ofList fields) : field ∈ fields := by
  simpa using mem_foldl_insert h

end Custody.Assoc
