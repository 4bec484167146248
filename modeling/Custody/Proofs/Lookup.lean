import Custody.Assoc

/-!
# Lookups in sorted association lists

A sorted association list is its lookups: two lists that give the same value under every key are
equal, and building the map of a list that is sorted already changes nothing.
-/

namespace Custody.Assoc

universe u

variable {α : Type u}

/-! ## What an operation does to the lookups -/

theorem lookup_cons_of_ne {key k : String} (h : key ≠ k) (value : α)
    (fields : List (String × α)) : ((k, value) :: fields).lookup key = fields.lookup key := by
  rw [List.lookup_cons, beq_eq_false_iff_ne.mpr h]

@[simp] theorem lookup_insert_self (key : String) (value : α) (fields : List (String × α)) :
    (insert key value fields).lookup key = some value := by
  induction fields with
  | nil => exact List.lookup_cons_self
  | cons head rest ih =>
    rw [insert]
    split
    · exact List.lookup_cons_self
    · split
      · exact List.lookup_cons_self
      · next hne =>
        rw [lookup_cons_of_ne hne]
        exact ih

theorem lookup_insert_of_ne {key k : String} (h : k ≠ key) (value : α)
    (fields : List (String × α)) : (insert key value fields).lookup k = fields.lookup k := by
  induction fields with
  | nil => exact lookup_cons_of_ne h value []
  | cons head rest ih =>
    rw [insert]
    split
    · exact lookup_cons_of_ne h value _
    · split
      · next heq =>
        subst heq
        rw [lookup_cons_of_ne h, lookup_cons_of_ne h]
      · by_cases hk : k = head.1
        · subst hk
          rw [List.lookup_cons_self, List.lookup_cons_self]
        · rw [lookup_cons_of_ne hk, lookup_cons_of_ne hk, ih]

theorem lookup_map {β : Type u} (f : α → β) (fields : List (String × α)) (key : String) :
    (fields.map fun field => (field.1, f field.2)).lookup key = (fields.lookup key).map f := by
  induction fields with
  | nil => rfl
  | cons head rest ih =>
    by_cases h : key = head.1
    · subst h
      rw [List.map_cons, List.lookup_cons_self, List.lookup_cons_self]
      rfl
    · rw [List.map_cons, lookup_cons_of_ne h, lookup_cons_of_ne h, ih]

@[simp] theorem lookup_erase_self (key : String) (fields : List (String × α)) :
    (erase key fields).lookup key = none := by
  induction fields with
  | nil => rfl
  | cons head rest ih =>
    rw [erase, List.filter_cons]
    split
    · next hne =>
      rw [lookup_cons_of_ne (Ne.symm (of_decide_eq_true hne))]
      exact ih
    · exact ih

theorem lookup_erase_of_ne {key k : String} (h : k ≠ key) (fields : List (String × α)) :
    (erase key fields).lookup k = fields.lookup k := by
  induction fields with
  | nil => rfl
  | cons head rest ih =>
    rw [erase, List.filter_cons]
    split
    · by_cases hk : k = head.1
      · subst hk
        rw [List.lookup_cons_self, List.lookup_cons_self]
      · rw [lookup_cons_of_ne hk, lookup_cons_of_ne hk]
        exact ih
    · next heq =>
      have hhead : head.1 = key := by simpa using heq
      rw [lookup_cons_of_ne (hhead ▸ h)]
      exact ih

/-! ## What is listed is found -/

theorem mem_of_lookup {key : String} {value : α} {fields : List (String × α)}
    (h : fields.lookup key = some value) : (key, value) ∈ fields := by
  induction fields with
  | nil => cases h
  | cons head rest ih =>
    by_cases hk : key = head.1
    · subst hk
      rw [List.lookup_cons_self] at h
      cases h
      exact List.mem_cons_self
    · rw [lookup_cons_of_ne hk] at h
      exact List.mem_cons_of_mem head (ih h)

theorem lookup_eq_none {key : String} {fields : List (String × α)}
    (h : ∀ field ∈ fields, key ≠ field.1) : fields.lookup key = none := by
  cases hlookup : fields.lookup key with
  | none => rfl
  | some value => exact absurd rfl (h _ (mem_of_lookup hlookup))

/-- The keys are those under which something is found. -/
theorem mem_keys_iff {key : String} {fields : List (String × α)} :
    key ∈ fields.map Prod.fst ↔ ∃ value, fields.lookup key = some value := by
  constructor
  · intro h
    cases hlookup : fields.lookup key with
    | some value => exact ⟨value, rfl⟩
    | none =>
      obtain ⟨field, hfield, rfl⟩ := List.mem_map.mp h
      rw [List.lookup_eq_none_iff] at hlookup
      exact absurd (beq_self_eq_true field.1) (by simpa using hlookup field hfield)
  · rintro ⟨value, h⟩
    exact List.mem_map_of_mem (mem_of_lookup h)

theorem Sorted.of_cons {head : String × α} {rest : List (String × α)}
    (h : Sorted (head :: rest)) : Sorted rest :=
  (List.pairwise_cons.mp h).2

/-- The first key of a sorted list does not come again. -/
theorem Sorted.ne_head {head : String × α} {rest : List (String × α)}
    (h : Sorted (head :: rest)) {field : String × α} (hfield : field ∈ rest) :
    head.1 ≠ field.1 := by
  intro heq
  have hlt := (List.pairwise_cons.mp h).1 field hfield
  rw [heq] at hlt
  exact String.lt_irrefl field.1 hlt

theorem Sorted.nodup_keys {fields : List (String × α)} (h : Sorted fields) :
    (fields.map Prod.fst).Nodup := by
  apply List.pairwise_map.mpr
  apply h.imp
  intro a b hlt heq
  rw [heq] at hlt
  exact String.lt_irrefl b.1 hlt

theorem sorted_of_keys {fields : List (String × α)} {keys : List String}
    (h : fields.map Prod.fst = keys) (hkeys : keys.Pairwise (· < ·)) : Sorted fields := by
  rw [← h] at hkeys
  exact List.pairwise_map.mp hkeys

/-- **A sorted list is its lookups**: lists that agree under every key are equal. -/
theorem Sorted.ext {fields others : List (String × α)} (hf : Sorted fields) (ho : Sorted others)
    (h : ∀ key, fields.lookup key = others.lookup key) : fields = others := by
  induction fields generalizing others with
  | nil =>
    cases others with
    | nil => rfl
    | cons other _ =>
      have := h other.1
      rw [List.lookup_cons_self] at this
      cases this
  | cons head rest ih =>
    cases others with
    | nil =>
      have := h head.1
      rw [List.lookup_cons_self] at this
      cases this
    | cons other more =>
      -- Were the first keys different, each would come after the other.
      have hkey : head.1 = other.1 := by
        by_cases hkey : head.1 = other.1
        · exact hkey
        · have hhead := h head.1
          have hother := h other.1
          rw [List.lookup_cons_self, lookup_cons_of_ne hkey] at hhead
          rw [List.lookup_cons_self, lookup_cons_of_ne (Ne.symm hkey)] at hother
          have hlt := (List.pairwise_cons.mp ho).1 _ (mem_of_lookup hhead.symm)
          have hgt := (List.pairwise_cons.mp hf).1 _ (mem_of_lookup hother)
          exact absurd (String.lt_trans hlt hgt) (String.lt_irrefl other.1)
      have hvalue := h head.1
      rw [List.lookup_cons_self, hkey, List.lookup_cons_self, Option.some.injEq] at hvalue
      have hrest : rest = more := by
        apply ih hf.of_cons ho.of_cons
        intro key
        by_cases hk : key = head.1
        · subst hk
          rw [lookup_eq_none fun field hfield => hf.ne_head hfield,
            lookup_eq_none fun field hfield => by rw [hkey]; exact ho.ne_head hfield]
        · have := h key
          rwa [lookup_cons_of_ne hk, lookup_cons_of_ne (hkey ▸ hk)] at this
      rw [hrest, Prod.ext hkey hvalue]

/-! ## Building the map of a list -/

/-- A key that comes after all others goes to the end. -/
theorem insert_last {key : String} {value : α} {fields : List (String × α)}
    (h : ∀ field ∈ fields, field.1 < key) : insert key value fields = fields ++ [(key, value)] := by
  induction fields with
  | nil => rfl
  | cons head rest ih =>
    have hhead : head.1 < key := h head List.mem_cons_self
    rw [insert, if_neg (String.lt_asymm hhead), if_neg, ih]
    · rfl
    · exact fun field hfield => h field (List.mem_cons_of_mem head hfield)
    · intro heq
      rw [heq] at hhead
      exact String.lt_irrefl head.1 hhead

theorem foldl_insert_eq_append {fields acc : List (String × α)} (h : Sorted (acc ++ fields)) :
    fields.foldl (fun acc field => insert field.1 field.2 acc) acc = acc ++ fields := by
  induction fields generalizing acc with
  | nil => exact (List.append_nil acc).symm
  | cons head rest ih =>
    have hhead : ∀ field ∈ acc, field.1 < head.1 := fun field hfield =>
      (List.pairwise_append.mp h).2.2 field hfield head List.mem_cons_self
    have hsplit : acc ++ head :: rest = acc ++ [head] ++ rest := by simp
    rw [hsplit] at h ⊢
    rw [List.foldl_cons, insert_last hhead]
    exact ih h

/-- **A list that is sorted already is its own map.** -/
theorem ofList_eq_self {fields : List (String × α)} (h : Sorted fields) : ofList fields = fields :=
  foldl_insert_eq_append h

-- The induction is on the list, from any map: what the list does not hold is looked up there.
theorem lookup_foldl_insert {fields acc : List (String × α)} (h : (fields.map Prod.fst).Nodup)
    (key : String) :
    (fields.foldl (fun acc field => insert field.1 field.2 acc) acc).lookup key =
      (fields.lookup key).or (acc.lookup key) := by
  induction fields generalizing acc with
  | nil => rfl
  | cons head rest ih =>
    obtain ⟨hhead, hrest⟩ := List.nodup_cons.mp h
    rw [List.foldl_cons, ih hrest]
    by_cases hkey : key = head.1
    · subst hkey
      have hnone : rest.lookup head.1 = none := by
        apply lookup_eq_none
        intro field hfield heq
        exact hhead (heq ▸ List.mem_map_of_mem hfield)
      rw [hnone, lookup_insert_self, List.lookup_cons_self]
      rfl
    · rw [lookup_insert_of_ne hkey, lookup_cons_of_ne hkey]

/-- The map of a list with keys of its own is looked up like the list. -/
theorem lookup_ofList {fields : List (String × α)} (h : (fields.map Prod.fst).Nodup)
    (key : String) : (ofList fields).lookup key = fields.lookup key := by
  rw [ofList, lookup_foldl_insert h]
  exact Option.or_none

end Custody.Assoc
