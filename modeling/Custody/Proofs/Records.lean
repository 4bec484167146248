import Custody.Codec.Record
import Custody.Proofs.Canonical

/-!
# Records read from values

The members of an object come in the order of their keys, those of a record in their own.  Reading
fills the slots of a record one after the other; what it has filled after some members is told by
looking them up.  So a record is read from an object exactly when the record knows all members, and
each of its own is found and can be read or may be missing.
-/

namespace Custody

theorem map_eq_ok_iff {ε α β : Type} {f : α → β} {x : Except ε α} {b : β} :
    x.map f = .ok b ↔ ∃ a, x = .ok a ∧ f a = b := by
  cases x with
  | error e =>
    constructor
    · intro h
      cases h
    · rintro ⟨a, h, -⟩
      cases h
  | ok a =>
    constructor
    · intro h
      cases h
      exact ⟨a, rfl, rfl⟩
    · rintro ⟨a', h, rfl⟩
      cases h
      rfl

/-! ## One member -/

namespace Field

variable {α : Type}

/-- What the slot of a member holds once these members have been read. -/
def Fills (field : Field α) (members : List (String × Json)) : Option α → Prop
  | none => members.lookup field.name = none
  | some a => ∃ v, members.lookup field.name = some v ∧ field.codec.ofJson v = .ok a

/-- What these members give for a member: its value as that is read, or what it stands for to be
missing. -/
def Gives (field : Field α) (members : List (String × Json)) (a : α) : Prop :=
  (∃ v, members.lookup field.name = some v ∧ field.codec.ofJson v = .ok a) ∨
    (members.lookup field.name = none ∧ field.absent = some a)

section

variable {field : Field α} {members : List (String × Json)}

theorem fills_iff_of_none (h : members.lookup field.name = none) {slot : Option α} :
    field.Fills members slot ↔ slot = none := by
  cases slot with
  | none => exact ⟨fun _ => rfl, fun _ => h⟩
  | some a =>
    constructor
    · rintro ⟨v, hv, -⟩
      rw [h] at hv
      cases hv
    · intro hslot
      cases hslot

theorem fills_iff_of_some {v : Json} (h : members.lookup field.name = some v) {slot : Option α} :
    field.Fills members slot ↔ ∃ a, slot = some a ∧ field.codec.ofJson v = .ok a := by
  cases slot with
  | none =>
    constructor
    · intro hnone
      rw [Fills, h] at hnone
      cases hnone
    · rintro ⟨a, hslot, -⟩
      cases hslot
  | some a =>
    constructor
    · rintro ⟨w, hw, hread⟩
      rw [h, Option.some.injEq] at hw
      subst hw
      exact ⟨a, rfl, hread⟩
    · rintro ⟨b, hslot, hread⟩
      cases hslot
      exact ⟨v, h, hread⟩

theorem gives_iff_of_none (h : members.lookup field.name = none) {a : α} :
    field.Gives members a ↔ field.absent = some a := by
  constructor
  · rintro (⟨v, hv, -⟩ | ⟨-, ha⟩)
    · rw [h] at hv
      cases hv
    · exact ha
  · intro ha
    exact Or.inr ⟨h, ha⟩

theorem gives_iff_of_some {v : Json} (h : members.lookup field.name = some v) {a : α} :
    field.Gives members a ↔ field.codec.ofJson v = .ok a := by
  constructor
  · rintro (⟨w, hw, hread⟩ | ⟨hnone, -⟩)
    · rw [h, Option.some.injEq] at hw
      subst hw
      exact hread
    · rw [h] at hnone
      cases hnone
  · intro hread
    exact Or.inl ⟨v, h, hread⟩

theorem Fills.unique {s t : Option α} (hs : field.Fills members s) (ht : field.Fills members t) :
    s = t := by
  cases hlookup : members.lookup field.name with
  | none => rw [(fills_iff_of_none hlookup).mp hs, (fills_iff_of_none hlookup).mp ht]
  | some v =>
    obtain ⟨a, rfl, ha⟩ := (fills_iff_of_some hlookup).mp hs
    obtain ⟨b, rfl, hb⟩ := (fills_iff_of_some hlookup).mp ht
    rw [ha, Except.ok.injEq] at hb
    rw [hb]

theorem fills_congr {others : List (String × Json)}
    (h : members.lookup field.name = others.lookup field.name) (s : Option α) :
    field.Fills members s ↔ field.Fills others s := by
  cases s <;> simp only [Fills, h]

/-- A slot that holds what these members say is completed to what they give. -/
theorem or_absent_eq_some_iff {s : Option α} (h : field.Fills members s) {a : α} :
    s.or field.absent = some a ↔ field.Gives members a := by
  cases hlookup : members.lookup field.name with
  | none =>
    rw [gives_iff_of_none hlookup, (fills_iff_of_none hlookup).mp h, Option.none_or]
  | some v =>
    obtain ⟨b, rfl, hb⟩ := (fills_iff_of_some hlookup).mp h
    rw [gives_iff_of_some hlookup, hb, Option.some_or, Option.some.injEq, Except.ok.injEq]

end

end Field

namespace Fields

variable {types : List Type}

/-- What the slots hold once these members have been read. -/
def Filled (members : List (String × Json)) :
    {types : List Type} → Fields types → Slots types → Prop
  | _, .nil, _ => True
  | _, .cons field rest, (slot, slots) => field.Fills members slot ∧ rest.Filled members slots

/-- The row that these members give. -/
def Given (members : List (String × Json)) :
    {types : List Type} → Fields types → Row types → Prop
  | _, .nil, _ => True
  | _, .cons field rest, (a, row) => field.Gives members a ∧ rest.Given members row

theorem Filled.unique {members : List (String × Json)} {fields : Fields types}
    {s t : Slots types} (hs : fields.Filled members s) (ht : fields.Filled members t) : s = t := by
  induction fields with
  | nil => rfl
  | cons field rest ih => exact Prod.ext (hs.1.unique ht.1) (ih hs.2 ht.2)

/-- Slots are filled alike from members that are looked up alike. -/
theorem filled_congr {fields : Fields types} {members others : List (String × Json)}
    (h : ∀ name ∈ fields.names, members.lookup name = others.lookup name) (s : Slots types) :
    fields.Filled members s ↔ fields.Filled others s := by
  induction fields with
  | nil => exact Iff.rfl
  | cons field rest ih =>
    have hfield := h field.name List.mem_cons_self
    have hrest := ih fun name hname => h name (List.mem_cons_of_mem field.name hname)
    exact and_congr (Field.fills_congr hfield s.1) (hrest s.2)

theorem filled_blank (fields : Fields types) : fields.Filled [] fields.blank := by
  induction fields with
  | nil => trivial
  | cons field rest ih => exact ⟨rfl, ih⟩

/-- If all members can be read, so can those at the beginning. -/
theorem Filled.take {fields : Fields types} {members more : List (String × Json)}
    {s : Slots types} (h : fields.Filled (members ++ more) s) :
    ∃ t, fields.Filled members t := by
  induction fields with
  | nil => exact ⟨(), trivial⟩
  | cons field rest ih =>
    obtain ⟨slots, hslots⟩ := ih h.2
    cases hlookup : members.lookup field.name with
    | none => exact ⟨(none, slots), hlookup, hslots⟩
    | some v =>
      have hall : (members ++ more).lookup field.name = some v := by
        rw [List.lookup_append, hlookup]
        rfl
      obtain ⟨a, -, hread⟩ := (Field.fills_iff_of_some hall).mp h.1
      exact ⟨(some a, slots), ⟨v, hlookup, hread⟩, hslots⟩

/-! ## One more member of an object -/

theorem put_eq_none {mode : Mode} {name : String} {d : Document} {fields : Fields types}
    (h : name ∉ fields.names) (s : Slots types) : fields.put mode name d s = none := by
  induction fields with
  | nil => rfl
  | cons field rest ih =>
    rw [names, List.mem_cons, not_or] at h
    rw [put, if_neg h.1, ih h.2]
    rfl

theorem lookup_concat_of_ne {members : List (String × Json)} {key name : String} (h : key ≠ name)
    (v : Json) : (members ++ [(name, v)]).lookup key = members.lookup key := by
  rw [List.lookup_append, Assoc.lookup_cons_of_ne h]
  cases members.lookup key <;> rfl

theorem lookup_concat_self {members : List (String × Json)} {name : String}
    (h : members.lookup name = none) (v : Json) :
    (members ++ [(name, v)]).lookup name = some v := by
  rw [List.lookup_append, h, List.lookup_cons_self]
  rfl

theorem filled_concat {fields : Fields types} {members : List (String × Json)} {name : String}
    (h : name ∉ fields.names) (v : Json) (s : Slots types) :
    fields.Filled (members ++ [(name, v)]) s ↔ fields.Filled members s := by
  apply filled_congr
  intro key hkey
  apply lookup_concat_of_ne
  rintro rfl
  exact h hkey

section

variable {α : Type} {field : Field α} {rest : Fields types}

theorem put_here_eq_ok_iff {v : Json} {slots : Slots types} {t : Slots (α :: types)} :
    put .value field.name (.ofJson v) (.cons field rest) (none, slots) = some (.ok t) ↔
      ∃ a, field.codec.ofJson v = .ok a ∧ (some a, slots) = t := by
  have hput : put .value field.name (.ofJson v) (.cons field rest) (none, slots) =
      some ((field.codec.ofJson v).map fun a => (some a, slots)) := by
    rw [put, if_pos rfl]
    rfl
  rw [hput, Option.some.injEq, map_eq_ok_iff]

theorem put_there_eq_ok_iff {name : String} (h : name ≠ field.name) {v : Json}
    {slot slot' : Option α} {slots slots' : Slots types} :
    put .value name (.ofJson v) (.cons field rest) (slot, slots) = some (.ok (slot', slots')) ↔
      slot' = slot ∧ rest.put .value name (.ofJson v) slots = some (.ok slots') := by
  have hput : put .value name (.ofJson v) (.cons field rest) (slot, slots) =
      (rest.put .value name (.ofJson v) slots).map (·.map fun slots => (slot, slots)) := by
    rw [put, if_neg h]
  rw [hput, Option.map_eq_some_iff]
  constructor
  · rintro ⟨r, hr, hmap⟩
    obtain ⟨slots'', rfl, heq⟩ := map_eq_ok_iff.mp hmap
    cases heq
    exact ⟨rfl, hr⟩
  · rintro ⟨rfl, h⟩
    exact ⟨_, h, rfl⟩

end

-- The induction is on the members of the record.  Where the name is met, the slot is still empty,
-- since the name is new to the object; the others are left as they are.
/-- **A member is put where it belongs**, if it is new and can be read, and else not at all. -/
theorem put_eq_ok_iff {fields : Fields types} {members : List (String × Json)} {name : String}
    {v : Json} {s t : Slots types} (hname : name ∈ fields.names) (hnodup : fields.names.Nodup)
    (hnew : members.lookup name = none) (hs : fields.Filled members s) :
    fields.put .value name (.ofJson v) s = some (.ok t) ↔
      fields.Filled (members ++ [(name, v)]) t := by
  induction fields with
  | nil => cases hname
  | cons field rest ih =>
    obtain ⟨slot, slots⟩ := s
    obtain ⟨slot', slots'⟩ := t
    obtain ⟨hfield, hrest⟩ := List.nodup_cons.mp hnodup
    rw [Filled]
    by_cases hhere : name = field.name
    · subst hhere
      have hempty : slot = none := (Field.fills_iff_of_none hnew).mp hs.1
      subst hempty
      rw [put_here_eq_ok_iff, Field.fills_iff_of_some (lookup_concat_self hnew v),
        filled_concat hfield v]
      constructor
      · rintro ⟨a, hread, heq⟩
        cases heq
        exact ⟨⟨a, rfl, hread⟩, hs.2⟩
      · rintro ⟨⟨a, rfl, hread⟩, hfilled⟩
        rw [hfilled.unique hs.2]
        exact ⟨a, hread, rfl⟩
    · have hthere : name ∈ rest.names := (List.mem_cons.mp hname).resolve_left hhere
      rw [put_there_eq_ok_iff hhere, ih hthere hrest hs.2,
        Field.fills_congr (lookup_concat_of_ne (Ne.symm hhere) v)]
      constructor
      · rintro ⟨rfl, hfilled⟩
        exact ⟨hs.1, hfilled⟩
      · rintro ⟨hfills, hfilled⟩
        exact ⟨hfills.unique hs.1, hfilled⟩

theorem put_ne_none {mode : Mode} {name : String} {d : Document} {fields : Fields types}
    (h : name ∈ fields.names) (s : Slots types) : fields.put mode name d s ≠ none := by
  induction fields with
  | nil => cases h
  | cons field rest ih =>
    obtain ⟨slot, slots⟩ := s
    rw [put]
    split
    · exact Option.some_ne_none _
    · next hne =>
      intro hnone
      rw [Option.map_eq_none_iff] at hnone
      exact ih ((List.mem_cons.mp h).resolve_left hne) slots hnone

/-! ## All members of an object -/

/-- One step of gathering: a known member fills its slot, an unknown one changes nothing. -/
theorem gather_cons_iff {fields : Fields types} {strict : Bool} {members : List (String × Json)}
    {name : String} {v : Json} {rest : List (String × Document)} {s t : Slots types}
    (hnodup : fields.names.Nodup) (hnew : members.lookup name = none)
    (hs : fields.Filled members s) :
    fields.gather strict .value ((name, .ofJson v) :: rest) s = .ok t ↔
      (strict = true → name ∈ fields.names) ∧
        ∃ u, fields.Filled (members ++ [(name, v)]) u ∧
          fields.gather strict .value rest u = .ok t := by
  by_cases hname : name ∈ fields.names
  · rw [gather]
    cases hput : fields.put .value name (.ofJson v) s with
    | none => exact absurd hput (put_ne_none hname s)
    | some r =>
      cases r with
      | error fault =>
        constructor
        · intro h
          cases h
        · rintro ⟨-, u, hu, -⟩
          rw [← put_eq_ok_iff hname hnodup hnew hs, hput] at hu
          cases hu
      | ok u =>
        have hu := (put_eq_ok_iff hname hnodup hnew hs).mp hput
        constructor
        · intro h
          exact ⟨fun _ => hname, u, hu, h⟩
        · rintro ⟨-, u', hu', h⟩
          rw [hu.unique hu']
          exact h
  · rw [gather, put_eq_none hname]
    cases strict with
    | true =>
      constructor
      · intro h
        cases h
      · rintro ⟨hknown, -⟩
        exact absurd (hknown rfl) hname
    | false =>
      have hkeep := (filled_concat hname v s).mpr hs
      constructor
      · intro h
        refine ⟨?_, s, hkeep, h⟩
        intro hstrict
        cases hstrict
      · rintro ⟨-, u, hu, h⟩
        rw [hkeep.unique hu]
        exact h

/-- **What an object fills**: a strict record must know every member, and each slot holds the value
of its own. -/
theorem gather_eq_ok_iff {fields : Fields types} {strict : Bool}
    {members more : List (String × Json)} {s t : Slots types} (hnodup : fields.names.Nodup)
    (hkeys : ((members ++ more).map Prod.fst).Nodup) (hs : fields.Filled members s) :
    fields.gather strict .value (Document.ofFields more) s = .ok t ↔
      (strict = true → ∀ member ∈ more, member.1 ∈ fields.names) ∧
        fields.Filled (members ++ more) t := by
  induction more generalizing members s with
  | nil =>
    rw [List.append_nil]
    constructor
    · intro h
      cases h
      exact ⟨fun _ _ hmember => absurd hmember List.not_mem_nil, hs⟩
    · rintro ⟨-, ht⟩
      rw [hs.unique ht]
      rfl
  | cons member rest ih =>
    obtain ⟨name, v⟩ := member
    have hnew : members.lookup name = none := by
      apply Assoc.lookup_eq_none
      rintro field hfield rfl
      rw [List.map_append, List.nodup_append] at hkeys
      exact hkeys.2.2 field.1 (List.mem_map_of_mem hfield) field.1 List.mem_cons_self rfl
    have hsplit : members ++ (name, v) :: rest = members ++ [(name, v)] ++ rest := by simp
    rw [hsplit] at hkeys ⊢
    rw [Document.ofFields, gather_cons_iff hnodup hnew hs]
    constructor
    · rintro ⟨hname, u, hu, h⟩
      obtain ⟨hrest, ht⟩ := (ih hkeys hu).mp h
      refine ⟨?_, ht⟩
      intro hstrict member hmember
      rcases List.mem_cons.mp hmember with rfl | hmember
      · exact hname hstrict
      · exact hrest hstrict member hmember
    · rintro ⟨hknown, ht⟩
      obtain ⟨u, hu⟩ := ht.take
      refine ⟨fun hstrict => hknown hstrict (name, v) List.mem_cons_self, u, hu, ?_⟩
      refine (ih hkeys hu).mpr ⟨?_, ht⟩
      intro hstrict member hmember
      exact hknown hstrict member (List.mem_cons_of_mem _ hmember)

theorem complete_eq_ok_iff {fields : Fields types} {members : List (String × Json)}
    {s : Slots types} (h : fields.Filled members s) {row : Row types} :
    fields.complete s = .ok row ↔ fields.Given members row := by
  induction fields with
  | nil => exact ⟨fun _ => trivial, fun _ => rfl⟩
  | cons field rest ih =>
    obtain ⟨slot, slots⟩ := s
    obtain ⟨a, row⟩ := row
    have hfield := Field.or_absent_eq_some_iff h.1 (a := a)
    rw [complete]
    constructor
    · intro hcomplete
      split at hcomplete
      · cases hcomplete
      · next b hb =>
        obtain ⟨row', hrow, heq⟩ := map_eq_ok_iff.mp hcomplete
        cases heq
        exact ⟨hfield.mp hb, (ih h.2).mp hrow⟩
    · rintro ⟨hgives, hgiven⟩
      rw [hfield.mpr hgives, (ih h.2).mpr hgiven]
      rfl

/-- What a row needs of its members is enough to fill the slots. -/
theorem Given.filled {fields : Fields types} {members : List (String × Json)} {row : Row types}
    (h : fields.Given members row) : ∃ s, fields.Filled members s := by
  induction fields with
  | nil => exact ⟨(), trivial⟩
  | cons field rest ih =>
    obtain ⟨slots, hslots⟩ := ih h.2
    rcases h.1 with hfound | ⟨hnone, -⟩
    · exact ⟨(some row.1, slots), hfound, hslots⟩
    · exact ⟨(none, slots), hnone, hslots⟩

/-- **A record is read from an object** exactly when it knows all members, unless it is not strict,
and they give the row. -/
theorem readObject_eq_ok_iff {fields : Fields types} {strict : Bool}
    {members : List (String × Json)} {row : Row types} (hnodup : fields.names.Nodup)
    (hsorted : Assoc.Sorted members) :
    fields.readObject strict .value (Document.ofFields members) .closed = .ok row ↔
      (strict = true → ∀ member ∈ members, member.1 ∈ fields.names) ∧
        fields.Given members row := by
  have hgather : ∀ s, fields.gather strict .value (Document.ofFields members) fields.blank = .ok s ↔
      (strict = true → ∀ member ∈ members, member.1 ∈ fields.names) ∧
        fields.Filled ([] ++ members) s :=
    fun _ => gather_eq_ok_iff hnodup hsorted.nodup_keys (filled_blank fields)
  rw [readObject]
  constructor
  · intro h
    split at h
    · cases h
    · next s hs =>
      obtain ⟨hknown, hfilled⟩ := (hgather s).mp hs
      exact ⟨hknown, (complete_eq_ok_iff hfilled).mp h⟩
  · rintro ⟨hknown, hgiven⟩
    obtain ⟨s, hfilled⟩ := hgiven.filled
    rw [(hgather s).mpr ⟨hknown, hfilled⟩]
    exact (complete_eq_ok_iff hfilled).mpr hgiven

/-- One step of reading members from an array: the first item is that of the first member. -/
theorem readItems_cons_eq_ok_iff {α : Type} {field : Field α} {rest : Fields types} {mode : Mode}
    {closed : Bool} {ended : Nat → Fault} {index : Nat} {d : Document} {items : List Document}
    {row : Row (α :: types)} {left : List Document} :
    readItems mode closed ended index (.cons field rest) (d :: items) = .ok (row, left) ↔
      field.codec.read mode d = .ok row.1 ∧
        rest.readItems mode closed ended (index + 1) items = .ok (row.2, left) := by
  rw [readItems]
  constructor
  · intro h
    split at h
    · cases h
    · next a ha =>
      obtain ⟨⟨more, left'⟩, hmore, heq⟩ := map_eq_ok_iff.mp h
      cases heq
      exact ⟨ha, hmore⟩
  · rintro ⟨ha, hmore⟩
    rw [ha]
    exact map_eq_ok_iff.mpr ⟨(row.2, left), hmore, rfl⟩

end Fields

/-! ## Members that must be there -/

namespace Fields

variable {types : List Type}

/-- The names of the members that stand for nothing when they are missing. -/
def requiredNames : {types : List Type} → Fields types → List String
  | _, .nil => []
  | _, .cons field rest =>
    if field.absent.isNone then field.name :: rest.requiredNames else rest.requiredNames

theorem Given.isSome_lookup {fields : Fields types} {members : List (String × Json)}
    {row : Row types} (h : fields.Given members row) :
    ∀ name ∈ fields.requiredNames, (members.lookup name).isSome = true := by
  induction fields with
  | nil =>
    intro name hname
    cases hname
  | cons field rest ih =>
    intro name hname
    rw [requiredNames] at hname
    split at hname
    · next habsent =>
      rcases List.mem_cons.mp hname with rfl | hname
      · cases hlookup : members.lookup field.name with
        | none =>
          rw [(Field.gives_iff_of_none hlookup).mp h.1] at habsent
          cases habsent
        | some v => rfl
      · exact ih h.2 name hname
    · exact ih h.2 name hname

end Fields

/-! ## Codecs that read back values -/

namespace Codec

variable {α β : Type} {types : List Type}

/-- Whether a codec reads each thing back from its value. -/
def Reads (c : Codec α) (toJson : α → Json) : Prop := ∀ a, c.ofJson (toJson a) = .ok a

theorem reads_text : text.Reads .str := fun _ => rfl

theorem reads_flag : flag.Reads .bool := fun _ => rfl

theorem reads_int64 : int64.Reads .ofInt64 := by
  intro n
  have hword := Integer.toInt64?_ofInt64 n
  simp only [ofJson, int64, Json.ofInt64, Document.ofJson, hword]

theorem reads_table : table.Reads Table.toJson := by
  intro t
  have hvalue : (Document.ofJson (.obj t.fields)).value? .value = some (.obj t.fields) :=
    Document.value?_ofJson .value t.ordered
  rw [Document.ofJson] at hvalue
  simp only [ofJson, table, Table.toJson, Document.ofJson]
  split
  · next v hv =>
    rw [hvalue, Option.some.injEq] at hv
    subst hv
    rfl
  · next hv =>
    rw [hvalue] at hv
    cases hv

/-- One step of reading an array: the first item is read, and then the others. -/
theorem readItems_cons_eq_ok_iff {c : Codec α} {mode : Mode} {d : Document}
    {rest : List Document} {things : List α} :
    c.readItems mode (d :: rest) = .ok things ↔
      ∃ a more, c.read mode d = .ok a ∧ c.readItems mode rest = .ok more ∧ a :: more = things := by
  rw [readItems]
  constructor
  · intro h
    split at h
    · cases h
    · next a ha =>
      split at h
      · cases h
      · next more hmore =>
        cases h
        exact ⟨a, more, ha, hmore, rfl⟩
  · rintro ⟨a, more, ha, hmore, rfl⟩
    rw [ha, hmore]

theorem ofJson_list_arr {c : Codec α} {items : List Json} :
    c.list.ofJson (.arr items) = c.readItems .value (Document.ofItems items) := by
  simp only [ofJson, list, Document.ofJson, Mode.enter, if_true]
  cases c.readItems .value (Document.ofItems items) <;> rfl

theorem readItems_ofItems {c : Codec α} {toJson : α → Json} {things : List α}
    (h : ∀ a ∈ things, c.ofJson (toJson a) = .ok a) :
    c.readItems .value (Document.ofItems (things.map toJson)) = .ok things := by
  induction things with
  | nil => rfl
  | cons a rest ih =>
    have ha : c.read .value (.ofJson (toJson a)) = .ok a := h a List.mem_cons_self
    rw [List.map_cons, Document.ofItems, readItems, ha,
      ih fun b hb => h b (List.mem_cons_of_mem a hb)]

theorem Reads.list {c : Codec α} {toJson : α → Json} (h : c.Reads toJson) :
    c.list.Reads fun things => .arr (things.map toJson) := by
  intro things
  rw [ofJson_list_arr]
  exact readItems_ofItems fun a _ => h a

theorem ofJson_optional {c : Codec α} {v : Json} (h : v.isNull = false) :
    c.optional.ofJson v = (c.ofJson v).map some := by
  cases v with
  | null => cases h
  | bool b | num n | str s | arr items | obj fields => rfl

theorem Reads.optional {c : Codec α} {toJson : α → Json} (h : c.Reads toJson)
    (hnull : ∀ a, (toJson a).isNull = false) {toJson? : Option α → Json}
    (hnone : toJson? none = .null) (hsome : ∀ a, toJson? (some a) = toJson a) :
    c.optional.Reads toJson? := by
  intro a?
  cases a? with
  | none =>
    rw [hnone]
    rfl
  | some a =>
    rw [hsome, ofJson_optional (hnull a), h a]
    rfl

theorem ofJson_iso {c : Codec α} {pack : α → β} {unpack : β → α} {v : Json} {b : β} :
    (c.iso pack unpack).ofJson v = .ok b ↔ ∃ a, c.ofJson v = .ok a ∧ pack a = b :=
  map_eq_ok_iff

/-- A record is read from an object exactly when its members give the row. -/
theorem ofJson_record {name : String} {strict : Bool} {fields : Fields types}
    {members : List (String × Json)} {row : Row types} (hnodup : fields.names.Nodup)
    (hsorted : Assoc.Sorted members) :
    (Codec.record name strict fields).ofJson (.obj members) = .ok row ↔
      (strict = true → ∀ member ∈ members, member.1 ∈ fields.names) ∧
        fields.Given members row :=
  Fields.readObject_eq_ok_iff hnodup hsorted

/-- A record is read back from members that it knows, that are in the order of their keys, and that
give its row. -/
theorem ofJson_record_of_keys {name : String} {strict : Bool} {fields : Fields types}
    {members : List (String × Json)} {row : Row types} (keys : List String)
    (hnodup : fields.names.Nodup) (hkeys : members.map Prod.fst = keys)
    (hsorted : keys.Pairwise (· < ·)) (hknown : ∀ key ∈ keys, key ∈ fields.names)
    (hgiven : fields.Given members row) :
    (Codec.record name strict fields).ofJson (.obj members) = .ok row := by
  refine (ofJson_record hnodup (Assoc.sorted_of_keys hkeys hsorted)).mpr ⟨?_, hgiven⟩
  intro _ member hmember
  apply hknown
  rw [← hkeys]
  exact List.mem_map_of_mem hmember

theorem ofJson_refine {c : Codec α} {pack : α → Except String β} {unpack : β → α} {v : Json}
    {a : α} (h : c.ofJson v = .ok a) :
    (c.refine pack unpack).ofJson v = (pack a).mapError .rule := by
  have hread : c.read .value (.ofJson v) = .ok a := h
  simp only [ofJson, refine, hread]

end Codec

end Custody
