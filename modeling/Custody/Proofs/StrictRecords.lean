import Custody.Proofs.Records

/-!
# What a strict record accepts

A strict record is read from an object, straight from a text or from a value, exactly if the object
is closed, has no members but those of the record and none of them twice, and each member of the
record is found and can be read or may be missing.  In which order the members come does not matter.
-/

namespace Custody

/-! ## One member -/

namespace Field

variable {α : Type}

/-- What these members make of the slot of a member: if it is among them, the slot was empty and now
holds its value. -/
def Sets (field : Field α) (mode : Mode) (members : List (String × Document))
    (before after : Option α) : Prop :=
  match members.lookup field.name with
  | none => after = before
  | some d => before = none ∧ ∃ a, field.codec.read mode d = .ok a ∧ after = some a

/-- What these members say of a member: its value as that is read, or what it stands for to be
missing. -/
def Shows (field : Field α) (mode : Mode) (members : List (String × Document)) (a : α) : Prop :=
  (∃ d, members.lookup field.name = some d ∧ field.codec.read mode d = .ok a) ∨
    (members.lookup field.name = none ∧ field.absent = some a)

section

variable {field : Field α} {mode : Mode} {members : List (String × Document)}

theorem sets_iff_of_none (h : members.lookup field.name = none) {before after : Option α} :
    field.Sets mode members before after ↔ after = before := by
  rw [Sets, h]

theorem sets_iff_of_some {d : Document} (h : members.lookup field.name = some d)
    {before after : Option α} : field.Sets mode members before after ↔
      before = none ∧ ∃ a, field.codec.read mode d = .ok a ∧ after = some a := by
  rw [Sets, h]

/-- Once its slot is full, a member cannot come again. -/
theorem sets_cons_self_iff {d : Document} {before after : Option α} :
    (∃ slot, field.Sets mode [(field.name, d)] before slot ∧ field.Sets mode members slot after) ↔
      field.Sets mode ((field.name, d) :: members) before after ∧
        members.lookup field.name = none := by
  have hone : List.lookup field.name [(field.name, d)] = some d := List.lookup_cons_self
  have hall : ((field.name, d) :: members).lookup field.name = some d := List.lookup_cons_self
  simp only [sets_iff_of_some hone, sets_iff_of_some hall]
  cases hrest : members.lookup field.name with
  | none =>
    simp only [sets_iff_of_none hrest, and_true]
    constructor
    · rintro ⟨slot, ⟨hbefore, a, hread, rfl⟩, rfl⟩
      exact ⟨hbefore, a, hread, rfl⟩
    · rintro ⟨hbefore, a, hread, rfl⟩
      exact ⟨some a, ⟨hbefore, a, hread, rfl⟩, rfl⟩
  | some other =>
    simp only [sets_iff_of_some hrest]
    constructor
    · rintro ⟨slot, ⟨-, a, -, rfl⟩, hslot, -⟩
      cases hslot
    · rintro ⟨-, hnone⟩
      cases hnone

theorem sets_cons_of_ne {name : String} (h : field.name ≠ name) (d : Document)
    {before after : Option α} :
    field.Sets mode ((name, d) :: members) before after ↔ field.Sets mode members before after := by
  rw [Sets, Sets, Assoc.lookup_cons_of_ne h]

theorem or_absent_eq_some_iff_of_sets {slot : Option α} (h : field.Sets mode members none slot)
    {a : α} : slot.or field.absent = some a ↔ field.Shows mode members a := by
  rw [Shows]
  cases hlookup : members.lookup field.name with
  | none =>
    rw [(sets_iff_of_none hlookup).mp h]
    simp
  | some d =>
    obtain ⟨-, b, hread, rfl⟩ := (sets_iff_of_some hlookup).mp h
    simp [hread]

end

end Field

/-! ## All members -/

namespace Fields

variable {types : List Type} {mode : Mode}

def Sets (mode : Mode) (members : List (String × Document)) :
    {types : List Type} → Fields types → Slots types → Slots types → Prop
  | _, .nil, _, _ => True
  | _, .cons field rest, (before, slots), (after, slots') =>
    field.Sets mode members before after ∧ rest.Sets mode members slots slots'

/-- The row that these members show. -/
def Shows (mode : Mode) (members : List (String × Document)) :
    {types : List Type} → Fields types → Row types → Prop
  | _, .nil, _ => True
  | _, .cons field rest, (a, row) => field.Shows mode members a ∧ rest.Shows mode members row

theorem sets_nil_iff {fields : Fields types} {s t : Slots types} :
    fields.Sets mode [] s t ↔ t = s := by
  induction fields with
  | nil => exact iff_of_true trivial rfl
  | cons field rest ih =>
    rw [Sets, Field.sets_iff_of_none rfl, ih]
    exact Prod.ext_iff.symm

/-- Members of other names change nothing. -/
theorem sets_cons_of_notMem {fields : Fields types} {name : String} (h : name ∉ fields.names)
    (d : Document) {members : List (String × Document)} {s t : Slots types} :
    fields.Sets mode ((name, d) :: members) s t ↔ fields.Sets mode members s t := by
  induction fields with
  | nil => exact Iff.rfl
  | cons field rest ih =>
    rw [names, List.mem_cons, not_or] at h
    exact and_congr (Field.sets_cons_of_ne (Ne.symm h.1) d) (ih h.2)

/-- **One more member** must be new, and sets its slot. -/
theorem sets_cons_iff {fields : Fields types} (hnodup : fields.names.Nodup) {name : String}
    (hname : name ∈ fields.names) {d : Document} {members : List (String × Document)}
    {s t : Slots types} :
    (∃ u, fields.Sets mode [(name, d)] s u ∧ fields.Sets mode members u t) ↔
      fields.Sets mode ((name, d) :: members) s t ∧ members.lookup name = none := by
  induction fields with
  | nil => cases hname
  | cons field rest ih =>
    obtain ⟨hfield, hrest⟩ := List.nodup_cons.mp hnodup
    obtain ⟨before, s⟩ := s
    obtain ⟨after, t⟩ := t
    rw [names, List.mem_cons] at hname
    simp only [Sets, Prod.exists]
    by_cases hhere : name = field.name
    · subst hhere
      have hskip : ∀ u, rest.Sets mode [(field.name, d)] s u ↔ u = s := fun u =>
        (sets_cons_of_notMem hfield d).trans sets_nil_iff
      simp only [hskip, sets_cons_of_notMem hfield]
      rw [and_right_comm, ← Field.sets_cons_self_iff]
      constructor
      · rintro ⟨slot, _, ⟨hslot, rfl⟩, hafter, ht⟩
        exact ⟨⟨slot, hslot, hafter⟩, ht⟩
      · rintro ⟨⟨slot, hslot, hafter⟩, ht⟩
        exact ⟨slot, s, ⟨hslot, rfl⟩, hafter, ht⟩
    · have hne : field.name ≠ name := Ne.symm hhere
      have hskip : ∀ slot, field.Sets mode [(name, d)] before slot ↔ slot = before := fun slot =>
        (Field.sets_cons_of_ne hne d).trans (Field.sets_iff_of_none rfl)
      simp only [hskip, Field.sets_cons_of_ne hne]
      rw [and_assoc, ← ih hrest (hname.resolve_left hhere)]
      constructor
      · rintro ⟨_, u, ⟨rfl, hu⟩, hafter, ht⟩
        exact ⟨hafter, u, hu, ht⟩
      · rintro ⟨hafter, u, hu, ht⟩
        exact ⟨before, u, ⟨rfl, hu⟩, hafter, ht⟩

theorem put_eq_ok_iff_sets {fields : Fields types} (hnodup : fields.names.Nodup) {name : String}
    (hname : name ∈ fields.names) {d : Document} {s t : Slots types} :
    fields.put mode name d s = some (.ok t) ↔ fields.Sets mode [(name, d)] s t := by
  induction fields with
  | nil => cases hname
  | cons field rest ih =>
    obtain ⟨hfield, hrest⟩ := List.nodup_cons.mp hnodup
    obtain ⟨before, s⟩ := s
    obtain ⟨after, t⟩ := t
    rw [names, List.mem_cons] at hname
    rw [put, Sets]
    by_cases hhere : name = field.name
    · subst hhere
      rw [if_pos rfl, sets_cons_of_notMem hfield, sets_nil_iff,
        Field.sets_iff_of_some List.lookup_cons_self, Option.some.injEq]
      cases before with
      | some a => simp
      | none =>
        rw [Option.isSome_none, if_neg Bool.false_ne_true, map_eq_ok_iff]
        simp only [Prod.mk.injEq, true_and]
        constructor
        · rintro ⟨a, hread, rfl, rfl⟩
          exact ⟨⟨a, hread, rfl⟩, rfl⟩
        · rintro ⟨⟨a, hread, rfl⟩, rfl⟩
          exact ⟨a, hread, rfl, rfl⟩
    · rw [if_neg hhere, Field.sets_cons_of_ne (Ne.symm hhere), Field.sets_iff_of_none rfl,
        ← ih hrest (hname.resolve_left hhere), Option.map_eq_some_iff]
      constructor
      · rintro ⟨result, hput, hmap⟩
        obtain ⟨u, rfl, heq⟩ := map_eq_ok_iff.mp hmap
        cases heq
        exact ⟨rfl, hput⟩
      · rintro ⟨rfl, hput⟩
        exact ⟨.ok t, hput, rfl⟩

/-- A strict record takes one member after the other, all of which it must know. -/
theorem gather_strict_cons_iff {fields : Fields types} {name : String} {d : Document}
    {members : List (String × Document)} {s t : Slots types} :
    fields.gather true mode ((name, d) :: members) s = .ok t ↔
      name ∈ fields.names ∧ ∃ u, fields.put mode name d s = some (.ok u) ∧
        fields.gather true mode members u = .ok t := by
  rw [gather]
  by_cases hname : name ∈ fields.names
  · cases hput : fields.put mode name d s with
    | none => exact absurd hput (put_ne_none hname s)
    | some result => cases result <;> simp [hname]
  · rw [put_eq_none hname]
    simp [hname, skip]

-- The induction is on the members, from any slots.  A member that comes twice finds its slot full
-- the second time, so no list with repeated names goes through.
/-- **What a strict record gathers**: members that it knows, each once, set its slots. -/
theorem gather_strict_eq_ok_iff {fields : Fields types} (hnodup : fields.names.Nodup)
    {members : List (String × Document)} {s t : Slots types} :
    fields.gather true mode members s = .ok t ↔
      (members.map Prod.fst).Nodup ∧ (∀ member ∈ members, member.1 ∈ fields.names) ∧
        fields.Sets mode members s t := by
  induction members generalizing s with
  | nil =>
    rw [sets_nil_iff, gather, Except.ok.injEq]
    simp [eq_comm]
  | cons member rest ih =>
    obtain ⟨name, d⟩ := member
    have hnew : name ∉ rest.map Prod.fst ↔ rest.lookup name = none := by
      rw [Assoc.mem_keys_iff, Option.eq_none_iff_forall_ne_some, not_exists]
    rw [gather_strict_cons_iff, List.map_cons, List.nodup_cons, List.forall_mem_cons, hnew]
    constructor
    · rintro ⟨hname, u, hput, hgather⟩
      obtain ⟨hkeys, hknown, hrest⟩ := ih.mp hgather
      have hu := (put_eq_ok_iff_sets hnodup hname).mp hput
      obtain ⟨hsets, hnone⟩ := (sets_cons_iff hnodup hname).mp ⟨u, hu, hrest⟩
      exact ⟨⟨hnone, hkeys⟩, ⟨hname, hknown⟩, hsets⟩
    · rintro ⟨⟨hnone, hkeys⟩, ⟨hname, hknown⟩, hsets⟩
      obtain ⟨u, hu, hrest⟩ := (sets_cons_iff hnodup hname).mpr ⟨hsets, hnone⟩
      exact ⟨hname, u, (put_eq_ok_iff_sets hnodup hname).mpr hu,
        ih.mpr ⟨hkeys, hknown, hrest⟩⟩

theorem complete_eq_ok_iff_shows {fields : Fields types} {members : List (String × Document)}
    {s : Slots types} (h : fields.Sets mode members fields.blank s) {row : Row types} :
    fields.complete s = .ok row ↔ fields.Shows mode members row := by
  induction fields with
  | nil => exact iff_of_true rfl trivial
  | cons field rest ih =>
    obtain ⟨slot, s⟩ := s
    obtain ⟨a, row⟩ := row
    have hfield := Field.or_absent_eq_some_iff_of_sets h.1 (a := a)
    rw [complete]
    constructor
    · intro hcomplete
      split at hcomplete
      · cases hcomplete
      · next b hb =>
        obtain ⟨row', hrow, heq⟩ := map_eq_ok_iff.mp hcomplete
        cases heq
        exact ⟨hfield.mp hb, (ih h.2).mp hrow⟩
    · rintro ⟨hshows, hrest⟩
      rw [hfield.mpr hshows, (ih h.2).mpr hrest]
      rfl

/-- What the members show is enough to set the slots. -/
theorem Shows.sets {fields : Fields types} {members : List (String × Document)} {row : Row types}
    (h : fields.Shows mode members row) : ∃ s, fields.Sets mode members fields.blank s := by
  induction fields with
  | nil => exact ⟨(), trivial⟩
  | cons field rest ih =>
    obtain ⟨s, hs⟩ := ih h.2
    rcases h.1 with ⟨d, hlookup, hread⟩ | ⟨hnone, -⟩
    · exact ⟨(some row.1, s), (Field.sets_iff_of_some hlookup).mpr ⟨rfl, _, hread, rfl⟩, hs⟩
    · exact ⟨(none, s), (Field.sets_iff_of_none hnone).mpr rfl, hs⟩

end Fields

/-- An object with members of these names only, each at most once. -/
structure Document.Only (names : List String) (members : List (String × Document)) : Prop where
  nodup : (members.map Prod.fst).Nodup
  known : ∀ member ∈ members, member.1 ∈ names

/-- **A strict record is read from an object** exactly if that is closed, has members of the record
only, each at most once, and these show the row. -/
theorem Codec.read_strict_eq_ok_iff {types : List Type} {fields : Fields types}
    (hnodup : fields.names.Nodup) {name : String} {mode : Mode}
    {members : List (String × Document)} {ending : ObjectEnd} {row : Row types} :
    (Codec.record name true fields).read mode (.obj members ending) = .ok row ↔
      ∃ inner, mode.enter = some inner ∧ ending.isClosed = true ∧
        Document.Only fields.names members ∧ fields.Shows inner members row := by
  simp only [record]
  cases henter : mode.enter with
  | none => simp
  | some inner =>
    simp only [Option.some.injEq, exists_eq_left', Fields.readObject]
    constructor
    · intro h
      split at h
      · cases h
      · next s hs =>
        obtain ⟨hkeys, hknown, hsets⟩ := (Fields.gather_strict_eq_ok_iff hnodup).mp hs
        split at h
        · next hclosed =>
          exact ⟨hclosed, ⟨hkeys, hknown⟩, (Fields.complete_eq_ok_iff_shows hsets).mp h⟩
        · cases h
    · rintro ⟨hclosed, ⟨hkeys, hknown⟩, hshows⟩
      obtain ⟨s, hsets⟩ := hshows.sets
      rw [(Fields.gather_strict_eq_ok_iff hnodup).mpr ⟨hkeys, hknown, hsets⟩]
      simp only [hclosed, if_true]
      exact (Fields.complete_eq_ok_iff_shows hsets).mpr hshows

/-- A strict record that is not nested too deep is read from a closed object of its members just if
they show the row. -/
theorem Codec.read_strict_closed_iff {types : List Type} {fields : Fields types}
    (hnodup : fields.names.Nodup) {name : String} {mode inner : Mode}
    (henter : mode.enter = some inner) {members : List (String × Document)} {row : Row types} :
    (Codec.record name true fields).read mode (.obj members .closed) = .ok row ↔
      Document.Only fields.names members ∧ fields.Shows inner members row := by
  simp only [Codec.read_strict_eq_ok_iff hnodup, henter, Option.some.injEq, exists_eq_left',
    ObjectEnd.isClosed, true_and]

end Custody
