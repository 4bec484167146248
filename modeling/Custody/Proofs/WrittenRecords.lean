import Custody.Codec.Choice
import Custody.Proofs.ImportedBundle

/-!
# What is written is read back

A codec may write the members of an object in an order of its own, so its document need not be that
of a value.  It still reads back what it wrote: straight from the document, as long as that is not
nested too deep for the way it is read, and also from its value, in which the members are in the
order of their keys.  For a record this is so if it is for each of its members.
-/

namespace Custody

/-! ## The depth of a document -/

namespace Document

mutual
/-- How deep arrays and objects are nested in a document. -/
def depth : Document → Nat
  | .arr items _ => depthItems items + 1
  | .obj fields _ => depthFields fields + 1
  | _ => 0
def depthItems : List Document → Nat
  | [] => 0
  | item :: rest => max item.depth (depthItems rest)
def depthFields : List (String × Document) → Nat
  | [] => 0
  | (_, member) :: rest => max member.depth (depthFields rest)
end

mutual
/-- **A complete document has a value** unless it is nested too deep. -/
theorem exists_value : ∀ {d : Document} {mode : Mode}, d.isComplete = true →
    mode.admits d.depth = true → ∃ v, d.value? mode = some v
  | .null, _, _, _ => ⟨.null, rfl⟩
  | .bool b, _, _, _ => ⟨.bool b, rfl⟩
  | .num n, _, _, _ => ⟨.num n, rfl⟩
  | .str s, _, _, _ => ⟨.str s, rfl⟩
  | .arr items closed, mode, h, hdepth => by
    simp only [isComplete, Bool.and_eq_true] at h
    obtain ⟨inner, henter, hinner⟩ := Mode.exists_enter hdepth
    obtain ⟨values, hvalues⟩ := exists_itemValues h.1 hinner
    exact ⟨.arr values, by simp [value?, henter, hvalues, h.2]⟩
  | .obj fields ending, mode, h, hdepth => by
    simp only [isComplete, Bool.and_eq_true] at h
    obtain ⟨inner, henter, hinner⟩ := Mode.exists_enter hdepth
    obtain ⟨values, hvalues⟩ := exists_fieldValues h.1 hinner
    exact ⟨.obj (Assoc.ofList values), by simp [value?, henter, hvalues, h.2]⟩
theorem exists_itemValues : ∀ {items : List Document} {mode : Mode},
    itemsAreComplete items = true → mode.admits (depthItems items) = true →
      ∃ values, itemValues? mode items = some values
  | [], _, _, _ => ⟨[], rfl⟩
  | item :: rest, mode, h, hdepth => by
    simp only [itemsAreComplete, Bool.and_eq_true] at h
    rw [depthItems, Mode.admits_max, Bool.and_eq_true] at hdepth
    obtain ⟨value, hvalue⟩ := exists_value h.1 hdepth.1
    obtain ⟨values, hvalues⟩ := exists_itemValues h.2 hdepth.2
    exact ⟨value :: values, by simp [itemValues?, hvalue, hvalues]⟩
theorem exists_fieldValues : ∀ {fields : List (String × Document)} {mode : Mode},
    fieldsAreComplete fields = true → mode.admits (depthFields fields) = true →
      ∃ values, fieldValues? mode fields = some values
  | [], _, _, _ => ⟨[], rfl⟩
  | (key, member) :: rest, mode, h, hdepth => by
    simp only [fieldsAreComplete, Bool.and_eq_true] at h
    rw [depthFields, Mode.admits_max, Bool.and_eq_true] at hdepth
    obtain ⟨value, hvalue⟩ := exists_value h.1 hdepth.1
    obtain ⟨values, hvalues⟩ := exists_fieldValues h.2 hdepth.2
    exact ⟨(key, value) :: values, by simp [fieldValues?, hvalue, hvalues]⟩
end

/-- The value of a value's document is that value. -/
theorem eq_of_value?_ofJson {v w : Json} {mode : Mode} (hv : v.Ordered)
    (h : (ofJson v).value? mode = some w) : w = v := by
  rw [value?_ofJson mode hv] at h
  split at h
  · exact (Option.some.inj h).symm
  · cases h

/-- Only null has the value null. -/
theorem isNull_of_value? {d : Document} {mode : Mode} {v : Json} (hd : d ≠ .null)
    (h : d.value? mode = some v) : v.isNull = false := by
  cases d with
  | null => exact absurd rfl hd
  | bool b | num n | str s =>
    cases h
    rfl
  | arr items closed | obj fields ending =>
    rw [value?] at h
    split at h
    · cases h
    · split at h
      · obtain ⟨values, -, rfl⟩ := Option.map_eq_some_iff.mp h
        rfl
      · cases h
  | unreadable | broken => cases h

end Document

/-! ## Codecs -/

namespace Codec

variable {α β : Type} {types : List Type}

theorem decode_eq_ok_iff {c : Codec α} {text : List Char} {a : α} :
    c.decode text = .ok a ↔
      c.read .fromText (Document.read text).1 = .ok a ∧ (Document.read text).2 = true := by
  rw [decode]
  cases hread : c.read .fromText (Document.read text).1 with
  | error fault => simp [hread]
  | ok b =>
    cases hended : (Document.read text).2 with
    | true => simp [hread, hended]
    | false => simp [hread, hended]

theorem decodeValue_eq_ok_iff {c : Codec α} {text : List Char} {a : α} :
    c.decodeValue text = .ok a ↔ ∃ v, Json.parse? text = some v ∧ c.ofJson v = .ok a := by
  rw [decodeValue]
  cases Json.parse? text with
  | none => simp
  | some v => simp

section

variable {c : Codec α} {pack : α → Except String β} {unpack : β → α} {text : List Char} {b : β}

/-- A thing with rules of its own is read from a text just if it can be made of what is read. -/
theorem decode_refine_eq_ok_iff : (c.refine pack unpack).decode text = .ok b ↔
    ∃ a, c.decode text = .ok a ∧ pack a = .ok b := by
  simp only [decode_eq_ok_iff, read_refine_eq_ok_iff]
  constructor
  · rintro ⟨⟨a, ha, hpack⟩, hended⟩
    exact ⟨a, ⟨ha, hended⟩, hpack⟩
  · rintro ⟨a, ⟨ha, hended⟩, hpack⟩
    exact ⟨⟨a, ha, hpack⟩, hended⟩

theorem decodeValue_refine_eq_ok_iff : (c.refine pack unpack).decodeValue text = .ok b ↔
    ∃ a, c.decodeValue text = .ok a ∧ pack a = .ok b := by
  simp only [decodeValue_eq_ok_iff]
  constructor
  · rintro ⟨v, hparse, hread⟩
    obtain ⟨a, ha, hpack⟩ := read_refine_eq_ok_iff.mp hread
    exact ⟨a, ⟨v, hparse, ha⟩, hpack⟩
  · rintro ⟨a, ⟨v, hparse, ha⟩, hpack⟩
    exact ⟨v, hparse, read_refine_eq_ok_iff.mpr ⟨a, ha, hpack⟩⟩

end

/-- Whether a codec reads each thing back from its document, wherever that has a value, and from the
value. -/
structure RoundTrips (c : Codec α) : Prop where
  complete : ∀ a, (c.write a).isComplete = true
  straight : ∀ {a : α} {mode : Mode} {v : Json},
    (c.write a).value? mode = some v → c.read mode (c.write a) = .ok a
  through : ∀ {a : α} {mode : Mode} {v : Json},
    (c.write a).value? mode = some v → c.ofJson v = .ok a

theorem roundTrips_text : text.RoundTrips where
  complete _ := rfl
  straight _ := rfl
  through h := by
    cases h
    rfl

theorem roundTrips_flag : flag.RoundTrips where
  complete _ := rfl
  straight _ := rfl
  through h := by
    cases h
    rfl

theorem roundTrips_int64 : int64.RoundTrips where
  complete _ := rfl
  straight {n} _ _ _ := by
    have hword := Integer.toInt64?_ofInt64 n
    simp only [int64, hword]
  through {n} _ _ h := by
    cases h
    exact reads_int64 n

theorem roundTrips_uint64 : uint64.RoundTrips where
  complete _ := rfl
  straight {n} _ _ _ := by
    have hword := Integer.toUInt64?_ofUInt64 n
    simp only [uint64, hword]
  through {n} _ _ h := by
    cases h
    have hword := Integer.toUInt64?_ofUInt64 n
    simp only [ofJson, uint64, Document.ofJson, hword]

/-- Among alternatives that have names of their own, the name of one leads back to it. -/
theorem variant?_name {name : α → String} {all : List α} (hnames : (all.map name).Nodup) {a : α}
    (ha : a ∈ all) : variant? name all (name a) = .ok a := by
  have hfind : all.find? (fun b => name b = name a) = some a := by
    induction all with
    | nil => cases ha
    | cons first rest ih =>
      obtain ⟨hfirst, hrest⟩ := List.nodup_cons.mp hnames
      rcases List.mem_cons.mp ha with rfl | ha
      · exact List.find?_cons_of_pos (decide_eq_true rfl)
      · have hne : name first ≠ name a := fun heq => hfirst (heq ▸ List.mem_map_of_mem ha)
        rw [List.find?_cons_of_neg (by simpa using hne)]
        exact ih hrest ha
  rw [variant?, hfind]

theorem roundTrips_choice {name : α → String} {all : List α} (hnames : (all.map name).Nodup)
    (hall : ∀ a, a ∈ all) : (choice name all).RoundTrips where
  complete _ := rfl
  straight {a _ _} _ := variant?_name hnames (hall a)
  through {a _ _} h := by
    cases h
    exact variant?_name hnames (hall a)

theorem roundTrips_table : table.RoundTrips where
  complete t := Document.isComplete_ofJson t.toJson
  straight {t _ _} h := by
    obtain rfl := Document.eq_of_value?_ofJson t.ordered h
    exact read_table h
  through {t _ _} h := by
    obtain rfl := Document.eq_of_value?_ofJson t.ordered h
    exact reads_table t

section

variable {c : Codec α}

/-- What the value of an array that was written is made of. -/
theorem exists_items_of_value? {things : List α} {mode : Mode} {v : Json}
    (h : (c.list.write things).value? mode = some v) : ∃ inner values,
      mode.enter = some inner ∧ v = .arr values ∧
        Document.itemValues? inner (things.map c.write) = some values := by
  simp only [list, Document.array, Document.value?] at h
  split at h
  · cases h
  · next inner henter =>
    obtain ⟨values, hvalues, rfl⟩ := Option.map_eq_some_iff.mp h
    exact ⟨inner, values, henter, rfl, hvalues⟩

theorem RoundTrips.itemsAreComplete (hc : c.RoundTrips) (things : List α) :
    Document.itemsAreComplete (things.map c.write) = true := by
  induction things with
  | nil => rfl
  | cons a rest ih => simp [Document.itemsAreComplete, hc.complete a, ih]

/-- Items are read back one by one, from their documents and from their values. -/
theorem RoundTrips.readItems (hc : c.RoundTrips) {things : List α} {mode : Mode}
    {values : List Json} (h : Document.itemValues? mode (things.map c.write) = some values) :
    c.readItems mode (things.map c.write) = .ok things ∧
      c.readItems .value (Document.ofItems values) = .ok things := by
  induction things generalizing values with
  | nil =>
    cases h
    exact ⟨rfl, rfl⟩
  | cons a rest ih =>
    rw [List.map_cons, Document.itemValues?] at h
    split at h
    · cases h
    · next value hvalue =>
      obtain ⟨more, hmore, rfl⟩ := Option.map_eq_some_iff.mp h
      obtain ⟨hstraight, hthrough⟩ := ih hmore
      exact ⟨readItems_cons_eq_ok_iff.mpr ⟨a, rest, hc.straight hvalue, hstraight, rfl⟩,
        readItems_cons_eq_ok_iff.mpr ⟨a, rest, hc.through hvalue, hthrough, rfl⟩⟩

theorem RoundTrips.list (hc : c.RoundTrips) : c.list.RoundTrips where
  complete things := by simp [Codec.list, Document.array, Document.isComplete,
    hc.itemsAreComplete things]
  straight {things mode _} h := by
    obtain ⟨inner, values, henter, -, hvalues⟩ := exists_items_of_value? h
    have hread := (hc.readItems hvalues).1
    simp only [Codec.list, Document.array, henter, hread, if_true]
  through {things mode _} h := by
    obtain ⟨inner, values, -, rfl, hvalues⟩ := exists_items_of_value? h
    rw [ofJson_list_arr]
    exact (hc.readItems hvalues).2

theorem read_optional_of_ne_null {d : Document} (h : d ≠ .null) (mode : Mode) :
    c.optional.read mode d = (c.read mode d).map some := by
  cases d with
  | null => exact absurd rfl h
  | bool b | num n | str s | arr items closed | obj fields ending => rfl
  | unreadable | broken => rfl

/-- Null or a thing is read back if no thing is written as null. -/
theorem RoundTrips.optional (hc : c.RoundTrips) (hnull : ∀ a, c.write a ≠ .null) :
    c.optional.RoundTrips where
  complete
    | none => rfl
    | some a => hc.complete a
  straight {a? mode _} h := by
    cases a? with
    | none => rfl
    | some a =>
      have hread : c.read mode (c.write a) = .ok a := hc.straight h
      exact (read_optional_of_ne_null (hnull a) mode).trans (map_eq_ok_iff.mpr ⟨a, hread, rfl⟩)
  through {a? _ _} h := by
    cases a? with
    | none =>
      cases h
      rfl
    | some a =>
      rw [ofJson_optional (Document.isNull_of_value? (hnull a) h), hc.through h]
      rfl

theorem RoundTrips.iso (hc : c.RoundTrips) {pack : α → β} {unpack : β → α}
    (hpack : ∀ b, pack (unpack b) = b) : (c.iso pack unpack).RoundTrips where
  complete b := hc.complete (unpack b)
  straight h := map_eq_ok_iff.mpr ⟨_, hc.straight h, hpack _⟩
  through h := ofJson_iso.mpr ⟨_, hc.through h, hpack _⟩

/-- A thing with rules of its own is read back if it keeps them. -/
theorem RoundTrips.refine (hc : c.RoundTrips) {pack : α → Except String β} {unpack : β → α}
    (hpack : ∀ b, pack (unpack b) = .ok b) : (c.refine pack unpack).RoundTrips where
  complete b := hc.complete (unpack b)
  straight {b mode _} h := by
    have hread : c.read mode (c.write (unpack b)) = .ok (unpack b) := hc.straight h
    simp only [Codec.refine, hread, hpack]
    rfl
  through {b _ _} h := by
    rw [ofJson_refine (hc.through h), hpack]
    rfl

end

end Codec

/-! ## Records -/

namespace Fields

variable {α : Type} {types : List Type} {mode : Mode}

/-- Whether all members are read back, and those that are left out stand for what they would have
held. -/
def RoundTrip : {types : List Type} → Fields types → Prop
  | _, .nil => True
  | _, .cons field rest =>
    (field.codec.RoundTrips ∧ ∀ a, field.omits a = true → field.absent = some a) ∧ rest.RoundTrip

/-- The slots once a written record has been read: all are full but those of members that were left
out. -/
def written : {types : List Type} → Fields types → Row types → Slots types
  | _, .nil, _ => ()
  | _, .cons field rest, (a, row) =>
    (if field.omits a then none else some a, rest.written row)

theorem name_of_mem_write {fields : Fields types} {row : Row types} {member : String × Document}
    (h : member ∈ fields.write row) : member.1 ∈ fields.names := by
  induction fields with
  | nil => cases h
  | cons field rest ih =>
    rw [write] at h
    split at h
    · exact List.mem_cons_of_mem _ (ih h)
    · rcases List.mem_cons.mp h with rfl | h
      · exact List.mem_cons_self
      · exact List.mem_cons_of_mem _ (ih h)

theorem RoundTrip.fieldsAreComplete {fields : Fields types} (h : fields.RoundTrip)
    (row : Row types) : Document.fieldsAreComplete (fields.write row) = true := by
  induction fields with
  | nil => rfl
  | cons field rest ih =>
    obtain ⟨a, row⟩ := row
    rw [write]
    split
    · exact ih h.2 row
    · rw [Document.fieldsAreComplete, h.1.1.complete a, ih h.2 row]
      rfl

/-- The first member of a record is not concerned with members of the others. -/
theorem gather_cons_of_ok {field : Field α} {rest : Fields types} {strict : Bool}
    {members : List (String × Document)} {slot : Option α} {s t : Slots types}
    (hfield : field.name ∉ rest.names) (hnames : ∀ member ∈ members, member.1 ∈ rest.names)
    (h : rest.gather strict mode members s = .ok t) :
    (cons field rest).gather strict mode members (slot, s) = .ok (slot, t) := by
  induction members generalizing s with
  | nil =>
    cases h
    rfl
  | cons member more ih =>
    obtain ⟨name, d⟩ := member
    have hname : name ∈ rest.names := hnames (name, d) List.mem_cons_self
    have hne : name ≠ field.name := by
      rintro rfl
      exact hfield hname
    rw [gather] at h ⊢
    rw [put, if_neg hne]
    cases hput : rest.put mode name d s with
    | none => exact absurd hput (put_ne_none hname s)
    | some result =>
      cases result with
      | error fault =>
        rw [hput] at h
        cases h
      | ok u =>
        rw [hput] at h
        exact ih (fun other hother => hnames other (List.mem_cons_of_mem _ hother)) h

/-- **The members of a written record fill its slots.** -/
theorem RoundTrip.gather {fields : Fields types} (h : fields.RoundTrip)
    (hnodup : fields.names.Nodup) {strict : Bool} {row : Row types}
    {values : List (String × Json)}
    (hvalues : Document.fieldValues? mode (fields.write row) = some values) :
    fields.gather strict mode (fields.write row) fields.blank = .ok (fields.written row) := by
  induction fields generalizing values with
  | nil => rfl
  | cons field rest ih =>
    obtain ⟨a, row⟩ := row
    obtain ⟨hfield, hrest⟩ := List.nodup_cons.mp hnodup
    have hnames : ∀ member ∈ rest.write row, member.1 ∈ rest.names :=
      fun member hmember => name_of_mem_write hmember
    rw [write] at hvalues ⊢
    rw [written, blank]
    split at hvalues
    · next homits =>
      rw [if_pos homits, if_pos homits]
      exact gather_cons_of_ok hfield hnames (ih h.2 hrest hvalues)
    · next homits =>
      rw [if_neg homits, if_neg homits]
      rw [Document.fieldValues?] at hvalues
      split at hvalues
      · cases hvalues
      · next value hvalue =>
        obtain ⟨more, hmore, -⟩ := Option.map_eq_some_iff.mp hvalues
        have hread : field.codec.read mode (field.codec.write a) = .ok a := h.1.1.straight hvalue
        rw [Fields.gather, put, if_pos rfl, hread]
        exact gather_cons_of_ok hfield hnames (ih h.2 hrest hmore)

theorem RoundTrip.complete_written {fields : Fields types} (h : fields.RoundTrip)
    (row : Row types) : fields.complete (fields.written row) = .ok row := by
  induction fields with
  | nil => rfl
  | cons field rest ih =>
    obtain ⟨a, row⟩ := row
    have hslot : (if field.omits a then none else some a).or field.absent = some a := by
      split
      · next homits => exact h.1.2 a homits
      · rfl
    rw [written, complete, hslot, ih h.2 row]
    rfl

theorem keys_of_fieldValues? {fields : List (String × Document)} {values : List (String × Json)}
    (h : Document.fieldValues? mode fields = some values) :
    values.map Prod.fst = fields.map Prod.fst := by
  induction fields generalizing values with
  | nil =>
    cases h
    rfl
  | cons head rest ih =>
    obtain ⟨key, member⟩ := head
    rw [Document.fieldValues?] at h
    split at h
    · cases h
    · obtain ⟨more, hmore, rfl⟩ := Option.map_eq_some_iff.mp h
      rw [List.map_cons, List.map_cons, ih hmore]

theorem nodup_write {fields : Fields types} (h : fields.names.Nodup) (row : Row types) :
    ((fields.write row).map Prod.fst).Nodup := by
  induction fields with
  | nil => exact List.nodup_nil
  | cons field rest ih =>
    obtain ⟨a, row⟩ := row
    obtain ⟨hfield, hrest⟩ := List.nodup_cons.mp h
    rw [write]
    split
    · exact ih hrest row
    · refine List.nodup_cons.mpr ⟨fun hmem => ?_, ih hrest row⟩
      obtain ⟨member, hmember, heq⟩ := List.mem_map.mp hmem
      have hname : member.1 = field.name := heq
      exact hfield (hname ▸ name_of_mem_write hmember)

-- The induction is on the members of the record, over any list of values that is looked up like
-- those that were written.  A member that was left out is in none of the others, so it is missing.
/-- **The values of the members of a written record give its row.** -/
theorem RoundTrip.given {fields : Fields types} (h : fields.RoundTrip)
    (hnodup : fields.names.Nodup) {row : Row types} {values members : List (String × Json)}
    (hvalues : Document.fieldValues? mode (fields.write row) = some values)
    (hmembers : ∀ name ∈ fields.names, members.lookup name = values.lookup name) :
    fields.Given members row := by
  induction fields generalizing values with
  | nil => trivial
  | cons field rest ih =>
    obtain ⟨a, row⟩ := row
    obtain ⟨hfield, hrest⟩ := List.nodup_cons.mp hnodup
    have hhere : members.lookup field.name = values.lookup field.name :=
      hmembers field.name List.mem_cons_self
    have hthere : ∀ name ∈ rest.names, members.lookup name = values.lookup name :=
      fun name hname => hmembers name (List.mem_cons_of_mem _ hname)
    rw [write] at hvalues
    split at hvalues
    · next homits =>
      have hnone : values.lookup field.name = none := by
        apply Assoc.lookup_eq_none
        intro value hvalue heq
        have hkey : field.name ∈ (rest.write row).map Prod.fst := by
          rw [← keys_of_fieldValues? hvalues, heq]
          exact List.mem_map_of_mem hvalue
        obtain ⟨member, hmember, hname⟩ := List.mem_map.mp hkey
        exact hfield (hname ▸ name_of_mem_write hmember)
      exact ⟨Or.inr ⟨hhere.trans hnone, h.1.2 a homits⟩, ih h.2 hrest hvalues hthere⟩
    · rw [Document.fieldValues?] at hvalues
      split at hvalues
      · cases hvalues
      · next value hvalue =>
        obtain ⟨more, hmore, rfl⟩ := Option.map_eq_some_iff.mp hvalues
        rw [List.lookup_cons_self] at hhere
        refine ⟨Or.inl ⟨value, hhere, h.1.1.through hvalue⟩, ih h.2 hrest hmore ?_⟩
        intro name hname
        rw [hthere name hname, Assoc.lookup_cons_of_ne]
        rintro rfl
        exact hfield hname

end Fields

namespace Codec

variable {α : Type} {types : List Type}

/-- What the value of a record that was written is made of. -/
theorem exists_members_of_value? {name : String} {strict : Bool} {fields : Fields types}
    {row : Row types} {mode : Mode} {v : Json}
    (h : ((Codec.record name strict fields).write row).value? mode = some v) : ∃ inner values,
      mode.enter = some inner ∧ v = .obj (Assoc.ofList values) ∧
        Document.fieldValues? inner (fields.write row) = some values := by
  simp only [record, Document.object, Document.value?] at h
  split at h
  · cases h
  · next inner henter =>
    obtain ⟨values, hvalues, rfl⟩ := Option.map_eq_some_iff.mp h
    exact ⟨inner, values, henter, rfl, hvalues⟩

/-- **A record is read back** if its members are. -/
theorem roundTrips_record (name : String) (strict : Bool) {fields : Fields types}
    (h : fields.RoundTrip) (hnodup : fields.names.Nodup) :
    (Codec.record name strict fields).RoundTrips where
  complete row := by
    simp [record, Document.object, Document.isComplete, h.fieldsAreComplete row,
      ObjectEnd.isClosed]
  straight {row mode _} hvalue := by
    obtain ⟨inner, values, henter, -, hvalues⟩ := exists_members_of_value? hvalue
    have hgather : fields.gather strict inner (fields.write row) fields.blank =
        .ok (fields.written row) := h.gather hnodup hvalues
    have hcomplete := h.complete_written row
    simp only [record, Document.object, henter, Fields.readObject, hgather, hcomplete,
      ObjectEnd.isClosed, if_true]
  through {row mode _} hvalue := by
    obtain ⟨inner, values, -, rfl, hvalues⟩ := exists_members_of_value? hvalue
    have hkeys := Fields.keys_of_fieldValues? hvalues
    have hvaluesNodup : (values.map Prod.fst).Nodup := by
      rw [hkeys]
      exact Fields.nodup_write hnodup row
    refine (ofJson_record hnodup (Assoc.sorted_ofList values)).mpr ⟨?_, ?_⟩
    · intro _ member hmember
      have hkey := List.mem_map_of_mem (f := Prod.fst) (Assoc.mem_of_mem_ofList hmember)
      rw [hkeys] at hkey
      obtain ⟨field, hfield, hname⟩ := List.mem_map.mp hkey
      exact hname ▸ Fields.name_of_mem_write hfield
    · exact h.given hnodup hvalues fun name _ => Assoc.lookup_ofList hvaluesNodup name

/-- **A thing is read back from its text**, straight or through its value, unless it is nested too
deep. -/
theorem RoundTrips.decode_encode {c : Codec α} (hc : c.RoundTrips) {a : α}
    (h : (c.write a).depth ≤ 127) :
    c.decode (c.encode a).toList = .ok a ∧ c.decodeValue (c.encode a).toList = .ok a := by
  have hread : Document.read (c.encode a).toList = (c.write a, true) :=
    Document.read_compact (hc.complete a)
  obtain ⟨v, hv⟩ : ∃ v, (c.write a).value? .fromText = some v :=
    Document.exists_value (hc.complete a) (decide_eq_true h)
  constructor
  · rw [decode_eq_ok_iff, hread]
    exact ⟨hc.straight hv, rfl⟩
  · rw [decodeValue_eq_ok_iff, Json.parse?, hread]
    exact ⟨v, hv, hc.through hv⟩

end Codec

/-! ## How deep the documents of a codec are -/

/-- Whether no document that is written is nested deeper than `n`. -/
def Codec.Within {α : Type} (c : Codec α) (n : Nat) : Prop := ∀ a, (c.write a).depth ≤ n

/-- Whether no member of a record is nested deeper than `n`. -/
def Fields.Within (n : Nat) : {types : List Type} → Fields types → Prop
  | _, .nil => True
  | _, .cons field rest => field.codec.Within n ∧ rest.Within n

namespace Codec

variable {α β : Type} {types : List Type} {c : Codec α} {n : Nat}

theorem within_text : text.Within n := fun _ => Nat.zero_le n

theorem within_flag : flag.Within n := fun _ => Nat.zero_le n

theorem within_int64 : int64.Within n := fun _ => Nat.zero_le n

theorem within_choice {name : α → String} {all : List α} : (choice name all).Within n :=
  fun _ => Nat.zero_le n

theorem Within.optional (h : c.Within n) : c.optional.Within n
  | none => Nat.zero_le n
  | some a => h a

theorem Within.refine (h : c.Within n) {pack : α → Except String β} {unpack : β → α} :
    (c.refine pack unpack).Within n :=
  fun b => h (unpack b)

theorem Within.iso (h : c.Within n) {pack : α → β} {unpack : β → α} :
    (c.iso pack unpack).Within n :=
  fun b => h (unpack b)

/-- An array is one deeper than the things in it may be. -/
theorem Within.list (h : c.Within n) : c.list.Within (n + 1) := by
  intro things
  refine Nat.succ_le_succ ?_
  induction things with
  | nil => exact Nat.zero_le n
  | cons a rest ih => exact Nat.max_le.mpr ⟨h a, ih⟩

/-- A record is one deeper than its members may be. -/
theorem within_record {name : String} {strict : Bool} {fields : Fields types}
    (h : fields.Within n) : (record name strict fields).Within (n + 1) := by
  intro row
  refine Nat.succ_le_succ ?_
  induction fields with
  | nil => exact Nat.zero_le n
  | cons field rest ih =>
    obtain ⟨a, row⟩ := row
    rw [Fields.write]
    split
    · exact ih h.2 row
    · exact Nat.max_le.mpr ⟨h.1 a, ih h.2 row⟩

end Codec

end Custody
