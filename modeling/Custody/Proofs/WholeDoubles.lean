import Custody.Proofs.Filling
import Custody.Proofs.RecordForms

/-!
# Records with whole doubles made integers

A value that can be read can still be read after its whole doubles have been made integers.  No part
of a bundle but a table takes a double, so what is read is the same thing with its tables changed.
That holds of arrays that list the members of a record as it does of objects.  The converse fails: a
time that is written as a double is read only after the change.
-/

namespace Custody

/-- A row with each of its things changed. -/
def Row.map : {types : List Type} → Each (fun α => α → α) types → Row types → Row types
  | [], _, _ => ()
  | _ :: _, (f, fs), (a, row) => (f a, Row.map fs row)

/-! ## Codecs -/

namespace Codec

variable {α β : Type} {c : Codec α} {f : α → α}

/-- Whether what is read of a value is also read once whole doubles are integers, up to a change of
the thing. -/
def ReadsNorm (c : Codec α) (f : α → α) : Prop :=
  ∀ ⦃v : Json⦄ ⦃a : α⦄, v.Ordered → c.ofJson v = .ok a → c.ofJson v.norm = .ok (f a)

theorem readsNorm_text : text.ReadsNorm id := by
  intro v s _ h
  rw [eq_str_of_ofJson_text h]
  rfl

theorem readsNorm_flag : flag.ReadsNorm id := by
  intro v b _ h
  cases v with
  | bool b' => exact h
  | null | num n | str s | arr items | obj fields => cases h

/-- A double is no 64-bit integer, so there is none to be changed. -/
theorem readsNorm_int64 : int64.ReadsNorm id := by
  intro v n _ h
  obtain ⟨i, rfl, -⟩ := exists_integer_of_ofJson_int64 h
  exact h

theorem readsNorm_table : table.ReadsNorm Table.norm := by
  intro v t hordered h
  have hv : t.toJson = v := restores_table hordered t h
  rw [← hv]
  exact reads_table t.norm

theorem readItems_normItems (h : c.ReadsNorm f) {items : List Json} {things : List α}
    (hordered : ∀ item ∈ items, item.Ordered)
    (hread : c.readItems .value (Document.ofItems items) = .ok things) :
    c.readItems .value (Document.ofItems (Json.normItems items)) = .ok (things.map f) := by
  induction items generalizing things with
  | nil =>
    cases hread
    rfl
  | cons item rest ih =>
    obtain ⟨a, more, ha, hmore, rfl⟩ := readItems_cons_eq_ok_iff.mp hread
    have hitem := h (hordered item List.mem_cons_self) ha
    have hrest := ih (fun other hother => hordered other (List.mem_cons_of_mem item hother)) hmore
    exact readItems_cons_eq_ok_iff.mpr ⟨f a, more.map f, hitem, hrest, rfl⟩

theorem ReadsNorm.list (h : c.ReadsNorm f) : c.list.ReadsNorm (List.map f) := by
  intro v things hordered hread
  obtain ⟨items, rfl⟩ := Bundle.exists_items_of_ofJson_list hread
  rw [ofJson_list_arr] at hread
  rw [Json.norm, ofJson_list_arr]
  cases hordered with
  | arr hitems => exact readItems_normItems h hitems hread

theorem ReadsNorm.optional (h : c.ReadsNorm f) : c.optional.ReadsNorm (Option.map f) := by
  intro v a? hordered hread
  cases hnull : v.isNull with
  | true =>
    obtain rfl := Json.eq_null_of_isNull hnull
    cases hread
    rfl
  | false =>
    rw [ofJson_optional hnull] at hread
    obtain ⟨a, ha, rfl⟩ := map_eq_ok_iff.mp hread
    rw [ofJson_optional (v.isNull_norm.trans hnull), h hordered ha]
    rfl

theorem readsNorm_text? : text.optional.ReadsNorm id := by
  have h := readsNorm_text.optional
  rwa [Option.map_id] at h

/-- A rule that is kept must still be kept after the change. -/
theorem ReadsNorm.refine {g : β → β} {pack : α → Except String β} {unpack : β → α}
    (h : c.ReadsNorm f) (hpack : ∀ a b, pack a = .ok b → pack (f a) = .ok (g b)) :
    (c.refine pack unpack).ReadsNorm g := by
  intro v b hordered hread
  obtain ⟨a, ha, hb⟩ := exists_of_ofJson_refine hread
  rw [ofJson_refine (h hordered ha), hpack a b hb]
  rfl

theorem ReadsNorm.iso {g : β → β} {pack : α → β} {unpack : β → α} (h : c.ReadsNorm f)
    (hpack : ∀ a, pack (f a) = g (pack a)) : (c.iso pack unpack).ReadsNorm g := by
  intro v b hordered hread
  obtain ⟨a, ha, rfl⟩ := ofJson_iso.mp hread
  exact ofJson_iso.mpr ⟨f a, h hordered ha, hpack a⟩

end Codec

/-! ## Members -/

/-- Whether a member can be read of a changed value, and what it stands for to be missing is left
alone. -/
structure Field.ReadsNorm {α : Type} (field : Field α) (f : α → α) : Prop where
  codec : field.codec.ReadsNorm f
  absent : ∀ a, field.absent = some a → f a = a
  pad : ∀ a, field.pad = some a → f a = a

namespace Codec.ReadsNorm

variable {α : Type} {c : Codec α} {f : α → α}

theorem required (h : c.ReadsNorm f) (name : String) : (Field.required name c).ReadsNorm f where
  codec := h
  absent := nofun
  pad := nofun

theorem nullable {f? : Option α → Option α} (h : c.optional.ReadsNorm f?) (hnone : f? none = none)
    (name : String) : (Field.nullable name c).ReadsNorm f? where
  codec := h
  absent := by
    rintro _ ⟨⟩
    exact hnone
  pad := nofun

theorem withDefault (h : c.ReadsNorm f) (name : String) {default : α}
    (hdefault : f default = default) : (Field.withDefault name c default).ReadsNorm f where
  codec := h
  absent := by
    rintro _ ⟨⟩
    exact hdefault
  pad := by
    rintro _ ⟨⟩
    exact hdefault

end Codec.ReadsNorm

theorem Field.Gives.norm {α : Type} {field : Field α} {f : α → α} {a : α}
    {members : List (String × Json)} (h : field.Gives members a) (hfield : field.ReadsNorm f)
    (hordered : ∀ member ∈ members, member.2.Ordered) :
    field.Gives (Json.normFields members) (f a) := by
  have hlookup : (Json.normFields members).lookup field.name =
      (members.lookup field.name).map Json.norm :=
    Json.member?_norm field.name (.obj members)
  rcases h with ⟨v, hv, hread⟩ | ⟨hnone, habsent⟩
  · rw [hv] at hlookup
    have hvalue : v.Ordered := hordered _ (Assoc.mem_of_lookup hv)
    exact Or.inl ⟨v.norm, hlookup, hfield.codec hvalue hread⟩
  · rw [hnone] at hlookup
    rw [hfield.absent a habsent]
    exact Or.inr ⟨hlookup, habsent⟩

/-! ## Records -/

namespace Fields

variable {types : List Type} {fields : Fields types} {fs : Each (fun α => α → α) types}

/-- Whether each member of a record can be read of a changed value. -/
def ReadNorm : {types : List Type} → Fields types → Each (fun α => α → α) types → Prop
  | _, .nil, _ => True
  | _, .cons field rest, (f, fs) => field.ReadsNorm f ∧ rest.ReadNorm fs

theorem Given.norm {members : List (String × Json)} {row : Row types}
    (h : fields.Given members row) (hfields : fields.ReadNorm fs)
    (hordered : ∀ member ∈ members, member.2.Ordered) :
    fields.Given (Json.normFields members) (Row.map fs row) := by
  induction fields with
  | nil => trivial
  | cons field rest ih => exact ⟨h.1.norm hfields.1 hordered, ih h.2 hfields.2⟩

theorem readItems_nil {ended : Nat → Fault} {index : Nat} {row : Row types}
    (h : fields.readItems .value true ended index [] = .ok (row, []))
    (hfields : fields.ReadNorm fs) :
    fields.readItems .value true ended index [] = .ok (Row.map fs row, []) := by
  induction fields generalizing index with
  | nil => exact h
  | cons field rest ih =>
    rw [readItems, if_neg (by simp)] at h ⊢
    split at h
    · cases h
    · next a ha =>
      obtain ⟨⟨more, left⟩, hmore, heq⟩ := map_eq_ok_iff.mp h
      cases heq
      rw [ih hmore hfields.2]
      obtain ⟨f, fs⟩ := fs
      show Except.ok ((a, Row.map fs more), []) = Except.ok ((f a, Row.map fs more), [])
      rw [hfields.1.pad a ha]

/-- The members of a record are read from a changed array as from the array itself, one item for
each, until the array ends. -/
theorem readItems_norm {ended : Nat → Fault} {index : Nat} {items : List Json} {row : Row types}
    (h : fields.readItems .value true ended index (Document.ofItems items) = .ok (row, []))
    (hfields : fields.ReadNorm fs) (hordered : ∀ item ∈ items, item.Ordered) :
    fields.readItems .value true ended index (Document.ofItems (Json.normItems items)) =
      .ok (Row.map fs row, []) := by
  induction fields generalizing index items with
  | nil =>
    cases items with
    | nil => exact h
    | cons item rest => cases h
  | cons field rest ih =>
    cases items with
    | nil => exact readItems_nil h hfields
    | cons item more =>
      obtain ⟨ha, hmore⟩ := readItems_cons_eq_ok_iff.mp h
      have hitem := hfields.1.codec (hordered item List.mem_cons_self) ha
      have hrest := ih hmore hfields.2
        fun other hother => hordered other (List.mem_cons_of_mem item hother)
      exact readItems_cons_eq_ok_iff.mpr ⟨hitem, hrest⟩

theorem readArray_eq_ok_iff {record : String} {items : List Document} {row : Row types} :
    fields.readArray record .value items true = .ok row ↔
      readItems .value true (.tooShort · record fields.size) 0 fields items = .ok (row, []) := by
  rw [readArray]
  constructor
  · intro h
    split at h
    · cases h
    · next row' left hread =>
      cases left with
      | nil =>
        cases h
        exact hread
      | cons d more => cases h
  · intro h
    rw [h]
    rfl

end Fields

namespace Codec

variable {types : List Type}

theorem ofJson_record_arr {name : String} {strict : Bool} {fields : Fields types}
    {items : List Json} : (Codec.record name strict fields).ofJson (.arr items) =
      fields.readArray name .value (Document.ofItems items) true := rfl

/-- **A record is still read after the change** if each of its members is. -/
theorem readsNorm_record (name : String) (strict : Bool) (fields : Fields types)
    (fs : Each (fun α => α → α) types) (hnodup : fields.names.Nodup) (h : fields.ReadNorm fs) :
    (Codec.record name strict fields).ReadsNorm (Row.map fs) := by
  intro v row hordered hread
  have hnorm := hordered.norm
  cases v with
  | obj members =>
    cases hordered with
    | obj hsorted hmembers =>
      cases hnorm with
      | obj hsorted' _ =>
        obtain ⟨hknown, hgiven⟩ := (ofJson_record hnodup hsorted).mp hread
        refine (ofJson_record hnodup hsorted').mpr ⟨?_, hgiven.norm h hmembers⟩
        intro hstrict member hmember
        rw [Json.normFields_eq_map] at hmember
        obtain ⟨original, hmem, rfl⟩ := List.mem_map.mp hmember
        exact hknown hstrict original hmem
  | arr items =>
    cases hordered with
    | arr hitems =>
      rw [ofJson_record_arr, Fields.readArray_eq_ok_iff] at hread
      rw [Json.norm, ofJson_record_arr, Fields.readArray_eq_ok_iff]
      exact Fields.readItems_norm hread h hitems
  | null | bool b | num n | str s => cases hread

end Codec

/-! ## The records of a bundle -/

open Codec

theorem Digest.readsNorm_codec : codec.ReadsNorm id := by
  apply readsNorm_text.refine
  intro _ _ h
  exact h

theorem Refusal.readsNorm_codec : codec.ReadsNorm Refusal.norm :=
  (readsNorm_record _ _ fields (id, Table.norm, id, ()) (by decide)
    ⟨readsNorm_text.required _, readsNorm_table.withDefault _ rfl, readsNorm_int64.required _,
      trivial⟩).iso fun _ => rfl

theorem Results.readsNorm_codec : codec.ReadsNorm Results.norm :=
  (readsNorm_record _ _ fields (Table.norm, id, ()) (by decide)
    ⟨readsNorm_table.required _, readsNorm_text.required _, trivial⟩).iso fun _ => rfl

namespace Snapshot

theorem Context.readsNorm_codec : codec.ReadsNorm Context.norm :=
  (readsNorm_record _ _ fields (Table.norm, id, id, ()) (by decide)
    ⟨readsNorm_table.required _, Digest.readsNorm_codec.required _, readsNorm_int64.required _,
      trivial⟩).iso fun _ => rfl

theorem Intent.readsNorm_codec : codec.ReadsNorm id :=
  (readsNorm_record _ _ fields (id, id, id, ()) (by decide)
    ⟨readsNorm_text.required _, readsNorm_text?.nullable rfl _, readsNorm_int64.required _,
      trivial⟩).iso fun _ => rfl

theorem readsNorm_principal : Principal.codec.ReadsNorm id :=
  (readsNorm_record _ _ Principal.fields (id, id, ()) (by decide)
    ⟨readsNorm_text.required _, readsNorm_int64.required _, trivial⟩).iso fun _ => rfl

theorem readsNorm_grant : Grant.codec.ReadsNorm Grant.norm :=
  (readsNorm_record _ _ Grant.fields (id, Table.norm, id, ()) (by decide)
    ⟨readsNorm_text.required _, readsNorm_table.required _, readsNorm_int64.required _,
      trivial⟩).iso fun _ => rfl

/-- A flag and three members still describe the same outcome after the change. -/
theorem Execution.readsNorm_codec : codec.ReadsNorm Execution.norm := by
  refine (readsNorm_record _ _ fields
    (id, id, id, id, id, id, Option.map Table.norm, Option.map Refusal.norm, ()) (by decide)
    ⟨readsNorm_text?.nullable rfl _, readsNorm_text.required _, Digest.readsNorm_codec.required _,
      readsNorm_text?.nullable rfl _, readsNorm_int64.required _, readsNorm_flag.required _,
      readsNorm_table.optional.nullable rfl _, Refusal.readsNorm_codec.optional.nullable rfl _,
      trivial⟩).refine ?_
  rintro ⟨stepId, capability, digest, snapshotId, executedAt, ok, data, refusal, ⟨⟩⟩ s hpack
  dsimp only at hpack
  split at hpack
  · next outcome houtcome =>
    cases hpack
    obtain ⟨rfl, rfl, rfl, rfl⟩ := Outcome.ofMembers?_eq_some_iff.mp houtcome
    cases outcome <;> rfl
  · cases hpack

end Snapshot

/-- **What has the shape of a bundle** still has it once whole doubles are integers. -/
theorem readsNorm_draft : Bundle.Draft.codec.ReadsNorm Bundle.Draft.norm :=
  (readsNorm_record _ _ Bundle.Draft.fields
    (id, id, Snapshot.Context.norm, id, id, Option.map Snapshot.Grant.norm,
      List.map Snapshot.Execution.norm, id, id, Option.map Refusal.norm, Option.map Results.norm,
      ()) (by decide)
    ⟨readsNorm_text.required _, readsNorm_int64.required _,
      Snapshot.Context.readsNorm_codec.required _, Snapshot.Intent.readsNorm_codec.required _,
      Snapshot.readsNorm_principal.required _, Snapshot.readsNorm_grant.optional.nullable rfl _,
      Snapshot.Execution.readsNorm_codec.list.required _, readsNorm_text.required _,
      Digest.readsNorm_codec.required _, Refusal.readsNorm_codec.optional.nullable rfl _,
      Results.readsNorm_codec.optional.nullable rfl _, trivial⟩).iso fun _ => rfl

end Custody
