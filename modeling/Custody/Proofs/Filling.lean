import Custody.Proofs.Acceptance

/-!
# Objects that are filled

A value that can be read need not be the one that is written of what was read.  It may lack members
that stand for something when they are missing, and it may write a thing in another way.  Filling an
object puts in what is missing and changes what is written otherwise, member by member; all other
members are left alone.
-/

namespace Custody

/-! ## Filling -/

/-- What is done to a member of an object. -/
structure Filling where
  /-- What is put there if the member is missing. -/
  missing : Option Json
  /-- How its value is changed. -/
  change : Json → Json

namespace Filling

/-- The member is left alone. -/
def keep : Filling := ⟨none, id⟩

/-- A missing member is null, and a value is left alone. -/
def orNull : Filling := ⟨some .null, id⟩

/-- What there is under the key in the end. -/
def apply (f : Filling) (v? : Option Json) : Option Json := (v?.map f.change).or f.missing

theorem apply_keep (v? : Option Json) : keep.apply v? = v? := by
  cases v? <;> rfl

end Filling

namespace Json

/-- What is done to each member of an object, by its key. -/
abbrev Fillings := List (String × Filling)

/-- Whether each of the keys is one of these and is filled in one way. -/
def Fillings.FitKeys (fillings : Fillings) (keys : List String) : Prop :=
  (fillings.map Prod.fst).Nodup ∧ ∀ key ∈ fillings.map Prod.fst, key ∈ keys

instance (fillings : Fillings) (keys : List String) : Decidable (fillings.FitKeys keys) :=
  inferInstanceAs (Decidable (_ ∧ _))

/-- What is done to the member under a key. -/
def Fillings.at (fillings : Fillings) (key : String) : Filling :=
  (fillings.lookup key).getD .keep

def fillMember (fields : List (String × Json)) (filling : String × Filling) :
    List (String × Json) :=
  match filling.2.apply (fields.lookup filling.1) with
  | some v => Assoc.insert filling.1 v fields
  | none => fields

/-- An object with its members filled.  Other values are left as they are. -/
def fill (fillings : Fillings) : Json → Json
  | .obj fields => .obj (fillings.foldl fillMember fields)
  | v => v

theorem fill_nil (v : Json) : v.fill [] = v := by
  cases v <;> rfl

theorem sorted_fillMember {fields : List (String × Json)} (h : Assoc.Sorted fields)
    (filling : String × Filling) : Assoc.Sorted (fillMember fields filling) := by
  unfold fillMember
  split
  · exact h.insert _ _
  · exact h

theorem sorted_foldl_fillMember {fields : List (String × Json)} (h : Assoc.Sorted fields)
    (fillings : Fillings) : Assoc.Sorted (fillings.foldl fillMember fields) := by
  induction fillings generalizing fields with
  | nil => exact h
  | cons filling rest ih => exact ih (sorted_fillMember h filling)

theorem lookup_fillMember_self (fields : List (String × Json)) (key : String) (f : Filling) :
    (fillMember fields (key, f)).lookup key = f.apply (fields.lookup key) := by
  rw [fillMember]
  split
  · next v hv =>
    rw [Assoc.lookup_insert_self]
    exact hv.symm
  · next hnone =>
    -- Nothing is put there only if nothing was.
    have hnone : f.apply (fields.lookup key) = none := hnone
    rw [hnone]
    rw [Filling.apply, Option.or_eq_none_iff, Option.map_eq_none_iff] at hnone
    exact hnone.1

theorem lookup_fillMember_of_ne (fields : List (String × Json)) {key k : String} (h : k ≠ key)
    (f : Filling) : (fillMember fields (key, f)).lookup k = fields.lookup k := by
  rw [fillMember]
  split
  · exact Assoc.lookup_insert_of_ne h _ fields
  · rfl

/-- **What a filled object holds** under a key is what is done to the member there. -/
theorem lookup_foldl_fillMember (fields : List (String × Json)) {fillings : Fillings}
    (h : (fillings.map Prod.fst).Nodup) (k : String) :
    (fillings.foldl fillMember fields).lookup k = (fillings.at k).apply (fields.lookup k) := by
  induction fillings generalizing fields with
  | nil => exact (Filling.apply_keep _).symm
  | cons filling rest ih =>
    obtain ⟨key, f⟩ := filling
    obtain ⟨hkey, hrest⟩ := List.nodup_cons.mp h
    rw [List.foldl_cons, ih _ hrest, Fillings.at, Fillings.at]
    by_cases hk : k = key
    · subst hk
      have hnone : rest.lookup k = none := by
        apply Assoc.lookup_eq_none
        rintro other hother rfl
        exact hkey (List.mem_map.mpr ⟨other, hother, rfl⟩)
      rw [hnone, List.lookup_cons_self, lookup_fillMember_self]
      exact Filling.apply_keep _
    · rw [lookup_fillMember_of_ne fields hk, Assoc.lookup_cons_of_ne hk]

/-- An object is filled to the members that it has under each key in the end. -/
theorem fill_eq {fillings : Fillings} {keys : List String} {fields members : List (String × Json)}
    (hfields : Assoc.Sorted fields) (hkeys : keys.Pairwise (· < ·))
    (hmembers : members.map Prod.fst = keys) (hfillings : fillings.FitKeys keys)
    (hknown : ∀ field ∈ fields, field.1 ∈ keys)
    (h : ∀ key ∈ keys, members.lookup key = (fillings.at key).apply (fields.lookup key)) :
    fill fillings (.obj fields) = .obj members := by
  have hsorted := sorted_foldl_fillMember hfields fillings
  rw [fill, hsorted.ext (Assoc.sorted_of_keys hmembers hkeys)]
  intro key
  rw [lookup_foldl_fillMember fields hfillings.1]
  by_cases hkey : key ∈ keys
  · exact (h key hkey).symm
  · have hfilling : fillings.lookup key = none := by
      apply Assoc.lookup_eq_none
      rintro filling hfilling rfl
      exact hkey (hfillings.2 _ (List.mem_map_of_mem hfilling))
    have hfield : fields.lookup key = none := by
      apply Assoc.lookup_eq_none
      rintro field hfield rfl
      exact hkey (hknown field hfield)
    have hmember : members.lookup key = none := by
      apply Assoc.lookup_eq_none
      rintro member hmember rfl
      rw [← hmembers] at hkey
      exact hkey (List.mem_map_of_mem hmember)
    rw [Fillings.at, hfilling, hfield, hmember]
    rfl

def isArray : Json → Bool
  | .arr _ => true
  | _ => false

theorem isArray_of_member? {v w : Json} {key : String}
    (h : (v.memberOrNull key).isArray = false) (hw : v.member? key = some w) :
    w.isArray = false := by
  rw [memberOrNull, hw] at h
  exact h

/-- An array with each of its items changed.  Other values are left as they are. -/
def mapItems (change : Json → Json) : Json → Json
  | .arr items => .arr (items.map change)
  | v => v

/-- A text in lower case.  Other values are left as they are. -/
def lowered : Json → Json
  | .str s => .str s.toLower
  | v => v

end Json

/-! ## Codecs that write again what they have read -/

theorem Integer.ofInt64_of_toInt64? {i : Integer} {n : Int64} (h : i.toInt64? = some n) :
    ofInt64 n = i := by
  rw [toInt64?] at h
  split at h
  · next hupper =>
    cases h
    obtain ⟨val, lower, upper⟩ := i
    have hval : (Int64.ofInt val).toInt = val := Int64.toInt_ofInt_of_le lower hupper
    simp only [ofInt64, hval]
  · cases h

namespace Codec

variable {α β : Type} {types : List Type} {v : Json}

/-- Whether a codec writes of all that it reads of a value the value with this change. -/
def Restores (c : Codec α) (toJson : α → Json) (change : Json → Json) (v : Json) : Prop :=
  v.Ordered → ∀ a, c.ofJson v = .ok a → toJson a = change v

theorem restores_text : text.Restores .str id v := by
  intro _ s h
  rw [eq_str_of_ofJson_text h]
  rfl

theorem restores_flag : flag.Restores .bool id v := by
  intro _ b h
  cases v with
  | bool b' =>
    cases h
    rfl
  | null | num n | str s | arr items | obj fields => cases h

theorem restores_int64 : int64.Restores .ofInt64 id v := by
  intro _ n h
  obtain ⟨i, rfl, hi⟩ := exists_integer_of_ofJson_int64 h
  rw [Json.ofInt64, Integer.ofInt64_of_toInt64? hi]
  rfl

theorem restores_table : table.Restores Table.toJson id v := by
  intro hordered t h
  cases v with
  | obj fields =>
    have hread := reads_table ⟨fields, hordered⟩
    rw [Table.toJson, h, Except.ok.injEq] at hread
    rw [hread]
    rfl
  | null | bool b | num n | str s | arr items => cases h

theorem restores_digest : Digest.codec.Restores (fun d => .str d.hex) Json.lowered v := by
  intro _ d h
  cases v with
  | str s =>
    rw [Digest.codec, ofJson_refine (reads_text s), mapError_eq_ok_iff, mapError_eq_ok_iff] at h
    exact congrArg Json.str (Digest.hex_of_parse h)
  | null | bool b | num n | arr items | obj fields => cases h

theorem readItems_restored {c : Codec α} {toJson : α → Json} {change : Json → Json}
    {items : List Json} {things : List α} (hordered : ∀ item ∈ items, item.Ordered)
    (hitems : ∀ item ∈ items, c.Restores toJson change item)
    (h : c.readItems .value (Document.ofItems items) = .ok things) :
    things.map toJson = items.map change := by
  induction items generalizing things with
  | nil =>
    cases h
    rfl
  | cons item rest ih =>
    obtain ⟨a, more, ha, hmore, rfl⟩ := readItems_cons_eq_ok_iff.mp h
    have hitem := hitems item List.mem_cons_self (hordered item List.mem_cons_self) a ha
    have hrest := ih (fun other hother => hordered other (List.mem_cons_of_mem item hother))
      (fun other hother => hitems other (List.mem_cons_of_mem item hother)) hmore
    rw [List.map_cons, List.map_cons, hitem, hrest]

theorem restores_list {c : Codec α} {toJson : α → Json} {change : Json → Json}
    (hitems : ∀ items, v = .arr items → ∀ item ∈ items, c.Restores toJson change item) :
    c.list.Restores (fun things => .arr (things.map toJson)) (Json.mapItems change) v := by
  intro hordered things h
  obtain ⟨items, rfl⟩ := Bundle.exists_items_of_ofJson_list h
  cases hordered with
  | arr hordered =>
    rw [ofJson_list_arr] at h
    exact congrArg Json.arr (readItems_restored hordered (hitems items rfl) h)

theorem Restores.optional {c : Codec α} {toJson : α → Json} {change : Json → Json}
    {toJson? : Option α → Json} (h : c.Restores toJson change v) (hnull : change .null = .null)
    (hnone : toJson? none = .null) (hsome : ∀ a, toJson? (some a) = toJson a) :
    c.optional.Restores toJson? change v := by
  intro hordered a? ha
  cases hv : v.isNull with
  | true =>
    obtain rfl := Json.eq_null_of_isNull hv
    cases ha
    rw [hnone, hnull]
  | false =>
    rw [ofJson_optional hv] at ha
    obtain ⟨a, hread, rfl⟩ := map_eq_ok_iff.mp ha
    rw [hsome]
    exact h hordered a hread

theorem exists_of_ofJson_refine {c : Codec α} {pack : α → Except String β} {unpack : β → α} {b : β}
    (h : (c.refine pack unpack).ofJson v = .ok b) : ∃ a, c.ofJson v = .ok a ∧ pack a = .ok b :=
  read_refine_eq_ok_iff.mp h

end Codec

/-! ## Records that write again what they have read -/

namespace Field

variable {α : Type} {name : String} {c : Codec α} {members : List (String × Json)}

/-- A member is filled to what is written of it. -/
theorem Gives.restored {field : Field α} {a : α} {toJson : α → Json} (filling : Filling)
    (h : field.Gives members a) (hordered : ∀ member ∈ members, member.2.Ordered)
    (hfound : ∀ v, members.lookup field.name = some v →
      field.codec.Restores toJson filling.change v)
    (hmissing : ∀ a, field.absent = some a → filling.missing = some (toJson a)) :
    some (toJson a) = filling.apply (members.lookup field.name) := by
  rcases h with ⟨v, hlookup, hread⟩ | ⟨hlookup, habsent⟩
  · have hv : v.Ordered := hordered _ (Assoc.mem_of_lookup hlookup)
    rw [hlookup, hfound v hlookup hv a hread]
    rfl
  · rw [hlookup, Filling.apply, hmissing a habsent]
    rfl

theorem Gives.restored_required {a : α} {toJson : α → Json} {change : Json → Json}
    (h : (required name c).Gives members a) (hordered : ∀ member ∈ members, member.2.Ordered)
    (hfound : ∀ v, members.lookup name = some v → c.Restores toJson change v) :
    some (toJson a) = Filling.apply ⟨none, change⟩ (members.lookup name) :=
  h.restored ⟨none, change⟩ hordered hfound nofun

theorem Gives.restored_nullable {a? : Option α} {toJson? : Option α → Json} {change : Json → Json}
    (h : (nullable name c).Gives members a?) (hordered : ∀ member ∈ members, member.2.Ordered)
    (hfound : ∀ v, members.lookup name = some v → c.optional.Restores toJson? change v)
    (hnone : toJson? none = .null) :
    some (toJson? a?) = Filling.apply ⟨some .null, change⟩ (members.lookup name) := by
  refine h.restored ⟨some .null, change⟩ hordered hfound ?_
  rintro _ ⟨⟩
  rw [hnone]

end Field

/-- Whether a record has each of its members once, and under one of these keys, which are in
order. -/
def Fields.FitKeys {types : List Type} (fields : Fields types) (keys : List String) : Prop :=
  keys.Pairwise (· < ·) ∧ fields.names.Nodup ∧ ∀ name ∈ fields.names, name ∈ keys

instance {types : List Type} (fields : Fields types) (keys : List String) :
    Decidable (fields.FitKeys keys) :=
  inferInstanceAs (Decidable (_ ∧ _ ∧ _))

namespace Codec

variable {types : List Type} {v : Json}

theorem exists_members_of_ofJson_record {name : String} {strict : Bool} {fields : Fields types}
    {row : Row types} (harray : v.isArray = false)
    (h : (Codec.record name strict fields).ofJson v = .ok row) : ∃ members, v = .obj members := by
  cases v with
  | obj members => exact ⟨members, rfl⟩
  | arr items => cases harray
  | null | bool b | num n | str s => cases h

/-- **A record is filled to what is written of it** if each of its members is. -/
theorem restores_record {name : String} {fields : Fields types} {row : Row types}
    {members : List (String × Json)} (keys : List String) (fillings : Json.Fillings)
    (hfields : fields.FitKeys keys) (hfillings : fillings.FitKeys keys)
    (hmembers : members.map Prod.fst = keys) (hordered : v.Ordered) (harray : v.isArray = false)
    (hrow : (Codec.record name true fields).ofJson v = .ok row)
    (h : ∀ given, v = .obj given → (∀ member ∈ given, member.2.Ordered) → fields.Given given row →
      ∀ key ∈ keys, members.lookup key = (fillings.at key).apply (given.lookup key)) :
    .obj members = v.fill fillings := by
  obtain ⟨given, rfl⟩ := exists_members_of_ofJson_record harray hrow
  cases hordered with
  | obj hsorted hmember =>
    obtain ⟨hkeys, hnodup, hnames⟩ := hfields
    obtain ⟨hknown, hgiven⟩ := (ofJson_record hnodup hsorted).mp hrow
    have hinside : ∀ member ∈ given, member.1 ∈ keys :=
      fun member hin => hnames member.1 (hknown rfl member hin)
    exact (Json.fill_eq hsorted hkeys hmembers hfillings hinside
      (h given rfl hmember hgiven)).symm

end Codec

end Custody
