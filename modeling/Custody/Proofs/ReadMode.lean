import Custody.Proofs.WrittenBundle

/-!
# Reading from a text and from its value

A codec can read straight from a text, or from the value that has been read of it.  The two may
blame different things for a text that is at fault, and only the first minds how deep a text is
nested.  But what the one reads of the document of a value, the other does too.
-/

namespace Custody

/-! ## Values that are not nested too deep -/

namespace Json

theorem depth_le_depthItems {items : List Json} {item : Json} (h : item ∈ items) :
    item.depth ≤ depthItems items := by
  induction items with
  | nil => cases h
  | cons first rest ih =>
    rw [depthItems]
    rcases List.mem_cons.mp h with rfl | h
    · exact Nat.le_max_left _ _
    · exact Nat.le_trans (ih h) (Nat.le_max_right _ _)

theorem depth_le_depthFields {fields : List (String × Json)} {field : String × Json}
    (h : field ∈ fields) : field.2.depth ≤ depthFields fields := by
  induction fields with
  | nil => cases h
  | cons first rest ih =>
    obtain ⟨key, value⟩ := first
    rw [depthFields]
    rcases List.mem_cons.mp h with rfl | h
    · exact Nat.le_max_left _ _
    · exact Nat.le_trans (ih h) (Nat.le_max_right _ _)

/-- A value that can be read in a mode: its objects are in order, and it is not nested too deep. -/
structure Fits (mode : Mode) (v : Json) : Prop where
  ordered : v.Ordered
  admitted : mode.admits v.depth = true

end Json

theorem Mode.admits_of_le {mode : Mode} {m n : Nat} (h : m ≤ n) (hn : mode.admits n = true) :
    mode.admits m = true := by
  rw [← Nat.max_eq_right h, admits_max, Bool.and_eq_true] at hn
  exact hn.1

theorem Mode.exists_enter {mode : Mode} {n : Nat} (h : mode.admits (n + 1) = true) :
    ∃ inner, mode.enter = some inner ∧ inner.admits n = true := by
  rw [admits_succ] at h
  cases henter : mode.enter with
  | none =>
    rw [henter] at h
    cases h
  | some inner =>
    rw [henter] at h
    exact ⟨inner, rfl, h⟩

namespace Json.Fits

variable {mode : Mode}

theorem of_arr {items : List Json} (h : Fits mode (.arr items)) :
    ∃ inner, mode.enter = some inner ∧ ∀ item ∈ items, Fits inner item := by
  obtain ⟨inner, henter, hinner⟩ := Mode.exists_enter h.admitted
  refine ⟨inner, henter, fun item hitem => ?_⟩
  cases h.ordered with
  | arr hitems =>
    exact ⟨hitems item hitem, Mode.admits_of_le (depth_le_depthItems hitem) hinner⟩

theorem of_obj {fields : List (String × Json)} (h : Fits mode (.obj fields)) :
    ∃ inner, mode.enter = some inner ∧ ∀ field ∈ fields, Fits inner field.2 := by
  obtain ⟨inner, henter, hinner⟩ := Mode.exists_enter h.admitted
  refine ⟨inner, henter, fun field hfield => ?_⟩
  cases h.ordered with
  | obj hsorted hfields =>
    exact ⟨hfields field hfield, Mode.admits_of_le (depth_le_depthFields hfield) hinner⟩

end Json.Fits

/-! ## Codecs -/

namespace Codec

variable {α β : Type} {types : List Type}

/-- Whether a codec reads the same in all modes in which a value fits. -/
def IgnoresMode (c : Codec α) : Prop := ∀ ⦃mode mode' : Mode⦄ ⦃v : Json⦄ ⦃a : α⦄,
  v.Fits mode' → c.read mode (.ofJson v) = .ok a → c.read mode' (.ofJson v) = .ok a

theorem ignoresMode_text : text.IgnoresMode := fun _ _ _ _ _ h => h

theorem ignoresMode_flag : flag.IgnoresMode := fun _ _ _ _ _ h => h

theorem ignoresMode_int64 : int64.IgnoresMode := fun _ _ _ _ _ h => h

/-- A table is read of a document as soon as that has a value. -/
theorem read_table {mode : Mode} {members : List (String × Document)} {ending : ObjectEnd}
    {v : Json} (h : (Document.obj members ending).value? mode = some v) :
    table.read mode (.obj members ending) =
      .ok (.ofJson (Document.ordered_of_value? _ h)) := by
  simp only [table]
  split
  · next w hw =>
    have heq := h
    rw [hw, Option.some.injEq] at heq
    subst heq
    rfl
  · next hnone =>
    rw [hnone] at h
    cases h

theorem ignoresMode_table : table.IgnoresMode := by
  intro mode mode' v t hv h
  cases v with
  | obj members =>
    have hvalue : ∀ m : Mode, (Document.ofJson (.obj members)).value? m =
        if m.admits (Json.obj members).depth then some (.obj members) else none :=
      fun m => Document.value?_ofJson m hv.ordered
    have hvalue' := hvalue mode'
    rw [if_pos hv.admitted] at hvalue'
    rw [Document.ofJson] at h hvalue hvalue' ⊢
    rw [read_table hvalue']
    by_cases hmode : mode.admits (Json.obj members).depth = true
    · have hmode := (hvalue mode).trans (if_pos hmode)
      rw [read_table hmode] at h
      exact h
    · have hmode := (hvalue mode).trans (if_neg hmode)
      simp only [table] at h
      split at h
      · next w hw =>
        rw [hw] at hmode
        cases hmode
      · cases h
  | null | bool b | num n | str s | arr items => cases h

theorem IgnoresMode.readItems {c : Codec α} (hc : c.IgnoresMode) {mode mode' : Mode}
    {items : List Json} {things : List α} (hitems : ∀ item ∈ items, item.Fits mode')
    (h : c.readItems mode (Document.ofItems items) = .ok things) :
    c.readItems mode' (Document.ofItems items) = .ok things := by
  induction items generalizing things with
  | nil => exact h
  | cons item rest ih =>
    obtain ⟨a, more, ha, hmore, rfl⟩ := readItems_cons_eq_ok_iff.mp h
    have hitem := hc (hitems item List.mem_cons_self) ha
    have hrest := ih (fun other hother => hitems other (List.mem_cons_of_mem item hother)) hmore
    exact readItems_cons_eq_ok_iff.mpr ⟨a, more, hitem, hrest, rfl⟩

theorem IgnoresMode.list {c : Codec α} (hc : c.IgnoresMode) : c.list.IgnoresMode := by
  intro mode mode' v things hv h
  cases v with
  | arr items =>
    obtain ⟨inner', henter', hitems⟩ := hv.of_arr
    simp only [Codec.list, Document.ofJson, henter'] at h ⊢
    split at h
    · cases h
    · next inner henter =>
      split at h
      · cases h
      · next more hmore =>
        rw [hc.readItems hitems hmore]
        exact h
  | null | bool b | num n | str s | obj fields => cases h

theorem IgnoresMode.optional {c : Codec α} (hc : c.IgnoresMode) : c.optional.IgnoresMode := by
  intro mode mode' v a? hv h
  cases v with
  | null => exact h
  | bool b | num n | str s | arr items | obj fields =>
    obtain ⟨a, ha, rfl⟩ := map_eq_ok_iff.mp h
    exact map_eq_ok_iff.mpr ⟨a, hc hv ha, rfl⟩

theorem IgnoresMode.iso {c : Codec α} (hc : c.IgnoresMode) (pack : α → β) (unpack : β → α) :
    (c.iso pack unpack).IgnoresMode := by
  intro mode mode' v b hv h
  obtain ⟨a, ha, rfl⟩ := map_eq_ok_iff.mp h
  exact map_eq_ok_iff.mpr ⟨a, hc hv ha, rfl⟩

theorem IgnoresMode.refine {c : Codec α} (hc : c.IgnoresMode) (pack : α → Except String β)
    (unpack : β → α) : (c.refine pack unpack).IgnoresMode := by
  intro mode mode' v b hv h
  simp only [Codec.refine] at h ⊢
  split at h
  · cases h
  · next a ha =>
    rw [hc hv ha]
    exact h

end Codec

/-! ## Records -/

namespace Fields

variable {types : List Type} {mode mode' : Mode}

/-- Whether the codecs of all members read the same in all modes. -/
def IgnoreMode : {types : List Type} → Fields types → Prop
  | _, .nil => True
  | _, .cons field rest => field.codec.IgnoresMode ∧ rest.IgnoreMode

theorem IgnoreMode.put {fields : Fields types} (hfields : fields.IgnoreMode) {name : String}
    {v : Json} {s t : Slots types} (hv : v.Fits mode')
    (h : fields.put mode name (.ofJson v) s = some (.ok t)) :
    fields.put mode' name (.ofJson v) s = some (.ok t) := by
  induction fields with
  | nil => cases h
  | cons field rest ih =>
    obtain ⟨slot, slots⟩ := s
    rw [Fields.put] at h ⊢
    split at h
    · next hname =>
      rw [if_pos hname]
      split at h
      · cases h
      · next hslot =>
        rw [Option.some.injEq] at h
        obtain ⟨a, ha, rfl⟩ := map_eq_ok_iff.mp h
        rw [if_neg hslot, hfields.1 hv ha]
        rfl
    · next hname =>
      rw [if_neg hname]
      obtain ⟨r, hr, hmap⟩ := Option.map_eq_some_iff.mp h
      obtain ⟨slots', rfl, rfl⟩ := map_eq_ok_iff.mp hmap
      rw [ih hfields.2 hr]
      rfl

/-- What a strict record gathers of the members of an object does not depend on the mode. -/
theorem IgnoreMode.gather {fields : Fields types} (hfields : fields.IgnoreMode)
    {members : List (String × Json)} {s t : Slots types}
    (hmembers : ∀ member ∈ members, member.2.Fits mode')
    (h : fields.gather true mode (Document.ofFields members) s = .ok t) :
    fields.gather true mode' (Document.ofFields members) s = .ok t := by
  induction members generalizing s with
  | nil => exact h
  | cons member rest ih =>
    obtain ⟨name, v⟩ := member
    have hv : v.Fits mode' := hmembers (name, v) List.mem_cons_self
    rw [Document.ofFields, Fields.gather] at h ⊢
    split at h
    · cases h
    · next slots hput =>
      rw [hfields.put hv hput]
      exact ih (fun other hother => hmembers other (List.mem_cons_of_mem _ hother)) h
    · split at h
      · next hskip =>
        cases h
      · next hskip => cases hskip

/-- The same goes for an array that lists the values of the members. -/
theorem IgnoreMode.readItems {fields : Fields types} (hfields : fields.IgnoreMode) {closed : Bool}
    {ended : Nat → Fault} {index : Nat} {items : List Json}
    {result : Row types × List Document} (hitems : ∀ item ∈ items, item.Fits mode')
    (h : Fields.readItems mode closed ended index fields (Document.ofItems items) = .ok result) :
    Fields.readItems mode' closed ended index fields (Document.ofItems items) = .ok result := by
  induction fields generalizing index items with
  | nil => exact h
  | cons field rest ih =>
    cases items with
    | nil =>
      rw [Document.ofItems, Fields.readItems] at h ⊢
      split at h
      · cases h
      · next hclosed =>
        rw [if_neg hclosed]
        split at h
        · cases h
        · obtain ⟨result', hresult, rfl⟩ := map_eq_ok_iff.mp h
          have hnone : ∀ item ∈ ([] : List Json), item.Fits mode' :=
            fun _ hitem => absurd hitem List.not_mem_nil
          exact map_eq_ok_iff.mpr ⟨result', ih hfields.2 hnone hresult, rfl⟩
    | cons item more =>
      obtain ⟨row, left⟩ := result
      obtain ⟨ha, hmore⟩ := readItems_cons_eq_ok_iff.mp h
      have hrest := ih hfields.2
        (fun other hother => hitems other (List.mem_cons_of_mem item hother)) hmore
      exact readItems_cons_eq_ok_iff.mpr
        ⟨hfields.1 (hitems item List.mem_cons_self) ha, hrest⟩

theorem IgnoreMode.readArray {fields : Fields types} (hfields : fields.IgnoreMode)
    {record : String} {closed : Bool} {items : List Json} {row : Row types}
    (hitems : ∀ item ∈ items, item.Fits mode')
    (h : fields.readArray record mode (Document.ofItems items) closed = .ok row) :
    fields.readArray record mode' (Document.ofItems items) closed = .ok row := by
  unfold Fields.readArray at h ⊢
  split at h
  · cases h
  · next row' leftOver hread =>
    rw [hfields.readItems hitems hread]
    dsimp only
    split at h
    · cases h
    · next hclosed =>
      rw [if_neg hclosed]
      split at h
      · next hempty =>
        rw [if_pos hempty]
        exact h
      · split at h <;> cases h

end Fields

/-- **A strict record is read the same in all modes** if its members are. -/
theorem Codec.ignoresMode_record {types : List Type} (name : String) (fields : Fields types)
    (hfields : fields.IgnoreMode) : (Codec.record name true fields).IgnoresMode := by
  intro mode mode' v row hv h
  cases v with
  | obj members =>
    obtain ⟨inner', henter', hmembers⟩ := hv.of_obj
    simp only [Codec.record, Document.ofJson, henter'] at h ⊢
    split at h
    · cases h
    · next inner henter =>
      rw [Fields.readObject] at h ⊢
      split at h
      · cases h
      · next slots hgather =>
        rw [hfields.gather hmembers hgather]
        exact h
  | arr items =>
    obtain ⟨inner', henter', hitems⟩ := hv.of_arr
    simp only [Codec.record, Document.ofJson, henter'] at h ⊢
    split at h
    · cases h
    · next inner henter => exact hfields.readArray hitems h
  | null | bool b | num n | str s => cases h

end Custody
