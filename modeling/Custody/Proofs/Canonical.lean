import Custody.Proofs.Lookup
import Custody.Proofs.ReadBack

/-!
# The canonical text

Canonical text can be read again, and what is read is the value with every double that is a whole
number of at most 53 bits made an integer, at every depth.  So the canonical text is a fixed point
of reading and writing, and two values share it only when they differ in nothing else.
-/

namespace Custody

/-! ## Documents of values -/

namespace Document

mutual
theorem isComplete_ofJson : ∀ v : Json, (ofJson v).isComplete = true
  | .null => rfl
  | .bool _ => rfl
  | .num _ => rfl
  | .str _ => rfl
  | .arr items => by
    rw [ofJson, isComplete, itemsAreComplete_ofItems items]
    rfl
  | .obj fields => by
    rw [ofJson, isComplete, fieldsAreComplete_ofFields fields]
    rfl
theorem itemsAreComplete_ofItems : ∀ items : List Json, itemsAreComplete (ofItems items) = true
  | [] => rfl
  | item :: rest => by
    rw [ofItems, itemsAreComplete, isComplete_ofJson item, itemsAreComplete_ofItems rest]
    rfl
theorem fieldsAreComplete_ofFields :
    ∀ fields : List (String × Json), fieldsAreComplete (ofFields fields) = true
  | [] => rfl
  | (_, value) :: rest => by
    rw [ofFields, fieldsAreComplete, isComplete_ofJson value, fieldsAreComplete_ofFields rest]
    rfl
end

mutual
theorem mapNumbers_norm_ofJson :
    ∀ v : Json, (ofJson v).mapNumbers Number.norm = ofJson v.norm
  | .null => rfl
  | .bool _ => rfl
  | .num _ => rfl
  | .str _ => rfl
  | .arr items => by
    rw [ofJson, mapNumbers, mapItems_norm_ofItems items]
    rfl
  | .obj fields => by
    rw [ofJson, mapNumbers, mapFields_norm_ofFields fields]
    rfl
theorem mapItems_norm_ofItems :
    ∀ items : List Json, mapItems Number.norm (ofItems items) = ofItems (Json.normItems items)
  | [] => rfl
  | item :: rest => by
    rw [ofItems, mapItems, mapNumbers_norm_ofJson item, mapItems_norm_ofItems rest]
    rfl
theorem mapFields_norm_ofFields : ∀ fields : List (String × Json),
    mapFields Number.norm (ofFields fields) = ofFields (Json.normFields fields)
  | [] => rfl
  | (_, value) :: rest => by
    rw [ofFields, mapFields, mapNumbers_norm_ofJson value, mapFields_norm_ofFields rest]
    rfl
end

mutual
theorem ofJson_injective : ∀ {v w : Json}, ofJson v = ofJson w → v = w
  | .null, w, h => by cases w <;> cases h; rfl
  | .bool b, w, h => by cases w <;> cases h; rfl
  | .num n, w, h => by cases w <;> cases h; rfl
  | .str s, w, h => by cases w <;> cases h; rfl
  | .arr items, w, h => by
    cases w with
    | arr others =>
      rw [ofJson, ofJson, Document.arr.injEq] at h
      rw [ofItems_injective h.1]
    | null | bool b | num n | str s | obj fields => cases h
  | .obj fields, w, h => by
    cases w with
    | obj others =>
      rw [ofJson, ofJson, Document.obj.injEq] at h
      rw [ofFields_injective h.1]
    | null | bool b | num n | str s | arr items => cases h
theorem ofItems_injective : ∀ {items others : List Json}, ofItems items = ofItems others →
    items = others
  | [], others, h => by
    cases others with
    | nil => rfl
    | cons other more => cases h
  | item :: rest, others, h => by
    cases others with
    | nil => cases h
    | cons other more =>
      rw [ofItems, ofItems, List.cons.injEq] at h
      rw [ofJson_injective h.1, ofItems_injective h.2]
theorem ofFields_injective : ∀ {fields others : List (String × Json)},
    ofFields fields = ofFields others → fields = others
  | [], others, h => by
    cases others with
    | nil => rfl
    | cons other more => cases h
  | (key, value) :: rest, others, h => by
    cases others with
    | nil => cases h
    | cons other more =>
      rw [ofFields, ofFields, List.cons.injEq, Prod.mk.injEq] at h
      rw [h.1.1, ofJson_injective h.1.2, ofFields_injective h.2]
end

mutual
/-- If changed numbers are written as others write the numbers themselves, so are documents. -/
theorem write_mapNumbers {number other : Number → List Char} {f : Number → Number}
    (h : ∀ n, number (f n) = other n) :
    ∀ d : Document, (d.mapNumbers f).write number = d.write other
  | .null => rfl
  | .bool true => rfl
  | .bool false => rfl
  | .num n => h n
  | .str _ => rfl
  | .arr [] _ => rfl
  | .arr (item :: rest) _ => by
    rw [mapNumbers, mapItems, write, write, write_mapNumbers h item, writeItems_mapItems h rest]
  | .obj [] _ => rfl
  | .obj ((key, member) :: rest) _ => by
    rw [mapNumbers, mapFields, write, write, write_mapNumbers h member,
      writeFields_mapFields h rest]
  | .unreadable => rfl
  | .broken => rfl
theorem writeItems_mapItems {number other : Number → List Char} {f : Number → Number}
    (h : ∀ n, number (f n) = other n) :
    ∀ items : List Document, writeItems number (mapItems f items) = writeItems other items
  | [] => rfl
  | item :: rest => by
    rw [mapItems, writeItems, writeItems, write_mapNumbers h item, writeItems_mapItems h rest]
theorem writeFields_mapFields {number other : Number → List Char} {f : Number → Number}
    (h : ∀ n, number (f n) = other n) : ∀ fields : List (String × Document),
    writeFields number (mapFields f fields) = writeFields other fields
  | [] => rfl
  | (_, member) :: rest => by
    rw [mapFields, writeFields, writeFields, write_mapNumbers h member,
      writeFields_mapFields h rest]
end

end Document

/-! ## The value of a document -/

/-- Whether arrays and objects may be nested so deep. -/
def Mode.admits : Mode → Nat → Bool
  | .text room, depth => depth ≤ room
  | .value, _ => true

namespace Mode

theorem admits_zero (mode : Mode) : mode.admits 0 = true := by
  cases mode with
  | text room => exact decide_eq_true (Nat.zero_le room)
  | value => rfl

theorem admits_max (mode : Mode) (m n : Nat) :
    mode.admits (max m n) = (mode.admits m && mode.admits n) := by
  cases mode with
  | text room =>
    show decide (max m n ≤ room) = (decide (m ≤ room) && decide (n ≤ room))
    rw [← Bool.decide_and]
    exact decide_eq_decide.mpr Nat.max_le
  | value => rfl

theorem admits_succ (mode : Mode) (n : Nat) :
    mode.admits (n + 1) = (mode.enter.map (·.admits n)).getD false := by
  cases mode with
  | text room =>
    cases room with
    | zero => rfl
    | succ room =>
      show decide (n + 1 ≤ room + 1) = decide (n ≤ room)
      exact decide_eq_decide.mpr Nat.succ_le_succ_iff
  | value => rfl

end Mode

namespace Document

-- The induction follows the value.  What may stand inside an array or object is what its mode
-- leaves after one level, so each case is settled by what `admits` says of that level.
mutual
/-- **A value comes back from its document** unless it is nested too deep. -/
theorem value?_ofJson : ∀ {v : Json} (mode : Mode), v.Ordered →
    (ofJson v).value? mode = if mode.admits v.depth then some v else none
  | .null, mode, _ => (if_pos mode.admits_zero).symm
  | .bool _, mode, _ => (if_pos mode.admits_zero).symm
  | .num _, mode, _ => (if_pos mode.admits_zero).symm
  | .str _, mode, _ => (if_pos mode.admits_zero).symm
  | .arr items, mode, h => by
    cases h with
    | arr hitems =>
      rw [ofJson, value?, Json.depth, mode.admits_succ]
      cases mode.enter with
      | none => rfl
      | some inner =>
        simp only [if_true, itemValues?_ofItems inner hitems, Option.map_some, Option.getD_some]
        split <;> rfl
  | .obj fields, mode, h => by
    cases h with
    | obj hsorted hfields =>
      rw [ofJson, value?, Json.depth, mode.admits_succ]
      cases mode.enter with
      | none => rfl
      | some inner =>
        simp only [ObjectEnd.isClosed, if_true, fieldValues?_ofFields inner hfields,
          Option.map_some, Option.getD_some]
        split
        · rw [Option.map_some, Function.comp_apply, Assoc.ofList_eq_self hsorted]
        · rfl
theorem itemValues?_ofItems : ∀ {items : List Json} (mode : Mode),
    (∀ item ∈ items, item.Ordered) →
    itemValues? mode (ofItems items) =
      if mode.admits (Json.depthItems items) then some items else none
  | [], mode, _ => (if_pos mode.admits_zero).symm
  | item :: rest, mode, h => by
    rw [ofItems, itemValues?, Json.depthItems, mode.admits_max,
      value?_ofJson mode (h item List.mem_cons_self),
      itemValues?_ofItems mode fun other hother => h other (List.mem_cons_of_mem item hother)]
    cases mode.admits item.depth with
    | false => rfl
    | true => cases mode.admits (Json.depthItems rest) <;> rfl
theorem fieldValues?_ofFields : ∀ {fields : List (String × Json)} (mode : Mode),
    (∀ field ∈ fields, field.2.Ordered) →
    fieldValues? mode (ofFields fields) =
      if mode.admits (Json.depthFields fields) then some fields else none
  | [], mode, _ => (if_pos mode.admits_zero).symm
  | (key, value) :: rest, mode, h => by
    rw [ofFields, fieldValues?, Json.depthFields, mode.admits_max,
      value?_ofJson mode (h (key, value) List.mem_cons_self),
      fieldValues?_ofFields mode fun other hother =>
        h other (List.mem_cons_of_mem (key, value) hother)]
    cases mode.admits value.depth with
    | false => rfl
    | true => cases mode.admits (Json.depthFields rest) <;> rfl
end

end Document

/-! ## Values with whole doubles made integers -/

namespace Number

theorem norm_of_toInt?_eq_none {x : Decimal.Double} (h : x.toInt? = none) :
    norm (.float x) = .float x := by
  rw [norm, h]
  rfl

theorem norm_of_toInt? {x : Decimal.Double} {n : Int} (h : x.toInt? = some n) :
    ∃ i : Integer, i.val = n ∧ norm (.float x) = .int i := by
  obtain ⟨i, hi⟩ := exists_integer_of_toInt? h
  refine ⟨i, ?_, ?_⟩
  · rw [Integer.ofInt?] at hi
    split at hi
    · cases hi
      rfl
    · cases hi
  · rw [norm, h, Option.bind_some, hi]

/-- A double is made the integer of its value, if there is one of at most 53 bits. -/
theorem norm_float_eq_int_iff {x : Decimal.Double} {i : Integer} :
    norm (.float x) = .int i ↔
      x.signedUnits = i.val * Decimal.unitsPerOne ∧ i.val.natAbs ≤ 0x20000000000000 := by
  rw [← Decimal.Double.toInt?_eq_some_iff]
  constructor
  · intro h
    cases hx : x.toInt? with
    | none =>
      rw [norm_of_toInt?_eq_none hx] at h
      cases h
    | some n =>
      obtain ⟨j, hval, hj⟩ := norm_of_toInt? hx
      rw [hj, Number.int.injEq] at h
      rw [← hval, h]
  · intro h
    rw [norm, h, Option.bind_some, Integer.ofInt?_val]

/-- The canonical text does not show whether a number was made an integer. -/
@[simp] theorem canonicalText_norm (n : Number) : n.norm.canonicalText = n.canonicalText := by
  cases n with
  | int n => rfl
  | float x =>
    cases hx : x.toInt? with
    | none => rw [norm_of_toInt?_eq_none hx]
    | some n =>
      obtain ⟨i, hval, hi⟩ := norm_of_toInt? hx
      rw [hi, canonicalText, canonicalText, hx, hval]

end Number

namespace Json

theorem normItems_eq_map (items : List Json) : normItems items = items.map norm := by
  induction items with
  | nil => rfl
  | cons item rest ih => rw [normItems, ih, List.map_cons]

theorem normFields_eq_map (fields : List (String × Json)) :
    normFields fields = fields.map fun field => (field.1, field.2.norm) := by
  induction fields with
  | nil => rfl
  | cons field rest ih => rw [normFields, ih, List.map_cons]

mutual
/-- The depth of a value does not depend on its numbers. -/
theorem depth_norm : ∀ v : Json, v.norm.depth = v.depth
  | .null => rfl
  | .bool _ => rfl
  | .num _ => rfl
  | .str _ => rfl
  | .arr items => by rw [norm, depth, depth, depthItems_norm items]
  | .obj fields => by rw [norm, depth, depth, depthFields_norm fields]
theorem depthItems_norm : ∀ items : List Json, depthItems (normItems items) = depthItems items
  | [] => rfl
  | item :: rest => by
    rw [normItems, depthItems, depthItems, depth_norm item, depthItems_norm rest]
theorem depthFields_norm :
    ∀ fields : List (String × Json), depthFields (normFields fields) = depthFields fields
  | [] => rfl
  | (_, value) :: rest => by
    rw [normFields, depthFields, depthFields, depth_norm value, depthFields_norm rest]
end

/-- The order of members does not depend on the numbers in them. -/
theorem Ordered.norm {v : Json} (h : v.Ordered) : v.norm.Ordered := by
  induction h with
  | null => exact .null
  | bool b => exact .bool b
  | num n => exact .num n.norm
  | str s => exact .str s
  | arr _ ih =>
    rw [Json.norm, normItems_eq_map]
    apply Ordered.arr
    intro item hitem
    obtain ⟨original, hmem, rfl⟩ := List.mem_map.mp hitem
    exact ih original hmem
  | obj hsorted _ ih =>
    rw [Json.norm, normFields_eq_map]
    apply Ordered.obj
    · exact List.pairwise_map.mpr hsorted
    · intro field hfield
      obtain ⟨original, hmem, rfl⟩ := List.mem_map.mp hfield
      exact ih original hmem

/-- An object is ordered if its keys are, and what it holds. -/
theorem ordered_of_keys {fields : List (String × Json)} (keys : List String)
    (h : fields.map Prod.fst = keys) (hkeys : keys.Pairwise (· < ·))
    (hfields : ∀ field ∈ fields, field.2.Ordered) : Ordered (.obj fields) :=
  .obj (Assoc.sorted_of_keys h hkeys) hfields

/-! ## Reading the canonical text -/

theorem ordered_of_parse? {cs : List Char} {v : Json} (h : parse? cs = some v) : v.Ordered := by
  unfold parse? at h
  split at h
  · exact Document.ordered_of_value? _ h
  · cases h

/-- The canonical text is the text of one document, and reading it gives that of the value with
whole doubles made integers. -/
theorem read_canonical (v : Json) :
    Document.read v.canonical.toList = (Document.ofJson v.norm, true) := by
  rw [canonical, String.toList_ofList,
    Document.read_write Number.readsBack_canonicalText (Document.isComplete_ofJson v),
    Document.mapNumbers_norm_ofJson]

/-- **Reading undoes canonical writing**, up to whole doubles, as long as the text is not nested too
deep for its reader. -/
theorem parse?_canonical {v : Json} (h : v.Ordered) :
    parse? v.canonical.toList = if v.depth ≤ 127 then some v.norm else none := by
  rw [parse?, read_canonical]
  show (Document.ofJson v.norm).value? .fromText = _
  rw [Document.value?_ofJson .fromText h.norm, depth_norm]
  simp only [Mode.fromText, Mode.admits, decide_eq_true_eq]

@[simp] theorem canonical_norm (v : Json) : v.norm.canonical = v.canonical := by
  rw [canonical, canonical, ← Document.mapNumbers_norm_ofJson,
    Document.write_mapNumbers Number.canonicalText_norm]

/-- **The canonical text tells values apart** as far as they differ in more than whole doubles. -/
theorem norm_eq_of_canonical_eq {v w : Json} (h : v.canonical = w.canonical) :
    v.norm = w.norm := by
  have hread := read_canonical v
  rw [h, read_canonical w, Prod.mk.injEq] at hread
  exact Document.ofJson_injective hread.1.symm

theorem canonical_eq_iff {v w : Json} : v.canonical = w.canonical ↔ v.norm = w.norm := by
  constructor
  · exact norm_eq_of_canonical_eq
  · intro h
    rw [← canonical_norm v, h, canonical_norm w]

/-- **The canonical text is a fixed point of reading and writing.**  A value nested at most 127
deep is read back from its canonical text as itself with whole doubles made integers, which has the
same text.  Values share a canonical text exactly when they are the same but for whole doubles; and
a double counts as whole when its value is an integer of at most 53 bits. -/
theorem canonical_round_trip :
    (∀ v : Json, v.Ordered → v.depth ≤ 127 →
      parse? v.canonical.toList = some v.norm ∧ v.norm.canonical = v.canonical) ∧
    (∀ v w : Json, v.canonical = w.canonical ↔ v.norm = w.norm) ∧
    ∀ (x : Decimal.Double) (i : Integer), Number.norm (.float x) = .int i ↔
      x.signedUnits = i.val * Decimal.unitsPerOne ∧ i.val.natAbs ≤ 0x20000000000000 := by
  refine ⟨?_, ?_, ?_⟩
  · intro v hordered hdepth
    rw [parse?_canonical hordered, if_pos hdepth]
    exact ⟨rfl, canonical_norm v⟩
  · intro v w
    exact canonical_eq_iff
  · intro x i
    exact Number.norm_float_eq_int_iff

/-- Minus zero and one, both doubles and both whole. -/
theorem canonical_round_trip_whole_doubles :
    ∃ v : Json, v.Ordered ∧ v.depth ≤ 127 ∧
      v = .obj [("a", .arr [.num (.float ⟨true, .zero⟩),
        .num (.float ⟨false, 0x10000000000000, 1022, by decide, by decide, by decide⟩)])] ∧
      parse? v.canonical.toList =
        some (.obj [("a", .arr [.num (.int ⟨0, by decide, by decide⟩),
          .num (.int ⟨1, by decide, by decide⟩)])]) ∧ v.norm.canonical = v.canonical := by
  refine ⟨_, ?hordered, by decide, rfl, canonical_round_trip.1 _ ?hordered (by decide)⟩
  refine .obj (List.pairwise_singleton _ _) fun field hfield => ?_
  rw [List.mem_singleton.mp hfield]
  refine .arr fun item hitem => ?_
  simp only [List.mem_cons, List.not_mem_nil, or_false] at hitem
  rcases hitem with rfl | rfl <;> exact .num _

end Json

end Custody
