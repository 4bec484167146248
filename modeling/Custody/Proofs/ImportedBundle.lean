import Custody.Proofs.Acceptance
import Custody.Proofs.ReadMode

/-!
# Bundles that are exported and imported

An exported bundle can be imported again, straight from its text or through the value of that.  The
text does not tell whole doubles from integers, so what is imported is the bundle with integers in
their place; it has the same root and the same chain, and is exported as the same text.  The compact
text of a bundle keeps doubles apart, and gives back just that bundle.
-/

namespace Custody

/-! ## Reading a whole text -/

namespace Document

mutual
theorem mapNumbers_id : ∀ d : Document, d.mapNumbers id = d
  | .null => rfl
  | .bool _ => rfl
  | .num _ => rfl
  | .str _ => rfl
  | .arr items closed => by rw [mapNumbers, mapItems_id items]
  | .obj fields ending => by rw [mapNumbers, mapFields_id fields]
  | .unreadable => rfl
  | .broken => rfl
theorem mapItems_id : ∀ items : List Document, mapItems id items = items
  | [] => rfl
  | item :: rest => by rw [mapItems, mapNumbers_id item, mapItems_id rest]
theorem mapFields_id : ∀ fields : List (String × Document), mapFields id fields = fields
  | [] => rfl
  | (_, member) :: rest => by rw [mapFields, mapNumbers_id member, mapFields_id rest]
end

/-- A document comes back from its compact text. -/
theorem read_compact {d : Document} (h : d.isComplete = true) :
    read d.compact.toList = (d, true) := by
  rw [compact, String.toList_ofList, read_write Number.readsBack_text h, mapNumbers_id]

end Document

theorem Json.fits_fromText {v : Json} (hordered : v.Ordered) (hdepth : v.depth ≤ 127) :
    v.Fits .fromText :=
  ⟨hordered, decide_eq_true hdepth⟩

theorem Json.parse?_of_read {v : Json} {cs : List Char} (hv : v.Fits .fromText)
    (h : Document.read cs = (.ofJson v, true)) : parse? cs = some v := by
  rw [parse?, h]
  show (Document.ofJson v).value? .fromText = some v
  rw [Document.value?_ofJson .fromText hv.ordered, if_pos hv.admitted]

/-- **A text can be read in two ways**, straight or through its value. -/
theorem Codec.IgnoresMode.decode_both {α : Type} {c : Codec α} (hc : c.IgnoresMode) {v : Json}
    {a : α} {cs : List Char} (hv : v.Fits .fromText) (hread : Document.read cs = (.ofJson v, true))
    (h : c.ofJson v = .ok a) : c.decode cs = .ok a ∧ c.decodeValue cs = .ok a := by
  constructor
  · have hstraight : c.read .fromText (.ofJson v) = .ok a := hc hv h
    simp only [decode, hread, hstraight, if_true]
  · rw [decodeValue, Json.parse?_of_read hv hread]
    exact h

/-! ## The parts of a bundle are read the same in all modes -/

open Codec

theorem Digest.ignoresMode_codec : codec.IgnoresMode := ignoresMode_text.refine _ _

theorem Refusal.ignoresMode_codec : codec.IgnoresMode :=
  (ignoresMode_record _ fields
    ⟨ignoresMode_text, ignoresMode_table, ignoresMode_int64, trivial⟩).iso _ _

theorem Results.ignoresMode_codec : codec.IgnoresMode :=
  (ignoresMode_record _ fields ⟨ignoresMode_table, ignoresMode_text, trivial⟩).iso _ _

namespace Snapshot

theorem Context.ignoresMode_codec : codec.IgnoresMode :=
  (ignoresMode_record _ fields
    ⟨ignoresMode_table, Digest.ignoresMode_codec, ignoresMode_int64, trivial⟩).iso _ _

theorem Intent.ignoresMode_codec : codec.IgnoresMode :=
  (ignoresMode_record _ fields
    ⟨ignoresMode_text, ignoresMode_text.optional, ignoresMode_int64, trivial⟩).iso _ _

theorem Principal.ignoresMode_codec : codec.IgnoresMode :=
  (ignoresMode_record _ fields ⟨ignoresMode_text, ignoresMode_int64, trivial⟩).iso _ _

theorem Grant.ignoresMode_codec : codec.IgnoresMode :=
  (ignoresMode_record _ fields
    ⟨ignoresMode_text, ignoresMode_table, ignoresMode_int64, trivial⟩).iso _ _

theorem Execution.ignoresMode_codec : codec.IgnoresMode :=
  (ignoresMode_record _ fields
    ⟨ignoresMode_text.optional, ignoresMode_text, Digest.ignoresMode_codec,
      ignoresMode_text.optional, ignoresMode_int64, ignoresMode_flag, ignoresMode_table.optional,
      Refusal.ignoresMode_codec.optional, trivial⟩).refine _ _

end Snapshot

namespace Bundle

theorem Draft.ignoresMode_codec : codec.IgnoresMode :=
  (ignoresMode_record _ fields
    ⟨ignoresMode_text, ignoresMode_int64, Snapshot.Context.ignoresMode_codec,
      Snapshot.Intent.ignoresMode_codec, Snapshot.Principal.ignoresMode_codec,
      Snapshot.Grant.ignoresMode_codec.optional, Snapshot.Execution.ignoresMode_codec.list,
      ignoresMode_text, Digest.ignoresMode_codec, Refusal.ignoresMode_codec.optional,
      Results.ignoresMode_codec.optional, trivial⟩).iso _ _

/-- **A bundle is read the same in all modes.** -/
theorem ignoresMode_codec : codec.IgnoresMode :=
  @IgnoresMode.refine Draft Bundle Draft.codec Draft.ignoresMode_codec _ draft

end Bundle

/-! ## What is imported -/

/-- No rule of a snapshot looks into a table. -/
theorem Parts.SnapshotRules.norm {p : Parts} (h : p.SnapshotRules) : p.norm.SnapshotRules where
  context := h.context
  intent := h.intent
  principal := h.principal
  grant := by
    intro grant hgrant
    obtain ⟨original, hmem, rfl⟩ := Option.map_eq_some_iff.mp hgrant
    exact h.grant original hmem
  executions := by
    intro execution hexecution
    obtain ⟨original, hmem, rfl⟩ := List.mem_map.mp hexecution
    exact h.executions original hmem

theorem Parts.error?_norm {p : Parts} (h : p.error? = none) : p.norm.error? = none := by
  obtain ⟨hown, hsnapshots⟩ := error?_eq_none_iff.mp h
  exact error?_eq_none_iff.mpr ⟨hown.norm, hsnapshots.norm⟩

/-- A number is kept, or is a double that is made an integer. -/
theorem Number.norm_cases (n : Number) :
    n.norm = n ∨ ∃ (x : Decimal.Double) (i : Integer), n = .float x ∧ n.norm = .int i := by
  cases n with
  | int i => exact Or.inl rfl
  | float x =>
    cases hx : x.toInt? with
    | none => exact Or.inl (norm_of_toInt?_eq_none hx)
    | some m =>
      obtain ⟨i, -, hi⟩ := norm_of_toInt? hx
      exact Or.inr ⟨x, i, rfl, hi⟩

namespace Bundle

/-- The bundle with whole doubles in its tables made integers. -/
def norm (b : Bundle) : Bundle := ⟨b.parts.norm, b.root, Parts.error?_norm b.valid⟩

theorem toJson_norm (b : Bundle) : b.norm.toJson = b.toJson.norm := by
  rw [toJson_eq, toJson_eq, Draft.norm_members]
  rfl

theorem exported_norm (b : Bundle) : b.norm.exported = b.exported := by
  rw [exported, toJson_norm, Json.canonical_norm]
  rfl

theorem verifyRoot_norm (hash : Hasher) (b : Bundle) :
    b.norm.verifyRoot hash = b.verifyRoot hash := by
  have hchain : b.norm.parts.chain hash = b.parts.chain hash :=
    Draft.chain_norm_parts hash b.draft
  rw [verifyRoot, verifyRoot, hchain]
  rfl

theorem reads_codec : codec.Reads toJson := by
  intro b
  rw [toJson_eq, ofJson_codec_eq (Draft.reads_codec b.draft), mapError_eq_ok_iff,
    mapError_eq_ok_iff, make_eq_ok_iff]
  exact ⟨b.valid, rfl⟩

theorem ordered_toJson (b : Bundle) : b.toJson.Ordered := b.draft.ordered_members

/-- The text in which a bundle is written is the one of its value. -/
theorem read_encode (b : Bundle) :
    Document.read (codec.encode b).toList = (.ofJson b.toJson, true) :=
  Document.read_compact (Document.isComplete_ofJson b.toJson)

theorem read_exported (b : Bundle) :
    Document.read b.exported.toList = (.ofJson b.norm.toJson, true) := by
  rw [toJson_norm]
  exact Json.read_canonical b.toJson

/-- **Exporting and importing** a bundle nested at most 127 deep, whatever its root is, succeeds
both straight and through its value.  It gives the bundle with whole doubles made integers, which
has the same root, the same verdict on that and the same text.  Every other number is kept; and a
double counts as whole when its value is an integer of at most 53 bits.  The compact text gives back
the bundle itself. -/
theorem export_import_round_trip (hash : Hasher) (b : Bundle) (h : b.toJson.depth ≤ 127) :
    (codec.decode (Text.decode b.exported.toUTF8) = .ok b.norm ∧
      codec.decodeValue (Text.decode b.exported.toUTF8) = .ok b.norm) ∧
    (b.norm.toJson = b.toJson.norm ∧
      (∀ n : Number, n.norm = n ∨
        ∃ (x : Decimal.Double) (i : Integer), n = .float x ∧ n.norm = .int i) ∧
      ∀ (x : Decimal.Double) (i : Integer), Number.norm (.float x) = .int i ↔
        x.signedUnits = i.val * Decimal.unitsPerOne ∧ i.val.natAbs ≤ 0x20000000000000) ∧
    b.norm.root = b.root ∧
    b.norm.verifyRoot hash = b.verifyRoot hash ∧
    b.norm.exported = b.exported ∧
    codec.decode (Text.decode (codec.encode b).toUTF8) = .ok b ∧
      codec.decodeValue (Text.decode (codec.encode b).toUTF8) = .ok b := by
  have hfits : b.toJson.Fits .fromText := Json.fits_fromText b.ordered_toJson h
  have hnorm : b.norm.toJson.Fits .fromText := by
    refine Json.fits_fromText b.norm.ordered_toJson ?_
    rw [toJson_norm, Json.depth_norm]
    exact h
  simp only [String.toUTF8_eq_toByteArray, Text.decode_toByteArray]
  refine ⟨?_, ⟨b.toJson_norm, Number.norm_cases, fun _ _ => Number.norm_float_eq_int_iff⟩, rfl,
    b.verifyRoot_norm hash, b.exported_norm, ?_⟩
  · exact ignoresMode_codec.decode_both hnorm b.read_exported (reads_codec b.norm)
  · exact ignoresMode_codec.decode_both hfits b.read_encode (reads_codec b)

/-- One as a double in the context of a refused call is imported as an integer. -/
theorem export_import_round_trip_refused :
    ∃ (hash : Hasher) (b c : Bundle), b.parts = refusedParts ∧ b.toJson.depth ≤ 127 ∧
      codec.decode (Text.decode b.exported.toUTF8) = .ok c ∧
      c.parts.context.context.get? "amount" = some (.num (.int ⟨1, by decide, by decide⟩)) ∧
      c.verifyRoot hash = b.verifyRoot hash ∧ c.exported = b.exported := by
  let hash : Hasher := fun _ => ⟨List.replicate 32 0, rfl⟩
  let b : Bundle := ⟨refusedParts, ⟨List.replicate 32 0, rfl⟩, by decide⟩
  have hdepth : b.toJson.depth ≤ 127 := by decide
  obtain ⟨⟨hdecode, -⟩, -, -, hverify, hexported, -, -⟩ := export_import_round_trip hash b hdepth
  exact ⟨hash, b, b.norm, rfl, hdepth, hdecode, rfl, hverify, hexported⟩

end Bundle

end Custody
