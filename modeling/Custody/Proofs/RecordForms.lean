import Custody.Proofs.Snapshots

/-!
# The two forms of a record

The value of a record is listed member by member, in the order of the keys, because hashes are taken
of it.  The record is also written as a document, by its codec and with its members in an order of
their own.  The two never differ: the value of the document is the one that is listed, no member is
left out of it, and the record is read back from it.
-/

namespace Custody

/-- One thing for each type of a row. -/
@[reducible] def Each (F : Type → Type) : List Type → Type
  | [] => Unit
  | α :: types => F α × Each F types

/-! ## Codecs that write values -/

namespace Codec

variable {α β : Type}

/-- Whether a codec writes each thing as a document of its value. -/
def Writes (c : Codec α) (toJson : α → Json) : Prop :=
  ∀ a, (c.write a).value? .value = some (toJson a)

theorem writes_text : text.Writes .str := fun _ => rfl

theorem writes_flag : flag.Writes .bool := fun _ => rfl

theorem writes_int64 : int64.Writes .ofInt64 := fun _ => rfl

theorem writes_table : table.Writes Table.toJson := by
  intro t
  have hvalue := Document.value?_ofJson .value t.ordered
  exact hvalue

theorem Writes.optional {c : Codec α} {toJson : α → Json} (h : c.Writes toJson)
    {toJson? : Option α → Json} (hnone : toJson? none = .null)
    (hsome : ∀ a, toJson? (some a) = toJson a) : c.optional.Writes toJson? := by
  intro a?
  cases a? with
  | none =>
    rw [hnone]
    rfl
  | some a =>
    rw [hsome]
    exact h a

theorem Writes.refine {c : Codec α} {toJson : α → Json} (h : c.Writes toJson)
    (pack : α → Except String β) (unpack : β → α) :
    (c.refine pack unpack).Writes fun b => toJson (unpack b) :=
  fun b => h (unpack b)

end Codec

/-! ## Records that write values -/

namespace Fields

variable {types : List Type}

/-- The members of a record as values, in the order of the record. -/
def values : {types : List Type} → Fields types → Each (fun α => α → Json) types → Row types →
    List (String × Json)
  | _, .nil, _, _ => []
  | _, .cons field rest, (toJson, toJsons), (a, row) =>
    (field.name, toJson a) :: rest.values toJsons row

/-- Whether each member is written as a document of its value and never left out. -/
def Write : {types : List Type} → Fields types → Each (fun α => α → Json) types → Prop
  | _, .nil, _ => True
  | _, .cons field rest, (toJson, toJsons) =>
    (field.codec.Writes toJson ∧ ∀ a, field.omits a = false) ∧ rest.Write toJsons

theorem fieldValues?_write {fields : Fields types} {toJsons : Each (fun α => α → Json) types}
    (h : fields.Write toJsons) (row : Row types) :
    Document.fieldValues? .value (fields.write row) = some (fields.values toJsons row) := by
  induction fields with
  | nil => rfl
  | cons field rest ih =>
    obtain ⟨toJson, toJsons⟩ := toJsons
    obtain ⟨a, row⟩ := row
    obtain ⟨⟨hcodec, homits⟩, hrest⟩ := h
    have hvalue : (field.codec.write a).value? .value = some (toJson a) := hcodec a
    have hrow := ih hrest row
    rw [write, homits a, if_neg Bool.false_ne_true, Document.fieldValues?, hvalue, hrow]
    rfl

end Fields

/-- **A record is written as an object of the values of its members**, once these are put in the
order of their keys. -/
theorem Codec.value?_write_record {types : List Type} (name : String) (strict : Bool)
    (fields : Fields types) (toJsons : Each (fun α => α → Json) types) (h : fields.Write toJsons)
    (row : Row types) {members : List (String × Json)}
    (hmembers : Assoc.ofList (fields.values toJsons row) = members) :
    ((Codec.record name strict fields).write row).value? .value = some (.obj members) := by
  have hvalues := Fields.fieldValues?_write h row
  show (Document.object (fields.write row)).value? .value = some (.obj members)
  simp only [Document.object, Document.value?, Mode.enter, ObjectEnd.isClosed, if_true, hvalues,
    Option.map_some, Function.comp_apply, hmembers]

/-! ## The records that hashes are taken of

The members of each are written in its own order, and sorting them gives the list. -/

theorem Digest.writes_codec : codec.Writes fun d => .str d.hex :=
  Codec.writes_text.refine _ _

theorem Json.writes_ofText? : Codec.text.optional.Writes Json.ofText? :=
  Codec.writes_text.optional rfl fun _ => rfl

theorem Json.writes_ofTable? : Codec.table.optional.Writes Json.ofTable? :=
  Codec.writes_table.optional rfl fun _ => rfl

namespace Refusal

theorem writes_codec : codec.Writes toJson := by
  intro r
  apply Codec.value?_write_record "NonAction" true fields (.str, Table.toJson, .ofInt64, ())
    ⟨⟨Codec.writes_text, fun _ => rfl⟩, ⟨Codec.writes_table, fun _ => rfl⟩,
      ⟨Codec.writes_int64, fun _ => rfl⟩, trivial⟩
    (r.reason, r.details, r.timestamp, ())
  simp only [fields, Fields.values, Field.required, Field.withDefault, Assoc.ofList,
    Assoc.insert, List.foldl_cons, List.foldl_nil, String.reduceLT, String.reduceEq, reduceIte]

theorem writes_ofRefusal? : codec.optional.Writes Json.ofRefusal? :=
  writes_codec.optional rfl fun _ => rfl

end Refusal

theorem Results.writes_codec : codec.Writes toJson := by
  intro r
  apply Codec.value?_write_record "BundleResults" true fields (Table.toJson, .str, ())
    ⟨⟨Codec.writes_table, fun _ => rfl⟩, ⟨Codec.writes_text, fun _ => rfl⟩, trivial⟩
    (r.data, r.snapshotId, ())
  simp only [fields, Fields.values, Field.required, Assoc.ofList,
    Assoc.insert, List.foldl_cons, List.foldl_nil, String.reduceLT, String.reduceEq, reduceIte]

namespace Snapshot

theorem Context.writes_codec : codec.Writes toJson := by
  intro s
  apply Codec.value?_write_record "ContextSnapshot" true fields
    (Table.toJson, fun d => .str d.hex, .ofInt64, ())
    ⟨⟨Codec.writes_table, fun _ => rfl⟩, ⟨Digest.writes_codec, fun _ => rfl⟩,
      ⟨Codec.writes_int64, fun _ => rfl⟩, trivial⟩
    (s.context, s.digest, s.capturedAt, ())
  simp only [fields, Fields.values, Field.required, Assoc.ofList,
    Assoc.insert, List.foldl_cons, List.foldl_nil, String.reduceLT, String.reduceEq, reduceIte]

theorem Intent.writes_codec : codec.Writes toJson := by
  intro s
  apply Codec.value?_write_record "IntentSnapshot" true fields (.str, .ofText?, .ofInt64, ())
    ⟨⟨Codec.writes_text, fun _ => rfl⟩, ⟨Json.writes_ofText?, fun _ => rfl⟩,
      ⟨Codec.writes_int64, fun _ => rfl⟩, trivial⟩
    (s.capability, s.stepId, s.declaredAt, ())
  simp only [fields, Fields.values, Field.required, Field.nullable, Assoc.ofList,
    Assoc.insert, List.foldl_cons, List.foldl_nil, String.reduceLT, String.reduceEq, reduceIte]

theorem Principal.writes_codec : codec.Writes toJson := by
  intro s
  apply Codec.value?_write_record "PrincipalSnapshot" true fields (.str, .ofInt64, ())
    ⟨⟨Codec.writes_text, fun _ => rfl⟩, ⟨Codec.writes_int64, fun _ => rfl⟩, trivial⟩
    (s.id, s.capturedAt, ())
  simp only [fields, Fields.values, Field.required, Assoc.ofList,
    Assoc.insert, List.foldl_cons, List.foldl_nil, String.reduceLT, String.reduceEq, reduceIte]

theorem Grant.writes_codec : codec.Writes toJson := by
  intro s
  apply Codec.value?_write_record "GrantSnapshot" true fields (.str, Table.toJson, .ofInt64, ())
    ⟨⟨Codec.writes_text, fun _ => rfl⟩, ⟨Codec.writes_table, fun _ => rfl⟩,
      ⟨Codec.writes_int64, fun _ => rfl⟩, trivial⟩
    (s.id, s.data, s.capturedAt, ())
  simp only [fields, Fields.values, Field.required, Assoc.ofList,
    Assoc.insert, List.foldl_cons, List.foldl_nil, String.reduceLT, String.reduceEq, reduceIte]

theorem Execution.writes_codec : codec.Writes toJson := by
  intro s
  apply Codec.value?_write_record "RawExecutionSnapshot" true fields
    (.ofText?, .str, fun d => .str d.hex, .ofText?, .ofInt64, .bool, .ofTable?, .ofRefusal?, ())
    ⟨⟨Json.writes_ofText?, fun _ => rfl⟩, ⟨Codec.writes_text, fun _ => rfl⟩,
      ⟨Digest.writes_codec, fun _ => rfl⟩, ⟨Json.writes_ofText?, fun _ => rfl⟩,
      ⟨Codec.writes_int64, fun _ => rfl⟩, ⟨Codec.writes_flag, fun _ => rfl⟩,
      ⟨Json.writes_ofTable?, fun _ => rfl⟩, ⟨Refusal.writes_ofRefusal?, fun _ => rfl⟩, trivial⟩
    (s.stepId, s.capability, s.contextDigest, s.outcome.snapshotId?, s.executedAt,
      s.outcome.isSuccess, s.outcome.data?, s.outcome.refusal?, ())
  simp only [fields, Fields.values, Field.required, Field.nullable, Assoc.ofList,
    Assoc.insert, List.foldl_cons, List.foldl_nil, String.reduceLT, String.reduceEq, reduceIte]

end Snapshot

/-! ## One form -/

/-- Whether the value that is listed for a record is the one of its document, has the members of the
record and no others, and is read back as the record. -/
structure Codec.Mirrors {α : Type} (c : Codec α) (names : List String) (toJson : α → Json) :
    Prop where
  written : c.Writes toJson
  members : ∀ a, ∃ members, toJson a = .obj members ∧ (members.map Prod.fst).Perm names
  read : c.Reads toJson

/-- **The listed value and the written one never drift.**  For each record of a bundle, whatever it
holds, the value of its document is the one that is listed; it has all members of the record, those
that hold nothing as null; and the record is read back from it. -/
theorem Snapshot.listed_value_is_written_and_read :
    Context.codec.Mirrors Context.fields.names Context.toJson ∧
    Intent.codec.Mirrors Intent.fields.names Intent.toJson ∧
    Principal.codec.Mirrors Principal.fields.names Principal.toJson ∧
    Grant.codec.Mirrors Grant.fields.names Grant.toJson ∧
    Execution.codec.Mirrors Execution.fields.names Execution.toJson ∧
    Results.codec.Mirrors Results.fields.names Results.toJson ∧
    Refusal.codec.Mirrors Refusal.fields.names Refusal.toJson := by
  have hcontext : Context.keys.Perm Context.fields.names := by decide
  have hintent : Intent.keys.Perm Intent.fields.names := by decide
  have hprincipal : Principal.keys.Perm Principal.fields.names := by decide
  have hgrant : Grant.keys.Perm Grant.fields.names := by decide
  have hexecution : Execution.keys.Perm Execution.fields.names := by decide
  have hresults : Results.keys.Perm Results.fields.names := by decide
  have hrefusal : Refusal.keys.Perm Refusal.fields.names := by decide
  refine ⟨?_, ?_, ?_, ?_, ?_, ?_, ?_⟩
  · exact ⟨Context.writes_codec, fun _ => ⟨_, rfl, hcontext⟩, Context.reads_codec⟩
  · exact ⟨Intent.writes_codec, fun _ => ⟨_, rfl, hintent⟩, Intent.reads_codec⟩
  · exact ⟨Principal.writes_codec, fun _ => ⟨_, rfl, hprincipal⟩, Principal.reads_codec⟩
  · exact ⟨Grant.writes_codec, fun _ => ⟨_, rfl, hgrant⟩, Grant.reads_codec⟩
  · exact ⟨Execution.writes_codec, fun _ => ⟨_, rfl, hexecution⟩, Execution.reads_codec⟩
  · exact ⟨Results.writes_codec, fun _ => ⟨_, rfl, hresults⟩, Results.reads_codec⟩
  · exact ⟨Refusal.writes_codec, fun _ => ⟨_, rfl, hrefusal⟩, Refusal.reads_codec⟩

end Custody
