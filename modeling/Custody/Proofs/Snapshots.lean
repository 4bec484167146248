import Custody.Bundle.Basic
import Custody.Proofs.Hex
import Custody.Proofs.Records

/-!
# Snapshots read back

Each part of a bundle is read back from its value, and its value is an ordered one.  Making whole
doubles integers goes through to the tables: what is read from the changed value is the part with
its tables changed, and nothing else of it.
-/

namespace Custody

/-! ## Pieces -/

theorem Digest.reads_codec : Digest.codec.Reads fun d => .str d.hex := by
  intro d
  rw [Digest.codec, Codec.ofJson_refine (Codec.reads_text d.hex), parse_hex]
  rfl

theorem Json.reads_ofText? : Codec.text.optional.Reads Json.ofText? :=
  Codec.reads_text.optional (fun _ => rfl) rfl fun _ => rfl

theorem Json.reads_ofTable? : Codec.table.optional.Reads Json.ofTable? :=
  Codec.reads_table.optional (fun _ => rfl) rfl fun _ => rfl

/-! ## Reading back -/

namespace Refusal

/-- The keys of a refusal as a value, in order. -/
def keys : List String := ["details", "reason", "timestamp"]

theorem reads_codec : codec.Reads toJson := by
  intro r
  refine Codec.ofJson_iso.mpr ⟨(r.reason, r.details, r.timestamp, ()), ?_, rfl⟩
  refine Codec.ofJson_record_of_keys keys (by decide) rfl (by decide) (by decide) ?_
  exact ⟨.inl ⟨_, rfl, Codec.reads_text _⟩, .inl ⟨_, rfl, Codec.reads_table _⟩,
    .inl ⟨_, rfl, Codec.reads_int64 _⟩, trivial⟩

theorem reads_ofRefusal? : codec.optional.Reads Json.ofRefusal? :=
  reads_codec.optional (fun _ => rfl) rfl fun _ => rfl

end Refusal

namespace Results

/-- The keys of results as a value, in order. -/
def keys : List String := ["data", "snapshot_id"]

theorem reads_codec : codec.Reads toJson := by
  intro r
  refine Codec.ofJson_iso.mpr ⟨(r.data, r.snapshotId, ()), ?_, rfl⟩
  refine Codec.ofJson_record_of_keys keys (by decide) rfl (by decide) (by decide) ?_
  exact ⟨.inl ⟨_, rfl, Codec.reads_table _⟩, .inl ⟨_, rfl, Codec.reads_text _⟩, trivial⟩

theorem reads_resultsJson : codec.optional.Reads Parts.resultsJson :=
  reads_codec.optional (fun _ => rfl) rfl fun _ => rfl

end Results

namespace Snapshot

/-- The keys of a context as a value, in order. -/
def Context.keys : List String := ["captured_at", "context", "context_hash"]

theorem Context.reads_codec : codec.Reads toJson := by
  intro s
  refine Codec.ofJson_iso.mpr ⟨(s.context, s.digest, s.capturedAt, ()), ?_, rfl⟩
  refine Codec.ofJson_record_of_keys keys (by decide) rfl (by decide) (by decide) ?_
  exact ⟨.inl ⟨_, rfl, Codec.reads_table _⟩, .inl ⟨_, rfl, Digest.reads_codec _⟩,
    .inl ⟨_, rfl, Codec.reads_int64 _⟩, trivial⟩

/-- The keys of an intent as a value, in order. -/
def Intent.keys : List String := ["capability_name", "declared_at", "step_id"]

theorem Intent.reads_codec : codec.Reads toJson := by
  intro s
  refine Codec.ofJson_iso.mpr ⟨(s.capability, s.stepId, s.declaredAt, ()), ?_, rfl⟩
  refine Codec.ofJson_record_of_keys keys (by decide) rfl (by decide) (by decide) ?_
  exact ⟨.inl ⟨_, rfl, Codec.reads_text _⟩, .inl ⟨_, rfl, Json.reads_ofText? _⟩,
    .inl ⟨_, rfl, Codec.reads_int64 _⟩, trivial⟩

/-- The keys of a principal as a value, in order. -/
def Principal.keys : List String := ["captured_at", "principal_id"]

theorem Principal.reads_codec : codec.Reads toJson := by
  intro s
  refine Codec.ofJson_iso.mpr ⟨(s.id, s.capturedAt, ()), ?_, rfl⟩
  refine Codec.ofJson_record_of_keys keys (by decide) rfl (by decide) (by decide) ?_
  exact ⟨.inl ⟨_, rfl, Codec.reads_text _⟩, .inl ⟨_, rfl, Codec.reads_int64 _⟩, trivial⟩

/-- The keys of a grant as a value, in order. -/
def Grant.keys : List String := ["captured_at", "grant_data", "grant_id"]

theorem Grant.reads_codec : codec.Reads toJson := by
  intro s
  refine Codec.ofJson_iso.mpr ⟨(s.id, s.data, s.capturedAt, ()), ?_, rfl⟩
  refine Codec.ofJson_record_of_keys keys (by decide) rfl (by decide) (by decide) ?_
  exact ⟨.inl ⟨_, rfl, Codec.reads_text _⟩, .inl ⟨_, rfl, Codec.reads_table _⟩,
    .inl ⟨_, rfl, Codec.reads_int64 _⟩, trivial⟩

theorem Grant.reads_grantJson : codec.optional.Reads Parts.grantJson :=
  reads_codec.optional (fun _ => rfl) rfl fun _ => rfl

/-- The keys of an execution as a value, in order. -/
def Execution.keys : List String :=
  ["capability_name", "context_hash", "executed_at", "is_success", "non_action", "result_data",
    "snapshot_id", "step_id"]

theorem Execution.reads_codec : codec.Reads toJson := by
  intro s
  have hrow : (Codec.record "RawExecutionSnapshot" true fields).ofJson s.toJson =
      .ok (s.stepId, s.capability, s.contextDigest, s.outcome.snapshotId?, s.executedAt,
        s.outcome.isSuccess, s.outcome.data?, s.outcome.refusal?, ()) := by
    refine Codec.ofJson_record_of_keys keys (by decide) rfl (by decide) (by decide) ?_
    exact ⟨.inl ⟨_, rfl, Json.reads_ofText? _⟩, .inl ⟨_, rfl, Codec.reads_text _⟩,
      .inl ⟨_, rfl, Digest.reads_codec _⟩, .inl ⟨_, rfl, Json.reads_ofText? _⟩,
      .inl ⟨_, rfl, Codec.reads_int64 _⟩, .inl ⟨_, rfl, Codec.reads_flag _⟩,
      .inl ⟨_, rfl, Json.reads_ofTable? _⟩, .inl ⟨_, rfl, Refusal.reads_ofRefusal? _⟩, trivial⟩
  rw [codec, Codec.ofJson_refine hrow]
  simp only [Outcome.ofMembers?_self]
  rfl

end Snapshot

/-! ## Ordered values -/

theorem Json.ordered_ofText? (s? : Option String) : (Json.ofText? s?).Ordered := by
  cases s? with
  | none => exact .null
  | some s => exact .str s

theorem Json.ordered_ofTable? (t? : Option Table) : (Json.ofTable? t?).Ordered := by
  cases t? with
  | none => exact .null
  | some t => exact t.ordered

theorem Refusal.ordered_toJson (r : Refusal) : r.toJson.Ordered := by
  apply Json.ordered_of_keys keys rfl (by decide)
  simp only [List.forall_mem_cons]
  exact ⟨r.details.ordered, .str _, .num _, List.forall_mem_nil _⟩

theorem Json.ordered_ofRefusal? (r? : Option Refusal) : (Json.ofRefusal? r?).Ordered := by
  cases r? with
  | none => exact .null
  | some r => exact r.ordered_toJson

theorem Results.ordered_toJson (r : Results) : r.toJson.Ordered := by
  apply Json.ordered_of_keys keys rfl (by decide)
  simp only [List.forall_mem_cons]
  exact ⟨r.data.ordered, .str _, List.forall_mem_nil _⟩

namespace Snapshot

theorem Context.ordered_toJson (s : Context) : s.toJson.Ordered := by
  apply Json.ordered_of_keys keys rfl (by decide)
  simp only [List.forall_mem_cons]
  exact ⟨.num _, s.context.ordered, .str _, List.forall_mem_nil _⟩

theorem Intent.ordered_toJson (s : Intent) : s.toJson.Ordered := by
  apply Json.ordered_of_keys keys rfl (by decide)
  simp only [List.forall_mem_cons]
  exact ⟨.str _, .num _, Json.ordered_ofText? s.stepId, List.forall_mem_nil _⟩

theorem Principal.ordered_toJson (s : Principal) : s.toJson.Ordered := by
  apply Json.ordered_of_keys keys rfl (by decide)
  simp only [List.forall_mem_cons]
  exact ⟨.num _, .str _, List.forall_mem_nil _⟩

theorem Grant.ordered_toJson (s : Grant) : s.toJson.Ordered := by
  apply Json.ordered_of_keys keys rfl (by decide)
  simp only [List.forall_mem_cons]
  exact ⟨.num _, s.data.ordered, .str _, List.forall_mem_nil _⟩

theorem Execution.ordered_toJson (s : Execution) : s.toJson.Ordered := by
  apply Json.ordered_of_keys keys rfl (by decide)
  simp only [List.forall_mem_cons]
  exact ⟨.str _, .str _, .num _, .bool _, Json.ordered_ofRefusal? _, Json.ordered_ofTable? _,
    Json.ordered_ofText? _, Json.ordered_ofText? _, List.forall_mem_nil _⟩

end Snapshot

/-! ## Whole doubles made integers -/

/-- The table with whole doubles made integers. -/
def Table.norm (t : Table) : Table := ⟨Json.normFields t.fields, t.ordered.norm⟩

/-- The refusal with whole doubles in its details made integers. -/
def Refusal.norm (r : Refusal) : Refusal := { r with details := r.details.norm }

/-- The outcome with whole doubles in its data or details made integers. -/
def Outcome.norm : Outcome → Outcome
  | .success data snapshotId => .success data.norm snapshotId
  | .refused refusal => .refused refusal.norm

/-- The results with whole doubles in their data made integers. -/
def Results.norm (r : Results) : Results := { r with data := r.data.norm }

theorem Refusal.norm_toJson (r : Refusal) : r.toJson.norm = r.norm.toJson := rfl

theorem Results.norm_toJson (r : Results) : r.toJson.norm = r.norm.toJson := rfl

namespace Snapshot

/-- The snapshot with whole doubles in its context made integers.  The digest remains as it was. -/
def Context.norm (s : Context) : Context := { s with context := s.context.norm }

/-- The snapshot with whole doubles in its data made integers. -/
def Grant.norm (s : Grant) : Grant := { s with data := s.data.norm }

/-- The snapshot with whole doubles in its outcome made integers. -/
def Execution.norm (s : Execution) : Execution := { s with outcome := s.outcome.norm }

theorem Context.norm_toJson (s : Context) : s.toJson.norm = s.norm.toJson := rfl

theorem Intent.norm_toJson (s : Intent) : s.toJson.norm = s.toJson := by
  cases s with
  | mk capability stepId declaredAt => cases stepId <;> rfl

theorem Principal.norm_toJson (s : Principal) : s.toJson.norm = s.toJson := rfl

theorem Grant.norm_toJson (s : Grant) : s.toJson.norm = s.norm.toJson := rfl

theorem Execution.norm_toJson (s : Execution) : s.toJson.norm = s.norm.toJson := by
  cases s with
  | mk stepId capability contextDigest executedAt outcome =>
    cases stepId <;> cases outcome <;> rfl

end Snapshot

end Custody
