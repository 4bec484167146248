import Custody.Proofs.Snapshots

/-!
# Bundles read back

What has the shape of a bundle is read back from its value, whether or not it keeps the rules of
bundles.  The value of a bundle is ordered, and making its whole doubles integers gives the value of
the same bundle with its tables changed.
-/

namespace Custody

namespace Parts

theorem ordered_grantJson (s? : Option Snapshot.Grant) : (grantJson s?).Ordered := by
  cases s? with
  | none => exact .null
  | some s => exact s.ordered_toJson

theorem ordered_resultsJson (r? : Option Results) : (resultsJson r?).Ordered := by
  cases r? with
  | none => exact .null
  | some r => exact r.ordered_toJson

theorem ordered_executions (executions : List Snapshot.Execution) :
    (Json.arr (executions.map Snapshot.Execution.toJson)).Ordered := by
  apply Json.Ordered.arr
  intro item hitem
  obtain ⟨execution, -, rfl⟩ := List.mem_map.mp hitem
  exact execution.ordered_toJson

/-- The parts with whole doubles in their tables made integers. -/
def norm (p : Parts) : Parts :=
  { p with
    context := p.context.norm
    grant := p.grant.map Snapshot.Grant.norm
    executions := p.executions.map Snapshot.Execution.norm
    failure := p.failure.map Refusal.norm
    results := p.results.map Results.norm }

theorem norm_executions (executions : List Snapshot.Execution) :
    (Json.arr (executions.map Snapshot.Execution.toJson)).norm =
      .arr ((executions.map Snapshot.Execution.norm).map Snapshot.Execution.toJson) := by
  rw [Json.norm, Json.normItems_eq_map, List.map_map, List.map_map]
  congr 1
  apply List.map_congr_left
  intro execution _
  exact execution.norm_toJson

theorem norm_ofRefusal? (r? : Option Refusal) :
    (Json.ofRefusal? r?).norm = .ofRefusal? (r?.map Refusal.norm) := by
  cases r? <;> rfl

theorem norm_grantJson (s? : Option Snapshot.Grant) :
    (grantJson s?).norm = grantJson (s?.map Snapshot.Grant.norm) := by
  cases s? <;> rfl

theorem norm_resultsJson (r? : Option Results) :
    (resultsJson r?).norm = resultsJson (r?.map Results.norm) := by
  cases r? <;> rfl

end Parts

namespace Bundle

/-- The keys of a bundle as a value, in order. -/
def keys : List String :=
  ["authority_version", "bundle_id", "context_snapshot", "created_at", "execution_snapshots",
    "failure_composition", "grant_snapshot", "hash_chain_root", "intent_snapshot",
    "principal_snapshot", "results"]

namespace Draft

/-- The members of a draft as a value, in the order of their keys. -/
def members (d : Draft) : List (String × Json) :=
  [("authority_version", .str d.parts.authorityVersion), ("bundle_id", .str d.parts.id),
    ("context_snapshot", d.parts.context.toJson), ("created_at", .ofInt64 d.parts.createdAt),
    ("execution_snapshots", .arr (d.parts.executions.map Snapshot.Execution.toJson)),
    ("failure_composition", .ofRefusal? d.parts.failure),
    ("grant_snapshot", Parts.grantJson d.parts.grant), ("hash_chain_root", .str d.root.hex),
    ("intent_snapshot", d.parts.intent.toJson), ("principal_snapshot", d.parts.principal.toJson),
    ("results", Parts.resultsJson d.parts.results)]

/-- The draft with whole doubles in its tables made integers. -/
def norm (d : Draft) : Draft := { d with parts := d.parts.norm }

/-- **What has the shape of a bundle is read back from its value.** -/
theorem reads_codec : codec.Reads fun d => .obj d.members := by
  intro d
  refine Codec.ofJson_iso.mpr ⟨(d.parts.id, d.parts.createdAt, d.parts.context, d.parts.intent,
    d.parts.principal, d.parts.grant, d.parts.executions, d.parts.authorityVersion, d.root,
    d.parts.failure, d.parts.results, ()), ?_, rfl⟩
  refine Codec.ofJson_record_of_keys keys (by decide) rfl (by decide) (by decide) ?_
  exact ⟨.inl ⟨_, rfl, Codec.reads_text _⟩, .inl ⟨_, rfl, Codec.reads_int64 _⟩,
    .inl ⟨_, rfl, Snapshot.Context.reads_codec _⟩, .inl ⟨_, rfl, Snapshot.Intent.reads_codec _⟩,
    .inl ⟨_, rfl, Snapshot.Principal.reads_codec _⟩,
    .inl ⟨_, rfl, Snapshot.Grant.reads_grantJson _⟩,
    .inl ⟨_, rfl, Snapshot.Execution.reads_codec.list _⟩, .inl ⟨_, rfl, Codec.reads_text _⟩,
    .inl ⟨_, rfl, Digest.reads_codec _⟩, .inl ⟨_, rfl, Refusal.reads_ofRefusal? _⟩,
    .inl ⟨_, rfl, Results.reads_resultsJson _⟩, trivial⟩

theorem ordered_members (d : Draft) : (Json.obj d.members).Ordered := by
  apply Json.ordered_of_keys keys rfl (by decide)
  simp only [members, List.forall_mem_cons]
  exact ⟨.str _, .str _, d.parts.context.ordered_toJson, .num _,
    Parts.ordered_executions _, Json.ordered_ofRefusal? _, Parts.ordered_grantJson _, .str _,
    d.parts.intent.ordered_toJson, d.parts.principal.ordered_toJson,
    Parts.ordered_resultsJson _, List.forall_mem_nil _⟩

theorem norm_members (d : Draft) : (Json.obj d.members).norm = .obj d.norm.members := by
  rw [Json.norm, members]
  simp only [Json.normFields]
  rw [Parts.norm_executions, Parts.norm_ofRefusal?, Parts.norm_grantJson,
    Snapshot.Intent.norm_toJson, Parts.norm_resultsJson]
  rfl

end Draft

end Bundle

end Custody
