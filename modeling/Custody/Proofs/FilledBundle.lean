import Custody.Proofs.Filling
import Custody.Proofs.ImportedBundle

/-!
# Bundles that are written again

A bundle that has been read is checked by its typed value, and a document by its own members; the
two agree where the document is what is written of the bundle.  That is so for any document in which
records are objects, once what is missing has been put in and the digests are in lower case; nothing
else in it is changed.
-/

namespace Custody

variable {v : Json}

/-! ## The records of a bundle

Each is filled member by member.  The members are listed in the order of their keys, and what they
are read as in the order of the record. -/

namespace Refusal

/-- Details that are missing are none. -/
def fillings : Json.Fillings := [("details", ⟨some (.obj []), id⟩)]

theorem restores_codec (h : v.isArray = false) : codec.Restores toJson (.fill fillings) v := by
  intro hordered r hr
  obtain ⟨row, hrow, rfl⟩ := Codec.ofJson_iso.mp hr
  refine Codec.restores_record keys fillings (by decide) (by decide) rfl hordered h hrow ?_
  rintro given rfl hgiven ⟨hreason, hdetails, htimestamp, -⟩
  have hmissing : ∀ details, some Table.empty = some details →
      some (Json.obj []) = some details.toJson := by
    rintro _ ⟨⟩
    rfl
  have hdetails := hdetails.restored ⟨some (.obj []), id⟩ hgiven
    (fun _ _ => Codec.restores_table) hmissing
  have hreason := hreason.restored_required hgiven fun _ _ => Codec.restores_text
  have htimestamp := htimestamp.restored_required hgiven fun _ _ => Codec.restores_int64
  simp only [keys, List.forall_mem_cons]
  exact ⟨hdetails, hreason, htimestamp, List.forall_mem_nil _⟩

theorem restores_ofRefusal? (h : v.isArray = false) :
    codec.optional.Restores Json.ofRefusal? (.fill fillings) v :=
  (restores_codec h).optional rfl rfl fun _ => rfl

end Refusal

namespace Results

theorem restores_codec (h : v.isArray = false) : codec.Restores toJson id v := by
  intro hordered r hr
  obtain ⟨row, hrow, rfl⟩ := Codec.ofJson_iso.mp hr
  refine (Codec.restores_record keys [] (by decide) (by decide) rfl hordered h hrow
    ?_).trans v.fill_nil
  rintro given rfl hgiven ⟨hdata, hsnapshot, -⟩
  have hdata := hdata.restored_required hgiven fun _ _ => Codec.restores_table
  have hsnapshot := hsnapshot.restored_required hgiven fun _ _ => Codec.restores_text
  simp only [keys, List.forall_mem_cons]
  exact ⟨hdata, hsnapshot, List.forall_mem_nil _⟩

theorem restores_resultsJson (h : v.isArray = false) :
    codec.optional.Restores Parts.resultsJson id v :=
  (restores_codec h).optional rfl rfl fun _ => rfl

end Results

namespace Snapshot

/-- The digest is in lower case. -/
def Context.fillings : Json.Fillings := [("context_hash", ⟨none, Json.lowered⟩)]

theorem Context.restores_codec (h : v.isArray = false) :
    codec.Restores toJson (.fill fillings) v := by
  intro hordered s hs
  obtain ⟨row, hrow, rfl⟩ := Codec.ofJson_iso.mp hs
  refine Codec.restores_record keys fillings (by decide) (by decide) rfl hordered h hrow ?_
  rintro given rfl hgiven ⟨hcontext, hdigest, hcaptured, -⟩
  have hcontext := hcontext.restored_required hgiven fun _ _ => Codec.restores_table
  have hdigest := hdigest.restored_required hgiven fun _ _ => Codec.restores_digest
  have hcaptured := hcaptured.restored_required hgiven fun _ _ => Codec.restores_int64
  simp only [keys, List.forall_mem_cons]
  exact ⟨hcaptured, hcontext, hdigest, List.forall_mem_nil _⟩

/-- A step that is missing is null. -/
def Intent.fillings : Json.Fillings := [("step_id", .orNull)]

theorem restores_ofText? : Codec.text.optional.Restores Json.ofText? id v :=
  Codec.restores_text.optional rfl rfl fun _ => rfl

theorem restores_ofTable? : Codec.table.optional.Restores Json.ofTable? id v :=
  Codec.restores_table.optional rfl rfl fun _ => rfl

theorem Intent.restores_codec (h : v.isArray = false) :
    codec.Restores toJson (.fill fillings) v := by
  intro hordered s hs
  obtain ⟨row, hrow, rfl⟩ := Codec.ofJson_iso.mp hs
  refine Codec.restores_record keys fillings (by decide) (by decide) rfl hordered h hrow ?_
  rintro given rfl hgiven ⟨hcapability, hstep, hdeclared, -⟩
  have hcapability := hcapability.restored_required hgiven fun _ _ => Codec.restores_text
  have hstep := hstep.restored_nullable hgiven (fun _ _ => restores_ofText?) rfl
  have hdeclared := hdeclared.restored_required hgiven fun _ _ => Codec.restores_int64
  simp only [keys, List.forall_mem_cons]
  exact ⟨hcapability, hdeclared, hstep, List.forall_mem_nil _⟩

theorem restores_principal (h : v.isArray = false) :
    Principal.codec.Restores Principal.toJson id v := by
  intro hordered s hs
  obtain ⟨row, hrow, rfl⟩ := Codec.ofJson_iso.mp hs
  refine (Codec.restores_record Principal.keys [] (by decide) (by decide) rfl hordered h hrow
    ?_).trans v.fill_nil
  rintro given rfl hgiven ⟨hid, hcaptured, -⟩
  have hid := hid.restored_required hgiven fun _ _ => Codec.restores_text
  have hcaptured := hcaptured.restored_required hgiven fun _ _ => Codec.restores_int64
  simp only [Principal.keys, List.forall_mem_cons]
  exact ⟨hcaptured, hid, List.forall_mem_nil _⟩

theorem restores_grant (h : v.isArray = false) : Grant.codec.Restores Grant.toJson id v := by
  intro hordered s hs
  obtain ⟨row, hrow, rfl⟩ := Codec.ofJson_iso.mp hs
  refine (Codec.restores_record Grant.keys [] (by decide) (by decide) rfl hordered h hrow
    ?_).trans v.fill_nil
  rintro given rfl hgiven ⟨hid, hdata, hcaptured, -⟩
  have hid := hid.restored_required hgiven fun _ _ => Codec.restores_text
  have hdata := hdata.restored_required hgiven fun _ _ => Codec.restores_table
  have hcaptured := hcaptured.restored_required hgiven fun _ _ => Codec.restores_int64
  simp only [Grant.keys, List.forall_mem_cons]
  exact ⟨hcaptured, hdata, hid, List.forall_mem_nil _⟩

theorem restores_grantJson (h : v.isArray = false) :
    Grant.codec.optional.Restores Parts.grantJson id v :=
  (restores_grant h).optional rfl rfl fun _ => rfl

namespace Execution

/-- The digest is in lower case, and what is missing is null. -/
def fillings : Json.Fillings :=
  [("context_hash", ⟨none, Json.lowered⟩), ("non_action", ⟨some .null, .fill Refusal.fillings⟩),
    ("result_data", .orNull), ("snapshot_id", .orNull), ("step_id", .orNull)]

/-- No record in an execution is written as an array. -/
structure InObjects (v : Json) : Prop where
  itself : v.isArray = false
  refusal : (v.memberOrNull "non_action").isArray = false

theorem restores_codec (h : InObjects v) : codec.Restores toJson (.fill fillings) v := by
  intro hordered s hs
  obtain ⟨row, hrow, hpack⟩ := Codec.exists_of_ofJson_refine hs
  obtain ⟨stepId, capability, digest, snapshotId, executedAt, ok, data, refusal, ⟨⟩⟩ := row
  dsimp only at hpack
  split at hpack
  · next outcome houtcome =>
    cases hpack
    obtain ⟨rfl, rfl, rfl, rfl⟩ := Outcome.ofMembers?_eq_some_iff.mp houtcome
    refine Codec.restores_record keys fillings (by decide) (by decide) rfl hordered h.itself
      hrow ?_
    rintro given rfl hgiven ⟨hstep, hcapability, hdigest, hsnapshot, hexecuted, hok, hdata,
      hrefusal, -⟩
    have hstep := hstep.restored_nullable hgiven (fun _ _ => restores_ofText?) rfl
    have hcapability := hcapability.restored_required hgiven fun _ _ => Codec.restores_text
    have hdigest := hdigest.restored_required hgiven fun _ _ => Codec.restores_digest
    have hsnapshot := hsnapshot.restored_nullable hgiven (fun _ _ => restores_ofText?) rfl
    have hexecuted := hexecuted.restored_required hgiven fun _ _ => Codec.restores_int64
    have hok := hok.restored_required hgiven fun _ _ => Codec.restores_flag
    have hdata := hdata.restored_nullable hgiven (fun _ _ => restores_ofTable?) rfl
    have hrefusal := hrefusal.restored_nullable hgiven
      (fun r hr => Refusal.restores_ofRefusal? (Json.isArray_of_member? h.refusal hr)) rfl
    simp only [keys, List.forall_mem_cons]
    exact ⟨hcapability, hdigest, hexecuted, hok, hrefusal, hdata, hsnapshot, hstep,
      List.forall_mem_nil _⟩
  · cases hpack

end Execution

end Snapshot

/-! ## A bundle -/

namespace Bundle

/-- The members of a bundle that are records. -/
def recordKeys : List String :=
  ["context_snapshot", "failure_composition", "grant_snapshot", "intent_snapshot",
    "principal_snapshot", "results"]

/-- No record in a bundle is written as an array. -/
structure InObjects (v : Json) : Prop where
  itself : v.isArray = false
  records : ∀ key ∈ recordKeys, (v.memberOrNull key).isArray = false
  executions : ∀ items, v.member? "execution_snapshots" = some (.arr items) →
    ∀ item ∈ items, Snapshot.Execution.InObjects item

theorem InObjects.record (h : InObjects v) {key : String} (hkey : key ∈ recordKeys) {record : Json}
    (hrecord : v.member? key = some record) : record.isArray = false :=
  Json.isArray_of_member? (h.records key hkey) hrecord

/-- Digests are in lower case, details that are missing are none, and all else that is missing is
null. -/
def fillings : Json.Fillings :=
  [("context_snapshot", ⟨none, .fill Snapshot.Context.fillings⟩),
    ("execution_snapshots", ⟨none, .mapItems (.fill Snapshot.Execution.fillings)⟩),
    ("failure_composition", ⟨some .null, .fill Refusal.fillings⟩),
    ("grant_snapshot", .orNull),
    ("hash_chain_root", ⟨none, Json.lowered⟩),
    ("intent_snapshot", ⟨none, .fill Snapshot.Intent.fillings⟩),
    ("results", .orNull)]

/-- The form of a document that has nothing missing and its digests in lower case. -/
def filled (v : Json) : Json := v.fill fillings

theorem Draft.restores_codec (h : InObjects v) :
    codec.Restores (fun d => .obj d.members) filled v := by
  intro hordered d hd
  obtain ⟨row, hrow, rfl⟩ := Codec.ofJson_iso.mp hd
  refine Codec.restores_record keys fillings (by decide) (by decide) rfl hordered h.itself hrow ?_
  rintro given rfl hgiven ⟨hid, hcreated, hcontext, hintent, hprincipal, hgrant, hexecutions,
    hversion, hroot, hfailure, hresults, -⟩
  have hid := hid.restored_required hgiven fun _ _ => Codec.restores_text
  have hcreated := hcreated.restored_required hgiven fun _ _ => Codec.restores_int64
  have hcontext := hcontext.restored_required hgiven fun r hr =>
    Snapshot.Context.restores_codec (h.record (by decide) hr)
  have hintent := hintent.restored_required hgiven fun r hr =>
    Snapshot.Intent.restores_codec (h.record (by decide) hr)
  have hprincipal := hprincipal.restored_required hgiven fun r hr =>
    Snapshot.restores_principal (h.record (by decide) hr)
  have hgrant := hgrant.restored_nullable hgiven
    (fun r hr => Snapshot.restores_grantJson (h.record (by decide) hr)) rfl
  have hexecutions := hexecutions.restored_required hgiven fun r hr =>
    Codec.restores_list fun items hitems item hitem => Snapshot.Execution.restores_codec
      (h.executions items (hr.trans (congrArg some hitems)) item hitem)
  have hversion := hversion.restored_required hgiven fun _ _ => Codec.restores_text
  have hroot := hroot.restored_required hgiven fun _ _ => Codec.restores_digest
  have hfailure := hfailure.restored_nullable hgiven
    (fun r hr => Refusal.restores_ofRefusal? (h.record (by decide) hr)) rfl
  have hresults := hresults.restored_nullable hgiven
    (fun r hr => Results.restores_resultsJson (h.record (by decide) hr)) rfl
  simp only [keys, List.forall_mem_cons]
  exact ⟨hversion, hid, hcontext, hcreated, hexecutions, hfailure, hgrant, hroot, hintent,
    hprincipal, hresults, List.forall_mem_nil _⟩

theorem restores_codec (h : InObjects v) : codec.Restores toJson filled v := by
  intro hordered b hb
  obtain ⟨d, hd, hmake⟩ := @Codec.exists_of_ofJson_refine Draft Bundle v Draft.codec _ draft b hb
  rw [mapError_eq_ok_iff, make_eq_ok_iff] at hmake
  rw [toJson_eq, hmake.2]
  exact Draft.restores_codec h hordered d hd

/-- **What is read as a bundle is written again** as the document with nothing missing and its
digests in lower case, if all records in it are objects.  If the document has that form already and
is nested at most 127 deep, the bundle and the canonical text of the document get the same verdict
on the root. -/
theorem toJson_eq_filled (hash : Hasher) (v : Json) (b : Bundle) (hordered : v.Ordered)
    (hobjects : InObjects v) (h : codec.ofJson v = .ok b) :
    b.toJson = filled v ∧
      (v.depth ≤ 127 → filled v = v →
        (Verification.ofBytes hash v.canonical.toUTF8).hashValid = b.verifyRoot hash) := by
  have hfilled : b.toJson = filled v := restores_codec hobjects hordered b h
  refine ⟨hfilled, ?_⟩
  intro hdepth hform
  have hjson : b.toJson = v := hfilled.trans hform
  obtain ⟨computed, hcomputed⟩ := exists_root hash (.obj b.parts.members)
  rw [← hjson] at hdepth ⊢
  have hverified := ofBytes_exported hdepth hcomputed
  rw [exported] at hverified
  rw [hverified]

/-! ## A document that leaves out what it can -/

/-- A refusal without details. -/
def sparseRefusal : Json := .obj [("reason", .str Reason.noGrant), ("timestamp", .ofInt64 2)]

/-- A root in upper case. -/
def upperRoot : String := String.ofList (List.replicate 64 'A')

theorem parse_upperRoot : Digest.parse upperRoot = .ok ⟨List.replicate 32 0xAA, rfl⟩ := by
  have hascii : ∀ c ∈ List.replicate 64 'A', c.toNat < 0x80 := by
    intro c hc
    rw [List.eq_of_mem_replicate hc]
    decide
  have hcode : UInt8.ofNat 'A'.toNat = 0x41 := by decide
  have hbytes : upperRoot.toUTF8.toList = List.replicate 64 0x41 := by
    unfold upperRoot
    rw [Text.toUTF8_ascii hascii, List.map_replicate, hcode]
  have hdecoded : Text.hexDecode (List.replicate 64 0x41) = .ok (List.replicate 32 0xAA) := by
    rfl
  rw [Digest.parse, hbytes, hdecoded]
  exact Digest.ofBytes_bytes ⟨List.replicate 32 0xAA, rfl⟩

/-- A refused call without a grant, without results, without details of the refusal, and with its
root in upper case. -/
def sparse : Json :=
  .obj [("authority_version", .str "1"), ("bundle_id", .str "b-1"),
    ("context_snapshot", refusedParts.context.toJson), ("created_at", .ofInt64 2),
    ("execution_snapshots", .arr (refusedParts.executions.map Snapshot.Execution.toJson)),
    ("failure_composition", sparseRefusal),
    ("hash_chain_root", .str upperRoot), ("intent_snapshot", refusedParts.intent.toJson),
    ("principal_snapshot", refusedParts.principal.toJson)]

/-- The bundle that is read of it. -/
def ofSparse : Bundle := ⟨refusedParts, ⟨List.replicate 32 0xAA, rfl⟩, by decide⟩

theorem ofJson_sparseRefusal :
    Refusal.codec.ofJson sparseRefusal = .ok (.plain Reason.noGrant 2) := by
  refine Codec.ofJson_iso.mpr ⟨(Reason.noGrant, .empty, 2, ()), ?_, rfl⟩
  refine Codec.ofJson_record_of_keys ["reason", "timestamp"] (by decide) rfl (by decide)
    (by decide) ?_
  exact ⟨.inl ⟨_, rfl, Codec.reads_text _⟩, .inr ⟨rfl, rfl⟩, .inl ⟨_, rfl, Codec.reads_int64 _⟩,
    trivial⟩

theorem ofJson_sparse : codec.ofJson sparse = .ok ofSparse := by
  have hrefusal : Refusal.codec.optional.ofJson sparseRefusal =
      .ok (some (.plain Reason.noGrant 2)) := by
    rw [Codec.ofJson_optional rfl, ofJson_sparseRefusal]
    rfl
  have hroot : Digest.codec.ofJson (.str upperRoot) = .ok ofSparse.root := by
    rw [Digest.codec, Codec.ofJson_refine (Codec.reads_text upperRoot), parse_upperRoot]
    rfl
  have hdraft : Draft.codec.ofJson sparse = .ok ofSparse.draft := by
    refine Codec.ofJson_iso.mpr ⟨("b-1", 2, refusedParts.context, refusedParts.intent,
      refusedParts.principal, none, refusedParts.executions, "1", ofSparse.root,
      refusedParts.failure, none, ()), ?_, rfl⟩
    refine Codec.ofJson_record_of_keys ["authority_version", "bundle_id", "context_snapshot",
      "created_at", "execution_snapshots", "failure_composition", "hash_chain_root",
      "intent_snapshot", "principal_snapshot"] (by decide) rfl (by decide) (by decide) ?_
    exact ⟨.inl ⟨_, rfl, Codec.reads_text _⟩, .inl ⟨_, rfl, Codec.reads_int64 _⟩,
      .inl ⟨_, rfl, Snapshot.Context.reads_codec _⟩, .inl ⟨_, rfl, Snapshot.Intent.reads_codec _⟩,
      .inl ⟨_, rfl, Snapshot.Principal.reads_codec _⟩, .inr ⟨rfl, rfl⟩,
      .inl ⟨_, rfl, Snapshot.Execution.reads_codec.list _⟩, .inl ⟨_, rfl, Codec.reads_text _⟩,
      .inl ⟨_, rfl, hroot⟩, .inl ⟨_, rfl, hrefusal⟩, .inr ⟨rfl, rfl⟩, trivial⟩
  rw [ofJson_codec_eq hdraft, mapError_eq_ok_iff, mapError_eq_ok_iff, make_eq_ok_iff]
  exact ⟨ofSparse.valid, rfl⟩

theorem ordered_sparse : sparse.Ordered := by
  apply Json.ordered_of_keys _ rfl (by decide)
  simp only [List.forall_mem_cons]
  refine ⟨.str _, .str _, refusedParts.context.ordered_toJson, .num _, Parts.ordered_executions _,
    ?_, .str _, refusedParts.intent.ordered_toJson, refusedParts.principal.ordered_toJson,
    List.forall_mem_nil _⟩
  apply Json.ordered_of_keys _ rfl (by decide)
  simp only [List.forall_mem_cons]
  exact ⟨.str _, .num _, List.forall_mem_nil _⟩

/-- Records are objects where the executions are those of a refused call. -/
theorem inObjects_of_executions {v : Json} (hitself : v.isArray = false)
    (hrecords : ∀ key ∈ recordKeys, (v.memberOrNull key).isArray = false)
    (hexecutions : v.member? "execution_snapshots" =
      some (.arr (refusedParts.executions.map Snapshot.Execution.toJson))) : InObjects v := by
  refine ⟨hitself, hrecords, fun items hitems item hitem => ?_⟩
  rw [hexecutions, Option.some.injEq, Json.arr.injEq] at hitems
  subst hitems
  obtain rfl := List.mem_singleton.mp hitem
  exact ⟨rfl, rfl⟩

/-- What is missing is put in, and the root is put in lower case.  Then there is nothing more to do,
and the verdicts agree. -/
theorem toJson_eq_filled_sparse :
    ∃ (hash : Hasher) (b : Bundle), codec.ofJson sparse = .ok b ∧
      sparse.member? "results" = none ∧ b.toJson.member? "results" = some .null ∧
      b.toJson.member? "hash_chain_root" = some (.str (String.ofList (List.replicate 64 'a'))) ∧
      b.toJson = filled sparse ∧ filled b.toJson = b.toJson ∧
      (Verification.ofBytes hash b.toJson.canonical.toUTF8).hashValid = b.verifyRoot hash := by
  let hash : Hasher := fun _ => ⟨List.replicate 32 0, rfl⟩
  have hsparse : InObjects sparse := inObjects_of_executions rfl (by decide) rfl
  have hfull : InObjects ofSparse.toJson := inObjects_of_executions rfl (by decide) rfl
  obtain ⟨hfilled, -⟩ := toJson_eq_filled hash sparse ofSparse ordered_sparse hsparse ofJson_sparse
  obtain ⟨hform, hverdict⟩ := toJson_eq_filled hash ofSparse.toJson ofSparse
    ofSparse.ordered_toJson hfull (reads_codec ofSparse)
  exact ⟨hash, ofSparse, ofJson_sparse, rfl, rfl, rfl, hfilled, hform.symm,
    hverdict (by decide) hform.symm⟩

end Bundle

end Custody
