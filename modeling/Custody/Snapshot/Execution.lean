import Custody.Snapshot.Circumstances

/-!
# Executions and results

A snapshot of an execution tells what was called, with which context, when, and what came of it.
The results of a success are also kept apart from it.
-/

namespace Custody

namespace Json

def ofTable? : Option Table → Json
  | some t => t.toJson
  | none => .null

def ofRefusal? : Option Refusal → Json
  | some r => r.toJson
  | none => .null

end Json

namespace Snapshot

/-- One execution and its outcome. -/
@[ext] structure Execution where
  stepId : Option String
  capability : String
  /-- The digest of the context that the capability was called with. -/
  contextDigest : Digest
  executedAt : Int64
  outcome : Outcome

namespace Execution

def toJson (s : Execution) : Json :=
  .obj [("capability_name", .str s.capability), ("context_hash", .str s.contextDigest.hex),
    ("executed_at", .ofInt64 s.executedAt), ("is_success", .bool s.outcome.isSuccess),
    ("non_action", .ofRefusal? s.outcome.refusal?), ("result_data", .ofTable? s.outcome.data?),
    ("snapshot_id", .ofText? s.outcome.snapshotId?), ("step_id", .ofText? s.stepId)]

def fields : Fields [Option String, String, Digest, Option String, Int64, Bool, Option Table,
    Option Refusal] :=
  .cons (.nullable "step_id" .text)
    (.cons (.required "capability_name" .text)
      (.cons (.required "context_hash" Digest.codec)
        (.cons (.nullable "snapshot_id" .text)
          (.cons (.required "executed_at" .int64)
            (.cons (.required "is_success" .flag)
              (.cons (.nullable "result_data" .table)
                (.cons (.nullable "non_action" Refusal.codec) .nil)))))))

/-- Why a flag and three optional members describe no outcome of an execution. -/
def membersError (ok : Bool) : EvidenceError :=
  if ok then
    .inconsistentExecution "success requires result_data and snapshot_id and no non_action"
  else .inconsistentExecution "refusal requires non_action and no result_data or snapshot_id"

def codec : Codec Execution :=
  (Codec.record "RawExecutionSnapshot" true fields).refine
    (fun (stepId, capability, contextDigest, snapshotId, executedAt, ok, data, refusal, ()) =>
      match Outcome.ofMembers? ok data snapshotId refusal with
      | some outcome => .ok ⟨stepId, capability, contextDigest, executedAt, outcome⟩
      | none => .error (membersError ok).message)
    (fun s => (s.stepId, s.capability, s.contextDigest, s.outcome.snapshotId?, s.executedAt,
      s.outcome.isSuccess, s.outcome.data?, s.outcome.refusal?, ()))

def error? (s : Execution) : Option EvidenceError :=
  (EvidenceError.ofText? "execution_snapshot.capability_name" s.capability).or
    (EvidenceError.ofTime? "execution_snapshot.executed_at" s.executedAt)

end Execution

end Snapshot

/-- What a success gave. -/
@[ext] structure Results where
  data : Table
  snapshotId : String

namespace Results

def toJson (r : Results) : Json :=
  .obj [("data", r.data.toJson), ("snapshot_id", .str r.snapshotId)]

def fields : Fields [Table, String] :=
  .cons (.required "data" .table) (.cons (.required "snapshot_id" .text) .nil)

def codec : Codec Results :=
  (Codec.record "BundleResults" true fields).iso
    (fun (data, snapshotId, ()) => ⟨data, snapshotId⟩)
    (fun r => (r.data, r.snapshotId, ()))

end Results

end Custody
