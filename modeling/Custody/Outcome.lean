import Custody.Codec.Record

/-!
# Outcomes

An authority that is asked to perform a capability either performs it or refuses.  A refusal names a
reason; it is data, not an error.  An outcome is written flat, as a flag with the members that
belong to it, and no other combination of members can be read.
-/

namespace Custody

/-! ## Reasons

The well-known reasons for a refusal.  Other reasons may occur. -/

namespace Reason

/-- The reason given for a call that raised an error instead of returning an outcome. -/
def executionError : String := "EXECUTION_ERROR"

def missingConfidence : String := "MISSING_CONFIDENCE"
def invalidConfidence : String := "INVALID_CONFIDENCE"
def missingPrincipal : String := "MISSING_PRINCIPAL"
def unknownPrincipal : String := "UNKNOWN_PRINCIPAL"
def noGrant : String := "NO_GRANT"
def expiredGrant : String := "EXPIRED_GRANT"
def revokedGrant : String := "REVOKED_GRANT"
def exhaustedGrant : String := "EXHAUSTED_GRANT"
def unknownCapability : String := "UNKNOWN_CAPABILITY"
def invalidGrantScope : String := "INVALID_GRANT_SCOPE"
def snapshotHashMismatch : String := "SNAPSHOT_HASH_MISMATCH"
def snapshotReuseAttempt : String := "SNAPSHOT_REUSE_ATTEMPT"
def toctouViolation : String := "TOCTOU_VIOLATION"
def compositionStepFailure : String := "COMPOSITION_STEP_FAILURE"

def all : List String :=
  [executionError, missingConfidence, invalidConfidence, missingPrincipal, unknownPrincipal,
    noGrant, expiredGrant, revokedGrant, exhaustedGrant, unknownCapability, invalidGrantScope,
    snapshotHashMismatch, snapshotReuseAttempt, toctouViolation, compositionStepFailure]

end Reason

/-! ## Refusals and outcomes -/

/-- A capability was not performed. -/
@[ext] structure Refusal where
  reason : String
  details : Table
  /-- Milliseconds since the start of 1970. -/
  timestamp : Int64

namespace Refusal

def plain (reason : String) (timestamp : Int64) : Refusal := ⟨reason, .empty, timestamp⟩

def withDetail (r : Refusal) (key : String) (value : Json) (h : value.Ordered) : Refusal :=
  { r with details := r.details.insert key value h }

def withText (r : Refusal) (key text : String) : Refusal :=
  r.withDetail key (.str text) (.str text)

def toJson (r : Refusal) : Json :=
  .obj [("details", r.details.toJson), ("reason", .str r.reason),
    ("timestamp", .ofInt64 r.timestamp)]

def fields : Fields [String, Table, Int64] :=
  .cons (.required "reason" .text)
    (.cons (.withDefault "details" .table .empty)
      (.cons (.required "timestamp" .int64) .nil))

def codec : Codec Refusal :=
  (Codec.record "NonAction" true fields).iso
    (fun (reason, details, timestamp, ()) => ⟨reason, details, timestamp⟩)
    (fun r => (r.reason, r.details, r.timestamp, ()))

end Refusal

/-- What came of a call. -/
inductive Outcome where
  /-- The capability was performed, on the ground of the authority's snapshot of this name. -/
  | success (data : Table) (snapshotId : String)
  | refused (refusal : Refusal)

namespace Outcome

def isSuccess : Outcome → Bool
  | .success _ _ => true
  | .refused _ => false

def data? : Outcome → Option Table
  | .success data _ => some data
  | .refused _ => none

def snapshotId? : Outcome → Option String
  | .success _ snapshotId => some snapshotId
  | .refused _ => none

def refusal? : Outcome → Option Refusal
  | .success _ _ => none
  | .refused refusal => some refusal

/-- The outcome that a flag and three optional members describe.  A success has data and a snapshot
and nothing else, a refusal only itself. -/
def ofMembers? : Bool → Option Table → Option String → Option Refusal → Option Outcome
  | true, some data, some snapshotId, none => some (.success data snapshotId)
  | false, none, none, some refusal => some (.refused refusal)
  | _, _, _, _ => none

@[simp] theorem ofMembers?_self (o : Outcome) :
    ofMembers? o.isSuccess o.data? o.snapshotId? o.refusal? = some o := by
  cases o <;> rfl

/-- Only the members of an outcome describe it. -/
theorem ofMembers?_eq_some_iff {ok : Bool} {data : Option Table} {snapshotId : Option String}
    {refusal : Option Refusal} {o : Outcome} :
    ofMembers? ok data snapshotId refusal = some o ↔
      ok = o.isSuccess ∧ data = o.data? ∧ snapshotId = o.snapshotId? ∧ refusal = o.refusal? := by
  constructor
  · intro h
    unfold ofMembers? at h
    split at h <;> cases h <;> exact ⟨rfl, rfl, rfl, rfl⟩
  · rintro ⟨rfl, rfl, rfl, rfl⟩
    exact ofMembers?_self o

end Outcome

end Custody
