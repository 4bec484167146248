import Custody.Failure.Kind
import Custody.Text.Blank

/-!
# Failure events

An event is the record of one failure.  It has an identifier, the condition that set it off and a
positive time, and it may name the step, the broken invariant, the authority and the snapshot that
it had to do with.  There is no place in it for an explanation.
-/

namespace Custody.Failure

/-- Why something is no event, no history or no verdict, or cannot be recorded. -/
inductive Error where
  | emptyEventId
  | emptyCondition
  | invalidTimestamp (timestamp : Int64)
  | emptyHistoryId
  | noFailures
  /-- The event at an index is older than the one before it. -/
  | outOfOrder (index : Nat) (timestamp previous : Int64)
  | notTerminal
  | nothingRecorded
  | unknownKind (name : String)
  deriving DecidableEq, Repr

namespace Error

def message : Error → String
  | .emptyEventId => "failure_id must be non-empty"
  | .emptyCondition => "triggering_condition must be non-empty"
  | .invalidTimestamp timestamp => s!"timestamp must be positive, got {timestamp}"
  | .emptyHistoryId => "composition_id must be non-empty"
  | .noFailures => "failures must be non-empty"
  | .outOfOrder index timestamp previous =>
    s!"failure {index} at {timestamp} precedes previous failure at {previous}"
  | .notTerminal => "failure result must be terminal"
  | .nothingRecorded => "no failures recorded"
  | .unknownKind name => s!"unknown failure type: {name}"

end Error

/-- For whom, and on what ground, a call was made. -/
structure Bearer where
  principalId : Option String
  grantId : Option String
  deriving DecidableEq

namespace Bearer

def isEmpty (b : Bearer) : Bool := b.principalId.isNone && b.grantId.isNone

def fields : Fields [Option String, Option String] :=
  .cons (.nullable "principal_id" .text) (.cons (.nullable "grant_id" .text) .nil)

def codec : Codec Bearer :=
  (Codec.record "AuthorityContext" true fields).iso
    (fun (principalId, grantId, ()) => ⟨principalId, grantId⟩)
    (fun b => (b.principalId, b.grantId, ()))

end Bearer

/-- The record of one failure. -/
structure Event where
  id : String
  phase : Phase
  kind : Kind
  condition : String
  /-- Milliseconds since the start of 1970. -/
  timestamp : Int64
  stepId : Option String
  violatedInvariant : Option String
  bearer : Option Bearer
  snapshotId : Option String
  id_content : Text.isBlank id = false
  condition_content : Text.isBlank condition = false
  timestamp_pos : 0 < timestamp
  deriving DecidableEq

namespace Event

/-- An event with nothing but what every event has.  The identifier is checked first, then the
condition, then the time. -/
def make (id : String) (phase : Phase) (kind : Kind) (condition : String) (timestamp : Int64) :
    Except Error Event :=
  if hid : Text.isBlank id then .error .emptyEventId
  else if hcondition : Text.isBlank condition then .error .emptyCondition
  else if htimestamp : 0 < timestamp then
    .ok ⟨id, phase, kind, condition, timestamp, none, none, none, none, Text.isBlank_eq_false hid,
      Text.isBlank_eq_false hcondition, htimestamp⟩
  else .error (.invalidTimestamp timestamp)

def withStepId (e : Event) (stepId : String) : Event := { e with stepId := some stepId }

def withViolatedInvariant (e : Event) (invariant : String) : Event :=
  { e with violatedInvariant := some invariant }

/-- The event with the bearer of the call; one of whom nothing is known is dropped. -/
def withBearer (e : Event) (bearer : Bearer) : Event :=
  { e with bearer := if bearer.isEmpty then none else some bearer }

def withSnapshotId (e : Event) (snapshotId : String) : Event :=
  { e with snapshotId := some snapshotId }

def fields : Fields [String, Phase, Kind, String, Int64, Option String, Option String,
    Option Bearer, Option String] :=
  .cons (.required "failure_id" .text)
    (.cons (.required "phase" Phase.codec)
      (.cons (.required "failure_type" Kind.codec)
        (.cons (.required "triggering_condition" .text)
          (.cons (.required "timestamp" .int64)
            (.cons (.nullableWithDefault "step_id" .text)
              (.cons (.nullableWithDefault "violated_invariant" .text)
                (.cons (.nullableWithDefault "authority_context" Bearer.codec)
                  (.cons (.nullableWithDefault "snapshot_id" .text) .nil))))))))

def codec : Codec Event :=
  (Codec.record "RawFailureEvent" true fields).refine
    (fun (id, phase, kind, condition, timestamp, stepId, violatedInvariant, bearer, snapshotId,
        ()) =>
      match make id phase kind condition timestamp with
      | .error error => .error error.message
      | .ok event => .ok { event with stepId, violatedInvariant, bearer, snapshotId })
    (fun e => (e.id, e.phase, e.kind, e.condition, e.timestamp, e.stepId, e.violatedInvariant,
      e.bearer, e.snapshotId, ()))

end Event

end Custody.Failure
