import Custody.Outcome

/-!
# Authorities

An authority decides on calls and performs them.  Nothing is known about how it decides: it is a
process with a state of its own, and may answer the same call differently each time.  It may also
raise an error.  A caller that fails closed takes an error as a refusal.
-/

namespace Custody

/-- An authority did not answer with an outcome. -/
inductive AuthorityError where
  /-- It could not be reached. -/
  | unavailable (text : String)
  /-- The capability raised an error while it was performed. -/
  | raised (text : String)
  /-- The answer is no outcome. -/
  | malformedOutcome (text : String)
  deriving DecidableEq, Repr

namespace AuthorityError

def message : AuthorityError → String
  | .unavailable text => "authority unavailable: " ++ text
  | .raised text => "capability raised: " ++ text
  | .malformedOutcome text => "malformed outcome: " ++ text

end AuthorityError

/-- A request to perform a capability in a context. -/
@[ext] structure Call where
  capability : String
  context : Table

/-- What an authority says to a call: an outcome, or an error in its place. -/
abbrev Answer := Except AuthorityError Outcome

/-- An authority with states of type `σ`. -/
abbrev Authority (σ : Type) := Call → σ → Answer × σ

namespace Refusal

def ofError (now : Int64) (error : AuthorityError) : Refusal :=
  (plain Reason.executionError now).withText "error" error.message

end Refusal

namespace Outcome

def ofAnswer (now : Int64) : Answer → Outcome
  | .ok outcome => outcome
  | .error error => .refused (.ofError now error)

def membersError (ok : Bool) : AuthorityError :=
  if ok then .malformedOutcome "success requires data and snapshot_id and forbids non_action"
  else .malformedOutcome "refusal requires non_action and forbids data and snapshot_id"

def fields : Fields [Bool, Option Table, Option String, Option Refusal] :=
  .cons (.required "is_success" .flag)
    (.cons (.omittable "data" .table)
      (.cons (.omittable "snapshot_id" .text)
        (.cons (.omittable "non_action" Refusal.codec) .nil)))

def codec : Codec Outcome :=
  (Codec.record "RawOutcome" true fields).refine
    (fun (ok, data, snapshotId, refusal, ()) =>
      match ofMembers? ok data snapshotId refusal with
      | some outcome => .ok outcome
      | none => .error (membersError ok).message)
    (fun o => (o.isSuccess, o.data?, o.snapshotId?, o.refusal?, ()))

end Outcome

namespace Authority

variable {σ : Type}

/-- Calls an authority and takes an error as a refusal at the time `now`. -/
def callFailClosed (authority : Authority σ) (now : Int64) (call : Call) (s : σ) : Outcome × σ :=
  let (answer, s) := authority call s
  (.ofAnswer now answer, s)

end Authority

end Custody
