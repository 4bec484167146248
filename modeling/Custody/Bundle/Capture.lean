import Custody.Authority.Basic
import Custody.Bundle.Archive
import Custody.Identifier
import Custody.Settings.Basic

/-!
# Capturing evidence

A call made under capture leaves one sealed bundle in an archive, whatever came of it.  The
circumstances are put on record before the call, and the bundle is sealed when the call is over.
Names and settings that no bundle could be made of are refused before the authority is called.
-/

namespace Custody

/-- What the clock shows in the course of one captured call. -/
structure Readings where
  /-- Before the call. -/
  before : Int64
  /-- When the authority raises an error. -/
  raised : Int64
  /-- After the call. -/
  after : Int64

/-- A call to be made under capture. -/
structure Request where
  call : Call
  grant : Option Table
  stepId : Option String

namespace Request

def error? (r : Request) (settings : CaptureSettings) : Option EvidenceError :=
  (EvidenceError.ofText? "capability_name" r.call.capability).or settings.error?

/-- When the call is over: not before it began, even if the clock was set back. -/
def executedAt (readings : Readings) : Int64 :=
  if readings.before ≤ readings.after then readings.after else readings.before

def parts (r : Request) (hash : Hasher) (settings : CaptureSettings) (readings : Readings)
    (id : Identifier) (outcome : Outcome) : Parts :=
  let context := Snapshot.Context.capture hash r.call.context readings.before
  { id := id.text
    createdAt := executedAt readings
    context := context
    intent := ⟨r.call.capability, r.stepId, readings.before⟩
    principal := .capture r.call.context settings.principalKey readings.before
    grant := r.grant.map fun data =>
      .capture data r.call.context settings.grantKey readings.before
    executions :=
      [⟨r.stepId, r.call.capability, context.digest, executedAt readings, outcome⟩]
    authorityVersion := settings.authorityVersion
    failure := outcome.refusal?
    results :=
      match outcome with
      | .success data snapshotId => some ⟨data, snapshotId⟩
      | .refused _ => none }

variable {σ : Type}

/-- Makes a call, seals a bundle and stores it.  `id` is a name for the bundle. -/
def capture (r : Request) (hash : Hasher) (settings : CaptureSettings) (authority : Authority σ)
    (readings : Readings) (id : Identifier) (archive : Archive) (s : σ) :
    (Except EvidenceError Bundle × Archive) × σ :=
  match r.error? settings with
  | some error => ((.error error, archive), s)
  | none =>
    let (outcome, s) := authority.callFailClosed readings.raised r.call s
    match Bundle.ofParts hash (r.parts hash settings readings id outcome) with
    | .error error => ((.error error, archive), s)
    | .ok bundle => ((.ok bundle, archive.store bundle), s)

end Request

/-- A short description of capturing with these settings into an archive. -/
def CaptureSettings.describeWith (s : CaptureSettings) (archive : Archive) : String :=
  "EvidenceGuard \x7b config: " ++ s.describe ++ s!", bundles: {archive.size}, .. \x7d"

end Custody
