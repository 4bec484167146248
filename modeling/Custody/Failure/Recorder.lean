import Custody.Authority.Basic
import Custody.Failure.History
import Custody.Identifier

/-!
# Recording failures

A recorder stands between callers and an authority and keeps an event for each call that failed,
until it is cleared.  Successes pass through it and leave no trace.  Its events are in order
whatever the clock does: a call's event is never given an earlier time than the event before it.
-/

namespace Custody.Failure

/-- The recorded events, oldest first. -/
structure Recorder where
  events : List Event
  inOrder : InOrder events

/-- What came of a recorded call. -/
inductive Tracked where
  | success (data : Table) (snapshotId : String)
  /-- The event was recorded; there is no refusal if the authority raised an error. -/
  | failure (event : Event) (refusal : Option Refusal)

namespace Tracked

def isSuccess : Tracked → Bool
  | .success _ _ => true
  | .failure _ _ => false

def event? : Tracked → Option Event
  | .success _ _ => none
  | .failure event _ => some event

end Tracked

/-- The text under a key of a context: a text as it is, any other value as it is written, and
nothing for null. -/
def contextText? (context : Table) (key : String) : Option String :=
  match context.get? key with
  | none => none
  | some .null => none
  | some (.str s) => some s
  | some value => some value.compact

/-- Where a context names the principal. -/
def principalKey : String := "principal_id"

/-- Where a context names the grant. -/
def grantKey : String := "grant_id"

/-- Where a context names the authority's snapshot. -/
def snapshotKey : String := "snapshot_id"

def Bearer.ofContext (context : Table) : Bearer :=
  ⟨contextText? context principalKey, contextText? context grantKey⟩

/-- What set off a failure, in words that are never blank. -/
structure Cause where
  kind : Kind
  condition : String
  refusal : Option Refusal
  condition_content : Text.isBlank condition = false

namespace Cause

/-- A text that begins with words is not blank. -/
theorem isBlank_append_of_left {s : String} (t : String) (h : Text.isBlank s = false) :
    Text.isBlank (s ++ t) = false := by
  rw [Text.isBlank_append, h, Bool.false_and]

def ofRefusal (refusal : Refusal) : Cause where
  kind := .ofReason refusal.reason
  condition := "Non-Action reason: " ++ refusal.reason
  refusal := some refusal
  condition_content := isBlank_append_of_left _ (by decide)

def ofError (error : AuthorityError) : Cause where
  kind := .executionError
  condition := error.message
  refusal := none
  condition_content := by
    cases error with
    | unavailable text => exact isBlank_append_of_left text (by decide)
    | raised text => exact isBlank_append_of_left text (by decide)
    | malformedOutcome text => exact isBlank_append_of_left text (by decide)

end Cause

namespace Recorder

def empty : Recorder := ⟨[], List.Pairwise.nil⟩

instance : Inhabited Recorder := ⟨empty⟩

def size (r : Recorder) : Nat := r.events.length

def isEmpty (r : Recorder) : Bool := r.events.isEmpty

def lastTime? (r : Recorder) : Option Int64 := r.events.getLast?.map Event.timestamp

/-- The recorder with one more event that is not older than the last. -/
def push (r : Recorder) (e : Event) (h : ∀ last ∈ r.lastTime?, last ≤ e.timestamp) : Recorder where
  events := r.events ++ [e]
  inOrder := by
    refine List.pairwise_append.2 ⟨r.inOrder, List.pairwise_singleton .., fun a ha b hb => ?_⟩
    obtain rfl := List.mem_singleton.1 hb
    have hne : r.events ≠ [] := List.ne_nil_of_mem ha
    have hlast := h (r.events.getLast hne).timestamp (by
      simp [lastTime?, List.getLast?_eq_some_getLast hne])
    refine Int64.le_trans ?_ hlast
    obtain ⟨front, hfront⟩ : ∃ front, r.events = front ++ [r.events.getLast hne] :=
      ⟨_, (List.dropLast_concat_getLast hne).symm⟩
    have horder : InOrder r.events := r.inOrder
    rw [hfront] at horder ha
    rcases List.mem_append.1 ha with ha | ha
    · exact (List.pairwise_append.1 horder).2.2 a ha _ (List.mem_singleton.2 rfl)
    · rw [List.mem_singleton.1 ha]
      exact Int64.le_refl _

def later (a b : Int64) : Int64 := if a ≤ b then b else a

theorem left_le_later (a b : Int64) : a ≤ later a b := by
  unfold later
  split
  · assumption
  · exact Int64.le_refl a

theorem right_le_later (a b : Int64) : b ≤ later a b := by
  unfold later
  split
  · exact Int64.le_refl b
  · next h => exact Int64.le_of_lt (Int64.not_le.1 h)

/-- The time for an event that happens when the clock shows `now`: not before the last event, and
not before the first millisecond. -/
def stamp (r : Recorder) (now : Int64) : Int64 :=
  later ((r.lastTime?.map (later now)).getD now) 1

theorem stamp_pos (r : Recorder) (now : Int64) : 0 < r.stamp now :=
  Int64.lt_of_lt_of_le (by decide : (0 : Int64) < 1) (right_le_later _ 1)

theorem le_stamp {r : Recorder} {last : Int64} (now : Int64) (h : last ∈ r.lastTime?) :
    last ≤ r.stamp now := by
  have h : r.lastTime? = some last := h
  simp only [stamp, h, Option.map_some, Option.getD_some]
  exact Int64.le_trans (right_le_later now last) (left_le_later _ 1)

def event (r : Recorder) (id : Identifier) (now : Int64) (cause : Cause) (context : Table)
    (phase : Phase) (stepId : Option String) : Event where
  id := id.text
  phase := phase
  kind := cause.kind
  condition := cause.condition
  timestamp := r.stamp now
  stepId := stepId
  violatedInvariant := none
  bearer := if (Bearer.ofContext context).isEmpty then none else some (.ofContext context)
  snapshotId := contextText? context snapshotKey
  id_content := id.content
  condition_content := cause.condition_content
  timestamp_pos := r.stamp_pos now

def fail (r : Recorder) (id : Identifier) (now : Int64) (cause : Cause) (context : Table)
    (phase : Phase) (stepId : Option String) : Tracked × Recorder :=
  let event := r.event id now cause context phase stepId
  (.failure event cause.refusal, r.push event fun _ h => le_stamp now h)

/-- Makes a call and records a refusal or an error.  `id` is a name for the event, and `now` the
time when the answer comes in. -/
def track {σ : Type} (r : Recorder) (authority : Authority σ) (id : Identifier) (now : Int64)
    (call : Call) (phase : Phase) (stepId : Option String) (s : σ) : (Tracked × Recorder) × σ :=
  let (answer, s) := authority call s
  (match answer with
   | .ok (.success data snapshotId) => (.success data snapshotId, r)
   | .ok (.refused refusal) => r.fail id now (.ofRefusal refusal) call.context phase stepId
   | .error error => r.fail id now (.ofError error) call.context phase stepId, s)

/-- Records an event that was made elsewhere, unless it is older than the last. -/
def record (r : Recorder) (e : Event) : Except Error Recorder :=
  match h : r.lastTime? with
  | none => .ok (r.push e (by simp [h]))
  | some last =>
    if hlt : e.timestamp < last then .error (.outOfOrder r.size e.timestamp last)
    else .ok (r.push e (by simpa [h] using Int64.not_lt.1 hlt))

/-- The recorded events as a history; `fresh` is its name if it is given none. -/
def history (r : Recorder) (fresh : Identifier) (id : Option String) : Except Error History :=
  if r.isEmpty then .error .nothingRecorded else History.make (id.getD fresh.text) r.events

def verdict (r : Recorder) (id : Option String) : Except Error Verdict :=
  if r.isEmpty then .error .nothingRecorded else Verdict.make id r.events true

def clear (_ : Recorder) : Recorder := empty

def describe (r : Recorder) : String := s!"FailureGuard \x7b failures: {r.size}, .. \x7d"

end Recorder

end Custody.Failure
