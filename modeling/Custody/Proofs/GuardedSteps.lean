import Custody.Proofs.CapturedCalls
import Custody.Proofs.FailureRecord
import Custody.Proofs.PlanRun

/-!
# Three ways to perform a plan

The steps of a plan can be performed by a run, by a recorder of failures, or under capture.  The
three deal with an answer independently of each other, and the record of each is all that is left of
it.  If they begin with the same authority, they make the same calls and stop after the same step,
and the report, the events and the bundles do not contradict each other.
-/

namespace Custody

open Failure (Tracked Recorder Event Phase)

/-! ## Performing steps by a guard -/

/-- A way of making the call of a step.  It keeps books in a `ρ` and says by a `β` what came of the
call; the number is the position of the step. -/
structure Guard (ρ β : Type) where
  perform : ∀ τ : Type, Authority τ → Nat → Step → ρ → τ → (β × ρ) × τ
  succeeded : β → Bool

namespace Guard

variable {ρ β σ : Type}

/-- Performs steps in order until one does not succeed. -/
def performAll (g : Guard ρ β) (authority : Authority σ) :
    Nat → List Step → ρ → σ → (List β × ρ) × σ
  | _, [], books, s => (([], books), s)
  | position, step :: rest, books, s =>
    let ((result, books), s) := g.perform σ authority position step books s
    if g.succeeded result then
      let ((results, books), s) := performAll g authority (position + 1) rest books s
      ((result :: results, books), s)
    else (([result], books), s)

variable {g : Guard ρ β} {authority : Authority σ} {position : Nat} {step : Step}
  {rest : List Step} {first second third : ρ} {s t u : σ} {result : β} {results : List β}
  {exchanges others : List Exchange}

theorem performAll_succeeded (hsucceeded : g.succeeded result = true)
    (hcall : g.perform σ authority position step first s = ((result, second), t))
    (hrest : g.performAll authority (position + 1) rest second t = ((results, third), u)) :
    g.performAll authority position (step :: rest) first s = ((result :: results, third), u) := by
  simp only [performAll, hcall, hsucceeded, hrest, if_true]

theorem performAll_failed (rest : List Step) (hfailed : g.succeeded result = false)
    (hcall : g.perform σ authority position step first s = ((result, second), t)) :
    g.performAll authority position (step :: rest) first s = (([result], second), t) := by
  simp only [performAll, hcall, hfailed, Bool.false_eq_true, if_false]

/-- No step, no call. -/
theorem asks_nil (g : Guard ρ β) (authority : Authority σ) (position : Nat) (books : ρ) (s : σ) :
    Asks (fun _ authority => g.performAll authority position [] books) authority s ([], books) []
      s := by
  refine ⟨rfl, ?_⟩
  intro past
  rw [List.append_nil]
  rfl

/-- The calls of a step that succeeds are followed by those of the others. -/
theorem asks_succeeded (hsucceeded : g.succeeded result = true)
    (hcall : Asks (fun τ authority => g.perform τ authority position step first) authority s
      (result, second) exchanges t)
    (hrest : Asks (fun _ authority => g.performAll authority (position + 1) rest second) authority
      t (results, third) others u) :
    Asks (fun _ authority => g.performAll authority position (step :: rest) first) authority s
      (result :: results, third) (exchanges ++ others) u := by
  refine ⟨performAll_succeeded hsucceeded hcall.1 hrest.1, ?_⟩
  intro past
  rw [← List.append_assoc]
  exact performAll_succeeded hsucceeded (hcall.2 past) (hrest.2 (past ++ exchanges))

/-- No call follows those of a step that fails. -/
theorem asks_failed (rest : List Step) (hfailed : g.succeeded result = false)
    (hcall : Asks (fun τ authority => g.perform τ authority position step first) authority s
      (result, second) exchanges t) :
    Asks (fun _ authority => g.performAll authority position (step :: rest) first) authority s
      ([result], second) exchanges t := by
  refine ⟨performAll_failed rest hfailed hcall.1, ?_⟩
  intro past
  exact performAll_failed rest hfailed (hcall.2 past)

end Guard

/-- What is made up for a step: names for its event and its bundle, what the clock shows to the
recorder and under capture, and what else these are told. -/
structure Occasion where
  eventId : Identifier
  answered : Int64
  phase : Phase
  bundleId : Identifier
  readings : Readings
  grant : Option Table

/-- Steps are performed by a recorder. -/
def Guard.recording (occasions : Nat → Occasion) : Guard Recorder Tracked where
  perform _ authority position step recorder s :=
    let occasion := occasions position
    recorder.track authority occasion.eventId occasion.answered step.call occasion.phase
      (some step.id) s
  succeeded := Tracked.isSuccess

/-- Steps are performed under capture. -/
def Guard.capturing (hash : Hasher) (settings : CaptureSettings) (occasions : Nat → Occasion) :
    Guard Archive (Except EvidenceError Bundle) where
  perform _ authority position step archive s :=
    let occasion := occasions position
    Request.capture ⟨step.call, occasion.grant, some step.id⟩ hash settings authority
      occasion.readings occasion.bundleId archive s
  succeeded
    | .ok b => b.isSuccess
    | .error _ => false

/-! ## What is put on record of one answer -/

/-- The results that a bundle of this outcome holds. -/
def Outcome.results? : Outcome → Option Results
  | .success data snapshotId => some ⟨data, snapshotId⟩
  | .refused _ => none

theorem Outcome.isSuccess_eq_true_iff {o : Outcome} :
    o.isSuccess = true ↔ ∃ data snapshotId, o = .success data snapshotId := by
  cases o with
  | success data snapshotId => exact ⟨fun _ => ⟨data, snapshotId, rfl⟩, fun _ => rfl⟩
  | refused refusal =>
    constructor
    · intro h
      cases h
    · rintro ⟨_, _, h⟩
      cases h

/-- A bundle of one execution, that of a step, with this outcome. -/
structure Bundle.Shows (b : Bundle) (step : Step) (outcome : Outcome) : Prop where
  execution : ∃ e, b.parts.executions = [e] ∧ e.capability = step.capability ∧
    e.stepId = some step.id ∧ e.outcome = outcome
  results : b.parts.results = outcome.results?
  failure : b.parts.failure = outcome.refusal?

/-- An answer, and what a run, a recorder and a bundle say of it.  A refusal that is made of an
error tells the time too, which is not the same for the run and the bundle. -/
inductive Agree (step : Step) : Answer → Outcome → Tracked → Bundle → Prop where
  | success {data : Table} {snapshotId : String} {b : Bundle}
      (bundle : b.Shows step (.success data snapshotId)) :
      Agree step (.ok (.success data snapshotId)) (.success data snapshotId)
        (.success data snapshotId) b
  | refused {refusal : Refusal} {event : Event} {b : Bundle}
      (stepId : event.stepId = some step.id)
      (kind : event.kind = .ofReason refusal.reason)
      (bundle : b.Shows step (.refused refusal)) :
      Agree step (.ok (.refused refusal)) (.refused refusal) (.failure event (some refusal)) b
  | raised {error : AuthorityError} {reported captured : Refusal} {event : Event} {b : Bundle}
      (reasons : reported.reason = "EXECUTION_ERROR" ∧ captured.reason = "EXECUTION_ERROR")
      (same : reported.details = captured.details)
      (details : reported.details.toJson = .obj [("error", .str error.message)])
      (stepId : event.stepId = some step.id)
      (kind : event.kind = .executionError)
      (condition : event.condition = error.message)
      (bundle : b.Shows step (.refused captured)) :
      Agree step (.error error) (.refused reported) (.failure event none) b

theorem Request.shows_of_parts {hash : Hasher} {settings : CaptureSettings} {readings : Readings}
    {id : Identifier} {step : Step} {grant : Option Table} {outcome : Outcome} {b : Bundle}
    (h : b.parts = Request.parts ⟨step.call, grant, some step.id⟩ hash settings readings id
      outcome) : b.Shows step outcome where
  execution := by
    rw [h]
    exact ⟨_, rfl, rfl, rfl, rfl⟩
  results := by
    rw [h]
    cases outcome <;> rfl
  failure := by
    rw [h]
    rfl

/-- The answer to the call of a step is reported, recorded and captured alike. -/
theorem agree_of_shows (r : Recorder) (step : Step) (phase : Phase) (answer : Answer)
    (reported answered captured : Int64) (id : Identifier) {b : Bundle}
    (hb : b.Shows step (.ofAnswer captured answer)) :
    Agree step answer (.ofAnswer reported answer)
      (r.settle ⟨step.call, phase, some step.id, answer⟩ id answered).1 b := by
  cases answer with
  | error error =>
    have same : (Refusal.ofError reported error).details =
        (Refusal.ofError captured error).details := rfl
    exact .raised ⟨rfl, rfl⟩ same rfl rfl rfl rfl hb
  | ok outcome =>
    cases outcome with
    | success data snapshotId => exact .success hb
    | refused refusal => exact .refused rfl rfl hb

namespace Agree

variable {step : Step} {answer : Answer} {outcome : Outcome} {tracked : Tracked} {b : Bundle}

theorem isSuccess_tracked (h : Agree step answer outcome tracked b) :
    tracked.isSuccess = outcome.isSuccess := by
  cases h <;> rfl

theorem isSuccess_bundle (h : Agree step answer outcome tracked b) :
    b.isSuccess = outcome.isSuccess := by
  cases h with
  | success bundle | refused _ _ bundle | raised _ _ _ _ _ _ bundle =>
    rw [Bundle.isSuccess, bundle.results]
    rfl

theorem event?_eq_none {data : Table} {snapshotId : String}
    (h : Agree step answer (.success data snapshotId) tracked b) : tracked.event? = none := by
  cases h
  rfl

/-- A failed step leaves an event that names it, of a kind that tells a refusal from an error. -/
theorem exists_event {refusal : Refusal} (h : Agree step answer (.refused refusal) tracked b) :
    ∃ event, tracked.event? = some event ∧ event.stepId = some step.id ∧
      ((answer = .ok (.refused refusal) ∧ event.kind = .ofReason refusal.reason) ∨
        ∃ error, answer = .error error ∧ event.kind = .executionError ∧
          event.condition = error.message) := by
  cases h with
  | refused stepId kind bundle => exact ⟨_, rfl, stepId, Or.inl ⟨rfl, kind⟩⟩
  | raised reasons same details stepId kind condition bundle =>
    exact ⟨_, rfl, stepId, Or.inr ⟨_, rfl, kind, condition⟩⟩

end Agree

/-- A step that was tried, with all that was put on record of it. -/
structure Account extends Trial where
  tracked : Tracked
  bundle : Bundle
  agree : Agree step answer outcome tracked bundle

namespace Account

def exchange (a : Account) : Exchange := a.toTrial.exchange

def report (a : Account) : StepReport := a.toTrial.report

/-- The event that was recorded, unless the step succeeded. -/
def event? (a : Account) : Option Event := a.tracked.event?

/-- What capturing the call gave back. -/
def captured (a : Account) : Except EvidenceError Bundle := .ok a.bundle

variable {a : Account}

theorem event?_eq_none {data : Table} {snapshotId : String}
    (h : a.outcome = .success data snapshotId) : a.event? = none := by
  have hagree := a.agree
  rw [h] at hagree
  exact hagree.event?_eq_none

theorem exists_event {refusal : Refusal} (h : a.outcome = .refused refusal) :
    ∃ event, a.event? = some event ∧ event.stepId = some a.step.id ∧
      ((a.answer = .ok (.refused refusal) ∧ event.kind = .ofReason refusal.reason) ∨
        ∃ error, a.answer = .error error ∧ event.kind = .executionError ∧
          event.condition = error.message) := by
  have hagree := a.agree
  rw [h] at hagree
  exact hagree.exists_event

/-- A last account adds the event that was recorded of it. -/
theorem events_singleton (a : Account) : [a].filterMap event? = a.event?.toList := by
  cases hevent : a.event? with
  | none =>
    rw [List.filterMap_cons_none hevent]
    rfl
  | some event =>
    rw [List.filterMap_cons_some hevent]
    rfl

end Account

/-! ## One step, then all -/

namespace Plan

variable {σ : Type} {settings : CaptureSettings} {occasions : Nat → Occasion}

/-- The call of a step that succeeds is followed by those of the others. -/
theorem asks_runSteps_success {authority : Authority σ} {clock : Nat → Int64} {position : Nat}
    {step : Step} {rest : List Step} {last data : Table} {snapshotId : String} {s t u : σ}
    {reports : List StepReport} {ending : Ending} {exchange : Exchange} {others : List Exchange}
    (hcall : Asks (fun _ authority => authority.callFailClosed (clock position) step.call) authority
      s (.success data snapshotId) [exchange] t)
    (hrest : Asks (fun _ authority => runSteps authority clock (position + 1) data rest) authority t
      (reports, ending) others u) :
    Asks (fun _ authority => runSteps authority clock position last (step :: rest)) authority s
      (⟨step.id, step.order, .success data snapshotId⟩ :: reports, ending) (exchange :: others)
      u := by
  refine ⟨runSteps_success hcall.1 hrest.1, ?_⟩
  intro past
  rw [List.append_cons]
  exact runSteps_success (hcall.2 past) (hrest.2 (past ++ [exchange]))

/-- No call follows that of a step that is refused. -/
theorem asks_runSteps_refused {authority : Authority σ} {clock : Nat → Int64} {position : Nat}
    {step : Step} {refusal : Refusal} {s t : σ} {exchange : Exchange} (rest : List Step)
    (last : Table)
    (hcall : Asks (fun _ authority => authority.callFailClosed (clock position) step.call) authority
      s (.refused refusal) [exchange] t) :
    Asks (fun _ authority => runSteps authority clock position last (step :: rest)) authority s
      ([⟨step.id, step.order, .refused refusal⟩], .halted refusal step.id) [exchange] t := by
  refine ⟨runSteps_refused rest last hcall.1, ?_⟩
  intro past
  exact runSteps_refused rest last (hcall.2 past)

/-- **One step** is performed alike by all three: its call is made once, and what they put on record
of the answer agrees. -/
theorem exists_account (hash : Hasher) (authority : Authority σ) (clock : Nat → Int64)
    (hsettings : settings.error? = none) (hclock : ∀ i, 0 < (occasions i).readings.before)
    (position : Nat) (step : Step) (r : Recorder) (archive : Archive) (s : σ) :
    ∃ (a : Account) (r' : Recorder) (t : σ), a.step = step ∧
      r'.events = r.events ++ a.event?.toList ∧
      Asks (fun _ authority => authority.callFailClosed (clock position) step.call) authority s
        a.outcome [a.exchange] t ∧
      Asks (fun τ authority => (Guard.recording occasions).perform τ authority position step r)
        authority s (a.tracked, r') [a.exchange] t ∧
      Asks (fun τ authority =>
          (Guard.capturing hash settings occasions).perform τ authority position step archive)
        authority s (a.captured, archive.store a.bundle) [a.exchange] t := by
  let occasion := occasions position
  let request : Request := ⟨step.call, occasion.grant, some step.id⟩
  let answer := (authority step.call s).1
  let t := (authority step.call s).2
  have hrequest : request.Acceptable settings := ⟨step.capability_content, hsettings⟩
  obtain ⟨b, hb, hparts⟩ := Bundle.exists_ofParts hash
    (Request.parts_error?_eq_none hash occasion.bundleId
      (.ofAnswer occasion.readings.raised answer) hrequest (hclock position))
  let settled := r.settle ⟨step.call, occasion.phase, some step.id, answer⟩ occasion.eventId
    occasion.answered
  let account : Account :=
    { step := step
      answer := answer
      outcome := .ofAnswer (clock position) answer
      recorded := answer.recordedAs_ofAnswer (clock position)
      tracked := settled.1
      bundle := b
      agree := agree_of_shows r step occasion.phase answer (clock position) occasion.answered
        occasion.readings.raised occasion.eventId (Request.shows_of_parts hparts) }
  refine ⟨account, settled.2, t, rfl, r.events_settle _ _ _, ⟨rfl, fun past => rfl⟩,
    ⟨rfl, fun past => rfl⟩, ?_, fun past => ?_⟩
  · exact Request.capture_eq hrequest rfl hb archive
  · exact Request.capture_eq hrequest
      (authority.callFailClosed_observed occasion.readings.raised step.call s past) hb archive

-- The induction is on the steps that are left.  The authority, the recorder and the archive are in
-- whatever state the steps before have left them in.
/-- **All steps** are performed alike by all three. -/
theorem exists_accounts (hash : Hasher) (authority : Authority σ) (clock : Nat → Int64)
    (hsettings : settings.error? = none) (hclock : ∀ i, 0 < (occasions i).readings.before)
    (steps : List Step) (position : Nat) (last : Table) (r : Recorder) (archive : Archive) (s : σ) :
    ∃ (accounts : List Account) (ending : Ending) (r' : Recorder) (t : σ),
      Tried steps last (accounts.map Account.toTrial) ending ∧
      r'.events = r.events ++ accounts.filterMap Account.event? ∧
      Asks (fun _ authority => runSteps authority clock position last steps) authority s
        (accounts.map Account.report, ending) (accounts.map Account.exchange) t ∧
      Asks (fun _ authority => (Guard.recording occasions).performAll authority position steps r)
        authority s (accounts.map Account.tracked, r') (accounts.map Account.exchange) t ∧
      Asks (fun _ authority =>
          (Guard.capturing hash settings occasions).performAll authority position steps archive)
        authority s
        (accounts.map Account.captured, archive.storeAll (accounts.map Account.bundle))
        (accounts.map Account.exchange) t := by
  induction steps generalizing position last r archive s with
  | nil =>
    refine ⟨[], .completed last, r, s, .nil last, (List.append_nil _).symm, ⟨rfl, fun past => ?_⟩,
      Guard.asks_nil _ authority position r s, Guard.asks_nil _ authority position archive s⟩
    rw [List.map_nil, List.map_nil, List.append_nil]
    rfl
  | cons step rest ih =>
    obtain ⟨a, r', t, rfl, hevents, hrun, hrecord, hcapture⟩ :=
      exists_account hash authority clock hsettings hclock position step r archive s
    have htracked : (Guard.recording occasions).succeeded a.tracked = a.outcome.isSuccess :=
      a.agree.isSuccess_tracked
    have hcaptured : (Guard.capturing hash settings occasions).succeeded a.captured =
        a.outcome.isSuccess := a.agree.isSuccess_bundle
    cases houtcome : a.outcome with
    | success data snapshotId =>
      rw [houtcome] at htracked hcaptured hrun
      obtain ⟨accounts, ending, r'', u, htried, hevents', hrun', hrecord', hcapture'⟩ :=
        ih (position + 1) data r' (archive.store a.bundle) t
      have hevent : a.event? = none := a.event?_eq_none houtcome
      have hreport : a.report = ⟨a.step.id, a.step.order, .success data snapshotId⟩ := by
        rw [Account.report, Trial.report, houtcome]
      refine ⟨a :: accounts, ending, r'', u, htried.cons houtcome, ?_, ?_, ?_, ?_⟩
      · rw [hevents', hevents, hevent, List.filterMap_cons_none hevent, Option.toList_none,
          List.append_nil]
      · rw [List.map_cons, hreport]
        exact asks_runSteps_success hrun hrun'
      · exact Guard.asks_succeeded htracked hrecord hrecord'
      · exact Guard.asks_succeeded hcaptured hcapture hcapture'
    | refused refusal =>
      rw [houtcome] at htracked hcaptured hrun
      have hreport : a.report = ⟨a.step.id, a.step.order, .refused refusal⟩ := by
        rw [Account.report, Trial.report, houtcome]
      refine ⟨[a], .halted refusal a.step.id, r', t, .refused rest last houtcome, ?_,
        ?_, ?_, ?_⟩
      · rw [hevents, a.events_singleton]
      · rw [List.map_singleton, hreport]
        exact asks_runSteps_refused rest last hrun
      · exact Guard.asks_failed rest htracked hrecord
      · exact Guard.asks_failed rest hcaptured hcapture

/-- Of accounts of steps of which there is one, all but the last leave no event. -/
theorem Tried.exists_last_account {steps : List Step} {data : Table} {accounts : List Account}
    {ending : Ending} (h : Tried steps data (accounts.map Account.toTrial) ending)
    (hsteps : steps ≠ []) :
    ∃ front a, accounts = front ++ [a] ∧ ending = a.toTrial.ending ∧
      accounts.filterMap Account.event? = a.event?.toList := by
  obtain ⟨front, last, htrials, hending⟩ := h.exists_last hsteps
  obtain ⟨before, more, rfl, rfl, hmore⟩ := List.map_eq_append_iff.mp htrials
  obtain ⟨a, rfl, rfl⟩ := List.map_eq_singleton_iff.mp hmore
  have hbefore : ∀ b ∈ before, b.event? = none := by
    intro b hb
    have hsucceeded := h.succeeded b.toTrial (by
      rw [htrials, List.dropLast_concat]
      exact List.mem_map_of_mem hb)
    rw [← b.toTrial.isSuccess_outcome] at hsucceeded
    obtain ⟨data, snapshotId, houtcome⟩ := Outcome.isSuccess_eq_true_iff.mp hsucceeded
    exact Account.event?_eq_none houtcome
  refine ⟨before, a, rfl, hending, ?_⟩
  rw [List.filterMap_append, List.filterMap_eq_nil_iff.mpr hbefore, List.nil_append,
    a.events_singleton]

/-- **The three guards agree** on every plan and every authority, whatever it answers in whichever
state.  They make the same calls and leave the authority in the same state, they stop after the same
step, and what they put on record of each step agrees.  A recorder has no event more after a
completed run, and after one that was halted just one, which names the step where it was. -/
theorem guards_agree (hash : Hasher) (settings : CaptureSettings) (authority : Authority σ)
    (plan : Plan) (clock : Nat → Int64) (occasions : Nat → Occasion) (r : Recorder)
    (archive : Archive) (s : σ) (hsettings : settings.error? = none)
    (hclock : ∀ i, 0 < (occasions i).readings.before) :
    ∃ (accounts : List Account) (ending : Ending) (r' : Recorder) (t : σ),
      Tried plan.steps .empty (accounts.map Account.toTrial) ending ∧
      Asks (fun _ authority => plan.run authority clock) authority s
        ⟨plan.id, accounts.map Account.report, ending⟩ (accounts.map Account.exchange) t ∧
      Asks (fun _ authority => (Guard.recording occasions).performAll authority 0 plan.steps r)
        authority s (accounts.map Account.tracked, r') (accounts.map Account.exchange) t ∧
      Asks (fun _ authority =>
          (Guard.capturing hash settings occasions).performAll authority 0 plan.steps archive)
        authority s
        (accounts.map Account.captured, archive.storeAll (accounts.map Account.bundle))
        (accounts.map Account.exchange) t ∧
      (∀ data, ending = .completed data → r'.events = r.events) ∧
      ∀ refusal stepId, ending = .halted refusal stepId →
        ∃ a ∈ accounts.getLast?, ∃ event, a.event? = some event ∧
          r'.events = r.events ++ [event] ∧ event.stepId = some stepId ∧
          ((a.answer = .ok (.refused refusal) ∧ event.kind = .ofReason refusal.reason) ∨
            ∃ error, a.answer = .error error ∧ event.kind = .executionError ∧
              event.condition = error.message) := by
  obtain ⟨accounts, ending, r', t, htried, hevents, hrun, hrecord, hcapture⟩ :=
    exists_accounts hash authority clock hsettings hclock plan.steps 0 .empty r archive s
  refine ⟨accounts, ending, r', t, htried, ⟨run_eq hrun.1, fun past => run_eq (hrun.2 past)⟩,
    hrecord, hcapture, ?_⟩
  obtain ⟨front, a, rfl, rfl, hlast⟩ := htried.exists_last_account plan.steps_ne_nil
  rw [hlast] at hevents
  constructor
  · intro data hcompleted
    obtain ⟨snapshotId, hanswer⟩ := Trial.ending_eq_completed_iff.mp hcompleted
    have houtcome : a.outcome = .success data snapshotId :=
      a.recorded.eq_success_iff.mpr hanswer
    rw [hevents, Account.event?_eq_none houtcome, Option.toList_none, List.append_nil]
  · intro refusal stepId hhalted
    obtain ⟨houtcome, rfl⟩ := Trial.ending_eq_halted_iff.mp hhalted
    obtain ⟨event, hevent, hstep, hkind⟩ := Account.exists_event houtcome
    rw [hevent, Option.toList_some] at hevents
    exact ⟨a, List.getLast?_concat, event, hevent, hevents, hstep, hkind⟩

/-- The same call, twice. -/
def twice : Plan where
  id := "p"
  steps := [⟨"p.0", "transfer", .empty, 0, by decide, by decide⟩,
    ⟨"p.1", "transfer", .empty, 1, by decide, by decide⟩]
  policy := .strict
  id_content := by decide
  steps_ne_nil := List.cons_ne_nil _ _
  order_eq := by decide
  nodup := by decide

/-- An authority that counts its calls, performs the first and breaks at the second. -/
def breaking : Authority Nat
  | _, 0 => (.ok (.success .empty "snap-1"), 1)
  | _, calls + 1 => (.error (.raised "timeout"), calls + 2)

/-- It breaks for all three, and one event is recorded, of the second step. -/
theorem guards_agree_breaking :
    ∃ (hash : Hasher) (occasion : Occasion) (report : Report) (tracked : List Tracked)
      (captured : List (Except EvidenceError Bundle)) (r : Recorder) (archive : Archive)
      (event : Event),
      twice.run breaking (fun _ => 7) 0 = (report, 2) ∧
      (Guard.recording fun _ => occasion).performAll breaking 0 twice.steps .empty 0 =
        ((tracked, r), 2) ∧
      (Guard.capturing hash .default fun _ => occasion).performAll breaking 0 twice.steps .empty 0 =
        ((captured, archive), 2) ∧
      report.ending.haltedAt? = some "p.1" ∧ r.events = [event] ∧ event.stepId = some "p.1" := by
  let hash : Hasher := fun _ => ⟨List.replicate 32 0, rfl⟩
  let occasion : Occasion :=
    ⟨⟨"f-1", by decide⟩, 6, .execution, ⟨"b-1", by decide⟩, ⟨5, 6, 7⟩, none⟩
  obtain ⟨accounts, ending, r, t, -, hrun, hrecord, hcapture, -, hhalted⟩ :=
    guards_agree hash .default breaking twice (fun _ => 7) (fun _ => occasion) .empty .empty 0
      (by decide) (fun _ => by decide)
  obtain ⟨hreport, ht⟩ := Prod.mk.inj hrun.1
  obtain rfl : 2 = t := ht
  obtain rfl : .halted (.ofError 7 (.raised "timeout")) "p.1" = ending :=
    congrArg Report.ending hreport
  obtain ⟨a, -, event, -, hevents, hstep, -⟩ := hhalted _ _ rfl
  exact ⟨hash, occasion, _, _, _, r, _, event, hrun.1, hrecord.1, hcapture.1, rfl, hevents, hstep⟩

end Plan

end Custody
