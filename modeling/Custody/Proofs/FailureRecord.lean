import Custody.Failure.Recorder

/-!
# What a recorder keeps

Several clients share a recorder.  Each asks the authority first and has the answer dealt with
later; in between, others may ask, be dealt with, hand in events of their own or clear the recorder,
and the clock may show anything.  Whatever they do in whatever order, the recorder holds just the
events that were accepted since it was last cleared, and can always tell them.
-/

namespace Custody.Failure

/-! ## Events in order -/

theorem firstDisorder?_eq_none_iff {previous : Event} {index : Nat} {events : List Event} :
    firstDisorder? previous index events = none ↔ InOrder (previous :: events) := by
  constructor
  · exact inOrder_of_firstDisorder?
  · intro h
    induction events generalizing previous index with
    | nil => rfl
    | cons event rest ih =>
      obtain ⟨hprevious, htail⟩ := List.pairwise_cons.mp h
      have hle : previous.timestamp ≤ event.timestamp := hprevious event List.mem_cons_self
      rw [firstDisorder?, if_neg (Int64.not_lt.mpr hle)]
      exact ih htail

/-- **Nothing is wrong** with events in order, if there are any. -/
theorem listError?_eq_none_iff {events : List Event} :
    listError? events = none ↔ events ≠ [] ∧ InOrder events := by
  cases events with
  | nil =>
    constructor
    · intro h
      cases h
    · rintro ⟨h, -⟩
      exact absurd rfl h
  | cons event rest =>
    rw [listError?, firstDisorder?_eq_none_iff]
    exact (and_iff_right (List.cons_ne_nil event rest)).symm

/-- A history is made of its own parts. -/
theorem History.make_self (h : History) : make h.id h.events = .ok h := by
  have hlist : listError? h.events = none :=
    listError?_eq_none_iff.mpr ⟨h.events_ne_nil, h.inOrder⟩
  rw [make, dif_neg (Bool.eq_false_iff.mp h.id_content)]
  split
  · next error herror =>
    rw [hlist] at herror
    cases herror
  · rfl

/-- So is a verdict. -/
theorem Verdict.make_self (v : Verdict) : make v.id v.events true = .ok v := by
  have hlist : listError? v.events = none :=
    listError?_eq_none_iff.mpr ⟨v.events_ne_nil, v.inOrder⟩
  rw [make, if_pos rfl]
  split
  · next error herror =>
    rw [hlist] at herror
    cases herror
  · rfl

namespace Recorder

variable {r : Recorder}

/-! ## What can be told of the events -/

theorem isEmpty_of_eq_nil (h : r.events = []) : r.isEmpty = true := by
  rw [isEmpty, h, List.isEmpty_nil]

theorem isEmpty_of_ne_nil (h : r.events ≠ []) : r.isEmpty = false := by
  rw [isEmpty, List.isEmpty_eq_false_iff]
  exact h

theorem exists_verdict (h : r.events ≠ []) (id : Option String) :
    ∃ v, r.verdict id = .ok v ∧ v.id = id ∧ v.events = r.events := by
  let v : Verdict := ⟨id, r.events, h, r.inOrder⟩
  refine ⟨v, ?_, rfl, rfl⟩
  rw [verdict, isEmpty_of_ne_nil h, if_neg Bool.false_ne_true]
  exact v.make_self

theorem exists_history (h : r.events ≠ []) (fresh : Identifier) {id : Option String}
    (hid : ∀ name ∈ id, Text.isBlank name = false) :
    ∃ g, r.history fresh id = .ok g ∧ g.id = id.getD fresh.text ∧ g.events = r.events := by
  have hname : Text.isBlank (id.getD fresh.text) = false := by
    cases id with
    | none => exact fresh.content
    | some name => exact hid name rfl
  let g : History := ⟨id.getD fresh.text, r.events, hname, h, r.inOrder⟩
  refine ⟨g, ?_, rfl, rfl⟩
  rw [history, isEmpty_of_ne_nil h, if_neg Bool.false_ne_true]
  exact g.make_self

theorem verdict_of_eq_nil (h : r.events = []) (id : Option String) :
    r.verdict id = .error .nothingRecorded := by
  rw [verdict, isEmpty_of_eq_nil h, if_pos rfl]

theorem history_of_eq_nil (h : r.events = []) (fresh : Identifier) (id : Option String) :
    r.history fresh id = .error .nothingRecorded := by
  rw [history, isEmpty_of_eq_nil h, if_pos rfl]

end Recorder

/-! ## What clients do -/

/-- A call that the authority has answered and that has not been dealt with. -/
structure Pending where
  call : Call
  phase : Phase
  stepId : Option String
  answer : Answer

/-- Deals with an answer: the part of a recorded call that follows it. -/
def Recorder.settle (r : Recorder) (p : Pending) (id : Identifier) (now : Int64) :
    Tracked × Recorder :=
  (r.track (fun _ s => (p.answer, s)) id now p.call p.phase p.stepId ()).1

/-- A recorded call is an exchange with the authority, and then the answer is dealt with. -/
theorem Recorder.track_eq {σ : Type} (r : Recorder) (authority : Authority σ) (id : Identifier)
    (now : Int64) (call : Call) (phase : Phase) (stepId : Option String) (s : σ) :
    r.track authority id now call phase stepId s =
      (r.settle ⟨call, phase, stepId, (authority call s).1⟩ id now, (authority call s).2) := rfl

/-- Dealing with an answer records the event that it gives, if any. -/
theorem Recorder.events_settle (r : Recorder) (p : Pending) (id : Identifier) (now : Int64) :
    (r.settle p id now).2.events = r.events ++ (r.settle p id now).1.event?.toList := by
  obtain ⟨call, phase, stepId, answer⟩ := p
  cases answer with
  | error error => rfl
  | ok outcome =>
    cases outcome with
    | refused refusal => rfl
    | success data snapshotId => exact (List.append_nil r.events).symm

/-- An answer, and what a recorder says of it: a success is passed on as it is, while a refusal or
an error gives an event that names the call and tells which of the two it was. -/
inductive Recorded (id : Identifier) (phase : Phase) (stepId : Option String) :
    Answer → Tracked → Prop where
  | success {data : Table} {snapshotId : String} :
      Recorded id phase stepId (.ok (.success data snapshotId)) (.success data snapshotId)
  | refused {refusal : Refusal} {event : Event}
      (named : event.id = id.text ∧ event.phase = phase ∧ event.stepId = stepId)
      (kind : event.kind = .ofReason refusal.reason)
      (condition : event.condition = "Non-Action reason: " ++ refusal.reason) :
      Recorded id phase stepId (.ok (.refused refusal)) (.failure event (some refusal))
  | raised {error : AuthorityError} {event : Event}
      (named : event.id = id.text ∧ event.phase = phase ∧ event.stepId = stepId)
      (kind : event.kind = .executionError) (condition : event.condition = error.message) :
      Recorded id phase stepId (.error error) (.failure event none)

/-- **What is said of an answer** is what it says. -/
theorem Recorder.recorded_settle (r : Recorder) (p : Pending) (id : Identifier) (now : Int64) :
    Recorded id p.phase p.stepId p.answer (r.settle p id now).1 := by
  obtain ⟨call, phase, stepId, answer⟩ := p
  cases answer with
  | error error => exact .raised ⟨rfl, rfl, rfl⟩ rfl rfl
  | ok outcome =>
    cases outcome with
    | refused refusal => exact .refused ⟨rfl, rfl, rfl⟩ rfl rfl
    | success data snapshotId => exact .success

theorem Recorded.eq_success_iff {id : Identifier} {phase : Phase} {stepId : Option String}
    {answer : Answer} {tracked : Tracked} (h : Recorded id phase stepId answer tracked)
    {data : Table} {snapshotId : String} :
    tracked = .success data snapshotId ↔ answer = .ok (.success data snapshotId) := by
  cases h with
  | success => simp
  | refused | raised => simp

/-- A recorded call puts the call to the authority and says what that answers.  It adds the event
that it returns; a success returns none and adds nothing. -/
theorem Recorder.exists_track {σ : Type} (r : Recorder) (authority : Authority σ) (id : Identifier)
    (now : Int64) (call : Call) (phase : Phase) (stepId : Option String) (s : σ) :
    ∃ tracked recorder,
      r.track authority id now call phase stepId s = ((tracked, recorder), (authority call s).2) ∧
      Recorded id phase stepId (authority call s).1 tracked ∧
      (∀ data snapshotId, tracked = .success data snapshotId ↔
        (authority call s).1 = .ok (.success data snapshotId)) ∧
      (tracked.isSuccess = true → recorder.events = r.events) ∧
      ∀ event refusal, tracked = .failure event refusal →
        recorder.events = r.events ++ [event] := by
  let p : Pending := ⟨call, phase, stepId, (authority call s).1⟩
  have hevents := r.events_settle p id now
  have hrecorded := r.recorded_settle p id now
  refine ⟨(r.settle p id now).1, (r.settle p id now).2,
    r.track_eq authority id now call phase stepId s, hrecorded,
    fun _ _ => hrecorded.eq_success_iff, ?_, ?_⟩
  · intro hsuccess
    cases htracked : (r.settle p id now).1 with
    | success data snapshotId =>
      rw [htracked] at hevents
      exact hevents.trans (List.append_nil r.events)
    | failure event refusal =>
      rw [htracked] at hsuccess
      cases hsuccess
  · intro event refusal htracked
    rw [htracked] at hevents
    exact hevents

theorem Recorder.events_of_record {r s : Recorder} {e : Event} (h : r.record e = .ok s) :
    s.events = r.events ++ [e] := by
  unfold record at h
  split at h
  · cases h
    rfl
  · split at h
    · cases h
    · cases h
      rfl

/-- What a client does. -/
inductive Action where
  /-- Asks the authority for a call. -/
  | ask (call : Call) (phase : Phase) (stepId : Option String)
  /-- Has one of the answers dealt with, as the clock shows `now`. -/
  | settle (index : Nat) (id : Identifier) (now : Int64)
  | record (event : Event)
  | clear
  | verdict (id : Option String)
  | history (fresh : Identifier) (id : Option String)

/-- What a client learns. -/
inductive Response where
  | asked
  /-- There was no such answer. -/
  | nothing
  | settled (tracked : Tracked)
  | recorded (event : Event)
  | turnedAway (event : Event) (error : Error)
  | cleared
  | verdict (result : Except Error Verdict)
  | history (result : Except Error History)

namespace Response

/-- The event that was accepted. -/
def accepted? : Response → Option Event
  | .settled tracked => tracked.event?
  | .recorded event => some event
  | _ => none

def isCleared : Response → Bool
  | .cleared => true
  | _ => false

end Response

/-- A recorder and an authority that clients share, with the answers that have not been dealt with
and all responses so far. -/
structure Session (σ : Type) where
  recorder : Recorder
  authority : σ
  pending : List Pending
  log : List Response

/-- The responses since the recorder was last cleared. -/
def sinceCleared (log : List Response) : List Response :=
  (log.reverse.takeWhile fun response => !response.isCleared).reverse

/-- The events that were accepted since the recorder was last cleared. -/
def accepted (log : List Response) : List Event := (sinceCleared log).filterMap Response.accepted?

theorem accepted_concat (log : List Response) (response : Response) :
    accepted (log ++ [response]) =
      if response.isCleared then [] else accepted log ++ response.accepted?.toList := by
  rw [accepted, sinceCleared, List.reverse_append, List.reverse_singleton, List.singleton_append,
    List.takeWhile_cons]
  cases response.isCleared with
  | true => rfl
  | false =>
    rw [Bool.not_false, if_pos rfl, List.reverse_cons, List.filterMap_append,
      if_neg Bool.false_ne_true]
    cases haccepted : response.accepted? with
    | none => simp [accepted, sinceCleared, haccepted]
    | some event => simp [accepted, sinceCleared, haccepted]

namespace Session

variable {σ : Type}

def start (t : σ) : Session σ := ⟨.empty, t, [], []⟩

/-- What one action does.  The response to it is put on the log. -/
def act (authority : Authority σ) (s : Session σ) : Action → Session σ
  | .ask call phase stepId =>
    let (answer, t) := authority call s.authority
    { s with authority := t, pending := s.pending ++ [⟨call, phase, stepId, answer⟩],
             log := s.log ++ [.asked] }
  | .settle index id now =>
    match s.pending[index]? with
    | none => { s with log := s.log ++ [.nothing] }
    | some p =>
      let (tracked, recorder) := s.recorder.settle p id now
      { s with recorder := recorder, pending := s.pending.eraseIdx index,
               log := s.log ++ [.settled tracked] }
  | .record event =>
    match s.recorder.record event with
    | .error error => { s with log := s.log ++ [.turnedAway event error] }
    | .ok recorder => { s with recorder := recorder, log := s.log ++ [.recorded event] }
  | .clear => { s with recorder := s.recorder.clear, log := s.log ++ [.cleared] }
  | .verdict id => { s with log := s.log ++ [.verdict (s.recorder.verdict id)] }
  | .history fresh id => { s with log := s.log ++ [.history (s.recorder.history fresh id)] }

/-- **One action** is told by its response: the events are dropped if that says so, and else those
that it accepted are added. -/
theorem events_act (authority : Authority σ) (s : Session σ) (action : Action) :
    ∃ response, (s.act authority action).log = s.log ++ [response] ∧
      (s.act authority action).recorder.events =
        if response.isCleared then [] else s.recorder.events ++ response.accepted?.toList := by
  cases action with
  | ask call phase stepId => exact ⟨.asked, rfl, (List.append_nil _).symm⟩
  | settle index id now =>
    cases hpending : s.pending[index]? with
    | none =>
      refine ⟨.nothing, ?_, ?_⟩
      · simp only [act, hpending]
      · simp only [act, hpending]
        exact (List.append_nil _).symm
    | some p =>
      refine ⟨.settled (s.recorder.settle p id now).1, ?_, ?_⟩
      · simp only [act, hpending]
      · simp only [act, hpending]
        exact s.recorder.events_settle p id now
  | record event =>
    cases hrecord : s.recorder.record event with
    | error error =>
      refine ⟨.turnedAway event error, ?_, ?_⟩
      · simp only [act, hrecord]
      · simp only [act, hrecord]
        exact (List.append_nil _).symm
    | ok recorder =>
      refine ⟨.recorded event, ?_, ?_⟩
      · simp only [act, hrecord]
      · simp only [act, hrecord]
        exact Recorder.events_of_record hrecord
  | clear => exact ⟨.cleared, rfl, rfl⟩
  | verdict id => exact ⟨.verdict (s.recorder.verdict id), rfl, (List.append_nil _).symm⟩
  | history fresh id =>
    exact ⟨.history (s.recorder.history fresh id), rfl, (List.append_nil _).symm⟩

/-- The session after some actions. -/
def after (authority : Authority σ) (t : σ) (actions : List Action) : Session σ :=
  actions.foldl (act authority) (start t)

-- The induction is on the actions, from any session that has kept what it accepted so far.
theorem events_foldl_act (authority : Authority σ) {s : Session σ} (actions : List Action)
    (h : s.recorder.events = accepted s.log) :
    (actions.foldl (act authority) s).recorder.events =
      accepted (actions.foldl (act authority) s).log := by
  induction actions generalizing s with
  | nil => exact h
  | cons action rest ih =>
    apply ih
    obtain ⟨response, hlog, hevents⟩ := s.events_act authority action
    rw [hevents, hlog, accepted_concat, h]

/-- What is pending was answered by the authority. -/
def Answered (authority : Authority σ) (s : Session σ) : Prop :=
  ∀ p ∈ s.pending, ∃ t, p.answer = (authority p.call t).1

theorem Answered.act {authority : Authority σ} {s : Session σ} (h : s.Answered authority)
    (action : Action) : (s.act authority action).Answered authority := by
  cases action with
  | ask call phase stepId =>
    intro p hp
    rcases List.mem_append.mp hp with hp | hp
    · exact h p hp
    · obtain rfl := List.mem_singleton.mp hp
      exact ⟨s.authority, rfl⟩
  | settle index id now =>
    cases hpending : s.pending[index]? with
    | none =>
      simp only [Session.act, hpending]
      exact h
    | some p =>
      simp only [Session.act, hpending]
      intro q hq
      exact h q (List.mem_of_mem_eraseIdx hq)
  | record event =>
    cases hrecord : s.recorder.record event with
    | error error =>
      simp only [Session.act, hrecord]
      exact h
    | ok recorder =>
      simp only [Session.act, hrecord]
      exact h
  | clear | verdict id | history fresh id => exact h

theorem Answered.foldl_act {authority : Authority σ} {s : Session σ} (h : s.Answered authority)
    (actions : List Action) : (actions.foldl (Session.act authority) s).Answered authority := by
  induction actions generalizing s with
  | nil => exact h
  | cons action rest ih => exact ih (h.act action)

/-- What is said when an answer is dealt with is what the answer says. -/
theorem exists_settled (authority : Authority σ) {s : Session σ} {index : Nat} {p : Pending}
    (h : s.pending[index]? = some p) (id : Identifier) (now : Int64) :
    ∃ tracked, (s.act authority (.settle index id now)).log = s.log ++ [.settled tracked] ∧
      Recorded id p.phase p.stepId p.answer tracked := by
  refine ⟨(s.recorder.settle p id now).1, ?_, s.recorder.recorded_settle p id now⟩
  simp only [act, h]

/-- A session in which no failure is lost, made up or out of order. -/
structure Keeps (authority : Authority σ) (s : Session σ) : Prop where
  inOrder : s.recorder.events.Pairwise fun a b => a.timestamp ≤ b.timestamp
  wellFormed : ∀ e ∈ s.recorder.events,
    0 < e.timestamp ∧ Text.isBlank e.id = false ∧ Text.isBlank e.condition = false
  /-- The recorder holds what was accepted since it was last cleared. -/
  events_eq : s.recorder.events = accepted s.log
  size_eq : s.recorder.size = (accepted s.log).length
  /-- A recorded call says what the authority answers, and is a success exactly if that is one.  It
  adds the event that it returns, and a success, which returns none, nothing. -/
  track : ∀ (id : Identifier) (now : Int64) (call : Call) (phase : Phase) (stepId : Option String)
    (t : σ), ∃ tracked recorder,
      s.recorder.track authority id now call phase stepId t =
        ((tracked, recorder), (authority call t).2) ∧
      Recorded id phase stepId (authority call t).1 tracked ∧
      (∀ data snapshotId, tracked = .success data snapshotId ↔
        (authority call t).1 = .ok (.success data snapshotId)) ∧
      (tracked.isSuccess = true → recorder.events = s.recorder.events) ∧
      ∀ event refusal, tracked = .failure event refusal →
        recorder.events = s.recorder.events ++ [event]
  /-- So it is when others come in between: what is pending is what the authority answered, and what
  is said of it when it is dealt with is what it says. -/
  settle : s.Answered authority ∧
    ∀ (index : Nat) (id : Identifier) (now : Int64) (p : Pending), s.pending[index]? = some p →
      ∃ tracked, (s.act authority (.settle index id now)).log = s.log ++ [.settled tracked] ∧
        Recorded id p.phase p.stepId p.answer tracked
  /-- An event that is turned away changes nothing. -/
  record : ∀ (e : Event) (error : Error), s.recorder.record e = .error error →
    (s.act authority (.record e)).recorder = s.recorder
  /-- No action changes the events but by what its response says. -/
  act : ∀ action, ∃ response, (s.act authority action).log = s.log ++ [response] ∧
    (s.act authority action).recorder.events =
      if response.isCleared then [] else s.recorder.events ++ response.accepted?.toList
  /-- There is a verdict exactly if something was accepted, and it tells just that. -/
  verdict : ∀ id : Option String,
    (accepted s.log = [] → s.recorder.verdict id = .error .nothingRecorded) ∧
    (accepted s.log ≠ [] →
      ∃ v, s.recorder.verdict id = .ok v ∧ v.id = id ∧ v.events = s.recorder.events)
  /-- The same goes for a history, unless it is to have a blank name. -/
  history : ∀ (fresh : Identifier) (id : Option String),
    (∀ name ∈ id, Text.isBlank name = false) →
    (accepted s.log = [] → s.recorder.history fresh id = .error .nothingRecorded) ∧
    (accepted s.log ≠ [] → ∃ g, s.recorder.history fresh id = .ok g ∧
      g.id = id.getD fresh.text ∧ g.events = s.recorder.events)

/-- **No failure is lost**, whatever clients do and in whatever order, whatever the authority
answers and whatever the clock shows. -/
theorem after_keeps (authority : Authority σ) (t : σ) (actions : List Action) :
    (after authority t actions).Keeps authority := by
  have hstart : (start t).recorder.events = accepted (start t).log := rfl
  have hevents : (after authority t actions).recorder.events =
      accepted (after authority t actions).log := events_foldl_act authority actions hstart
  have hnone : (start t).Answered authority := List.forall_mem_nil _
  have hanswered : (after authority t actions).Answered authority := hnone.foldl_act actions
  generalize after authority t actions = s at hevents hanswered
  refine ⟨s.recorder.inOrder, ?_, hevents, ?_, s.recorder.exists_track authority,
    ⟨hanswered, fun _ id now _ hp => exists_settled authority hp id now⟩, ?_,
    s.events_act authority, ?_, ?_⟩
  · intro e _
    exact ⟨e.timestamp_pos, e.id_content, e.condition_content⟩
  · rw [Recorder.size, hevents]
  · intro e error herror
    simp only [Session.act, herror]
  · rw [← hevents]
    intro id
    exact ⟨fun h => Recorder.verdict_of_eq_nil h id, fun h => Recorder.exists_verdict h id⟩
  · rw [← hevents]
    intro fresh id hid
    exact ⟨fun h => Recorder.history_of_eq_nil h fresh id,
      fun h => Recorder.exists_history h fresh hid⟩

/-- Two clients ask at once, and the clock is set back to before 1970 in between. -/
example :
    let call : Call := ⟨"transfer", .empty⟩
    let ask : Action := .ask call .execution none
    let actions : List Action :=
      [ask, ask, .settle 1 ⟨"f-1", by decide⟩ 5, .settle 0 ⟨"f-2", by decide⟩ (-3)]
    (after (fun _ s => (.error (.raised "timeout"), s)) () actions).recorder.events.map
      (fun e => (e.id, e.timestamp)) = [("f-1", 5), ("f-2", 5)] := by
  decide

end Session

end Custody.Failure
