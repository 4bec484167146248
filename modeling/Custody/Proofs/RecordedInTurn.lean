import Custody.Proofs.FailureRecord

/-!
# Recording one by one

A recorder compares each event with the last one it holds; a history or a verdict compares every
event of a list with the one before it.  The two come to the same: events can be recorded one after
the other exactly if they are in order, and if they are not, both blame the same event in the same
words, and what stands before that event is on record.
-/

namespace Custody.Failure

/-! ## Making histories and verdicts -/

theorem History.make_eq_error_iff {id : String} {events : List Event} {error : Error}
    (hid : Text.isBlank id = false) :
    History.make id events = .error error ↔ listError? events = some error := by
  rw [make, dif_neg (Bool.eq_false_iff.mp hid)]
  split
  · next error' herror => simp [herror]
  · next hnone => simp [hnone]

theorem History.exists_make_iff {id : String} {events : List Event}
    (hid : Text.isBlank id = false) :
    (∃ h, History.make id events = .ok h) ↔ listError? events = none := by
  rw [make, dif_neg (Bool.eq_false_iff.mp hid)]
  split
  · next error' herror => simp [herror]
  · next hnone => simp [hnone]

theorem Verdict.make_eq_error_iff {id : Option String} {events : List Event} {error : Error} :
    Verdict.make id events true = .error error ↔ listError? events = some error := by
  rw [make, if_pos rfl]
  split
  · next error' herror => simp [herror]
  · next hnone => simp [hnone]

theorem Verdict.exists_make_iff {id : Option String} {events : List Event} :
    (∃ v, Verdict.make id events true = .ok v) ↔ listError? events = none := by
  rw [make, if_pos rfl]
  split
  · next error' herror => simp [herror]
  · next hnone => simp [hnone]

/-! ## One event after the other -/

namespace Recorder

variable {r : Recorder}

/-- Records events one after the other, up to the first that is turned away. -/
def recordAll (r : Recorder) : List Event → Recorder × Option Error
  | [] => (r, none)
  | event :: rest =>
    match r.record event with
    | .error error => (r, some error)
    | .ok recorder => recorder.recordAll rest

theorem recordAll_cons_of_error {event : Event} {error : Error} (h : r.record event = .error error)
    (rest : List Event) : r.recordAll (event :: rest) = (r, some error) := by
  simp only [recordAll, h]

theorem recordAll_cons_of_ok {s : Recorder} {event : Event} (h : r.record event = .ok s)
    (rest : List Event) : r.recordAll (event :: rest) = s.recordAll rest := by
  simp only [recordAll, h]

/-- What is turned away is older than the last event, and the error tells both times. -/
theorem record_eq_error_iff {event : Event} {error : Error} :
    r.record event = .error error ↔ ∃ last, r.events.getLast? = some last ∧
      event.timestamp < last.timestamp ∧
      error = .outOfOrder r.events.length event.timestamp last.timestamp := by
  unfold record
  split
  · next h =>
    simp only [lastTime?, Option.map_eq_none_iff] at h
    simp [h]
  · next time h =>
    simp only [lastTime?, Option.map_eq_some_iff] at h
    obtain ⟨last, hlast, rfl⟩ := h
    split
    · next hlt =>
      simp [hlast, hlt, size, eq_comm]
    · next hlt => simp [hlast, hlt]

-- The induction is on the events, from any recorder that holds some already: the event before the
-- next is the last on record, and its index is the number of those on record.
/-- The first event that is turned away is the first that is older than the one before it. -/
theorem recordAll_snd {previous : Event} (h : r.events.getLast? = some previous)
    (events : List Event) :
    (r.recordAll events).2 = firstDisorder? previous r.events.length events := by
  induction events generalizing r previous with
  | nil => rfl
  | cons event rest ih =>
    cases hrecord : r.record event with
    | error error =>
      obtain ⟨last, hlast, hlt, rfl⟩ := record_eq_error_iff.mp hrecord
      obtain rfl : previous = last := Option.some.inj (h.symm.trans hlast)
      rw [recordAll_cons_of_error hrecord, firstDisorder?, if_pos hlt]
    | ok s =>
      have hevents : s.events = r.events ++ [event] := events_of_record hrecord
      have hlast : s.events.getLast? = some event := by simp [hevents]
      have hlt : ¬event.timestamp < previous.timestamp := by
        intro hlt
        have herror := record_eq_error_iff.mpr ⟨previous, h, hlt, rfl⟩
        rw [hrecord] at herror
        cases herror
      rw [recordAll_cons_of_ok hrecord, ih hlast, firstDisorder?, if_neg hlt, hevents,
        List.length_append, List.length_singleton]

/-- If none is turned away, all are on record. -/
theorem recordAll_of_none {events : List Event} (h : (r.recordAll events).2 = none) :
    (r.recordAll events).1.events = r.events ++ events := by
  induction events generalizing r with
  | nil => simp [recordAll]
  | cons event rest ih =>
    cases hrecord : r.record event with
    | error error =>
      rw [recordAll_cons_of_error hrecord] at h
      cases h
    | ok s =>
      rw [recordAll_cons_of_ok hrecord] at h ⊢
      rw [ih h, events_of_record hrecord, List.append_assoc, List.singleton_append]

/-- If one is turned away, those before it are on record, and it is turned away for that. -/
theorem recordAll_of_some {events : List Event} {error : Error}
    (h : (r.recordAll events).2 = some error) :
    ∃ before event after, events = before ++ event :: after ∧
      (r.recordAll events).1.events = r.events ++ before ∧
      (r.recordAll events).1.record event = .error error := by
  induction events generalizing r with
  | nil => cases h
  | cons event rest ih =>
    cases hrecord : r.record event with
    | error error' =>
      rw [recordAll_cons_of_error hrecord] at h ⊢
      cases h
      exact ⟨[], event, rest, rfl, by simp, hrecord⟩
    | ok s =>
      rw [recordAll_cons_of_ok hrecord] at h ⊢
      obtain ⟨before, last, after, rfl, hevents, hlast⟩ := ih h
      refine ⟨event :: before, last, after, rfl, ?_, hlast⟩
      rw [hevents, events_of_record hrecord, List.append_assoc, List.singleton_append]

/-- Recording events one by one finds what checking them at once does. -/
theorem recordAll_empty_snd {events : List Event} (h : events ≠ []) :
    (empty.recordAll events).2 = listError? events := by
  cases events with
  | nil => exact absurd rfl h
  | cons event rest =>
    have hrecord : ∃ s, empty.record event = .ok s := by
      cases hrecord : empty.record event with
      | ok s => exact ⟨s, rfl⟩
      | error error =>
        obtain ⟨last, hlast, -⟩ := record_eq_error_iff.mp hrecord
        cases hlast
    obtain ⟨s, hs⟩ := hrecord
    have hevents : s.events = [event] := events_of_record hs
    have hlast : s.events.getLast? = some event := by rw [hevents]; rfl
    rw [recordAll_cons_of_ok hs, recordAll_snd hlast, hevents]
    rfl

/-- **Recording one by one agrees with checking at once.**  Either all events are recorded, and this
is so exactly if there are none or a history and a verdict can be made of them; or the first that is
older than the one before it is turned away, with the error that both report for the list, and just
the events before it are on record. -/
theorem recordAll_agrees (id : String) (hid : Text.isBlank id = false) (name : Option String)
    (events : List Event) :
    ((empty.recordAll events).2 = none ↔ events = [] ∨
      (∃ h, History.make id events = .ok h) ∧ ∃ v, Verdict.make name events true = .ok v) ∧
    ((empty.recordAll events).2 = none → (empty.recordAll events).1.events = events) ∧
    ∀ error, (empty.recordAll events).2 = some error →
      ∃ before previous event after, events = before ++ event :: after ∧
        before.getLast? = some previous ∧ event.timestamp < previous.timestamp ∧
        error = .outOfOrder before.length event.timestamp previous.timestamp ∧
        (empty.recordAll events).1.events = before ∧
        History.make id events = .error error ∧ Verdict.make name events true = .error error := by
  refine ⟨?_, recordAll_of_none, ?_⟩
  · by_cases hne : events = []
    · subst hne
      simp [recordAll]
    · rw [recordAll_empty_snd hne, History.exists_make_iff hid, Verdict.exists_make_iff]
      simp [hne]
  · intro error herror
    have hne : events ≠ [] := by
      rintro rfl
      cases herror
    obtain ⟨before, event, after, hsplit, hevents, hrecord⟩ := recordAll_of_some herror
    obtain ⟨previous, hprevious, hlt, rfl⟩ := record_eq_error_iff.mp hrecord
    have hbefore : (empty.recordAll events).1.events = before := hevents
    rw [hbefore] at hprevious hrecord herror ⊢
    rw [recordAll_empty_snd hne] at herror
    exact ⟨before, previous, event, after, hsplit, hprevious, hlt, rfl, rfl,
      (History.make_eq_error_iff hid).mpr herror, Verdict.make_eq_error_iff.mpr herror⟩

end Recorder

/-- A call without a grant that was refused at a time. -/
def refusedAt (time : Int64) (h : 0 < time) : Event :=
  ⟨"f-1", .authorization, .ofReason Reason.noGrant, "Non-Action reason: NO_GRANT", time, none, none,
    none, none, by decide, by decide, h⟩

/-- Of these the third is older than the second, which is as old as the first. -/
def stepBack : List Event :=
  [refusedAt 5 (by decide), refusedAt 5 (by decide), refusedAt 3 (by decide),
    refusedAt 9 (by decide)]

theorem Recorder.recordAll_agrees_stepBack :
    Text.isBlank "c-1" = false ∧
      (empty.recordAll stepBack).2 = some (.outOfOrder 2 3 5) ∧
      (empty.recordAll stepBack).1.events = stepBack.take 2 ∧
      History.make "c-1" stepBack = .error (.outOfOrder 2 3 5) ∧
      Verdict.make none stepBack true = .error (.outOfOrder 2 3 5) := by
  have herror : (empty.recordAll stepBack).2 = some (.outOfOrder 2 3 5) := by decide
  obtain ⟨-, -, hagree⟩ := recordAll_agrees "c-1" (by decide) none stepBack
  obtain ⟨before, previous, event, after, hsplit, -, -, hat, hevents, hhistory, hverdict⟩ :=
    hagree _ herror
  have hbefore : before = stepBack.take 2 := by
    have hlength : before.length = 2 := (Error.outOfOrder.inj hat).1.symm
    rw [hsplit, ← hlength, List.take_left]
  exact ⟨by decide, herror, hevents.trans hbefore, hhistory, hverdict⟩

end Custody.Failure
