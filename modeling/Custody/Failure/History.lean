import Custody.Failure.Event

/-!
# Histories and verdicts

A history holds the failures of one piece of work in the order of their times; a verdict says that
these failures ended it.  Neither can be empty, and neither holds anything that was worked out from
the events.
-/

namespace Custody.Failure

/-- Nothing is older than what stands before it. -/
def InOrder (events : List Event) : Prop :=
  events.Pairwise fun a b => a.timestamp ≤ b.timestamp

/-- What is wrong with the first of some events that is older than the one before it, where the
events follow `previous` and begin at an index. -/
def firstDisorder? (previous : Event) : Nat → List Event → Option Error
  | _, [] => none
  | index, event :: rest =>
    if event.timestamp < previous.timestamp then
      some (.outOfOrder index event.timestamp previous.timestamp)
    else firstDisorder? event (index + 1) rest

/-- Events of which none is older than the one before it are in order. -/
theorem inOrder_of_firstDisorder? {previous : Event} {index : Nat} {events : List Event}
    (h : firstDisorder? previous index events = none) : InOrder (previous :: events) := by
  induction events generalizing previous index with
  | nil => exact List.pairwise_singleton ..
  | cons event rest ih =>
    simp only [firstDisorder?] at h
    split at h
    · cases h
    · next hle =>
      have hle := Int64.not_lt.1 hle
      have htail := ih h
      refine List.pairwise_cons.2 ⟨fun other hother => ?_, htail⟩
      rcases List.mem_cons.1 hother with rfl | hother
      · exact hle
      · exact Int64.le_trans hle ((List.pairwise_cons.1 htail).1 other hother)

/-- Why events are none at all, or out of order. -/
def listError? : List Event → Option Error
  | [] => some .noFailures
  | event :: rest => firstDisorder? event 1 rest

theorem ne_nil_of_listError? {events : List Event} (h : listError? events = none) :
    events ≠ [] := by
  rintro rfl
  cases h

theorem inOrder_of_listError? {events : List Event} (h : listError? events = none) :
    InOrder events := by
  cases events with
  | nil => exact List.Pairwise.nil
  | cons event rest => exact inOrder_of_firstDisorder? h

/-- The failures of one piece of work. -/
structure History where
  id : String
  events : List Event
  id_content : Text.isBlank id = false
  events_ne_nil : events ≠ []
  inOrder : InOrder events

namespace History

@[ext] theorem ext {g h : History} (id : g.id = h.id) (events : g.events = h.events) : g = h := by
  cases g; cases h; cases id; cases events; rfl

/-- The history with these parts.  Its name is checked before the events. -/
def make (id : String) (events : List Event) : Except Error History :=
  if hid : Text.isBlank id then .error .emptyHistoryId
  else
    match h : listError? events with
    | some error => .error error
    | none => .ok ⟨id, events, Text.isBlank_eq_false hid, ne_nil_of_listError? h,
        inOrder_of_listError? h⟩

def fields : Fields [String, List Event] :=
  .cons (.required "composition_id" .text)
    (.cons (.required "failures" (.list Event.codec)) .nil)

def codec : Codec History :=
  (Codec.record "RawFailureComposition" true fields).refine
    (fun (id, events, ()) => (make id events).mapError Error.message)
    (fun h => (h.id, h.events, ()))

end History

/-- The failures that ended a piece of work, which need not have a name. -/
structure Verdict where
  id : Option String
  events : List Event
  events_ne_nil : events ≠ []
  inOrder : InOrder events

namespace Verdict

@[ext] theorem ext {v w : Verdict} (id : v.id = w.id) (events : v.events = w.events) : v = w := by
  cases v; cases w; cases id; cases events; rfl

/-- The verdict with these parts.  That it is final is checked first. -/
def make (id : Option String) (events : List Event) (terminal : Bool) : Except Error Verdict :=
  if terminal then
    match h : listError? events with
    | some error => .error error
    | none => .ok ⟨id, events, ne_nil_of_listError? h, inOrder_of_listError? h⟩
  else .error .notTerminal

def ofHistory (h : History) : Verdict := ⟨some h.id, h.events, h.events_ne_nil, h.inOrder⟩

def fields : Fields [Option String, List Event, Bool] :=
  .cons (.nullableWithDefault "composition_id" .text)
    (.cons (.required "failures" (.list Event.codec))
      (.cons (.required "terminal" .flag) .nil))

/-- How a verdict is written; it always says that it is final. -/
def codec : Codec Verdict :=
  (Codec.record "RawFailureResult" true fields).refine
    (fun (id, events, terminal, ()) => (make id events terminal).mapError Error.message)
    (fun v => (v.id, v.events, true, ()))

end Verdict

end Custody.Failure
