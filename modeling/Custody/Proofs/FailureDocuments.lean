import Custody.Proofs.RecordedInTurn
import Custody.Proofs.WrittenRecords

/-!
# Documents of failures

Events, histories and verdicts are written as records, and read from records that must keep the
rules by which they are made.  Each is read back from its text, however it came about: an event may
have been made and given more parts, recorded by a recorder that knows its parts to be in order, or
read from a text.  A text is read just if its record keeps the rules, so what was read could have
been made.
-/

namespace Custody

/-! ## Records that keep rules -/

/-- How a text is read: straight, or as a value first. -/
inductive Way where
  | straight
  | throughValue

namespace Codec

variable {α β : Type}

/-- Reads a text in one of the two ways. -/
def decodeBy (c : Codec α) : Way → List Char → Except Fault α
  | .straight => c.decode
  | .throughValue => c.decodeValue

theorem decodeBy_refine_eq_ok_iff {c : Codec α} {pack : α → Except String β} {unpack : β → α}
    {way : Way} {text : List Char} {b : β} : (c.refine pack unpack).decodeBy way text = .ok b ↔
      ∃ a, c.decodeBy way text = .ok a ∧ pack a = .ok b := by
  cases way with
  | straight => exact decode_refine_eq_ok_iff
  | throughValue => exact decodeValue_refine_eq_ok_iff

theorem RoundTrips.decodeBy_encode {c : Codec α} (hc : c.RoundTrips) {a : α}
    (hdepth : (c.write a).depth ≤ 127) (way : Way) :
    c.decodeBy way (c.encode a).toList = .ok a := by
  cases way with
  | straight => exact (hc.decode_encode hdepth).1
  | throughValue => exact (hc.decode_encode hdepth).2

/-- Whether the things of a codec are the records that keep some rules: each is read back from its
text, a text is read as the thing that has its record, and it is read if its record keeps the
rules. -/
structure KeepsRules (c : Codec β) (record : Codec α) (row : β → α) (Rules : α → Prop) : Prop where
  back : ∀ way b, c.decodeBy way (c.encode b).toList = .ok b
  reads : ∀ way text b, c.decodeBy way text = .ok b ↔ record.decodeBy way text = .ok (row b)
  accepts : ∀ way text, (∃ b, c.decodeBy way text = .ok b) ↔
    ∃ a, record.decodeBy way text = .ok a ∧ Rules a

/-- **Things that are made of records by rules keep them**, if each is made of its own record and of
no other. -/
theorem keepsRules_refine {record : Codec α} {pack : α → Except String β} {row : β → α}
    {Rules : α → Prop} (hrecord : record.RoundTrips) (hdepth : record.Within 127)
    (hpack : ∀ {a b}, pack a = .ok b ↔ a = row b) (hrules : ∀ {a}, (∃ b, a = row b) ↔ Rules a) :
    (record.refine pack row).KeepsRules record row Rules := by
  have hreads : ∀ way text b, (record.refine pack row).decodeBy way text = .ok b ↔
      record.decodeBy way text = .ok (row b) := by
    intro way text b
    rw [decodeBy_refine_eq_ok_iff]
    simp only [hpack, exists_eq_right]
  refine ⟨?_, hreads, ?_⟩
  · intro way b
    have hround : (record.refine pack row).RoundTrips := hrecord.refine fun b => hpack.mpr rfl
    exact hround.decodeBy_encode (hdepth (row b)) way
  · intro way text
    simp only [hreads]
    constructor
    · rintro ⟨b, hb⟩
      exact ⟨row b, hb, hrules.mp ⟨b, rfl⟩⟩
    · rintro ⟨a, ha, hkept⟩
      obtain ⟨b, rfl⟩ := hrules.mpr hkept
      exact ⟨b, ha⟩

end Codec

namespace Failure

/-! ## Events -/

theorem Phase.roundTrips_codec : Phase.codec.RoundTrips :=
  Codec.roundTrips_choice (by decide) fun phase => by cases phase <;> decide

theorem Kind.roundTrips_codec : Kind.codec.RoundTrips :=
  Codec.roundTrips_choice (by decide) fun kind => by cases kind <;> decide

namespace Bearer

theorem roundTrips_codec : codec.RoundTrips := by
  have hfields : fields.RoundTrip :=
    ⟨⟨Codec.roundTrips_text.optional nofun, nofun⟩, ⟨Codec.roundTrips_text.optional nofun, nofun⟩,
      trivial⟩
  exact (Codec.roundTrips_record "AuthorityContext" true hfields (by decide)).iso fun _ => rfl

theorem write_ne_null (b : Bearer) : codec.write b ≠ .null := nofun

theorem within_codec : codec.Within 1 := by
  have hfields : fields.Within 0 :=
    ⟨Codec.within_text.optional, Codec.within_text.optional, trivial⟩
  exact (Codec.within_record hfields).iso

end Bearer

namespace Event

/-- The rules of events: neither the name nor the condition is blank, and the time is positive. -/
structure Sound (id condition : String) (timestamp : Int64) : Prop where
  id_content : Text.isBlank id = false
  condition_content : Text.isBlank condition = false
  timestamp_pos : 0 < timestamp

/-- What every event has, without the rest. -/
def bare (e : Event) : Event :=
  { e with stepId := none, violatedInvariant := none, bearer := none, snapshotId := none }

theorem make_self (e : Event) : make e.id e.phase e.kind e.condition e.timestamp = .ok e.bare := by
  rw [make, dif_neg (Bool.eq_false_iff.mp e.id_content),
    dif_neg (Bool.eq_false_iff.mp e.condition_content), dif_pos e.timestamp_pos]
  rfl

section

variable {id condition : String} {phase : Phase} {kind : Kind} {timestamp : Int64}

/-- An event that is made holds what it was made of, and nothing else. -/
theorem make_eq_ok_iff {e : Event} : make id phase kind condition timestamp = .ok e ↔
    e.bare = e ∧ id = e.id ∧ phase = e.phase ∧ kind = e.kind ∧ condition = e.condition ∧
      timestamp = e.timestamp := by
  constructor
  · intro hmake
    rw [make] at hmake
    split at hmake
    · cases hmake
    · split at hmake
      · cases hmake
      · split at hmake <;> cases hmake
        exact ⟨rfl, rfl, rfl, rfl, rfl, rfl⟩
  · rintro ⟨hbare, rfl, rfl, rfl, rfl, rfl⟩
    rw [make_self, hbare]

/-- **An event is made** just by the rules. -/
theorem exists_make_iff :
    (∃ e, make id phase kind condition timestamp = .ok e) ↔ Sound id condition timestamp := by
  simp only [make_eq_ok_iff]
  constructor
  · rintro ⟨e, -, rfl, -, -, rfl, rfl⟩
    exact ⟨e.id_content, e.condition_content, e.timestamp_pos⟩
  · rintro ⟨hid, hcondition, htimestamp⟩
    exact ⟨⟨id, phase, kind, condition, timestamp, none, none, none, none, hid, hcondition,
      htimestamp⟩, rfl, rfl, rfl, rfl, rfl, rfl⟩

end

/-- What the members of a record hold that an event is read from. -/
abbrev Members : List Type :=
  [String, Phase, Kind, String, Int64, Option String, Option String, Option Bearer, Option String]

/-- The record that an event is read from, before the rules are looked at. -/
def record : Codec (Row Members) := Codec.record "RawFailureEvent" true fields

/-- The record of an event. -/
def row (e : Event) : Row Members :=
  (e.id, e.phase, e.kind, e.condition, e.timestamp, e.stepId, e.violatedInvariant, e.bearer,
    e.snapshotId, ())

theorem roundTrips_record : record.RoundTrips := by
  have htext : Codec.text.optional.RoundTrips := Codec.roundTrips_text.optional nofun
  have hfields : fields.RoundTrip :=
    ⟨⟨Codec.roundTrips_text, nofun⟩, ⟨Phase.roundTrips_codec, nofun⟩,
      ⟨Kind.roundTrips_codec, nofun⟩, ⟨Codec.roundTrips_text, nofun⟩,
      ⟨Codec.roundTrips_int64, nofun⟩, ⟨htext, nofun⟩, ⟨htext, nofun⟩,
      ⟨Bearer.roundTrips_codec.optional Bearer.write_ne_null, nofun⟩, ⟨htext, nofun⟩, trivial⟩
  exact Codec.roundTrips_record "RawFailureEvent" true hfields (by decide)

theorem within_record : record.Within 2 := by
  have hfields : fields.Within 1 :=
    ⟨Codec.within_text, Codec.within_choice, Codec.within_choice, Codec.within_text,
      Codec.within_int64, Codec.within_text.optional, Codec.within_text.optional,
      Bearer.within_codec.optional, Codec.within_text.optional, trivial⟩
  exact Codec.within_record hfields

/-- The rules for the record of an event; its other members may hold anything. -/
def Rules : Row Members → Prop :=
  fun (id, _, _, condition, timestamp, _) => Sound id condition timestamp

/-- The record of an event keeps the rules, and a record that keeps them is that of an event. -/
theorem exists_row_iff {r : Row Members} : (∃ e : Event, r = e.row) ↔ Rules r := by
  constructor
  · rintro ⟨e, rfl⟩
    exact ⟨e.id_content, e.condition_content, e.timestamp_pos⟩
  · obtain ⟨id, phase, kind, condition, timestamp, stepId, invariant, bearer, snapshotId, ⟨⟩⟩ := r
    rintro ⟨hid, hcondition, htimestamp⟩
    exact ⟨⟨id, phase, kind, condition, timestamp, stepId, invariant, bearer, snapshotId, hid,
      hcondition, htimestamp⟩, rfl⟩

-- The rules are asked of a bare event, and the parts that they do not concern are added to it; so
-- what is made of a record is compared with it part by part.
theorem keepsRules_codec : codec.KeepsRules record row Rules := by
  have hdepth : record.Within 127 := fun r => Nat.le_trans (within_record r) (by decide)
  refine Codec.keepsRules_refine roundTrips_record hdepth ?_ exists_row_iff
  intro r e
  obtain ⟨id, phase, kind, condition, timestamp, stepId, invariant, bearer, snapshotId, ⟨⟩⟩ := r
  dsimp only
  constructor
  · intro h
    split at h
    · cases h
    · next base hbase =>
      obtain ⟨-, rfl, rfl, rfl, rfl, rfl⟩ := make_eq_ok_iff.mp hbase
      cases h
      rfl
  · rintro ⟨⟩
    rw [make_self]
    rfl

theorem roundTrips_codec : codec.RoundTrips :=
  roundTrips_record.refine fun e => by
    simp only [make_self]
    rfl

theorem within_codec : codec.Within 2 := within_record.refine

/-- The event with what a call tells of it: for whom it was made, its step, and the snapshot of the
authority. -/
def ofCall (e : Event) (context : Table) (stepId : Option String) : Event :=
  let e := e.withBearer (.ofContext context)
  let e := stepId.elim e e.withStepId
  (contextText? context snapshotKey).elim e e.withSnapshotId

end Event

/-- **A recorded event is one that could have been made**: made of the cause and the time, and then
given what the call tells of it. -/
theorem Recorder.event_eq_ofCall (r : Recorder) (id : Identifier) (now : Int64) (cause : Cause)
    (context : Table) (phase : Phase) (stepId : Option String) :
    r.event id now cause context phase stepId =
      (r.event id now cause context phase stepId).bare.ofCall context stepId := by
  cases stepId <;> cases hsnapshot : contextText? context snapshotKey <;>
    simp [event, Event.ofCall, Event.bare, Event.withBearer, Event.withStepId,
      Event.withSnapshotId, hsnapshot]

/-- An event is recorded for a cause that the answer tells. -/
theorem Recorder.exists_cause_of_track {σ : Type} {r : Recorder} {authority : Authority σ}
    {id : Identifier} {now : Int64} {call : Call} {phase : Phase} {stepId : Option String} {s : σ}
    {e : Event} {refusal : Option Refusal}
    (h : (r.track authority id now call phase stepId s).1.1 = .failure e refusal) :
    ∃ cause, e = r.event id now cause call.context phase stepId := by
  rw [track_eq] at h
  cases hanswer : (authority call s).1 with
  | error error =>
    rw [hanswer] at h
    cases h
    exact ⟨.ofError error, rfl⟩
  | ok outcome =>
    rw [hanswer] at h
    cases outcome with
    | success data snapshotId => cases h
    | refused refusal =>
      cases h
      exact ⟨.ofRefusal refusal, rfl⟩

/-! ## Histories -/

namespace History

/-- The rules of histories: the name is not blank, and there are events, none of which is older than
the one before it. -/
structure Sound (id : String) (events : List Event) : Prop where
  id_content : Text.isBlank id = false
  events_ne_nil : events ≠ []
  inOrder : InOrder events

section

variable {id : String} {events : List Event}

theorem make_eq_ok_iff {h : History} :
    make id events = .ok h ↔ id = h.id ∧ events = h.events := by
  constructor
  · intro hmake
    rw [make] at hmake
    split at hmake
    · cases hmake
    · split at hmake <;> cases hmake
      exact ⟨rfl, rfl⟩
  · rintro ⟨rfl, rfl⟩
    exact h.make_self

/-- **A history is made** just by the rules. -/
theorem exists_make_iff_sound : (∃ h, make id events = .ok h) ↔ Sound id events := by
  simp only [make_eq_ok_iff]
  constructor
  · rintro ⟨h, rfl, rfl⟩
    exact ⟨h.id_content, h.events_ne_nil, h.inOrder⟩
  · rintro ⟨hid, hne, horder⟩
    exact ⟨⟨id, events, hid, hne, horder⟩, rfl, rfl⟩

end

/-- The record that a history is read from, before the rules are looked at. -/
def record : Codec (Row [String, List Event]) := Codec.record "RawFailureComposition" true fields

/-- The record of a history. -/
def row (h : History) : Row [String, List Event] := (h.id, h.events, ())

/-- The rules for the record of a history. -/
def Rules : Row [String, List Event] → Prop := fun (id, events, _) => Sound id events

theorem roundTrips_record : record.RoundTrips := by
  have hfields : fields.RoundTrip :=
    ⟨⟨Codec.roundTrips_text, nofun⟩, ⟨Event.roundTrips_codec.list, nofun⟩, trivial⟩
  exact Codec.roundTrips_record "RawFailureComposition" true hfields (by decide)

theorem within_record : record.Within 4 := by
  have hfields : fields.Within 3 := ⟨Codec.within_text, Event.within_codec.list, trivial⟩
  exact Codec.within_record hfields

theorem mapError_make_eq_ok_iff {r : Row [String, List Event]} {h : History} :
    (make r.1 r.2.1).mapError Error.message = .ok h ↔ r = h.row := by
  obtain ⟨id, events, ⟨⟩⟩ := r
  simp only [mapError_eq_ok_iff, make_eq_ok_iff, row, Prod.mk.injEq, and_true]

theorem exists_row_iff {r : Row [String, List Event]} : (∃ h : History, r = h.row) ↔ Rules r := by
  refine (exists_congr fun _ => mapError_make_eq_ok_iff.symm).trans ?_
  simp only [mapError_eq_ok_iff]
  exact exists_make_iff_sound

theorem keepsRules_codec : codec.KeepsRules record row Rules := by
  have hdepth : record.Within 127 := fun r => Nat.le_trans (within_record r) (by decide)
  exact Codec.keepsRules_refine roundTrips_record hdepth mapError_make_eq_ok_iff exists_row_iff

end History

/-! ## Verdicts -/

namespace Verdict

/-- The rules of verdicts: they are final, and there are events, none of which is older than the one
before it. -/
structure Sound (events : List Event) (terminal : Bool) : Prop where
  terminal_eq : terminal = true
  events_ne_nil : events ≠ []
  inOrder : InOrder events

section

variable {id : Option String} {events : List Event} {terminal : Bool}

theorem make_eq_ok_iff {v : Verdict} :
    make id events terminal = .ok v ↔ id = v.id ∧ events = v.events ∧ terminal = true := by
  constructor
  · intro hmake
    rw [make] at hmake
    split at hmake
    · next hterminal =>
      split at hmake <;> cases hmake
      exact ⟨rfl, rfl, hterminal⟩
    · cases hmake
  · rintro ⟨rfl, rfl, rfl⟩
    exact v.make_self

/-- **A verdict is made** just by the rules. -/
theorem exists_make_iff_sound :
    (∃ v, make id events terminal = .ok v) ↔ Sound events terminal := by
  simp only [make_eq_ok_iff]
  constructor
  · rintro ⟨v, -, rfl, hterminal⟩
    exact ⟨hterminal, v.events_ne_nil, v.inOrder⟩
  · rintro ⟨hterminal, hne, horder⟩
    exact ⟨⟨id, events, hne, horder⟩, rfl, rfl, hterminal⟩

end

/-- The record that a verdict is read from, before the rules are looked at. -/
def record : Codec (Row [Option String, List Event, Bool]) :=
  Codec.record "RawFailureResult" true fields

/-- The record of a verdict, which says that it is final. -/
def row (v : Verdict) : Row [Option String, List Event, Bool] := (v.id, v.events, true, ())

/-- The rules for the record of a verdict; its name may be missing. -/
def Rules : Row [Option String, List Event, Bool] → Prop :=
  fun (_, events, terminal, _) => Sound events terminal

theorem roundTrips_record : record.RoundTrips := by
  have hfields : fields.RoundTrip :=
    ⟨⟨Codec.roundTrips_text.optional nofun, nofun⟩, ⟨Event.roundTrips_codec.list, nofun⟩,
      ⟨Codec.roundTrips_flag, nofun⟩, trivial⟩
  exact Codec.roundTrips_record "RawFailureResult" true hfields (by decide)

theorem within_record : record.Within 4 := by
  have hfields : fields.Within 3 :=
    ⟨Codec.within_text.optional, Event.within_codec.list, Codec.within_flag, trivial⟩
  exact Codec.within_record hfields

theorem mapError_make_eq_ok_iff {r : Row [Option String, List Event, Bool]} {v : Verdict} :
    (make r.1 r.2.1 r.2.2.1).mapError Error.message = .ok v ↔ r = v.row := by
  obtain ⟨id, events, terminal, ⟨⟩⟩ := r
  simp only [mapError_eq_ok_iff, make_eq_ok_iff, row, Prod.mk.injEq, and_true]

theorem exists_row_iff {r : Row [Option String, List Event, Bool]} :
    (∃ v : Verdict, r = v.row) ↔ Rules r := by
  refine (exists_congr fun _ => mapError_make_eq_ok_iff.symm).trans ?_
  simp only [mapError_eq_ok_iff]
  exact exists_make_iff_sound

theorem keepsRules_codec : codec.KeepsRules record row Rules := by
  have hdepth : record.Within 127 := fun r => Nat.le_trans (within_record r) (by decide)
  exact Codec.keepsRules_refine roundTrips_record hdepth mapError_make_eq_ok_iff exists_row_iff

end Verdict

/-- **Failures are read back, and read by their rules only.**  Events, histories and verdicts are
made just by their rules.  Each is read back from its text, straight and through a value, and a text
is read just if its record keeps the rules, as the one thing that has this record.  The event of a
recorded call is what is made of its parts, with what the call tells of it; and a history makes the
verdict that is made of its name and its events. -/
theorem read_back_and_by_the_rules :
    (∀ id phase kind condition timestamp,
      (∃ e, Event.make id phase kind condition timestamp = .ok e) ↔
        Event.Sound id condition timestamp) ∧
    (∀ id events, (∃ h, History.make id events = .ok h) ↔ History.Sound id events) ∧
    (∀ id events terminal, (∃ v, Verdict.make id events terminal = .ok v) ↔
      Verdict.Sound events terminal) ∧
    Event.codec.KeepsRules Event.record Event.row Event.Rules ∧
    History.codec.KeepsRules History.record History.row History.Rules ∧
    Verdict.codec.KeepsRules Verdict.record Verdict.row Verdict.Rules ∧
    (∀ {σ : Type} (r : Recorder) (authority : Authority σ) (id : Identifier) (now : Int64)
      (call : Call) (phase : Phase) (stepId : Option String) (s : σ) (e : Event)
      (refusal : Option Refusal),
      (r.track authority id now call phase stepId s).1.1 = .failure e refusal →
      ∃ base, Event.make id.text phase e.kind e.condition (r.stamp now) = .ok base ∧
        e = base.ofCall call.context stepId) ∧
    ∀ h : History, Verdict.make (some h.id) h.events true = .ok (.ofHistory h) := by
  refine ⟨fun _ _ _ _ _ => Event.exists_make_iff, fun _ _ => History.exists_make_iff_sound,
    fun _ _ _ => Verdict.exists_make_iff_sound, Event.keepsRules_codec, History.keepsRules_codec,
    Verdict.keepsRules_codec, ?_, fun h => (Verdict.ofHistory h).make_self⟩
  intro σ r authority id now call phase stepId s e refusal h
  obtain ⟨cause, rfl⟩ := Recorder.exists_cause_of_track h
  exact ⟨_, Event.make_self (r.event id now cause call.context phase stepId),
    r.event_eq_ofCall id now cause call.context phase stepId⟩

/-- The context of a call that is made for Alice. -/
def forAlice : Table :=
  ⟨[("principal_id", .str "alice")],
    Json.ordered_of_keys ["principal_id"] rfl (by decide) (by simp [Json.Ordered.str])⟩

/-- The event of a call for Alice that was refused at a step. -/
def refusedStep : Event :=
  ((refusedAt 7 (by decide)).withStepId "s-1").withBearer ⟨some "alice", none⟩

theorem read_back_and_by_the_rules_refused :
    (Recorder.empty.track (fun _ s => (.ok (.refused (.plain Reason.noGrant 4)), s))
        ⟨"f-1", by decide⟩ 7 ⟨"transfer", forAlice⟩ .authorization (some "s-1") ()).1.1 =
      .failure refusedStep (some (.plain Reason.noGrant 4)) ∧
    (∃ base, Event.make "f-1" .authorization refusedStep.kind refusedStep.condition 7 = .ok base ∧
      refusedStep = base.ofCall forAlice (some "s-1")) ∧
    ∀ way, Event.codec.decodeBy way (Event.codec.encode refusedStep).toList = .ok refusedStep := by
  obtain ⟨-, -, -, hevents, -, -, htracked, -⟩ := read_back_and_by_the_rules
  have htrack : (Recorder.empty.track (fun _ s => (.ok (.refused (.plain Reason.noGrant 4)), s))
      ⟨"f-1", by decide⟩ 7 ⟨"transfer", forAlice⟩ .authorization (some "s-1") ()).1.1 =
      .failure refusedStep (some (.plain Reason.noGrant 4)) := rfl
  exact ⟨htrack, htracked _ _ _ _ _ _ _ _ _ _ htrack, fun way => hevents.back way refusedStep⟩

end Failure

end Custody
