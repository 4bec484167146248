import Custody.Authority.Basic
import Custody.Proofs.Hex
import Custody.Proofs.StrictRecords
import Custody.Proofs.WrittenRecords

/-!
# Documents of outcomes

An outcome is read in two places: by itself, and as part of an execution.  Each takes a flag and
three members that may be null or missing, and each accepts just two shapes: a success with data and
a snapshot, and a refusal with itself.  What the members say is told here without either reader, and
both are proved to read just that; so where one reads an outcome, the other reads the same.
-/

namespace Custody

/-! ## Members that may be null -/

namespace Document

variable {α : Type}

/-- The member of a name, if it is there and not null. -/
def given? (members : List (String × Document)) (name : String) : Option Document :=
  match members.lookup name with
  | some .null => none
  | d? => d?

/-- What members hold under a name: a thing that is read from the member given, or nothing if none
is. -/
def Holds (c : Codec α) (mode : Mode) (members : List (String × Document)) (name : String) :
    Option α → Prop
  | none => given? members name = none
  | some a => ∃ d, given? members name = some d ∧ c.read mode d = .ok a

end Document

open Document

theorem Document.holds_congr {α : Type} {c : Codec α} {mode : Mode}
    {members others : List (String × Document)} {name otherName : String}
    (h : given? members name = given? others otherName) {a? : Option α} :
    Holds c mode members name a? ↔ Holds c mode others otherName a? := by
  cases a? <;> rw [Holds, Holds, h]

namespace Field

variable {α : Type} {field : Field (Option α)} {c : Codec α} {mode : Mode}
  {members : List (String × Document)}

/-- A member that may be null or missing is shown by what is given of it. -/
theorem shows_optional_iff (hcodec : field.codec = c.optional) (habsent : field.absent = some none)
    {a? : Option α} : field.Shows mode members a? ↔ Holds c mode members field.name a? := by
  rw [Shows, hcodec, habsent]
  cases hlookup : members.lookup field.name with
  | none =>
    cases a? <;> simp [Holds, given?, hlookup]
  | some d =>
    by_cases hnull : d = .null
    · subst hnull
      cases a? <;> simp [Holds, given?, hlookup, Codec.optional]
    · have hgiven : given? members field.name = some d := by
        rw [given?, hlookup]
        cases d with
        | null => exact absurd rfl hnull
        | bool b | num n | str s | arr items closed | obj fields ending => rfl
        | unreadable | broken => rfl
      cases a? <;> simp [Holds, hgiven, Codec.read_optional_of_ne_null hnull, map_eq_ok_iff]

theorem shows_required_iff {name : String} {c : Codec α} {a : α} :
    (required name c).Shows mode members a ↔
      ∃ d, members.lookup name = some d ∧ c.read mode d = .ok a := by
  simp [Shows, required]

end Field

namespace Codec

variable {mode : Mode} {d : Document}

theorem read_text_eq_ok_iff {s : String} : text.read mode d = .ok s ↔ d = .str s := by
  cases d <;> simp [text]

theorem read_flag_eq_ok_iff {b : Bool} : flag.read mode d = .ok b ↔ d = .bool b := by
  cases d <;> simp [flag]

theorem read_int64_eq_ok_iff {n : Int64} : int64.read mode d = .ok n ↔
    ∃ i : Integer, d = .num (.int i) ∧ i.toInt64? = some n := by
  cases d with
  | num number =>
    cases number with
    | int i => cases hword : i.toInt64? <;> simp [int64, hword]
    | float x => simp [int64]
  | null | bool b | str s | arr items closed | obj fields ending | unreadable | broken =>
    simp [int64]

theorem read_digest_eq_ok_iff {digest : Digest} : Digest.codec.read mode d = .ok digest ↔
    ∃ s, d = .str s ∧ Digest.parse s = .ok digest := by
  rw [Digest.codec, read_refine_eq_ok_iff]
  simp only [read_text_eq_ok_iff, mapError_eq_ok_iff]

/-- A table is read from any object that has a value. -/
theorem exists_read_table_iff : (∃ t, table.read mode d = .ok t) ↔
    (∃ members ending, d = .obj members ending) ∧ (d.value? mode).isSome = true := by
  cases d with
  | obj members ending =>
    simp only [table]
    split
    · next v hv => simp [hv]
    · next hnone => simp [hnone]
  | null | bool b | num n | str s | arr items closed | unreadable | broken => simp [table]

end Codec

/-! ## What members say of an outcome -/

namespace Outcome

/-- What members say of an outcome: the flag tells whether it is a success, and a member is given
just if it belongs to the outcome.  The data stand under a key that depends on the place. -/
structure Told (mode : Mode) (dataKey : String) (members : List (String × Document)) (o : Outcome) :
    Prop where
  flag : members.lookup "is_success" = some (.bool o.isSuccess)
  data : Holds .table mode members dataKey o.data?
  snapshotId : Holds .text mode members "snapshot_id" o.snapshotId?
  refusal : Holds Refusal.codec mode members "non_action" o.refusal?

/-- Members that say something of an outcome: the flag is a truth value, each member that is given
is of its kind, and a success has its data and its snapshot and no refusal, a refusal the
opposite. -/
structure Legal (mode : Mode) (dataKey : String) (members : List (String × Document)) : Prop where
  flag : ∃ ok, members.lookup "is_success" = some (.bool ok)
  data : ∀ d ∈ given? members dataKey, (∃ fields ending, d = .obj fields ending) ∧
    (d.value? mode).isSome = true
  snapshotId : ∀ d ∈ given? members "snapshot_id", ∃ s, d = .str s
  refusal : ∀ d ∈ given? members "non_action", ∃ r, Refusal.codec.read mode d = .ok r
  shape : (members.lookup "is_success" = some (.bool true) ∧
      (given? members dataKey).isSome = true ∧ (given? members "snapshot_id").isSome = true ∧
      given? members "non_action" = none) ∨
    (members.lookup "is_success" = some (.bool false) ∧
      given? members dataKey = none ∧ given? members "snapshot_id" = none ∧
      (given? members "non_action").isSome = true)

section

variable {mode : Mode} {dataKey : String} {members : List (String × Document)}

theorem Told.legal {o : Outcome} (h : Told mode dataKey members o) :
    Legal mode dataKey members := by
  obtain ⟨hflag, hdata, hsnapshotId, hrefusal⟩ := h
  cases o with
  | success data snapshotId =>
    obtain ⟨d, hd, hread⟩ := hdata
    obtain ⟨e, he, htext⟩ := hsnapshotId
    have hnone : given? members "non_action" = none := hrefusal
    refine ⟨⟨_, hflag⟩, ?_, ?_, ?_, .inl ⟨hflag, by simp [hd], by simp [he], hnone⟩⟩
    · rw [hd]
      rintro _ ⟨⟩
      exact Codec.exists_read_table_iff.mp ⟨data, hread⟩
    · rw [he]
      rintro _ ⟨⟩
      exact ⟨snapshotId, Codec.read_text_eq_ok_iff.mp htext⟩
    · rw [hnone]
      rintro _ ⟨⟩
  | refused refusal =>
    obtain ⟨d, hd, hread⟩ := hrefusal
    have hnoData : given? members dataKey = none := hdata
    have hnoSnapshot : given? members "snapshot_id" = none := hsnapshotId
    refine ⟨⟨_, hflag⟩, ?_, ?_, ?_, .inr ⟨hflag, hnoData, hnoSnapshot, by simp [hd]⟩⟩
    · rw [hnoData]
      rintro _ ⟨⟩
    · rw [hnoSnapshot]
      rintro _ ⟨⟩
    · rw [hd]
      rintro _ ⟨⟩
      exact ⟨refusal, hread⟩

theorem Legal.exists_told (h : Legal mode dataKey members) :
    ∃ o, Told mode dataKey members o := by
  rcases h.shape with ⟨hflag, hdata, hsnapshotId, hnone⟩ | ⟨hflag, hdata, hsnapshotId, hrefusal⟩
  · obtain ⟨d, hd⟩ := Option.isSome_iff_exists.mp hdata
    obtain ⟨e, he⟩ := Option.isSome_iff_exists.mp hsnapshotId
    obtain ⟨data, hread⟩ := Codec.exists_read_table_iff.mpr (h.data d hd)
    obtain ⟨snapshotId, rfl⟩ := h.snapshotId e he
    exact ⟨.success data snapshotId, hflag, ⟨d, hd, hread⟩, ⟨_, he, rfl⟩, hnone⟩
  · obtain ⟨d, hd⟩ := Option.isSome_iff_exists.mp hrefusal
    obtain ⟨refusal, hread⟩ := h.refusal d hd
    exact ⟨.refused refusal, hflag, hdata, hsnapshotId, ⟨d, hd, hread⟩⟩

/-- **Legal members** are those that tell of an outcome. -/
theorem exists_told_iff : (∃ o, Told mode dataKey members o) ↔ Legal mode dataKey members :=
  ⟨fun ⟨_, h⟩ => h.legal, Legal.exists_told⟩

end

/-! ## Reading an outcome by itself -/

/-- The record of an outcome. -/
def row (o : Outcome) : Row [Bool, Option Table, Option String, Option Refusal] :=
  (o.isSuccess, o.data?, o.snapshotId?, o.refusal?, ())

theorem shows_iff {mode : Mode} {members : List (String × Document)} {o : Outcome} :
    fields.Shows mode members o.row ↔ Told mode "data" members o := by
  constructor
  · rintro ⟨hflag, hdata, hsnapshotId, hrefusal, -⟩
    obtain ⟨d, hd, hread⟩ := Field.shows_required_iff.mp hflag
    obtain rfl := Codec.read_flag_eq_ok_iff.mp hread
    exact ⟨hd, (Field.shows_optional_iff rfl rfl).mp hdata,
      (Field.shows_optional_iff rfl rfl).mp hsnapshotId,
      (Field.shows_optional_iff rfl rfl).mp hrefusal⟩
  · rintro ⟨hflag, hdata, hsnapshotId, hrefusal⟩
    exact ⟨Field.shows_required_iff.mpr ⟨_, hflag, rfl⟩,
      (Field.shows_optional_iff rfl rfl).mpr hdata,
      (Field.shows_optional_iff rfl rfl).mpr hsnapshotId,
      (Field.shows_optional_iff rfl rfl).mpr hrefusal, trivial⟩

/-- **An outcome is read** from an object of its members just if they tell of it. -/
theorem read_codec_eq_ok_iff {mode inner : Mode} (henter : mode.enter = some inner)
    {members : List (String × Document)} {o : Outcome} :
    codec.read mode (.obj members .closed) = .ok o ↔
      Only fields.names members ∧ Told inner "data" members o := by
  rw [codec, Codec.read_refine_eq_ok_iff]
  constructor
  · rintro ⟨⟨ok, data, snapshotId, refusal, ⟨⟩⟩, hread, hpack⟩
    dsimp only at hpack
    split at hpack
    · next outcome houtcome =>
      cases hpack
      obtain ⟨rfl, rfl, rfl, rfl⟩ := ofMembers?_eq_some_iff.mp houtcome
      obtain ⟨honly, hshows⟩ := (Codec.read_strict_closed_iff (by decide) henter).mp hread
      exact ⟨honly, shows_iff.mp hshows⟩
    · cases hpack
  · rintro ⟨honly, htold⟩
    refine ⟨o.row, (Codec.read_strict_closed_iff (by decide) henter).mpr
      ⟨honly, shows_iff.mpr htold⟩, ?_⟩
    simp only [Outcome.row, ofMembers?_self]

end Outcome

/-! ## Reading an outcome as part of an execution -/

namespace Snapshot.Execution

/-- What members say of an execution but for its outcome. -/
structure Surrounds (mode : Mode) (members : List (String × Document)) (x : Execution) : Prop where
  stepId : Holds .text mode members "step_id" x.stepId
  capability : members.lookup "capability_name" = some (.str x.capability)
  contextDigest : ∃ s, members.lookup "context_hash" = some (.str s) ∧
    Digest.parse s = .ok x.contextDigest
  executedAt : ∃ i : Integer, members.lookup "executed_at" = some (.num (.int i)) ∧
    i.toInt64? = some x.executedAt

/-- The record of an execution. -/
def row (x : Execution) : Row [Option String, String, Digest, Option String, Int64, Bool,
    Option Table, Option Refusal] :=
  (x.stepId, x.capability, x.contextDigest, x.outcome.snapshotId?, x.executedAt,
    x.outcome.isSuccess, x.outcome.data?, x.outcome.refusal?, ())

theorem shows_iff {mode : Mode} {members : List (String × Document)} {x : Execution} :
    fields.Shows mode members x.row ↔
      Surrounds mode members x ∧ Outcome.Told mode "result_data" members x.outcome := by
  constructor
  · rintro ⟨hstepId, hcapability, hdigest, hsnapshotId, htime, hflag, hdata, hrefusal, -⟩
    obtain ⟨_, hname, hread⟩ := Field.shows_required_iff.mp hcapability
    obtain rfl := Codec.read_text_eq_ok_iff.mp hread
    obtain ⟨_, hhash, hread⟩ := Field.shows_required_iff.mp hdigest
    obtain ⟨s, rfl, hparse⟩ := Codec.read_digest_eq_ok_iff.mp hread
    obtain ⟨_, hat, hread⟩ := Field.shows_required_iff.mp htime
    obtain ⟨i, rfl, hword⟩ := Codec.read_int64_eq_ok_iff.mp hread
    obtain ⟨_, hok, hread⟩ := Field.shows_required_iff.mp hflag
    obtain rfl := Codec.read_flag_eq_ok_iff.mp hread
    exact ⟨⟨(Field.shows_optional_iff rfl rfl).mp hstepId, hname, ⟨s, hhash, hparse⟩,
        ⟨i, hat, hword⟩⟩,
      hok, (Field.shows_optional_iff rfl rfl).mp hdata,
      (Field.shows_optional_iff rfl rfl).mp hsnapshotId,
      (Field.shows_optional_iff rfl rfl).mp hrefusal⟩
  · rintro ⟨⟨hstepId, hname, ⟨s, hhash, hparse⟩, ⟨i, hat, hword⟩⟩, hok, hdata, hsnapshotId,
      hrefusal⟩
    exact ⟨(Field.shows_optional_iff rfl rfl).mpr hstepId,
      Field.shows_required_iff.mpr ⟨_, hname, rfl⟩,
      Field.shows_required_iff.mpr
        ⟨_, hhash, Codec.read_digest_eq_ok_iff.mpr ⟨s, rfl, hparse⟩⟩,
      (Field.shows_optional_iff rfl rfl).mpr hsnapshotId,
      Field.shows_required_iff.mpr ⟨_, hat, Codec.read_int64_eq_ok_iff.mpr ⟨i, rfl, hword⟩⟩,
      Field.shows_required_iff.mpr ⟨_, hok, rfl⟩,
      (Field.shows_optional_iff rfl rfl).mpr hdata,
      (Field.shows_optional_iff rfl rfl).mpr hrefusal, trivial⟩

/-- **An execution is read** from an object of its members just if they tell of it and of its
outcome. -/
theorem read_codec_eq_ok_iff {mode inner : Mode} (henter : mode.enter = some inner)
    {members : List (String × Document)} {x : Execution} :
    codec.read mode (.obj members .closed) = .ok x ↔
      Only fields.names members ∧ Surrounds inner members x ∧
        Outcome.Told inner "result_data" members x.outcome := by
  rw [codec, Codec.read_refine_eq_ok_iff]
  constructor
  · rintro ⟨⟨stepId, capability, contextDigest, snapshotId, executedAt, ok, data, refusal, ⟨⟩⟩,
      hread, hpack⟩
    dsimp only at hpack
    split at hpack
    · next outcome houtcome =>
      cases hpack
      obtain ⟨rfl, rfl, rfl, rfl⟩ := Outcome.ofMembers?_eq_some_iff.mp houtcome
      obtain ⟨honly, hshows⟩ := (Codec.read_strict_closed_iff (by decide) henter).mp hread
      exact ⟨honly, shows_iff.mp hshows⟩
    · cases hpack
  · rintro ⟨honly, hshows⟩
    refine ⟨x.row, (Codec.read_strict_closed_iff (by decide) henter).mpr
      ⟨honly, shows_iff.mpr hshows⟩, ?_⟩
    simp only [row, Outcome.ofMembers?_self]

end Snapshot.Execution

/-! ## Outcomes that are written -/

namespace Refusal

theorem write_ne_null (r : Refusal) : codec.write r ≠ .null := nofun

theorem roundTrips_codec : codec.RoundTrips := by
  have hfields : fields.RoundTrip :=
    ⟨⟨Codec.roundTrips_text, nofun⟩, ⟨Codec.roundTrips_table, nofun⟩,
      ⟨Codec.roundTrips_int64, nofun⟩, trivial⟩
  exact (Codec.roundTrips_record "NonAction" true hfields (by decide)).iso fun _ => rfl

end Refusal

namespace Outcome

/-- A member that is left out is one that an outcome does not have. -/
theorem eq_none_of_omits {α : Type} {a? : Option α} (h : a?.isNone = true) :
    (some none : Option (Option α)) = some a? := by
  rw [Option.isNone_iff_eq_none.mp h]

/-- **An outcome is read back.** -/
theorem roundTrips_codec : codec.RoundTrips := by
  have hfields : fields.RoundTrip :=
    ⟨⟨Codec.roundTrips_flag, nofun⟩,
      ⟨Codec.roundTrips_table.optional nofun, fun _ => eq_none_of_omits⟩,
      ⟨Codec.roundTrips_text.optional nofun, fun _ => eq_none_of_omits⟩,
      ⟨Refusal.roundTrips_codec.optional Refusal.write_ne_null, fun _ => eq_none_of_omits⟩, trivial⟩
  refine (Codec.roundTrips_record "RawOutcome" true hfields (by decide)).refine ?_
  intro o
  simp only [ofMembers?_self]

/-- Whether the members of an execution say of an outcome what others say of it by themselves; its
data stand under a key of their own there. -/
structure Carries (parts members : List (String × Document)) : Prop where
  flag : members.lookup "is_success" = parts.lookup "is_success"
  data : given? members "data" = given? parts "result_data"
  snapshotId : given? members "snapshot_id" = given? parts "snapshot_id"
  refusal : given? members "non_action" = given? parts "non_action"

theorem Carries.told_iff {parts members : List (String × Document)} (h : Carries parts members)
    {mode : Mode} {o : Outcome} : Told mode "data" members o ↔ Told mode "result_data" parts o := by
  constructor
  · rintro ⟨hflag, hdata, hsnapshotId, hrefusal⟩
    exact ⟨h.flag ▸ hflag, (holds_congr h.data).mp hdata, (holds_congr h.snapshotId).mp hsnapshotId,
      (holds_congr h.refusal).mp hrefusal⟩
  · rintro ⟨hflag, hdata, hsnapshotId, hrefusal⟩
    exact ⟨h.flag ▸ hflag, (holds_congr h.data).mpr hdata,
      (holds_congr h.snapshotId).mpr hsnapshotId, (holds_congr h.refusal).mpr hrefusal⟩

/-- **An outcome is read alike in both places**, whether straight from a text or from a value.  By
itself it is read from an object exactly if that has the members of an outcome only, each at most
once, and they are legal, and then it is what they tell.  From an object that is otherwise an
execution, an execution is read exactly if the outcome is, and with the same outcome.  An outcome
nested at most 127 deep is read back from its text in both ways. -/
theorem outcome_is_read_alike :
    (∀ (mode inner : Mode) (members : List (String × Document)), mode.enter = some inner →
      ((∃ o, codec.read mode (.obj members .closed) = .ok o) ↔
        Only ["is_success", "data", "snapshot_id", "non_action"] members ∧
          Legal inner "data" members) ∧
      ∀ o, codec.read mode (.obj members .closed) = .ok o → Told inner "data" members o) ∧
    (∀ (mode inner : Mode) (members parts : List (String × Document)), mode.enter = some inner →
      Only ["is_success", "data", "snapshot_id", "non_action"] members →
      Only ["step_id", "capability_name", "context_hash", "snapshot_id", "executed_at",
        "is_success", "result_data", "non_action"] parts →
      (∃ x, Snapshot.Execution.Surrounds inner parts x) → Carries parts members →
      ∀ o, codec.read mode (.obj members .closed) = .ok o ↔
        ∃ x, Snapshot.Execution.codec.read mode (.obj parts .closed) = .ok x ∧ x.outcome = o) ∧
    ∀ o : Outcome, (codec.write o).depth ≤ 127 →
      codec.decode (codec.encode o).toList = .ok o ∧
      codec.decodeValue (codec.encode o).toList = .ok o := by
  refine ⟨?_, ?_, fun o => roundTrips_codec.decode_encode⟩
  · intro mode inner members henter
    simp only [read_codec_eq_ok_iff henter]
    refine ⟨?_, fun _ h => h.2⟩
    rw [← exists_told_iff]
    exact exists_and_left
  · rintro mode inner members parts henter hmembers hparts ⟨x, hx⟩ hcarries o
    rw [read_codec_eq_ok_iff henter, hcarries.told_iff]
    simp only [Snapshot.Execution.read_codec_eq_ok_iff henter]
    constructor
    · rintro ⟨-, htold⟩
      exact ⟨{ x with outcome := o },
        ⟨hparts, ⟨hx.stepId, hx.capability, hx.contextDigest, hx.executedAt⟩, htold⟩, rfl⟩
    · rintro ⟨y, ⟨-, -, htold⟩, rfl⟩
      exact ⟨hmembers, htold⟩

/-- A success with a refusal that is null. -/
def plainMembers : List (String × Document) :=
  [("is_success", .bool true), ("data", .obj [] .closed), ("snapshot_id", .str "snap-1"),
    ("non_action", .null)]

/-- An execution with the same outcome, the refusal of which is missing. -/
def plainParts : List (String × Document) :=
  [("capability_name", .str "transfer"),
    ("context_hash", .str (Digest.hex ⟨List.replicate 32 0, rfl⟩)),
    ("executed_at", .num (.int (.ofInt64 2))), ("snapshot_id", .str "snap-1"),
    ("is_success", .bool true), ("result_data", .obj [] .closed)]

theorem outcome_is_read_alike_plain :
    (∃ o, codec.read .fromText (.obj plainMembers .closed) = .ok o) ∧
      (∃ x, Snapshot.Execution.codec.read .fromText (.obj plainParts .closed) = .ok x ∧
        x.outcome = .success .empty "snap-1") ∧
      codec.decode (codec.encode (.success .empty "snap-1")).toList =
        .ok (.success .empty "snap-1") := by
  obtain ⟨hread, halike, hwritten⟩ := outcome_is_read_alike
  have hmembers : Only ["is_success", "data", "snapshot_id", "non_action"] plainMembers :=
    ⟨by decide, by decide⟩
  have hparts : Only ["step_id", "capability_name", "context_hash", "snapshot_id", "executed_at",
      "is_success", "result_data", "non_action"] plainParts := ⟨by decide, by decide⟩
  have htold : codec.read .fromText (.obj plainMembers .closed) = .ok (.success .empty "snap-1") :=
    rfl
  have hx : Snapshot.Execution.Surrounds (.text 126) plainParts
      ⟨none, "transfer", ⟨List.replicate 32 0, rfl⟩, 2, .success .empty "snap-1"⟩ :=
    ⟨rfl, rfl, ⟨_, rfl, Digest.parse_hex _⟩, ⟨_, rfl, rfl⟩⟩
  refine ⟨?_, ?_, (hwritten _ (by decide)).1⟩
  · exact (hread .fromText (.text 126) plainMembers rfl).1.mpr
      ⟨hmembers, ((hread .fromText (.text 126) plainMembers rfl).2 _ htold).legal⟩
  · exact (halike .fromText (.text 126) plainMembers plainParts rfl hmembers hparts ⟨_, hx⟩
      ⟨rfl, rfl, rfl, rfl⟩ _).mp htold

end Outcome

end Custody
