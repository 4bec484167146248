import Custody.Proofs.CapturedParts
import Custody.Proofs.Exchanges
import Custody.Proofs.ExportVerification

/-!
# Calls under capture

A guard makes calls one after the other and puts the bundle of each into one archive.  Whatever the
authority answers, each request that is in order is put to it once, and leaves a bundle that says
what was asked, when, and what came of it; none is lost and none is made up.
-/

namespace Custody

/-! ## Archives of several bundles -/

namespace Archive

/-- The archive with some more bundles, one after the other. -/
def storeAll (a : Archive) (bundles : List Bundle) : Archive := bundles.foldl store a

theorem get?_store_self (a : Archive) (b : Bundle) : (a.store b).get? b.id = some b :=
  Assoc.lookup_insert_self b.id b a.bundles

theorem get?_store_of_ne (a : Archive) {b : Bundle} {id : String} (h : id ≠ b.id) :
    (a.store b).get? id = a.get? id :=
  Assoc.lookup_insert_of_ne h b a.bundles

/-- Storing bundles leaves alone what has another name. -/
theorem get?_storeAll_of_notMem {a : Archive} {bundles : List Bundle} {id : String}
    (h : id ∉ bundles.map Bundle.id) : (a.storeAll bundles).get? id = a.get? id := by
  induction bundles generalizing a with
  | nil => rfl
  | cons b rest ih =>
    rw [List.map_cons, List.mem_cons, not_or] at h
    exact (ih h.2).trans (a.get?_store_of_ne h.1)

/-- **Bundles of different names** are all there once they have been stored. -/
theorem get?_storeAll_of_mem {a : Archive} {bundles : List Bundle}
    (h : (bundles.map Bundle.id).Nodup) {b : Bundle} (hb : b ∈ bundles) :
    (a.storeAll bundles).get? b.id = some b := by
  induction bundles generalizing a with
  | nil => cases hb
  | cons first rest ih =>
    obtain ⟨hfirst, hrest⟩ := List.nodup_cons.mp h
    rcases List.mem_cons.mp hb with rfl | hb
    · exact (get?_storeAll_of_notMem hfirst).trans (a.get?_store_self b)
    · exact ih hrest hb

theorem get?_storeAll_empty_iff {bundles : List Bundle} (h : (bundles.map Bundle.id).Nodup)
    {id : String} {b : Bundle} :
    (empty.storeAll bundles).get? id = some b ↔ b ∈ bundles ∧ b.id = id := by
  constructor
  · intro hget
    by_cases hid : id ∈ bundles.map Bundle.id
    · obtain ⟨c, hc, rfl⟩ := List.mem_map.mp hid
      rw [get?_storeAll_of_mem h hc, Option.some.injEq] at hget
      subst hget
      exact ⟨hc, rfl⟩
    · rw [get?_storeAll_of_notMem hid] at hget
      cases hget
  · rintro ⟨hb, rfl⟩
    exact get?_storeAll_of_mem h hb

end Archive

/-! ## One call -/

/-- A request with what is made up for it: a name for the bundle, and what the clock shows. -/
structure Submission where
  request : Request
  readings : Readings
  id : Identifier

/-- What a bundle says of a call, and of the answer to it. -/
structure Evidence (hash : Hasher) (i : Submission) (answer : Answer) (b : Bundle) : Prop where
  id : b.id = i.id.text
  root : b.verifyRoot hash = true
  intent : b.parts.intent.capability = i.request.call.capability ∧
    b.parts.intent.stepId = i.request.stepId
  /-- There is one execution: of the call, in its context, and with the answer to it. -/
  execution : ∃ e, b.parts.executions = [e] ∧ e.capability = i.request.call.capability ∧
    e.stepId = i.request.stepId ∧
    e.contextDigest = hash i.request.call.context.toJson.canonical.toUTF8 ∧
    e.executedAt = b.parts.createdAt ∧ answer.RecordedAs e.outcome ∧
    ((∃ data snapshotId, e.outcome = .success data snapshotId ∧
        b.parts.results = some ⟨data, snapshotId⟩ ∧ b.parts.failure = none) ∨
      ∃ refusal, e.outcome = .refused refusal ∧ b.parts.results = none ∧
        b.parts.failure = some refusal)
  context : b.parts.context.context = i.request.call.context ∧
    b.parts.context.digest = hash i.request.call.context.toJson.canonical.toUTF8
  /-- What is put on record before the call is so at one instant, and that is not after the call. -/
  times : b.parts.context.capturedAt = b.parts.intent.declaredAt ∧
    b.parts.principal.capturedAt = b.parts.intent.declaredAt ∧
    (∀ grant ∈ b.parts.grant, grant.capturedAt = b.parts.intent.declaredAt) ∧
    b.parts.intent.declaredAt ≤ b.parts.createdAt

theorem evidence_of_ofParts {hash : Hasher} {settings : CaptureSettings} {i : Submission}
    {answer : Answer} {b : Bundle}
    (h : Bundle.ofParts hash (i.request.parts hash settings i.readings i.id
      (.ofAnswer i.readings.raised answer)) = .ok b)
    (hparts : b.parts = i.request.parts hash settings i.readings i.id
      (.ofAnswer i.readings.raised answer)) : Evidence hash i answer b where
  id := congrArg Parts.id hparts
  root := Bundle.verifyRoot_of_ofParts h
  intent := by
    rw [hparts]
    exact ⟨rfl, rfl⟩
  execution := by
    rw [hparts]
    refine ⟨_, rfl, rfl, rfl, rfl, rfl, answer.recordedAs_ofAnswer i.readings.raised, ?_⟩
    cases houtcome : Outcome.ofAnswer i.readings.raised answer with
    | success data snapshotId => exact Or.inl ⟨data, snapshotId, rfl, rfl, rfl⟩
    | refused refusal => exact Or.inr ⟨refusal, rfl, rfl, rfl⟩
  context := by
    rw [hparts]
    exact ⟨rfl, rfl⟩
  times := by
    rw [hparts]
    refine ⟨rfl, rfl, ?_, Request.before_le_executedAt i.readings⟩
    intro grant hgrant
    obtain ⟨data, -, rfl⟩ := Option.map_eq_some_iff.mp hgrant
    rfl

namespace Request

variable {σ : Type}

/-- A request that is out of order is refused, and nothing else happens. -/
theorem exists_error_of_not_acceptable {r : Request} {settings : CaptureSettings}
    (h : ¬r.Acceptable settings) : ∃ error, ∀ (τ : Type) (hash : Hasher) (authority : Authority τ)
      (readings : Readings) (id : Identifier) (archive : Archive) (s : τ),
      r.capture hash settings authority readings id archive s = ((.error error, archive), s) := by
  obtain ⟨error, herror⟩ := Option.ne_none_iff_exists'.mp fun hnone =>
    h (error?_eq_none_iff.mp hnone)
  refine ⟨error, ?_⟩
  intro τ hash authority readings id archive s
  simp only [capture, herror]

/-- A request that is in order makes one call, and its bundle is stored whatever the answer is. -/
theorem capture_eq {r : Request} {settings : CaptureSettings} {hash : Hasher} {readings : Readings}
    {id : Identifier} {authority : Authority σ} {s t : σ} {outcome : Outcome} {b : Bundle}
    (hr : r.Acceptable settings)
    (hcall : authority.callFailClosed readings.raised r.call s = (outcome, t))
    (hb : Bundle.ofParts hash (r.parts hash settings readings id outcome) = .ok b)
    (archive : Archive) :
    r.capture hash settings authority readings id archive s = ((.ok b, archive.store b), t) := by
  simp only [capture, error?_eq_none_iff.mpr hr, hcall, hb]

end Request

/-! ## Many calls -/

/-- A call that was tried under capture: a request out of order was refused, any other left a bundle
as evidence of the answer to it. -/
inductive Attempt (hash : Hasher) (settings : CaptureSettings) where
  | refused (i : Submission) (error : EvidenceError) (h : ¬i.request.Acceptable settings)
  | captured (i : Submission) (answer : Answer) (b : Bundle) (h : i.request.Acceptable settings)
      (evidence : Evidence hash i answer b)

namespace Attempt

variable {hash : Hasher} {settings : CaptureSettings}

def submission : Attempt hash settings → Submission
  | .refused i _ _ => i
  | .captured i _ _ _ _ => i

def result : Attempt hash settings → Except EvidenceError Bundle
  | .refused _ error _ => .error error
  | .captured _ _ b _ _ => .ok b

/-- What was said to the authority, and by it. -/
def exchanges : Attempt hash settings → List Exchange
  | .refused _ _ _ => []
  | .captured i answer _ _ _ => [⟨i.request.call, answer⟩]

def bundle? : Attempt hash settings → Option Bundle
  | .refused _ _ _ => none
  | .captured _ _ b _ _ => some b

theorem result_eq_ok_iff {a : Attempt hash settings} {b : Bundle} :
    a.result = .ok b ↔ a.bundle? = some b := by
  cases a with
  | refused i error h =>
    constructor <;> intro heq <;> cases heq
  | captured i answer c h evidence => rw [result, bundle?, Except.ok.injEq, Option.some.injEq]

theorem id_of_bundle? {a : Attempt hash settings} {b : Bundle} (h : a.bundle? = some b) :
    b.id = a.submission.id.text := by
  cases a with
  | refused i error _ => cases h
  | captured i answer c _ evidence =>
    cases h
    exact evidence.id

/-- A request that is in order leaves a bundle. -/
theorem exists_bundle {a : Attempt hash settings}
    (h : a.submission.request.Acceptable settings) :
    ∃ answer b, a.result = .ok b ∧ Evidence hash a.submission answer b := by
  cases a with
  | refused i error hnot => exact absurd h hnot
  | captured i answer b _ evidence => exact ⟨answer, b, rfl, evidence⟩

/-- The names of the bundles are among those that were made up, in their order. -/
theorem ids_sublist (attempts : List (Attempt hash settings)) :
    ((attempts.filterMap bundle?).map Bundle.id).Sublist
      (attempts.map fun a => a.submission.id.text) := by
  induction attempts with
  | nil => exact List.Sublist.slnil
  | cons a rest ih =>
    cases hbundle : a.bundle? with
    | none =>
      rw [List.filterMap_cons_none hbundle, List.map_cons]
      exact ih.cons _
    | some b =>
      rw [List.filterMap_cons_some hbundle, List.map_cons, List.map_cons, id_of_bundle? hbundle]
      exact ih.cons_cons _

end Attempt

namespace Submission

variable {σ : Type}

/-- Makes calls under capture, one after the other. -/
def captureAll (hash : Hasher) (settings : CaptureSettings) (authority : Authority σ) :
    List Submission → Archive → σ → (List (Except EvidenceError Bundle) × Archive) × σ
  | [], archive, s => (([], archive), s)
  | i :: rest, archive, s =>
    let ((result, archive), s) :=
      i.request.capture hash settings authority i.readings i.id archive s
    let ((results, archive), s) := captureAll hash settings authority rest archive s
    ((result :: results, archive), s)

theorem captureAll_cons {hash : Hasher} {settings : CaptureSettings} {authority : Authority σ}
    {i : Submission} {rest : List Submission} {first second third : Archive} {s t u : σ}
    {result : Except EvidenceError Bundle} {results : List (Except EvidenceError Bundle)}
    (hcall : i.request.capture hash settings authority i.readings i.id first s =
      ((result, second), t))
    (hrest : captureAll hash settings authority rest second t = ((results, third), u)) :
    captureAll hash settings authority (i :: rest) first s = ((result :: results, third), u) := by
  simp only [captureAll, hcall, hrest]

-- The induction is on the calls.  The archive is that of the calls before, the authority is in the
-- state in which they have left it, and `past` is what it was asked by them.
/-- **Calls under capture** are attempts, and nothing else happens to the archive and the
authority. -/
theorem exists_attempts (hash : Hasher) (settings : CaptureSettings) (authority : Authority σ)
    (calls : List Submission) (hclock : ∀ i ∈ calls, 0 < i.readings.before) (archive : Archive)
    (s : σ) (past : List Exchange) :
    ∃ (attempts : List (Attempt hash settings)) (t : σ),
      attempts.map Attempt.submission = calls ∧
      captureAll hash settings authority calls archive s =
        ((attempts.map Attempt.result, archive.storeAll (attempts.filterMap Attempt.bundle?)), t) ∧
      captureAll hash settings authority.observed calls archive (s, past) =
        ((attempts.map Attempt.result, archive.storeAll (attempts.filterMap Attempt.bundle?)), t,
          past ++ attempts.flatMap Attempt.exchanges) := by
  induction calls generalizing archive s past with
  | nil =>
    refine ⟨[], s, rfl, rfl, ?_⟩
    rw [List.flatMap_nil, List.append_nil]
    rfl
  | cons i rest ih =>
    have hrest : ∀ i ∈ rest, 0 < i.readings.before :=
      fun other hother => hclock other (List.mem_cons_of_mem i hother)
    by_cases hacceptable : i.request.Acceptable settings
    · let answer := (authority i.request.call s).1
      obtain ⟨b, hb, hparts⟩ := Bundle.exists_ofParts hash
        (Request.parts_error?_eq_none hash i.id (.ofAnswer i.readings.raised answer) hacceptable
          (hclock i List.mem_cons_self))
      have hcall : authority.callFailClosed i.readings.raised i.request.call s =
          (.ofAnswer i.readings.raised answer, (authority i.request.call s).2) := rfl
      have hobserved :=
        authority.callFailClosed_observed i.readings.raised i.request.call s past
      let attempt : Attempt hash settings :=
        .captured i answer b hacceptable (evidence_of_ofParts hb hparts)
      obtain ⟨attempts, t, hcalls, hrun, hrun'⟩ := ih hrest (archive.store b)
        (authority i.request.call s).2 (past ++ [⟨i.request.call, answer⟩])
      refine ⟨attempt :: attempts, t, ?_, ?_, ?_⟩
      · rw [List.map_cons, hcalls]
        rfl
      · exact captureAll_cons (Request.capture_eq hacceptable hcall hb archive) hrun
      · rw [captureAll_cons (Request.capture_eq hacceptable hobserved hb archive) hrun',
          List.append_assoc]
        rfl
    · obtain ⟨error, herror⟩ := Request.exists_error_of_not_acceptable hacceptable
      obtain ⟨attempts, t, hcalls, hrun, hrun'⟩ := ih hrest archive s past
      refine ⟨.refused i error hacceptable :: attempts, t, ?_, ?_, ?_⟩
      · rw [List.map_cons, hcalls]
        rfl
      · exact captureAll_cons (herror _ _ _ _ _ _ _) hrun
      · exact captureAll_cons (herror _ _ _ _ _ _ _) hrun'

/-- **No call under capture is lost or doubled.**  Of calls with names of their own, made when the
clock shows positive times, each that is in order is put to the authority once, in their order and
with nothing else in between, and gives a bundle that is evidence of the answer.  The archive then
holds just these bundles. -/
theorem captureAll_keeps_every_call (hash : Hasher) (settings : CaptureSettings)
    (authority : Authority σ) (calls : List Submission) (s : σ)
    (hclock : ∀ i ∈ calls, 0 < i.readings.before)
    (hids : (calls.map fun i => i.id.text).Nodup) :
    ∃ (attempts : List (Attempt hash settings)) (archive : Archive) (t : σ),
      attempts.map Attempt.submission = calls ∧
      captureAll hash settings authority calls .empty s =
        ((attempts.map Attempt.result, archive), t) ∧
      captureAll hash settings authority.observed calls .empty (s, []) =
        ((attempts.map Attempt.result, archive), t, attempts.flatMap Attempt.exchanges) ∧
      ∀ id b, archive.get? id = some b ↔ .ok b ∈ attempts.map Attempt.result ∧ b.id = id := by
  obtain ⟨attempts, t, hcalls, hrun, hobserved⟩ :=
    exists_attempts hash settings authority calls hclock .empty s []
  refine ⟨attempts, _, t, hcalls, hrun, hobserved, ?_⟩
  have hnodup : ((attempts.filterMap Attempt.bundle?).map Bundle.id).Nodup := by
    apply (Attempt.ids_sublist attempts).nodup
    rw [← hcalls, List.map_map] at hids
    exact hids
  intro id b
  rw [Archive.get?_storeAll_empty_iff hnodup, List.mem_filterMap, List.mem_map]
  refine and_congr_left fun _ => exists_congr fun attempt => and_congr_right fun _ => ?_
  exact Attempt.result_eq_ok_iff.symm

/-- A call that is over before it began, by a clock that was set back meanwhile. -/
def setBack : Submission where
  request := ⟨⟨"transfer", .empty⟩, none, some "step-1"⟩
  readings := ⟨5, 4, 3⟩
  id := ⟨"b-1", by decide⟩

/-- Another call, by the same clock. -/
def followUp : Submission where
  request := ⟨⟨"settle", .empty⟩, none, some "step-2"⟩
  readings := ⟨3, 3, 4⟩
  id := ⟨"b-2", by decide⟩

/-- An authority that raises an error when it is first asked, and then does what it is asked for. -/
def recovering : Authority Bool
  | _, false => (.error (.raised "timeout"), true)
  | _, true => (.ok (.success .empty "s-1"), true)

/-- Each has its bundle, the one with the error too. -/
theorem captureAll_keeps_every_call_set_back :
    ∃ (hash : Hasher) (results : List (Except EvidenceError Bundle)) (archive : Archive)
      (t : Bool) (b c : Bundle),
      ([setBack, followUp].map fun i => i.id.text).Nodup ∧
      captureAll hash .default recovering [setBack, followUp] .empty false =
        ((results, archive), t) ∧
      archive.get? "b-1" = some b ∧ b.verifyRoot hash = true ∧
      b.parts.intent.capability = "transfer" ∧
      archive.get? "b-2" = some c ∧ c.verifyRoot hash = true ∧
      c.parts.intent.capability = "settle" := by
  let hash : Hasher := fun _ => ⟨List.replicate 32 0, rfl⟩
  have hclock : ∀ i ∈ [setBack, followUp], 0 < i.readings.before := by decide
  have hids : ([setBack, followUp].map fun i => i.id.text).Nodup := by decide
  obtain ⟨attempts, archive, t, hcalls, hrun, -, harchive⟩ :=
    captureAll_keeps_every_call hash .default recovering [setBack, followUp] false hclock hids
  obtain ⟨first, rest, rfl, hfirst, hrest⟩ := List.map_eq_cons_iff.mp hcalls
  obtain ⟨second, rfl, hsecond⟩ := List.map_eq_singleton_iff.mp hrest
  have hbefore : first.submission.request.Acceptable .default := by
    rw [hfirst]
    exact ⟨by decide, by decide⟩
  have hafter : second.submission.request.Acceptable .default := by
    rw [hsecond]
    exact ⟨by decide, by decide⟩
  obtain ⟨_, b, hb, hbevidence⟩ := Attempt.exists_bundle hbefore
  obtain ⟨_, c, hc, hcevidence⟩ := Attempt.exists_bundle hafter
  rw [hfirst] at hbevidence
  rw [hsecond] at hcevidence
  refine ⟨hash, _, archive, t, b, c, hids, hrun, ?_, hbevidence.root, hbevidence.intent.1, ?_,
    hcevidence.root, hcevidence.intent.1⟩
  · refine (harchive "b-1" b).mpr ⟨?_, hbevidence.id⟩
    rw [← hb]
    exact List.mem_cons_self
  · refine (harchive "b-2" c).mpr ⟨?_, hcevidence.id⟩
    rw [← hc]
    exact List.mem_cons_of_mem _ List.mem_cons_self

end Submission

end Custody
