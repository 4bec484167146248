import Custody.Plan.Basic
import Custody.Proofs.WrittenRecords

/-!
# Making plans

A plan is made of a name and of steps that are numbered from zero and have names of their own; of
anything else none is made, and the error is that of the first step that is out of place.  A plan
that was read keeps the same rules, and a plan that was written is read back.
-/

namespace Custody

/-! ## The first step that is out of place -/

namespace Plan

/-- A step is out of place if it has another number than its position or a name that was used
before.  The steps begin at a position, and some names have been used already. -/
def OutOfPlace (seen : List String) (position : Nat) (steps : List Step) (i : Nat) (step : Step) :
    Prop :=
  steps[i]? = some step ∧
    (step.order ≠ UInt64.ofNat (position + i) ∨
      step.id ∈ seen ∨ step.id ∈ (steps.take i).map Step.id)

/-- The error for a step that is out of place at a position; its number is looked at first. -/
def errorAt (position : Nat) (step : Step) : PlanError :=
  if step.order = UInt64.ofNat position then .duplicateStepId step.id
  else .outOfSequence step.id position step.order

/-- An error is that of the first step that is out of place. -/
def FirstOutOfPlace (seen : List String) (position : Nat) (steps : List Step) (error : PlanError) :
    Prop :=
  ∃ i step, OutOfPlace seen position steps i step ∧
    (∀ j < i, ∀ other, ¬OutOfPlace seen position steps j other) ∧
    error = errorAt (position + i) step

section

variable {seen : List String} {position : Nat} {first : Step} {rest : List Step}

theorem outOfPlace_zero_iff {step : Step} :
    OutOfPlace seen position (first :: rest) 0 step ↔
      first = step ∧ (step.order ≠ UInt64.ofNat position ∨ step.id ∈ seen) := by
  simp [OutOfPlace]

/-- A later step is out of place among all steps just if it is among those after the first. -/
theorem outOfPlace_succ_iff {i : Nat} {step : Step} :
    OutOfPlace seen position (first :: rest) (i + 1) step ↔
      OutOfPlace (first.id :: seen) (position + 1) rest i step := by
  have hposition : position + (i + 1) = position + 1 + i := by omega
  simp only [OutOfPlace, List.getElem?_cons_succ, List.take_succ_cons, List.map_cons,
    List.mem_cons, hposition, or_assoc]
  rw [or_left_comm (a := step.id ∈ seen)]

/-- If the first step is out of place, its error is the only one. -/
theorem firstOutOfPlace_cons_of_outOfPlace (h : OutOfPlace seen position (first :: rest) 0 first)
    {error : PlanError} : FirstOutOfPlace seen position (first :: rest) error ↔
      error = errorAt position first := by
  constructor
  · rintro ⟨i, step, hstep, hmin, rfl⟩
    cases i with
    | zero =>
      obtain ⟨rfl, -⟩ := outOfPlace_zero_iff.mp hstep
      rfl
    | succ i => exact absurd h (hmin 0 (Nat.succ_pos i) first)
  · rintro rfl
    exact ⟨0, first, h, fun j hj => absurd hj (Nat.not_lt_zero j), rfl⟩

/-- If it is not, the first error is that of the steps after it. -/
theorem firstOutOfPlace_cons_of_not (h : ¬OutOfPlace seen position (first :: rest) 0 first)
    {error : PlanError} : FirstOutOfPlace seen position (first :: rest) error ↔
      FirstOutOfPlace (first.id :: seen) (position + 1) rest error := by
  have hzero : ∀ step, ¬OutOfPlace seen position (first :: rest) 0 step := by
    intro step hstep
    obtain ⟨rfl, -⟩ := outOfPlace_zero_iff.mp hstep
    exact h hstep
  constructor
  · rintro ⟨i, step, hstep, hmin, rfl⟩
    cases i with
    | zero => exact absurd hstep (hzero step)
    | succ i =>
      refine ⟨i, step, outOfPlace_succ_iff.mp hstep, ?_, by rw [Nat.add_right_comm]; rfl⟩
      intro j hj other hother
      exact hmin (j + 1) (Nat.succ_lt_succ hj) other (outOfPlace_succ_iff.mpr hother)
  · rintro ⟨i, step, hstep, hmin, rfl⟩
    refine ⟨i + 1, step, outOfPlace_succ_iff.mpr hstep, ?_, by rw [Nat.add_right_comm]; rfl⟩
    intro j hj other
    cases j with
    | zero => exact hzero other
    | succ j =>
      rw [outOfPlace_succ_iff]
      exact hmin j (Nat.lt_of_succ_lt_succ hj) other

end

-- The induction is on the steps, from any position and with any names used before.
/-- **The error found first** is that of the first step that is out of place. -/
theorem firstError?_eq_some_iff {seen : List String} {position : Nat} {steps : List Step}
    {error : PlanError} : firstError? seen position steps = some error ↔
      FirstOutOfPlace seen position steps error := by
  induction steps generalizing seen position with
  | nil => simp [firstError?, FirstOutOfPlace, OutOfPlace]
  | cons first rest ih =>
    rw [firstError?]
    by_cases horder : first.order = UInt64.ofNat position
    · rw [if_neg (not_not_intro horder)]
      by_cases hseen : first.id ∈ seen
      · have h : OutOfPlace seen position (first :: rest) 0 first :=
          outOfPlace_zero_iff.mpr ⟨rfl, Or.inr hseen⟩
        rw [if_pos hseen, firstOutOfPlace_cons_of_outOfPlace h, errorAt, if_pos horder,
          Option.some.injEq, eq_comm]
      · have h : ¬OutOfPlace seen position (first :: rest) 0 first := by
          simp [outOfPlace_zero_iff, horder, hseen]
        rw [if_neg hseen, ih, firstOutOfPlace_cons_of_not h]
    · have h : OutOfPlace seen position (first :: rest) 0 first :=
        outOfPlace_zero_iff.mpr ⟨rfl, Or.inl horder⟩
      rw [if_pos horder, firstOutOfPlace_cons_of_outOfPlace h, errorAt, if_neg horder,
        Option.some.injEq, eq_comm]

/-! ## What a plan can be made of -/

/-- What a plan is made of: a name that is not blank, and steps, at least one, that are numbered by
their positions and have names of their own. -/
structure Sound (id : String) (steps : List Step) : Prop where
  id_content : Text.isBlank id = false
  steps_ne_nil : steps ≠ []
  numbered : ∀ (i : Nat) (h : i < steps.length), steps[i].order = UInt64.ofNat i
  distinct : (steps.map Step.id).Nodup

/-- Why no plan is made: the name is looked at first, then whether there are steps, and then each
step in turn. -/
inductive Refuses (id : String) (steps : List Step) : PlanError → Prop where
  | emptyId : Text.isBlank id = true → Refuses id steps .emptyId
  | noSteps : Text.isBlank id = false → steps = [] → Refuses id steps .noSteps
  | step {error : PlanError} : Text.isBlank id = false → steps ≠ [] →
      FirstOutOfPlace [] 0 steps error → Refuses id steps error

theorem sound (p : Plan) : Sound p.id p.steps :=
  ⟨p.id_content, p.steps_ne_nil, p.order_eq, p.nodup⟩

/-- No step of sound ones is out of place. -/
theorem Sound.not_outOfPlace {id : String} {steps : List Step} (h : Sound id steps) (i : Nat)
    (step : Step) : ¬OutOfPlace [] 0 steps i step := by
  rintro ⟨hstep, horder | hseen | hbefore⟩
  · obtain ⟨hi, rfl⟩ := List.getElem?_eq_some_iff.mp hstep
    rw [Nat.zero_add] at horder
    exact horder (h.numbered i hi)
  · cases hseen
  · obtain ⟨hi, rfl⟩ := List.getElem?_eq_some_iff.mp hstep
    have hnodup := h.distinct
    rw [← List.take_append_drop i steps, List.drop_eq_getElem_cons hi, List.map_append,
      List.map_cons, List.nodup_append] at hnodup
    exact hnodup.2.2 _ hbefore _ List.mem_cons_self rfl

theorem Sound.firstError? {id : String} {steps : List Step} (h : Sound id steps) :
    firstError? [] 0 steps = none := by
  cases herror : Plan.firstError? [] 0 steps with
  | none => rfl
  | some error =>
    obtain ⟨i, step, hstep, -⟩ := firstError?_eq_some_iff.mp herror
    exact absurd hstep (h.not_outOfPlace i step)

/-- **A plan is made of what is sound.** -/
theorem make_of_sound {id : String} {steps : List Step} (h : Sound id steps) (policy : Policy) :
    ∃ p, make id steps policy = .ok p ∧ p.id = id ∧ p.steps = steps ∧ p.policy = policy := by
  refine ⟨⟨id, steps, policy, h.id_content, h.steps_ne_nil, h.numbered, h.distinct⟩, ?_, rfl, rfl,
    rfl⟩
  rw [make, dif_neg (Bool.eq_false_iff.mp h.id_content), dif_neg h.steps_ne_nil]
  split
  · next error herror =>
    rw [h.firstError?] at herror
    cases herror
  · rfl

theorem make_self (p : Plan) : make p.id p.steps p.policy = .ok p := by
  obtain ⟨q, hq, hid, hsteps, hpolicy⟩ := make_of_sound p.sound p.policy
  rw [hq, Plan.ext hid hsteps hpolicy]

/-- A plan that is made holds what it was made of. -/
theorem parts_eq_of_make {id : String} {steps : List Step} {policy : Policy} {p : Plan}
    (h : make id steps policy = .ok p) : p.id = id ∧ p.steps = steps ∧ p.policy = policy := by
  rw [make] at h
  split at h
  · cases h
  · split at h
    · cases h
    · split at h <;> cases h
      exact ⟨rfl, rfl, rfl⟩

theorem exists_make_iff {id : String} {steps : List Step} {policy : Policy} :
    (∃ p, make id steps policy = .ok p) ↔ Sound id steps := by
  constructor
  · rintro ⟨p, hp⟩
    obtain ⟨rfl, rfl, -⟩ := parts_eq_of_make hp
    exact p.sound
  · intro h
    obtain ⟨p, hp, -⟩ := make_of_sound h policy
    exact ⟨p, hp⟩

/-- **No plan is made** of anything else, and the error tells why. -/
theorem make_eq_error_iff {id : String} {steps : List Step} {policy : Policy} {error : PlanError} :
    make id steps policy = .error error ↔ Refuses id steps error := by
  by_cases hid : Text.isBlank id = true
  · rw [make, dif_pos hid, Except.error.injEq]
    constructor
    · rintro rfl
      exact .emptyId hid
    · rintro (_ | ⟨hcontent, -⟩ | ⟨hcontent, -, -⟩)
      · rfl
      · simp [hid] at hcontent
      · simp [hid] at hcontent
  · have hcontent := Text.isBlank_eq_false hid
    by_cases hsteps : steps = []
    · rw [make, dif_neg hid, dif_pos hsteps, Except.error.injEq]
      constructor
      · rintro rfl
        exact .noSteps hcontent hsteps
      · rintro (hblank | _ | ⟨-, hne, -⟩)
        · exact absurd hblank hid
        · rfl
        · exact absurd hsteps hne
    · have hfirst : make id steps policy = .error error ↔ firstError? [] 0 steps = some error := by
        rw [make, dif_neg hid, dif_neg hsteps]
        split
        · next error' herror => simp [herror]
        · next hnone => simp [hnone]
      rw [hfirst, firstError?_eq_some_iff]
      constructor
      · exact .step hcontent hsteps
      · rintro (hblank | ⟨-, hnil⟩ | ⟨-, -, hstep⟩)
        · exact absurd hblank hid
        · exact absurd hnil hsteps
        · exact hstep

end Plan

/-! ## Plans that are written and read -/

theorem Step.make_self (s : Step) : make s.id s.capability s.context s.order = .ok s := by
  rw [make, dif_neg (Bool.eq_false_iff.mp s.id_content),
    dif_neg (Bool.eq_false_iff.mp s.capability_content)]

theorem Step.roundTrips_codec : codec.RoundTrips := by
  have hfields : fields.RoundTrip :=
    ⟨⟨Codec.roundTrips_text, nofun⟩, ⟨Codec.roundTrips_text, nofun⟩,
      ⟨Codec.roundTrips_table, nofun⟩, ⟨Codec.roundTrips_uint64, nofun⟩, trivial⟩
  refine (Codec.roundTrips_record "RawStep" true hfields (by decide)).refine ?_
  intro s
  show (make s.id s.capability s.context s.order).mapError PlanError.message = .ok s
  rw [s.make_self]
  rfl

theorem Policy.ofName_name (policy : Policy) : ofName policy.name = .ok policy := by
  cases policy
  rfl

theorem Policy.eq_name_of_ofName {s : String} {policy : Policy} (h : ofName s = .ok policy) :
    s = policy.name := by
  cases policy
  rw [ofName] at h
  split at h
  · next hs => exact hs
  · cases h

namespace Plan

theorem ofParts_self (p : Plan) : ofParts p.id p.steps p.policy.name = .ok p := by
  rw [ofParts, Policy.ofName_name]
  exact p.make_self

/-- A plan is made of its own parts and of no others. -/
theorem ofParts_eq_ok_iff {id policy : String} {steps : List Step} {p : Plan} :
    ofParts id steps policy = .ok p ↔ id = p.id ∧ steps = p.steps ∧ policy = p.policy.name := by
  constructor
  · intro h
    rw [ofParts] at h
    split at h
    · cases h
    · next policy hname =>
      obtain ⟨rfl, rfl, rfl⟩ := parts_eq_of_make h
      exact ⟨rfl, rfl, Policy.eq_name_of_ofName hname⟩
  · rintro ⟨rfl, rfl, rfl⟩
    exact p.ofParts_self

/-- The record that a plan is read from, before the rules of plans are looked at. -/
def record : Codec (Row [String, List Step, String]) :=
  Codec.record "RawComposition" true fields

/-- The record of a plan. -/
def row (p : Plan) : Row [String, List Step, String] := (p.id, p.steps, p.policy.name, ())

/-- A plan can be made of no record but its own. -/
theorem mapError_ofParts_eq_ok_iff {r : Row [String, List Step, String]} {p : Plan} :
    (ofParts r.1 r.2.1 r.2.2.1).mapError PlanError.message = .ok p ↔ r = p.row := by
  obtain ⟨id, steps, policy, ⟨⟩⟩ := r
  simp only [mapError_eq_ok_iff, ofParts_eq_ok_iff, row, Prod.mk.injEq, and_true]

/-- **A plan is read** from a text just if its record is. -/
theorem decode_eq_ok_iff {text : List Char} {p : Plan} :
    codec.decode text = .ok p ↔ record.decode text = .ok p.row := by
  refine Codec.decode_refine_eq_ok_iff.trans ?_
  simp only [mapError_ofParts_eq_ok_iff, exists_eq_right, record]

theorem decodeValue_eq_ok_iff {text : List Char} {p : Plan} :
    codec.decodeValue text = .ok p ↔ record.decodeValue text = .ok p.row := by
  refine Codec.decodeValue_refine_eq_ok_iff.trans ?_
  simp only [mapError_ofParts_eq_ok_iff, exists_eq_right, record]

/-- **A plan is read back.** -/
theorem roundTrips_codec : codec.RoundTrips := by
  have hfields : fields.RoundTrip :=
    ⟨⟨Codec.roundTrips_text, nofun⟩, ⟨Step.roundTrips_codec.list, nofun⟩,
      ⟨Codec.roundTrips_text, nofun⟩, trivial⟩
  refine (Codec.roundTrips_record "RawComposition" true hfields (by decide)).refine ?_
  intro p
  exact mapError_ofParts_eq_ok_iff.mpr rfl

/-- **Plans are made of sound steps only.**  A plan is made of a name and steps exactly if they are
sound, and holds just these; if they are not, the error is that of the name, else that there are no
steps, else that of the first step that is out of place.  A plan is read from a text, straight or
through its value, exactly if its record is; so what was read is sound and could be made so, and no
step of it has a blank name or capability.  A plan nested at most 127 deep is read back from its
text in both ways. -/
theorem made_read_and_written_sound :
    (∀ (id : String) (steps : List Step) (policy : Policy),
      ((∃ p, make id steps policy = .ok p) ↔ Sound id steps) ∧
      (∀ p, make id steps policy = .ok p → p.id = id ∧ p.steps = steps ∧ p.policy = policy) ∧
      ∀ error, make id steps policy = .error error ↔ Refuses id steps error) ∧
    (∀ (text : List Char) (p : Plan),
      (codec.decode text = .ok p ↔ record.decode text = .ok p.row) ∧
      (codec.decodeValue text = .ok p ↔ record.decodeValue text = .ok p.row) ∧
      (codec.decode text = .ok p ∨ codec.decodeValue text = .ok p →
        make p.id p.steps p.policy = .ok p ∧ Sound p.id p.steps ∧
        ∀ step ∈ p.steps, Text.isBlank step.id = false ∧ Text.isBlank step.capability = false)) ∧
    ∀ p : Plan, (codec.write p).depth ≤ 127 →
      codec.decode (codec.encode p).toList = .ok p ∧
      codec.decodeValue (codec.encode p).toList = .ok p := by
  refine ⟨fun id steps policy => ⟨exists_make_iff, fun p => parts_eq_of_make,
    fun error => make_eq_error_iff⟩, ?_, fun p => roundTrips_codec.decode_encode⟩
  intro text p
  refine ⟨decode_eq_ok_iff, decodeValue_eq_ok_iff, fun _ => ⟨p.make_self, p.sound, ?_⟩⟩
  intro step _
  exact ⟨step.id_content, step.capability_content⟩

/-- A step that asks for a capability in a context. -/
def reserveStep : Step :=
  ⟨"p-1.0", "reserve", Table.empty.insert "amount" (.ofInt64 5) (.num _), 0, by decide, by decide⟩

/-- The next step, without a context. -/
def settleStep : Step := ⟨"p-1.1", "settle", .empty, 1, by decide, by decide⟩

theorem sound_reserve_settle : Sound "p-1" [reserveStep, settleStep] := by
  refine ⟨by decide, List.cons_ne_nil _ _, ?_, by decide⟩
  intro i hi
  match i, hi with
  | 0, _ => rfl
  | 1, _ => rfl

/-- A plan of these two steps. -/
def reserveThenSettle : Plan :=
  ⟨"p-1", [reserveStep, settleStep], .strict, sound_reserve_settle.id_content,
    sound_reserve_settle.steps_ne_nil, sound_reserve_settle.numbered,
    sound_reserve_settle.distinct⟩

/-- In their order the steps make a plan, which is read back; in the other order they make none. -/
theorem made_read_and_written_sound_two_steps :
    (codec.write reserveThenSettle).depth ≤ 127 ∧
      codec.decode (codec.encode reserveThenSettle).toList = .ok reserveThenSettle ∧
      codec.decodeValue (codec.encode reserveThenSettle).toList = .ok reserveThenSettle ∧
      make "p-1" [reserveStep, settleStep] .strict = .ok reserveThenSettle ∧
      make "p-1" [settleStep, reserveStep] .strict = .error (.outOfSequence "p-1.1" 0 1) := by
  obtain ⟨hmade, hread, hwritten⟩ := made_read_and_written_sound
  have hdepth : (codec.write reserveThenSettle).depth ≤ 127 := by decide
  obtain ⟨hdecode, hvalue⟩ := hwritten reserveThenSettle hdepth
  refine ⟨hdepth, hdecode, hvalue, ((hread _ reserveThenSettle).2.2 (Or.inl hdecode)).1, ?_⟩
  have hplace : OutOfPlace [] 0 [settleStep, reserveStep] 0 settleStep :=
    outOfPlace_zero_iff.mpr ⟨rfl, Or.inl (by decide)⟩
  refine ((hmade "p-1" [settleStep, reserveStep] .strict).2.2 _).mpr ?_
  exact .step (by decide) (List.cons_ne_nil _ _)
    ((firstOutOfPlace_cons_of_outOfPlace hplace).mpr rfl)

end Plan

end Custody
