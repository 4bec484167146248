import Custody.Proofs.PlanMaking

/-!
# Plans for lists of calls

The steps of a plan for a list of calls are named after the plan and numbered by their positions.
Whatever the plan is called, such names are not blank and no two of them are the same, so the only
things that can be wrong are a blank capability, which is found first, a blank name of the plan, and
that there are no calls.
-/

namespace Custody.Plan

/-! ## Names of steps -/

theorem toList_stepId (planId : String) (position : Nat) :
    (stepId planId position).toList = planId.toList ++ '.' :: Nat.toDigits 10 position := by
  simp only [stepId, toString, String.toList_append, Nat.toList_repr, List.append_assoc]
  rfl

/-- No name of a step is blank, even if that of the plan is. -/
theorem stepId_content (planId : String) (position : Nat) :
    Text.isBlank (stepId planId position) = false := by
  have hpoint : '.' ∈ (stepId planId position).toList := by
    rw [toList_stepId]
    exact List.mem_append_right _ List.mem_cons_self
  exact Text.isBlank_of_mem hpoint (by decide)

-- The name of the plan may hold points and digits of its own, but it is the same in both names, so
-- what is left after it are the digits of the two positions.
/-- Steps at different positions have different names. -/
theorem stepId_injective {planId : String} {i j : Nat} (h : stepId planId i = stepId planId j) :
    i = j := by
  have hlists : planId.toList ++ '.' :: Nat.toDigits 10 i =
      planId.toList ++ '.' :: Nat.toDigits 10 j := by
    rw [← toList_stepId, ← toList_stepId, h]
  have hdigits : Nat.toDigits 10 i = Nat.toDigits 10 j :=
    List.tail_eq_of_cons_eq (List.append_cancel_left hlists)
  rw [← Number.digitsValue_toDigits i, hdigits, Number.digitsValue_toDigits]

/-! ## Steps of calls -/

/-- The step for a call at a position. -/
structure IsStepOf (planId : String) (position : Nat) (call : Call) (step : Step) : Prop where
  id : step.id = stepId planId position
  order : step.order = UInt64.ofNat position
  call : step.call = call

/-- One step for each call, in the same order and numbered from a position on. -/
structure StepsOf (planId : String) (position : Nat) (calls : List Call) (steps : List Step) :
    Prop where
  length : steps.length = calls.length
  step : ∀ (i : Nat) (hi : i < steps.length) (hcall : i < calls.length),
    IsStepOf planId (position + i) calls[i] steps[i]

section

variable (planId : String) (position : Nat) {call : Call}

theorem make_step_of_blank (h : Text.isBlank call.capability = true) :
    Step.make (stepId planId position) call.capability call.context (UInt64.ofNat position) =
      .error (.emptyCapability (stepId planId position)) := by
  rw [Step.make, dif_neg (Bool.eq_false_iff.mp (stepId_content planId position)), dif_pos h]

theorem make_step_of_content (h : Text.isBlank call.capability = false) :
    ∃ step, Step.make (stepId planId position) call.capability call.context
      (UInt64.ofNat position) = .ok step ∧ IsStepOf planId position call step := by
  refine ⟨⟨stepId planId position, call.capability, call.context, UInt64.ofNat position,
    stepId_content planId position, h⟩, ?_, rfl, rfl, rfl⟩
  rw [Step.make, dif_neg (Bool.eq_false_iff.mp (stepId_content planId position)),
    dif_neg (Bool.eq_false_iff.mp h)]

end

theorem StepsOf.nil {planId : String} {position : Nat} : StepsOf planId position [] [] :=
  ⟨rfl, fun _ hi _ => absurd hi (Nat.not_lt_zero _)⟩

theorem StepsOf.cons {planId : String} {position : Nat} {call : Call} {rest : List Call}
    {step : Step} {steps : List Step} (hstep : IsStepOf planId position call step)
    (h : StepsOf planId (position + 1) rest steps) :
    StepsOf planId position (call :: rest) (step :: steps) := by
  refine ⟨congrArg (· + 1) h.length, ?_⟩
  intro i hi hcall
  cases i with
  | zero => exact hstep
  | succ i =>
    have hrest := h.step i (Nat.lt_of_succ_lt_succ hi) (Nat.lt_of_succ_lt_succ hcall)
    rw [Nat.add_assoc, Nat.add_comm 1 i] at hrest
    exact hrest

/-- The first blank capability ends the making of the steps. -/
theorem stepsOfCalls_of_blank {planId : String} {before after : List Call} {call : Call}
    (hbefore : ∀ c ∈ before, Text.isBlank c.capability = false)
    (hcall : Text.isBlank call.capability = true) (position : Nat) :
    stepsOfCalls planId position (before ++ call :: after) =
      .error (.emptyCapability (stepId planId (position + before.length))) := by
  induction before generalizing position with
  | nil =>
    rw [List.nil_append, stepsOfCalls, make_step_of_blank planId position hcall]
    rfl
  | cons first before ih =>
    obtain ⟨hfirst, hbefore⟩ := List.forall_mem_cons.mp hbefore
    obtain ⟨step, hstep, -⟩ := make_step_of_content planId position hfirst
    rw [List.cons_append, stepsOfCalls, hstep]
    simp only [ih hbefore (position + 1), Except.map, List.length_cons]
    rw [Nat.add_assoc, Nat.add_comm 1]

/-- If no capability is blank, there is a step for each call. -/
theorem stepsOfCalls_of_content {planId : String} {calls : List Call}
    (h : ∀ call ∈ calls, Text.isBlank call.capability = false) (position : Nat) :
    ∃ steps, stepsOfCalls planId position calls = .ok steps ∧
      StepsOf planId position calls steps := by
  induction calls generalizing position with
  | nil => exact ⟨[], rfl, .nil⟩
  | cons call rest ih =>
    obtain ⟨hcall, hrest⟩ := List.forall_mem_cons.mp h
    obtain ⟨step, hstep, hof⟩ := make_step_of_content planId position hcall
    obtain ⟨steps, hsteps, hofs⟩ := ih hrest (position + 1)
    refine ⟨step :: steps, ?_, .cons hof hofs⟩
    rw [stepsOfCalls, hstep]
    simp only [hsteps, Except.map]

/-- Steps of calls have names of their own. -/
theorem StepsOf.nodup {planId : String} {position : Nat} {calls : List Call} {steps : List Step}
    (h : StepsOf planId position calls steps) : (steps.map Step.id).Nodup := by
  rw [List.nodup_iff_pairwise_ne, List.pairwise_map, List.pairwise_iff_getElem]
  intro i j hi hj hij hids
  rw [(h.step i hi (h.length ▸ hi)).id, (h.step j hj (h.length ▸ hj)).id] at hids
  exact Nat.ne_of_lt hij (Nat.add_left_cancel (stepId_injective hids))

/-- **Steps of calls are sound.** -/
theorem StepsOf.sound {planId : String} {calls : List Call} {steps : List Step}
    (h : StepsOf planId 0 calls steps) (hid : Text.isBlank planId = false) (hcalls : calls ≠ []) :
    Sound planId steps := by
  refine ⟨hid, ?_, ?_, h.nodup⟩
  · intro hsteps
    exact hcalls (List.eq_nil_of_length_eq_zero (by rw [← h.length, hsteps]; rfl))
  · intro i hi
    rw [(h.step i hi (h.length ▸ hi)).order, Nat.zero_add]

/-! ## Plans of calls -/

/-- Why there is no plan for some calls: the first blank capability is blamed on its step, and only
then are the name and the number of calls looked at. -/
inductive RefusesCalls (id : String) : List Call → PlanError → Prop where
  | emptyCapability {before after : List Call} {call : Call} :
    (∀ c ∈ before, Text.isBlank c.capability = false) → Text.isBlank call.capability = true →
      RefusesCalls id (before ++ call :: after) (.emptyCapability (stepId id before.length))
  | emptyId {calls : List Call} : (∀ c ∈ calls, Text.isBlank c.capability = false) →
      Text.isBlank id = true → RefusesCalls id calls .emptyId
  | noSteps : Text.isBlank id = false → RefusesCalls id [] .noSteps

/-- What is needed for a plan for some calls. -/
structure Callable (id : String) (calls : List Call) : Prop where
  capability_content : ∀ call ∈ calls, Text.isBlank call.capability = false
  id_content : Text.isBlank id = false
  calls_ne_nil : calls ≠ []

/-- If nothing is to blame, there is all that is needed. -/
theorem exists_refusesCalls_or_callable (id : String) (calls : List Call) :
    (∃ error, RefusesCalls id calls error) ∨ Callable id calls := by
  cases hfind : calls.find? fun call => Text.isBlank call.capability with
  | some call =>
    obtain ⟨hblank, before, after, rfl, hbefore⟩ := List.find?_eq_some_iff_append.mp hfind
    exact Or.inl ⟨_, .emptyCapability (by simpa using hbefore) hblank⟩
  | none =>
    have hcontent : ∀ call ∈ calls, Text.isBlank call.capability = false := by
      simpa using hfind
    cases hid : Text.isBlank id with
    | true => exact Or.inl ⟨_, .emptyId hcontent hid⟩
    | false =>
      by_cases hcalls : calls = []
      · subst hcalls
        exact Or.inl ⟨_, .noSteps hid⟩
      · exact Or.inr ⟨hcontent, hid, hcalls⟩

theorem ofCalls_of_steps {id : String} {calls : List Call} {steps : List Step}
    (h : stepsOfCalls id 0 calls = .ok steps) : ofCalls id calls = make id steps .strict := by
  rw [ofCalls, h]

/-- **The plan for some calls** has just their steps. -/
theorem Callable.ofCalls {id : String} {calls : List Call} (h : Callable id calls) :
    ∃ p, ofCalls id calls = .ok p ∧ p.id = id ∧ p.policy = .strict ∧
      StepsOf id 0 calls p.steps := by
  obtain ⟨steps, hsteps, hof⟩ := stepsOfCalls_of_content h.capability_content 0
  obtain ⟨p, hp, hid, rfl, hpolicy⟩ :=
    make_of_sound (hof.sound h.id_content h.calls_ne_nil) .strict
  exact ⟨p, (ofCalls_of_steps hsteps).trans hp, hid, hpolicy, hof⟩

theorem RefusesCalls.ofCalls {id : String} {calls : List Call} {error : PlanError}
    (h : RefusesCalls id calls error) : ofCalls id calls = .error error := by
  cases h with
  | emptyCapability hbefore hblank =>
    rw [Plan.ofCalls, stepsOfCalls_of_blank hbefore hblank 0, Nat.zero_add]
  | emptyId hcontent hid =>
    obtain ⟨steps, hsteps, -⟩ := stepsOfCalls_of_content hcontent 0
    rw [ofCalls_of_steps hsteps]
    exact make_eq_error_iff.mpr (.emptyId hid)
  | noSteps hid =>
    rw [ofCalls_of_steps rfl]
    exact make_eq_error_iff.mpr (.noSteps hid rfl)

theorem ofCalls_eq_error_iff {id : String} {calls : List Call} {error : PlanError} :
    ofCalls id calls = .error error ↔ RefusesCalls id calls error := by
  refine ⟨fun h => ?_, RefusesCalls.ofCalls⟩
  obtain ⟨error', herror⟩ | hcallable := exists_refusesCalls_or_callable id calls
  · obtain rfl : error' = error := Except.error.inj (herror.ofCalls.symm.trans h)
    exact herror
  · obtain ⟨p, hp, -⟩ := hcallable.ofCalls
    rw [h] at hp
    cases hp

/-- **Plans for lists of calls.**  There is no plan exactly if a capability is blank, which is
blamed on the step of the first such call, or else the name is blank, or else there are no calls.  A
step is never blamed for its own name or number.  In all other cases there is a plan of that name,
with one step for each call in the same order: the step at a position has the name and the number
that belong to the position, and makes just the call. -/
theorem ofCalls_refused_or_stepwise (id : String) (calls : List Call) :
    (∀ error, ofCalls id calls = .error error ↔ RefusesCalls id calls error) ∧
    (∀ error, ofCalls id calls = .error error →
      (∀ order, error ≠ .emptyStepId order) ∧
      (∀ step position order, error ≠ .outOfSequence step position order) ∧
      ∀ step, error ≠ .duplicateStepId step) ∧
    ((∀ call ∈ calls, Text.isBlank call.capability = false) → Text.isBlank id = false →
      calls ≠ [] → ∃ p, ofCalls id calls = .ok p ∧ p.id = id ∧ p.policy = .strict ∧
        p.steps.length = calls.length ∧
        ∀ (i : Nat) (hi : i < p.steps.length) (hcall : i < calls.length),
          p.steps[i].id = stepId id i ∧ p.steps[i].order = UInt64.ofNat i ∧
          p.steps[i].capability = calls[i].capability ∧ p.steps[i].context = calls[i].context) := by
  refine ⟨fun error => ofCalls_eq_error_iff, ?_, ?_⟩
  · intro error herror
    cases ofCalls_eq_error_iff.mp herror <;> exact ⟨nofun, nofun, nofun⟩
  · intro hcontent hid hcalls
    obtain ⟨p, hp, hname, hpolicy, hof⟩ := Callable.ofCalls ⟨hcontent, hid, hcalls⟩
    refine ⟨p, hp, hname, hpolicy, hof.length, ?_⟩
    intro i hi hcall
    have hstep := hof.step i hi hcall
    rw [Nat.zero_add] at hstep
    exact ⟨hstep.id, hstep.order, congrArg Call.capability hstep.call,
      congrArg Call.context hstep.call⟩

-- A blank capability is found before the blank name of the plan, which is in the name of the step.
theorem ofCalls_refused_or_stepwise_blank :
    ofCalls " " [⟨"read", .empty⟩, ⟨"", .empty⟩] = .error (.emptyCapability " .1") := by
  obtain ⟨hrefused, -⟩ := ofCalls_refused_or_stepwise " " [⟨"read", .empty⟩, ⟨"", .empty⟩]
  have hcalls : RefusesCalls " " ([⟨"read", .empty⟩] ++ ⟨"", .empty⟩ :: [])
      (.emptyCapability (stepId " " 1)) := .emptyCapability (by decide) rfl
  exact (hrefused _).mpr hcalls

end Custody.Plan
