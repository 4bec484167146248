import Custody.Plan.Run
import Custody.Proofs.Exchanges

/-!
# What a run does

A run tries the steps of a plan in their order.  Each is tried once, with its own capability and its
own context, until an answer is no success; then nothing more is tried.  So a run is told by the
steps that were tried and the answers to them: the report lists them, the ending is that of the
last, and the authority was asked nothing else.
-/

namespace Custody

/-- A step that was tried: the answer to it and the outcome that is reported for it. -/
structure Trial where
  step : Step
  answer : Answer
  outcome : Outcome
  recorded : answer.RecordedAs outcome

namespace Trial

def succeeded (t : Trial) : Bool := t.answer.succeeded

/-- What was said to the authority for a trial, and by it. -/
def exchange (t : Trial) : Exchange := ⟨t.step.call, t.answer⟩

/-- What is reported of a trial. -/
def report (t : Trial) : StepReport := ⟨t.step.id, t.step.order, t.outcome⟩

/-- How a run ends whose last trial this is. -/
def ending (t : Trial) : Ending :=
  match t.outcome with
  | .success data _ => .completed data
  | .refused refusal => .halted refusal t.step.id

theorem isSuccess_outcome (t : Trial) : t.outcome.isSuccess = t.succeeded :=
  t.recorded.isSuccess_eq

theorem ending_eq_completed_iff {t : Trial} {data : Table} :
    t.ending = .completed data ↔ ∃ snapshotId, t.answer = .ok (.success data snapshotId) := by
  constructor
  · intro h
    unfold ending at h
    split at h
    · next data' snapshotId houtcome =>
      cases h
      exact ⟨snapshotId, t.recorded.eq_success_iff.mp houtcome⟩
    · cases h
  · rintro ⟨snapshotId, hanswer⟩
    rw [ending, t.recorded.eq_success_iff.mpr hanswer]

theorem ending_eq_halted_iff {t : Trial} {refusal : Refusal} {stepId : String} :
    t.ending = .halted refusal stepId ↔ t.outcome = .refused refusal ∧ t.step.id = stepId := by
  unfold ending
  cases t.outcome with
  | success data snapshotId =>
    constructor
    · intro h
      cases h
    · rintro ⟨h, -⟩
      cases h
  | refused other => rw [Ending.halted.injEq, Outcome.refused.injEq]

theorem state_ending (t : Trial) : t.ending.state = .completed ↔ t.succeeded = true := by
  rw [← t.isSuccess_outcome, ending]
  cases t.outcome with
  | success data snapshotId => exact ⟨fun _ => rfl, fun _ => rfl⟩
  | refused refusal => constructor <;> intro h <;> cases h

end Trial

namespace Plan

variable {σ : Type}

/-- What trying steps in order comes to, if `last` are the data of the step before them: a beginning
of them was tried, all tried steps but the last succeeded, and nothing was left out unless the last
did not. -/
structure Tried (steps : List Step) (last : Table) (trials : List Trial) (ending : Ending) :
    Prop where
  steps_eq : trials.map Trial.step = steps.take trials.length
  succeeded : ∀ t ∈ trials.dropLast, t.succeeded = true
  stopped : trials.length = steps.length ∨ ∃ t ∈ trials.getLast?, t.succeeded = false
  ending_eq : ending = (trials.getLast?.map Trial.ending).getD (.completed last)

namespace Tried

theorem nil (last : Table) : Tried [] last [] (.completed last) :=
  ⟨rfl, fun _ h => absurd h List.not_mem_nil, Or.inl rfl, rfl⟩

/-- A step that succeeds is followed by the others, which begin with its data. -/
theorem cons {t : Trial} {rest : List Step} {last data : Table} {snapshotId : String}
    {trials : List Trial} {ending : Ending} (hdata : t.outcome = .success data snapshotId)
    (h : Tried rest data trials ending) : Tried (t.step :: rest) last (t :: trials) ending where
  steps_eq := by
    rw [List.map_cons, List.length_cons, List.take_succ_cons, h.steps_eq]
  succeeded := by
    have hsucceeded : t.succeeded = true := by
      rw [← t.isSuccess_outcome, hdata]
      rfl
    intro other hother
    cases trials with
    | nil => cases hother
    | cons next more =>
      rcases List.mem_cons.mp hother with rfl | hother
      · exact hsucceeded
      · exact h.succeeded other hother
  stopped := by
    rcases h.stopped with hlength | ⟨other, hother, hfailed⟩
    · refine Or.inl ?_
      rw [List.length_cons, List.length_cons, hlength]
    · refine Or.inr ⟨other, ?_, hfailed⟩
      rw [List.getLast?_cons, hother]
      rfl
  ending_eq := by
    have hending : t.ending = .completed data := by
      rw [Trial.ending, hdata]
    rw [h.ending_eq, List.getLast?_cons]
    cases trials.getLast? with
    | none => exact hending.symm
    | some other => rfl

/-- A step that is refused is the last. -/
theorem refused {t : Trial} {refusal : Refusal} (rest : List Step) (last : Table)
    (h : t.outcome = .refused refusal) :
    Tried (t.step :: rest) last [t] (.halted refusal t.step.id) where
  steps_eq := rfl
  succeeded := fun _ h => absurd h List.not_mem_nil
  stopped := by
    refine Or.inr ⟨t, rfl, ?_⟩
    rw [← t.isSuccess_outcome, h]
    rfl
  ending_eq := (Trial.ending_eq_halted_iff.mpr ⟨h, rfl⟩).symm

end Tried

/-! ## One step, then all -/

theorem runSteps_success {authority : Authority σ} {clock : Nat → Int64} {position : Nat}
    {step : Step} {rest : List Step} {last data : Table} {snapshotId : String} {s t u : σ}
    {reports : List StepReport} {ending : Ending}
    (hcall : authority.callFailClosed (clock position) step.call s = (.success data snapshotId, t))
    (hrest : runSteps authority clock (position + 1) data rest t = ((reports, ending), u)) :
    runSteps authority clock position last (step :: rest) s =
      ((⟨step.id, step.order, .success data snapshotId⟩ :: reports, ending), u) := by
  simp only [runSteps, hcall, hrest]

theorem runSteps_refused {authority : Authority σ} {clock : Nat → Int64} {position : Nat}
    {step : Step} {refusal : Refusal} {s t : σ} (rest : List Step) (last : Table)
    (hcall : authority.callFailClosed (clock position) step.call s = (.refused refusal, t)) :
    runSteps authority clock position last (step :: rest) s =
      (([⟨step.id, step.order, .refused refusal⟩], .halted refusal step.id), t) := by
  simp only [runSteps, hcall]

-- The induction is on the steps that are left.  The authority is in whatever state the steps before
-- have left it in, so its state is general, and so is the record of what it was asked before.
/-- **What performing steps comes to**: some of them are tried, the authority is asked for just
these, and they are what is reported. -/
theorem exists_tried (authority : Authority σ) (clock : Nat → Int64) (steps : List Step)
    (position : Nat) (last : Table) (s : σ) (past : List Exchange) :
    ∃ trials ending t, Tried steps last trials ending ∧
      runSteps authority clock position last steps s = ((trials.map Trial.report, ending), t) ∧
      runSteps authority.observed clock position last steps (s, past) =
        ((trials.map Trial.report, ending), t, past ++ trials.map Trial.exchange) := by
  induction steps generalizing position last s past with
  | nil =>
    refine ⟨[], .completed last, s, .nil last, rfl, ?_⟩
    rw [List.map_nil, List.map_nil, List.append_nil]
    rfl
  | cons step rest ih =>
    let answer := (authority step.call s).1
    let trial : Trial :=
      ⟨step, answer, .ofAnswer (clock position) answer, answer.recordedAs_ofAnswer _⟩
    have hcall : authority.callFailClosed (clock position) step.call s =
        (trial.outcome, (authority step.call s).2) := rfl
    have hobserved := authority.callFailClosed_observed (clock position) step.call s past
    rw [hcall] at hobserved
    cases houtcome : trial.outcome with
    | success data snapshotId =>
      rw [houtcome] at hcall hobserved
      obtain ⟨trials, ending, t, htried, hrun, hrun'⟩ :=
        ih (position + 1) data (authority step.call s).2 (past ++ [trial.exchange])
      have hreport : trial.report = ⟨step.id, step.order, .success data snapshotId⟩ := by
        rw [Trial.report, houtcome]
      refine ⟨trial :: trials, ending, t, htried.cons houtcome, ?_, ?_⟩
      · rw [runSteps_success hcall hrun, List.map_cons, hreport]
      · rw [runSteps_success hobserved hrun', List.map_cons, hreport, List.map_cons,
          List.append_assoc]
        rfl
    | refused refusal =>
      rw [houtcome] at hcall hobserved
      have hreport : trial.report = ⟨step.id, step.order, .refused refusal⟩ := by
        rw [Trial.report, houtcome]
      refine ⟨[trial], .halted refusal step.id, (authority step.call s).2,
        .refused rest last houtcome, ?_, ?_⟩
      · rw [runSteps_refused rest last hcall, List.map_singleton, hreport]
      · rw [runSteps_refused rest last hobserved, List.map_singleton, hreport]
        rfl

theorem run_eq {authority : Authority σ} {clock : Nat → Int64} {plan : Plan} {s t : σ}
    {reports : List StepReport} {ending : Ending}
    (h : runSteps authority clock 0 .empty plan.steps s = ((reports, ending), t)) :
    plan.run authority clock s = (⟨plan.id, reports, ending⟩, t) := by
  simp only [run, h]

/-- Of steps of which there is one, a last one was tried. -/
theorem Tried.exists_last {steps : List Step} {data : Table} {trials : List Trial} {ending : Ending}
    (h : Tried steps data trials ending) (hsteps : steps ≠ []) :
    ∃ front last, trials = front ++ [last] ∧ ending = last.ending := by
  have htrials : trials ≠ [] := by
    rintro rfl
    rcases h.stopped with hlength | ⟨t, ht, -⟩
    · exact hsteps (List.length_eq_zero_iff.mp hlength.symm)
    · cases ht
  refine ⟨trials.dropLast, trials.getLast htrials,
    (List.dropLast_concat_getLast htrials).symm, ?_⟩
  rw [h.ending_eq, List.getLast?_eq_some_getLast htrials]
  rfl

/-- **A run stops at the first failure.**  For some `k`, the authority is asked for the steps up to
number `k` of the plan, in order and once each, and for nothing else.  All before the last of these
succeed, and it is the last of the plan if it does so too.  The report lists just these steps, each
with the answer to it, and ends with the last: the run is completed with its data if every step of
the plan succeeded, and else halted there with its refusal. -/
theorem run_stops_at_first_failure (authority : Authority σ) (clock : Nat → Int64) (plan : Plan)
    (s : σ) :
    ∃ (k : Nat) (front : List Trial) (last : Trial) (ending : Ending) (t : σ),
      k < plan.steps.length ∧
      (front ++ [last]).map Trial.step = plan.steps.take (k + 1) ∧
      plan.run authority clock s =
        (⟨plan.id, (front ++ [last]).map Trial.report, ending⟩, t) ∧
      plan.run authority.observed clock (s, []) =
        (⟨plan.id, (front ++ [last]).map Trial.report, ending⟩, t,
          (front ++ [last]).map Trial.exchange) ∧
      (∀ trial ∈ front, trial.succeeded = true ∧ trial.report.outcome.isSuccess = true) ∧
      (last.succeeded = true → k + 1 = plan.steps.length) ∧
      (ending.state = .completed ↔
        k + 1 = plan.steps.length ∧ ∀ trial ∈ front ++ [last], trial.succeeded = true) ∧
      (∀ data, ending = .completed data ↔
        ∃ snapshotId, last.answer = .ok (.success data snapshotId)) ∧
      ∀ refusal stepId, ending = .halted refusal stepId ↔
        last.report.outcome = .refused refusal ∧ last.report.stepId = stepId := by
  obtain ⟨trials, ending, t, htried, hrun, hobserved⟩ :=
    exists_tried authority clock plan.steps 0 .empty s []
  obtain ⟨front, last, rfl, rfl⟩ := htried.exists_last plan.steps_ne_nil
  have hsteps := htried.steps_eq
  rw [List.length_append, List.length_singleton] at hsteps
  have hfront : ∀ trial ∈ front, trial.succeeded = true := by
    have hbefore := htried.succeeded
    rw [List.dropLast_concat] at hbefore
    exact hbefore
  have hlast : last.succeeded = true → front.length + 1 = plan.steps.length := by
    intro hsucceeded
    rcases htried.stopped with hlength | ⟨trial, htrial, hfailed⟩
    · rw [← hlength, List.length_append, List.length_singleton]
    · rw [List.getLast?_concat, Option.mem_some_iff] at htrial
      subst htrial
      rw [hsucceeded] at hfailed
      cases hfailed
  have hk : front.length < plan.steps.length := by
    have hlengths := congrArg List.length hsteps
    simp only [List.length_map, List.length_append, List.length_singleton, List.length_take]
      at hlengths
    omega
  refine ⟨front.length, front, last, last.ending, t, hk, hsteps, run_eq hrun, run_eq hobserved, ?_,
    hlast, ?_, fun data => Trial.ending_eq_completed_iff,
    fun refusal stepId => Trial.ending_eq_halted_iff⟩
  · intro trial htrial
    exact ⟨hfront trial htrial, trial.isSuccess_outcome.trans (hfront trial htrial)⟩
  · rw [Trial.state_ending]
    constructor
    · intro hsucceeded
      refine ⟨hlast hsucceeded, ?_⟩
      intro trial htrial
      rcases List.mem_append.mp htrial with htrial | htrial
      · exact hfront trial htrial
      · rw [List.mem_singleton.mp htrial]
        exact hsucceeded
    · rintro ⟨-, hall⟩
      exact hall last List.mem_concat_self

end Plan

end Custody
