import Custody.Plan.Basic

/-!
# Running a plan

The steps of a plan are performed one after the other by an authority.  An error counts as a
refusal, and the first refusal ends the run: no step is tried twice, left out or taken out of order,
and no step sees the context or the result of another.
-/

namespace Custody

/-- Where a run stands. -/
inductive RunState where
  | running
  | completed
  | halted
  deriving DecidableEq, Repr

def RunState.isTerminal : RunState → Bool
  | .running => false
  | .completed => true
  | .halted => true

/-- What came of one step. -/
@[ext] structure StepReport where
  stepId : String
  order : UInt64
  outcome : Outcome

/-- How a run ended. -/
inductive Ending where
  /-- Every step was performed; the data are those of the last. -/
  | completed (finalData : Table)
  /-- The step of this name was refused. -/
  | halted (refusal : Refusal) (stepId : String)

namespace Ending

/-- Where a run stands that has ended. -/
def state : Ending → RunState
  | .completed _ => .completed
  | .halted _ _ => .halted

def finalData? : Ending → Option Table
  | .completed data => some data
  | .halted _ _ => none

def refusal? : Ending → Option Refusal
  | .completed _ => none
  | .halted refusal _ => some refusal

/-- The step at which a run was ended. -/
def haltedAt? : Ending → Option String
  | .completed _ => none
  | .halted _ stepId => some stepId

end Ending

/-- What came of a plan: a report on each step that was tried, and how it ended. -/
@[ext] structure Report where
  planId : String
  steps : List StepReport
  ending : Ending

def StepReport.write (r : StepReport) : Document :=
  .object ([("step_id", .str r.stepId), ("order", Codec.uint64.write r.order),
      ("is_success", .bool r.outcome.isSuccess)] ++
    match r.outcome with
    | .success data snapshotId =>
      [("data", Codec.table.write data), ("snapshot_id", .str snapshotId)]
    | .refused refusal => [("non_action", Refusal.codec.write refusal)])

namespace Report

def isSuccess (r : Report) : Bool := r.ending.state = .completed

def write (r : Report) : Document :=
  .object ([("composition_id", .str r.planId), ("is_success", .bool r.isSuccess),
      ("steps", .array (r.steps.map StepReport.write))] ++
    match r.ending with
    | .completed data => [("final_data", Codec.table.write data)]
    | .halted refusal stepId =>
      [("non_action", Refusal.codec.write refusal), ("halted_at_step", .str stepId)])

end Report

namespace Plan

variable {σ : Type}

/-- Performs steps in order until one is refused.  `clock` tells the time at which the answer to
each step comes in, by the number of the step; `position` is that of the first of these steps and
`last` the data of the step before it. -/
def runSteps (authority : Authority σ) (clock : Nat → Int64) (position : Nat) (last : Table) :
    List Step → σ → (List StepReport × Ending) × σ
  | [], s => (([], .completed last), s)
  | step :: rest, s =>
    let (outcome, s) := authority.callFailClosed (clock position) step.call s
    let report : StepReport := ⟨step.id, step.order, outcome⟩
    match outcome with
    | .success data _ =>
      let ((reports, ending), s) := runSteps authority clock (position + 1) data rest s
      ((report :: reports, ending), s)
    | .refused refusal => (([report], .halted refusal step.id), s)

def run (authority : Authority σ) (clock : Nat → Int64) (plan : Plan) (s : σ) : Report × σ :=
  let ((steps, ending), s) := runSteps authority clock 0 .empty plan.steps s
  (⟨plan.id, steps, ending⟩, s)

end Plan

end Custody
