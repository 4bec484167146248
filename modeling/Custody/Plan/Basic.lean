import Custody.Authority.Basic
import Custody.Text.Blank

/-!
# Plans

A plan is a list of calls that are to be made in order, each a step with a name of its own.  A plan
is checked when it is made and never changes: it has a name and at least one step, the steps are
numbered from zero, and no two of them share a name.
-/

namespace Custody

/-- Why something is no step or no plan. -/
inductive PlanError where
  | emptyId
  | noSteps
  | emptyStepId (order : UInt64)
  | emptyCapability (stepId : String)
  /-- A step has another number than its place in the list. -/
  | outOfSequence (stepId : String) (position : Nat) (order : UInt64)
  | duplicateStepId (stepId : String)
  | unsupportedPolicy (name : String)
  deriving DecidableEq, Repr

namespace PlanError

def message : PlanError → String
  | .emptyId => "composition_id must be non-empty"
  | .noSteps => "composition must contain at least one step"
  | .emptyStepId order => s!"step at order {order} has an empty step_id"
  | .emptyCapability stepId => s!"step {stepId} has an empty capability_name"
  | .outOfSequence stepId position order =>
    s!"step {stepId} at position {position} declares order {order}"
  | .duplicateStepId stepId => s!"duplicate step_id: {stepId}"
  | .unsupportedPolicy name => s!"unsupported failure policy '{name}': only STRICT is permitted"

end PlanError

/-- One call of a plan. -/
structure Step where
  id : String
  capability : String
  context : Table
  order : UInt64
  id_content : Text.isBlank id = false
  capability_content : Text.isBlank capability = false

namespace Step

@[ext] theorem ext {s t : Step} (id : s.id = t.id) (capability : s.capability = t.capability)
    (context : s.context = t.context) (order : s.order = t.order) : s = t := by
  cases s; cases t; cases id; cases capability; cases context; cases order; rfl

/-- The step with these parts.  Its own name is checked before that of the capability. -/
def make (id capability : String) (context : Table) (order : UInt64) : Except PlanError Step :=
  if hid : Text.isBlank id then .error (.emptyStepId order)
  else if hcapability : Text.isBlank capability then .error (.emptyCapability id)
  else .ok ⟨id, capability, context, order, Text.isBlank_eq_false hid,
    Text.isBlank_eq_false hcapability⟩

def call (s : Step) : Call := ⟨s.capability, s.context⟩

def fields : Fields [String, String, Table, UInt64] :=
  .cons (.required "step_id" .text)
    (.cons (.required "capability_name" .text)
      (.cons (.withDefault "context" .table .empty)
        (.cons (.required "order" .uint64) .nil)))

def codec : Codec Step :=
  (Codec.record "RawStep" true fields).refine
    (fun (id, capability, context, order, ()) =>
      (make id capability context order).mapError PlanError.message)
    (fun s => (s.id, s.capability, s.context, s.order, ()))

end Step

/-- What is done when a step fails. -/
inductive Policy where
  /-- The first failure ends the plan. -/
  | strict
  deriving DecidableEq, Repr

namespace Policy

def name : Policy → String
  | .strict => "STRICT"

def ofName (s : String) : Except PlanError Policy :=
  if s = "STRICT" then .ok .strict else .error (.unsupportedPolicy s)

def codec : Codec Policy :=
  Codec.text.refine (fun s => (ofName s).mapError PlanError.message) name

end Policy

/-- A list of steps that are to be performed in order. -/
structure Plan where
  id : String
  steps : List Step
  policy : Policy
  id_content : Text.isBlank id = false
  steps_ne_nil : steps ≠ []
  order_eq : ∀ (i : Nat) (h : i < steps.length), steps[i].order = UInt64.ofNat i
  nodup : (steps.map Step.id).Nodup

namespace Plan

@[ext] theorem ext {p q : Plan} (id : p.id = q.id) (steps : p.steps = q.steps)
    (policy : p.policy = q.policy) : p = q := by
  cases p; cases q; cases id; cases steps; cases policy; rfl

/-- What is wrong with the first of some steps that is out of order or repeats a name, where the
steps begin at a position and some names have been used before. -/
def firstError? (seen : List String) : Nat → List Step → Option PlanError
  | _, [] => none
  | position, step :: rest =>
    if step.order ≠ UInt64.ofNat position then
      some (.outOfSequence step.id position step.order)
    else if step.id ∈ seen then some (.duplicateStepId step.id)
    else firstError? (step.id :: seen) (position + 1) rest

/-- Steps without an error are numbered from their position on. -/
theorem order_eq_of_firstError? {seen : List String} {position : Nat} {steps : List Step}
    (h : firstError? seen position steps = none) (i : Nat) (hi : i < steps.length) :
    steps[i].order = UInt64.ofNat (position + i) := by
  induction steps generalizing seen position i with
  | nil => cases hi
  | cons step rest ih =>
    simp only [firstError?] at h
    split at h
    · cases h
    · next horder =>
      split at h
      · cases h
      · cases i with
        | zero => simpa using horder
        | succ i =>
          have hrest := ih h i (Nat.lt_of_succ_lt_succ hi)
          rw [Nat.add_assoc, Nat.add_comm 1 i] at hrest
          exact hrest

/-- Steps without an error have names of their own, none of which was used before. -/
theorem nodup_of_firstError? {seen : List String} {position : Nat} {steps : List Step}
    (h : firstError? seen position steps = none) :
    (steps.map Step.id).Nodup ∧ ∀ step ∈ steps, step.id ∉ seen := by
  induction steps generalizing seen position with
  | nil => simp
  | cons step rest ih =>
    simp only [firstError?] at h
    split at h
    · cases h
    · split at h
      · cases h
      · next hseen =>
        obtain ⟨hnodup, hfresh⟩ := ih h
        refine ⟨List.nodup_cons.2 ⟨fun hmem => ?_, hnodup⟩, fun other hother => ?_⟩
        · obtain ⟨other, hother, heq⟩ := List.mem_map.1 hmem
          exact hfresh other hother (heq ▸ List.mem_cons_self)
        · rcases List.mem_cons.1 hother with rfl | hother
          · exact hseen
          · exact fun hmem => hfresh other hother (List.mem_cons_of_mem _ hmem)

/-- The plan with these parts.  Its name is checked first, then that there are steps, and then each
step in turn. -/
def make (id : String) (steps : List Step) (policy : Policy) : Except PlanError Plan :=
  if hid : Text.isBlank id then .error .emptyId
  else if hsteps : steps = [] then .error .noSteps
  else
    match h : firstError? [] 0 steps with
    | some error => .error error
    | none =>
      .ok ⟨id, steps, policy, Text.isBlank_eq_false hid, hsteps,
        fun i hi => by simpa using order_eq_of_firstError? h i hi,
        (nodup_of_firstError? h).1⟩

def stepId (planId : String) (position : Nat) : String := s!"{planId}.{position}"

/-- Steps for a list of calls, numbered from a position on. -/
def stepsOfCalls (planId : String) : Nat → List Call → Except PlanError (List Step)
  | _, [] => .ok []
  | position, call :: rest =>
    match Step.make (stepId planId position) call.capability call.context
        (UInt64.ofNat position) with
    | .error error => .error error
    | .ok step => (stepsOfCalls planId (position + 1) rest).map (step :: ·)

def ofCalls (id : String) (calls : List Call) : Except PlanError Plan :=
  match stepsOfCalls id 0 calls with
  | .error error => .error error
  | .ok steps => make id steps .strict

def fields : Fields [String, List Step, String] :=
  .cons (.required "composition_id" .text)
    (.cons (.required "steps" (.list Step.codec))
      (.cons (.required "failure_policy" .text) .nil))

/-- The plan with these parts, of which the policy is given by its name and checked first. -/
def ofParts (id : String) (steps : List Step) (policy : String) : Except PlanError Plan :=
  match Policy.ofName policy with
  | .error error => .error error
  | .ok policy => make id steps policy

def codec : Codec Plan :=
  (Codec.record "RawComposition" true fields).refine
    (fun (id, steps, policy, ()) => (ofParts id steps policy).mapError PlanError.message)
    (fun p => (p.id, p.steps, p.policy.name, ()))

end Plan

end Custody
