import Custody.Authority.Basic

/-!
# What an authority is asked

A caller sees only the answers of an authority.  To tell which calls were made, in which order and
how often, the authority is observed: it answers as before, and its state is extended by a record of
all that it was asked and said.
-/

namespace Custody

/-- A call that an authority was asked to perform, and what it said. -/
structure Exchange where
  call : Call
  answer : Answer

namespace Authority

variable {σ : Type}

/-- The same authority, with a record of all exchanges in its state. -/
def observed (authority : Authority σ) : Authority (σ × List Exchange) := fun call s =>
  let (answer, t) := authority call s.1
  (answer, t, s.2 ++ [⟨call, answer⟩])

/-- Observing adds the one exchange and changes nothing else. -/
theorem callFailClosed_observed (authority : Authority σ) (now : Int64) (call : Call) (s : σ)
    (past : List Exchange) :
    authority.observed.callFailClosed now call (s, past) =
      ((authority.callFailClosed now call s).1, (authority.callFailClosed now call s).2,
        past ++ [⟨call, (authority call s).1⟩]) := rfl

end Authority

/-- A caller that comes to a result by asking an authority for just these calls, and leaves it in
this state.  The caller knows nothing of the states of an authority. -/
def Asks {σ β : Type} (caller : ∀ τ : Type, Authority τ → τ → β × τ) (authority : Authority σ)
    (s : σ) (result : β) (exchanges : List Exchange) (t : σ) : Prop :=
  caller σ authority s = (result, t) ∧
    ∀ past, caller (σ × List Exchange) authority.observed (s, past) = (result, t, past ++ exchanges)

namespace Answer

/-- Whether the capability was performed. -/
def succeeded : Answer → Bool
  | .ok outcome => outcome.isSuccess
  | .error _ => false

/-- Which outcomes an answer is put on record as: an outcome as it is, and an error as a refusal
that repeats its words. -/
def RecordedAs : Answer → Outcome → Prop
  | .ok outcome, recorded => recorded = outcome
  | .error error, recorded => ∃ refusal, recorded = .refused refusal ∧
      refusal.reason = "EXECUTION_ERROR" ∧
      refusal.details.toJson = .obj [("error", .str error.message)]

theorem recordedAs_ofAnswer (now : Int64) (answer : Answer) :
    answer.RecordedAs (.ofAnswer now answer) := by
  cases answer with
  | ok outcome => exact rfl
  | error error => exact ⟨.ofError now error, rfl, rfl, rfl⟩

variable {answer : Answer} {recorded : Outcome}

theorem RecordedAs.isSuccess_eq (h : answer.RecordedAs recorded) :
    recorded.isSuccess = answer.succeeded := by
  cases answer with
  | ok outcome => exact congrArg Outcome.isSuccess h
  | error error =>
    obtain ⟨refusal, rfl, -, -⟩ := h
    rfl

/-- Only a success is on record as that success. -/
theorem RecordedAs.eq_success_iff (h : answer.RecordedAs recorded) {data : Table}
    {snapshotId : String} :
    recorded = .success data snapshotId ↔ answer = .ok (.success data snapshotId) := by
  cases answer with
  | ok outcome =>
    obtain rfl : recorded = outcome := h
    rw [Except.ok.injEq]
  | error error =>
    obtain ⟨refusal, rfl, -, -⟩ := h
    constructor <;> intro heq <;> cases heq

end Answer

end Custody
