import Custody.Text.Blank

/-!
# Errors of evidence

Why a snapshot or bundle is not acceptable, or cannot be found.
-/

namespace Custody

/-- What is wrong with evidence. -/
inductive EvidenceError where
  | emptyField (field : String)
  | invalidTimestamp (field : String) (value : Int64)
  | noExecutions
  | bothOutcomes
  | neitherOutcome
  | inconsistentExecution (text : String)
  | bundleNotFound (id : String)
  deriving DecidableEq, Repr

namespace EvidenceError

def message : EvidenceError → String
  | .emptyField field => s!"{field} must be non-empty"
  | .invalidTimestamp field value => s!"{field} must be positive, got {value}"
  | .noExecutions => "execution_snapshots must be non-empty"
  | .bothOutcomes => "bundle has both failure_composition and results"
  | .neitherOutcome => "bundle has neither failure_composition nor results"
  | .inconsistentExecution text => s!"inconsistent execution snapshot: {text}"
  | .bundleNotFound id => s!"bundle not found: {id}"

/-- What is wrong with a text that must not be blank. -/
def ofText? (field value : String) : Option EvidenceError :=
  if Text.isBlank value then some (.emptyField field) else none

/-- What is wrong with a time that must be positive. -/
def ofTime? (field : String) (value : Int64) : Option EvidenceError :=
  if 0 < value then none else some (.invalidTimestamp field value)

theorem ofText?_eq_none_iff {field value : String} :
    ofText? field value = none ↔ Text.isBlank value = false := by
  simp [ofText?]

theorem ofTime?_eq_none_iff {field : String} {value : Int64} :
    ofTime? field value = none ↔ 0 < value := by
  simp [ofTime?]

end EvidenceError

end Custody
