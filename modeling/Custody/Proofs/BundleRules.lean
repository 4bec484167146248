import Custody.Proofs.WrittenBundle

/-!
# The rules of a bundle

A bundle has rules of its own, about its name, time, version and outcome, and so has each snapshot
in it.  They are checked in one pass; here the pass is taken apart into the two kinds.
-/

namespace Custody

namespace Parts

/-- The rules that a bundle has for itself: it has a name, a time and a version, there is an
execution, and it is either refused or has results. -/
structure OwnRules (p : Parts) : Prop where
  id_content : Text.isBlank p.id = false
  createdAt_pos : 0 < p.createdAt
  version_content : Text.isBlank p.authorityVersion = false
  executions_ne_nil : p.executions ≠ []
  outcome : p.failure.isSome = !p.results.isSome

/-- The rules that its snapshots have for themselves: their names say something and their times are
positive. -/
structure SnapshotRules (p : Parts) : Prop where
  context : 0 < p.context.capturedAt
  intent : Text.isBlank p.intent.capability = false ∧ 0 < p.intent.declaredAt
  principal : Text.isBlank p.principal.id = false ∧ 0 < p.principal.capturedAt
  grant : ∀ grant ∈ p.grant, Text.isBlank grant.id = false ∧ 0 < grant.capturedAt
  executions : ∀ execution ∈ p.executions,
    Text.isBlank execution.capability = false ∧ 0 < execution.executedAt

/-- What is wrong with the first snapshot that breaks a rule. -/
def snapshotError? (p : Parts) : Option EvidenceError :=
  p.context.error?.or <|
  p.intent.error?.or <|
  p.principal.error?.or <|
  (p.grant.bind Snapshot.Grant.error?).or <|
  p.executions.findSome? Snapshot.Execution.error?

theorem textAndTime_eq_none_iff {field text : String} {field' : String} {time : Int64} :
    (EvidenceError.ofText? field text).or (EvidenceError.ofTime? field' time) = none ↔
      Text.isBlank text = false ∧ 0 < time := by
  rw [Option.or_eq_none_iff, EvidenceError.ofText?_eq_none_iff, EvidenceError.ofTime?_eq_none_iff]

theorem snapshotError?_eq_none_iff {p : Parts} : p.snapshotError? = none ↔ p.SnapshotRules := by
  have hgrant : p.grant.bind Snapshot.Grant.error? = none ↔
      ∀ grant ∈ p.grant, Text.isBlank grant.id = false ∧ 0 < grant.capturedAt := by
    rw [Option.bind_eq_none_iff]
    exact forall₂_congr fun grant _ => textAndTime_eq_none_iff
  have hexecutions : p.executions.findSome? Snapshot.Execution.error? = none ↔
      ∀ execution ∈ p.executions,
        Text.isBlank execution.capability = false ∧ 0 < execution.executedAt := by
    rw [List.findSome?_eq_none_iff]
    exact forall₂_congr fun execution _ => textAndTime_eq_none_iff
  rw [snapshotError?, Option.or_eq_none_iff, Option.or_eq_none_iff, Option.or_eq_none_iff,
    Option.or_eq_none_iff, hgrant, hexecutions]
  constructor
  · rintro ⟨hcontext, hintent, hprincipal, hgrants, hall⟩
    exact ⟨EvidenceError.ofTime?_eq_none_iff.mp hcontext, textAndTime_eq_none_iff.mp hintent,
      textAndTime_eq_none_iff.mp hprincipal, hgrants, hall⟩
  · intro h
    exact ⟨EvidenceError.ofTime?_eq_none_iff.mpr h.context, textAndTime_eq_none_iff.mpr h.intent,
      textAndTime_eq_none_iff.mpr h.principal, h.grant, h.executions⟩

theorem outcomeError?_eq_none_iff {failure : Option Refusal} {results : Option Results} :
    outcomeError? failure results = none ↔ failure.isSome = !results.isSome := by
  cases failure <;> cases results <;> simp [outcomeError?]

theorem executionsError?_of_ne_nil {executions : List Snapshot.Execution} (h : executions ≠ []) :
    executionsError? executions = executions.findSome? Snapshot.Execution.error? := by
  cases executions with
  | nil => exact absurd rfl h
  | cons execution rest => rfl

theorem executions_ne_nil_of_error? {executions : List Snapshot.Execution}
    (h : executionsError? executions = none) : executions ≠ [] := by
  rintro rfl
  cases h

/-- Parts that keep the rules of a bundle can only break one of a snapshot. -/
theorem OwnRules.error?_eq {p : Parts} (h : p.OwnRules) : p.error? = p.snapshotError? := by
  rw [error?, EvidenceError.ofText?_eq_none_iff.mpr h.id_content,
    EvidenceError.ofTime?_eq_none_iff.mpr h.createdAt_pos,
    EvidenceError.ofText?_eq_none_iff.mpr h.version_content,
    executionsError?_of_ne_nil h.executions_ne_nil, outcomeError?_eq_none_iff.mpr h.outcome]
  simp only [Option.none_or, Option.or_none]
  rfl

theorem ownRules_of_error? {p : Parts} (h : p.error? = none) : p.OwnRules := by
  simp only [error?, Option.or_eq_none_iff, EvidenceError.ofText?_eq_none_iff,
    EvidenceError.ofTime?_eq_none_iff] at h
  obtain ⟨hid, hcreated, hversion, -, -, -, -, hexecutions, houtcome⟩ := h
  exact ⟨hid, hcreated, hversion, executions_ne_nil_of_error? hexecutions,
    outcomeError?_eq_none_iff.mp houtcome⟩

/-- **The rules of a bundle** are its own and those of its snapshots. -/
theorem error?_eq_none_iff {p : Parts} : p.error? = none ↔ p.OwnRules ∧ p.SnapshotRules := by
  constructor
  · intro h
    have hown := ownRules_of_error? h
    exact ⟨hown, snapshotError?_eq_none_iff.mp (hown.error?_eq.symm.trans h)⟩
  · rintro ⟨hown, hsnapshots⟩
    rw [hown.error?_eq]
    exact snapshotError?_eq_none_iff.mpr hsnapshots

/-- No rule looks into a table. -/
theorem OwnRules.norm {p : Parts} (h : p.OwnRules) : p.norm.OwnRules where
  id_content := h.id_content
  createdAt_pos := h.createdAt_pos
  version_content := h.version_content
  executions_ne_nil := fun hnil => h.executions_ne_nil (List.map_eq_nil_iff.mp hnil)
  outcome := by
    show (p.failure.map Refusal.norm).isSome = !(p.results.map Results.norm).isSome
    rw [Option.isSome_map, Option.isSome_map]
    exact h.outcome

end Parts

end Custody
