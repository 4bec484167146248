import Custody.Bundle.Capture
import Custody.Proofs.BundleChain
import Custody.Proofs.BundleRules

/-!
# What a captured call puts on record

A bundle is sealed after the authority has acted, so nothing of what was put on record may then turn
out to break a rule.  The names of the principal and of the grant are taken from tables of which
nothing is known, and the clock may be set back while the authority acts; the parts keep all rules
all the same, provided that the request was in order and the clock showed a positive time before.
-/

namespace Custody

/-! ## Names that are taken from tables -/

theorem Text.isSpace_of_isDigit {c : Char} (h : c.isDigit = true) : isSpace c = false := by
  simp only [Char.isDigit, Bool.and_eq_true, decide_eq_true_eq] at h
  obtain ⟨hlow, hhigh⟩ := h
  have hlow : 48 ≤ c.toNat := hlow
  have hhigh : c.toNat ≤ 57 := hhigh
  simp only [isSpace, Bool.or_eq_false_iff, Bool.and_eq_false_iff, decide_eq_false_iff_not]
  omega

theorem Text.isBlank_ofList {c : Char} {rest : List Char} (h : isSpace c = false) :
    isBlank (String.ofList (c :: rest)) = false := by
  apply isBlank_of_mem _ h
  rw [String.toList_ofList]
  exact List.mem_cons_self

/-- A number is no blank text. -/
theorem Number.isBlank_text (n : Number) : Text.isBlank (String.ofList n.text) = false := by
  obtain ⟨c, rest, htext, hc⟩ := readsBack_text.starts n
  rw [htext]
  rcases hc with hdigit | rfl
  · exact Text.isBlank_ofList (Text.isSpace_of_isDigit hdigit)
  · exact Text.isBlank_ofList (by decide)

/-- **No value is written as a blank text.** -/
theorem Json.isBlank_compact (v : Json) : Text.isBlank v.compact = false := by
  cases v with
  | num n => exact n.isBlank_text
  | bool b => cases b <;> exact Text.isBlank_ofList (by decide)
  | arr items => cases items <;> exact Text.isBlank_ofList (by decide)
  | obj fields => cases fields <;> exact Text.isBlank_ofList (by decide)
  | null | str s => exact Text.isBlank_ofList (by decide)

namespace Snapshot

theorem Principal.isBlank_idOfContext (context : Table) (key : String) :
    Text.isBlank (idOfContext context key) = false := by
  unfold idOfContext
  split
  · decide
  · decide
  · split
    · decide
    · next hblank => exact Text.isBlank_eq_false hblank
  · exact Json.isBlank_compact _

theorem Grant.isBlank_of_idOfValue? {v : Json} {id : String} (h : idOfValue? v = some id) :
    Text.isBlank id = false := by
  unfold idOfValue? at h
  split at h
  · split at h
    · cases h
    · next hblank =>
      cases h
      exact Text.isBlank_eq_false hblank
  · cases h
    exact Number.isBlank_text _
  · cases h

theorem Grant.isBlank_idOf (data context : Table) (key : String) :
    Text.isBlank (idOf data context key) = false := by
  unfold idOf
  cases hid : ((data.get? key).bind idOfValue?).or ((context.get? key).bind idOfValue?) with
  | none => decide
  | some id =>
    rcases Option.or_eq_some_iff.mp hid with hdata | ⟨-, hcontext⟩
    · obtain ⟨v, -, hv⟩ := Option.bind_eq_some_iff.mp hdata
      exact isBlank_of_idOfValue? hv
    · obtain ⟨v, -, hv⟩ := Option.bind_eq_some_iff.mp hcontext
      exact isBlank_of_idOfValue? hv

end Snapshot

/-! ## Requests -/

namespace Request

/-- Whether a request can be captured at all: it names a capability, and the settings are in
order. -/
def Acceptable (settings : CaptureSettings) (r : Request) : Prop :=
  Text.isBlank r.call.capability = false ∧ settings.error? = none

variable {r : Request} {settings : CaptureSettings} {readings : Readings}

theorem error?_eq_none_iff : r.error? settings = none ↔ r.Acceptable settings := by
  rw [error?, Option.or_eq_none_iff, EvidenceError.ofText?_eq_none_iff]
  exact Iff.rfl

theorem isBlank_authorityVersion (h : r.Acceptable settings) :
    Text.isBlank settings.authorityVersion = false := by
  have hsettings := h.2
  rw [CaptureSettings.error?, Option.or_eq_none_iff, Option.or_eq_none_iff] at hsettings
  exact EvidenceError.ofText?_eq_none_iff.mp hsettings.1.1

theorem before_le_executedAt (readings : Readings) : readings.before ≤ executedAt readings := by
  unfold executedAt
  split
  · assumption
  · exact Int64.le_refl _

theorem executedAt_pos (h : 0 < readings.before) : 0 < executedAt readings :=
  Int64.lt_of_lt_of_le h (before_le_executedAt readings)

variable (hash : Hasher) (id : Identifier) (outcome : Outcome)

theorem ownRules_parts (hr : r.Acceptable settings) (h : 0 < readings.before) :
    (r.parts hash settings readings id outcome).OwnRules where
  id_content := id.content
  createdAt_pos := executedAt_pos h
  version_content := isBlank_authorityVersion hr
  executions_ne_nil := List.cons_ne_nil _ _
  outcome := by
    cases outcome <;> rfl

theorem snapshotRules_parts (hr : r.Acceptable settings) (h : 0 < readings.before) :
    (r.parts hash settings readings id outcome).SnapshotRules where
  context := h
  intent := ⟨hr.1, h⟩
  principal := ⟨Snapshot.Principal.isBlank_idOfContext _ _, h⟩
  grant := by
    intro grant hgrant
    obtain ⟨data, -, rfl⟩ := Option.map_eq_some_iff.mp hgrant
    exact ⟨Snapshot.Grant.isBlank_idOf _ _ _, h⟩
  executions := by
    intro execution hexecution
    obtain rfl := List.mem_singleton.mp hexecution
    exact ⟨hr.1, executedAt_pos h⟩

/-- **What is put on record breaks no rule**, whatever came of the call. -/
theorem parts_error?_eq_none (hr : r.Acceptable settings) (h : 0 < readings.before) :
    (r.parts hash settings readings id outcome).error? = none :=
  Parts.error?_eq_none_iff.mpr
    ⟨ownRules_parts hash id outcome hr h, snapshotRules_parts hash id outcome hr h⟩

end Request

/-- Parts that break no rule can be sealed. -/
theorem Bundle.exists_ofParts (hash : Hasher) {parts : Parts} (h : parts.error? = none) :
    ∃ b, ofParts hash parts = .ok b ∧ b.parts = parts := by
  obtain ⟨root, hroot⟩ := exists_root hash (.obj parts.members)
  have hroot : (parts.chain hash).root = some root := hroot
  refine ⟨⟨parts, root, h⟩, ?_, rfl⟩
  unfold ofParts
  split
  · next error herror =>
    rw [h] at herror
    cases herror
  · split
    · next hnone =>
      rw [hroot] at hnone
      cases hnone
    · next root' hroot' =>
      rw [hroot, Option.some.injEq] at hroot'
      rw [hroot']

end Custody
