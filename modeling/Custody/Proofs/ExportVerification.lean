import Custody.Bundle.Archive
import Custody.Proofs.BundleRules
import Custody.Proofs.Findings

/-!
# Exported bundles are verified

A bundle is sealed over values in memory and verified over the text that was exported.  Writing and
reading change it, but in nothing that a check looks at: what is read has the shape of a bundle and
says what it must, and its chain is that of the bundle.  So verifying tells whether the root of the
bundle is that of its chain, unless the text is nested too deep to be read at all.
-/

namespace Custody

/-! ## A root is no blank text -/

theorem Digest.isBlank_hex (d : Digest) : Text.isBlank d.hex = false := by
  have hne : d.hex.toList ≠ [] := by
    intro hnil
    have hlength := d.length_hex
    rw [hnil] at hlength
    cases hlength
  obtain ⟨c, hc⟩ := List.exists_mem_of_ne_nil _ hne
  have hdigit : ∀ c ∈ Text.hexDigits, Text.isSpace c = false := Text.forall_hexDigits (by decide)
  exact Text.isBlank_of_mem hc (hdigit c (mem_hex hc))

namespace Verification

/-! ## Each check on what has the shape of a bundle -/

variable {d : Bundle.Draft}

theorem met_createdAt (h : 0 < d.parts.createdAt) :
    Requirement.createdAt.Met (.obj d.members) :=
  ⟨Integer.ofInt64 d.parts.createdAt, rfl, Int64.lt_iff_toInt_lt.mp h,
    d.parts.createdAt.toInt_lt⟩

theorem met_executions (h : d.parts.executions ≠ []) :
    Requirement.executions.Met (.obj d.members) := by
  have hmember : Json.member? "execution_snapshots" (.obj d.members) =
      some (.arr (d.parts.executions.map Snapshot.Execution.toJson)) := rfl
  rw [Requirement.Met, hmember]
  cases hexecutions : d.parts.executions with
  | nil => exact absurd hexecutions h
  | cons execution rest => exact ⟨_, _, rfl⟩

theorem met_outcome (h : d.parts.failure.isSome = !d.parts.results.isSome) :
    Requirement.outcome.Met (.obj d.members) := by
  have hfailure : isPresent (.obj d.members) "failure_composition" = d.parts.failure.isSome := by
    show (!(Json.ofRefusal? d.parts.failure).isNull) = d.parts.failure.isSome
    cases d.parts.failure <;> rfl
  have hresults : isPresent (.obj d.members) "results" = d.parts.results.isSome := by
    show (!(Parts.resultsJson d.parts.results).isNull) = d.parts.results.isSome
    cases d.parts.results <;> rfl
  refine isPresent_eq_not_iff.mp ?_
  rw [hfailure, hresults, h]

/-- **Nothing is missing** in the value of what keeps the rules of a bundle. -/
theorem complete_members (h : d.parts.OwnRules) : Complete (.obj d.members) := by
  simp only [Complete, requirements, List.forall_mem_cons]
  exact ⟨⟨_, rfl, h.id_content⟩, ⟨_, rfl, h.version_content⟩, ⟨_, rfl, d.root.isBlank_hex⟩,
    met_createdAt h.createdAt_pos, ⟨_, _, rfl⟩, ⟨_, _, rfl⟩, ⟨_, _, rfl⟩,
    met_executions h.executions_ne_nil, met_outcome h.outcome, List.forall_mem_nil _⟩

/-- **The shape of a bundle is recognized** in its value. -/
theorem shapeProblem?_eq_none (d : Bundle.Draft) : shapeProblem? (.obj d.members) = none := by
  rw [shapeProblem?, Bundle.Draft.reads_codec d]

/-- The root is compared with that of the chain. -/
theorem hashProblem?_members {hash : Hasher} {computed : Digest}
    (h : (Bundle.chain hash (.obj d.members)).root = some computed) :
    hashProblem? hash (.obj d.members) =
      if computed = d.root then none else some (.rootMismatch d.root.hex computed) := by
  have hroot : Json.member? "hash_chain_root" (.obj d.members) = some (.str d.root.hex) := rfl
  simp only [hashProblem?, hroot, h]
  by_cases heq : computed = d.root
  · rw [if_pos heq, if_pos (by rw [heq])]
  · rw [if_neg heq, if_neg (fun hhex => heq (Digest.hex_injective hhex))]

/-! ## All checks on what was exported -/

theorem chain_members (hash : Hasher) (d : Bundle.Draft) :
    Bundle.chain hash (.obj d.members) = d.parts.chain hash := by
  have helements : Bundle.elements (.obj d.members) = Bundle.elements (.obj d.parts.members) := by
    apply Bundle.elements_congr
    intro key hkey
    have hne : key ≠ "hash_chain_root" := by
      rintro rfl
      exact absurd hkey (by decide)
    exact Assoc.lookup_insert_of_ne hne (.str d.root.hex) d.parts.members
  rw [Bundle.chain, helements]
  rfl

/-- What verifying shows of a bundle that has been read: only the root can be wrong. -/
theorem ofObject_members {hash : Hasher} {computed : Digest} (h : d.parts.OwnRules)
    (hroot : (d.parts.chain hash).root = some computed) :
    ofObject hash (.obj d.members) =
      { isValid := decide (computed = d.root)
        bundleId := some d.parts.id
        hashValid := decide (computed = d.root)
        structureValid := true
        integrityValid := true
        errors := if computed = d.root then []
          else [(Problem.rootMismatch d.root.hex computed).message] } := by
  rw [← chain_members] at hroot
  have hid : bundleId? (.obj d.members) = some d.parts.id := rfl
  simp only [ofObject, structureProblems_eq_nil_iff.mpr (complete_members h),
    hashProblem?_members hroot, shapeProblem?_eq_none, hid]
  by_cases heq : computed = d.root
  · simp only [if_pos heq, decide_eq_true heq]
    rfl
  · simp only [if_neg heq, decide_eq_false heq]
    rfl

theorem ofBytes_toUTF8 (hash : Hasher) (s : String) :
    ofBytes hash s.toUTF8 = ofText hash s.toList := by
  rw [ofBytes, String.toUTF8_eq_toByteArray, Text.decode_toByteArray]

theorem ofText_of_none {hash : Hasher} {cs : List Char} (h : Json.parse? cs = none) :
    ofText hash cs = .failed Problem.unreadable.message := by
  rw [ofText, h]

theorem ofText_of_obj {hash : Hasher} {cs : List Char} {fields : List (String × Json)}
    (h : Json.parse? cs = some (.obj fields)) : ofText hash cs = ofObject hash (.obj fields) := by
  rw [ofText, h]

end Verification

namespace Bundle

namespace Draft

/-- The canonical text of a draft. -/
def text (d : Draft) : String := (Json.obj d.members).canonical

theorem parse?_text (d : Draft) : Json.parse? d.text.toList =
    if (Json.obj d.members).depth ≤ 127 then some (.obj d.norm.members) else none := by
  rw [text, Json.parse?_canonical d.ordered_members, norm_members]

theorem parse?_decode_text {d : Draft} (h : (Json.obj d.members).depth ≤ 127) :
    Json.parse? (Text.decode d.text.toUTF8) = some (.obj d.norm.members) := by
  rw [String.toUTF8_eq_toByteArray, Text.decode_toByteArray, parse?_text, if_pos h]

/-- The chain of a draft is that of what is read from its text. -/
theorem chain_norm_parts (hash : Hasher) (d : Draft) :
    d.norm.parts.chain hash = d.parts.chain hash := by
  rw [← Verification.chain_members, ← norm_members, chain_norm, Verification.chain_members]

/-- What verifying shows of the text of a draft that is not nested too deep and keeps the rules of a
bundle, whether or not its snapshots keep theirs. -/
theorem ofBytes_text {hash : Hasher} {d : Draft} {computed : Digest} (h : d.parts.OwnRules)
    (hdepth : (Json.obj d.members).depth ≤ 127)
    (hcomputed : (d.parts.chain hash).root = some computed) :
    Verification.ofBytes hash d.text.toUTF8 =
      { isValid := decide (computed = d.root)
        bundleId := some d.parts.id
        hashValid := decide (computed = d.root)
        structureValid := true
        integrityValid := true
        errors := if computed = d.root then []
          else [(Problem.rootMismatch d.root.hex computed).message] } := by
  have hparse := parse?_text d
  rw [if_pos hdepth] at hparse
  have hroot : (d.norm.parts.chain hash).root = some computed := by
    rw [chain_norm_parts]
    exact hcomputed
  rw [Verification.ofBytes_toUTF8, Verification.ofText_of_obj hparse]
  exact Verification.ofObject_members h.norm hroot

end Draft

/-- The bundle without its promise to keep the rules. -/
def draft (b : Bundle) : Draft := ⟨b.parts, b.root⟩

theorem toJson_eq (b : Bundle) : b.toJson = .obj b.draft.members := rfl

theorem exported_eq_text (b : Bundle) : b.exported = b.draft.text := rfl

theorem verifyRoot_of_root {hash : Hasher} {b : Bundle} {computed : Digest}
    (h : (b.parts.chain hash).root = some computed) :
    b.verifyRoot hash = decide (computed = b.root) := by
  rw [verifyRoot, h]
  simp only [Option.some.injEq]

theorem parse?_exported (b : Bundle) : Json.parse? b.exported.toList =
    if b.toJson.depth ≤ 127 then some (.obj b.draft.norm.members) else none := by
  rw [exported_eq_text, toJson_eq, Draft.parse?_text]

theorem parse?_decode_exported {b : Bundle} (h : b.toJson.depth ≤ 127) :
    Json.parse? (Text.decode b.exported.toUTF8) = some (.obj b.draft.norm.members) := by
  rw [String.toUTF8_eq_toByteArray, Text.decode_toByteArray, parse?_exported, if_pos h]

/-- A sealed bundle has the root of its chain. -/
theorem verifyRoot_of_ofParts {hash : Hasher} {parts : Parts} {b : Bundle}
    (h : ofParts hash parts = .ok b) : b.verifyRoot hash = true := by
  unfold ofParts at h
  split at h
  · cases h
  · split at h
    · cases h
    · next root hroot =>
      cases h
      exact decide_eq_true hroot

/-- What verifying shows of the exported text of a bundle that is not nested too deep. -/
theorem ofBytes_exported {hash : Hasher} {b : Bundle} {computed : Digest}
    (hdepth : b.toJson.depth ≤ 127) (hcomputed : (b.parts.chain hash).root = some computed) :
    Verification.ofBytes hash b.exported.toUTF8 =
      { isValid := b.verifyRoot hash
        bundleId := some b.id
        hashValid := b.verifyRoot hash
        structureValid := true
        integrityValid := true
        errors := if b.verifyRoot hash then []
          else [(Problem.rootMismatch b.root.hex computed).message] } := by
  have hown : b.draft.parts.OwnRules := Parts.ownRules_of_error? b.valid
  have hdepth : (Json.obj b.draft.members).depth ≤ 127 := hdepth
  rw [exported_eq_text, Draft.ofBytes_text hown hdepth hcomputed, verifyRoot_of_root hcomputed]
  simp only [decide_eq_true_eq]
  rfl

/-- A refused call, whose context holds one as a double. -/
def refusedParts : Parts where
  id := "b-1"
  createdAt := 2
  context :=
    ⟨⟨[("amount", .num (.float ⟨false, 0x10000000000000, 1022, by decide, by decide, by decide⟩))],
      Json.ordered_of_keys ["amount"] rfl (by decide) (by simp [Json.Ordered.num])⟩,
      ⟨List.replicate 32 1, rfl⟩, 1⟩
  intent := ⟨"transfer", none, 1⟩
  principal := ⟨"alice", 1⟩
  grant := none
  executions :=
    [⟨none, "transfer", ⟨List.replicate 32 1, rfl⟩, 2, .refused (.plain Reason.noGrant 2)⟩]
  authorityVersion := "1"
  failure := some (.plain Reason.noGrant 2)
  results := none

end Bundle

end Custody
