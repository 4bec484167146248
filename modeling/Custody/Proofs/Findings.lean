import Custody.Bundle.Verification
import Custody.Proofs.BundleChain

/-!
# What verification finds

Each of the three checks asks something of a value, and what it asks for is said here without the
checks.  Of the members nine things are required, in a fixed order, and of each that is not met it
is told which member fails and how; none is passed over because of another.  The root and the shape
are one thing each, so of each there is one thing to tell at most.
-/

namespace Custody

namespace Verification

/-! ## What is asked of the members -/

/-- A member is there, and it is not null. -/
def Present (v : Json) (key : String) : Prop :=
  ∃ value, v.member? key = some value ∧ value ≠ .null

/-- What the first check asks for. -/
inductive Requirement where
  /-- A member that is a text with content. -/
  | text (key : String)
  /-- A time of creation that is a positive integer of 64 bits. -/
  | createdAt
  /-- A member that is an object and has members. -/
  | object (key : String)
  /-- At least one execution. -/
  | executions
  /-- A refusal or else results. -/
  | outcome
  deriving DecidableEq

/-- All that the first check asks for, in order. -/
def requirements : List Requirement :=
  [.text "bundle_id", .text "authority_version", .text "hash_chain_root", .createdAt,
    .object "context_snapshot", .object "intent_snapshot", .object "principal_snapshot",
    .executions, .outcome]

namespace Requirement

/-- The members that decide whether a requirement is met. -/
def keys : Requirement → List String
  | .text key => [key]
  | .createdAt => ["created_at"]
  | .object key => [key]
  | .executions => ["execution_snapshots"]
  | .outcome => ["failure_composition", "results"]

def Met (v : Json) : Requirement → Prop
  | .text key => ∃ s, v.member? key = some (.str s) ∧ Text.isBlank s = false
  | .createdAt => ∃ n : Integer, v.member? "created_at" = some (.num (.int n)) ∧
      0 < n.val ∧ n.val < 0x8000000000000000
  | .object key => ∃ field rest, v.member? key = some (.obj (field :: rest))
  | .executions => ∃ execution rest,
      v.member? "execution_snapshots" = some (.arr (execution :: rest))
  | .outcome => Present v "failure_composition" ↔ ¬Present v "results"

/-- A requirement is not met, and this is what is told of it. -/
inductive Unmet (v : Json) : Requirement → String → Prop where
  | noText {key : String} : ¬Present v key → Unmet v (.text key) s!"{key} is missing"
  | blank {key s : String} : v.member? key = some (.str s) → Text.isBlank s = true →
      Unmet v (.text key) s!"{key} is empty"
  | notText {key : String} {value : Json} : v.member? key = some value → value ≠ .null →
      (∀ s, value ≠ .str s) → Unmet v (.text key) s!"{key} is not a string"
  | createdAt : ¬Met v .createdAt →
      Unmet v .createdAt "created_at is missing or not a positive integer"
  | noObject {key : String} : ¬Present v key → Unmet v (.object key) s!"{key} is missing"
  | emptyObject {key : String} : v.member? key = some (.obj []) →
      Unmet v (.object key) s!"{key} is empty"
  | notObject {key : String} {value : Json} : v.member? key = some value → value ≠ .null →
      (∀ fields, value ≠ .obj fields) → Unmet v (.object key) s!"{key} is not an object"
  | noArray : (∀ items, v.member? "execution_snapshots" ≠ some (.arr items)) →
      Unmet v .executions "execution_snapshots is missing"
  | emptyArray : v.member? "execution_snapshots" = some (.arr []) →
      Unmet v .executions "execution_snapshots is empty"
  | both : Present v "failure_composition" → Present v "results" →
      Unmet v .outcome "both failure_composition and results are present"
  | neither : ¬Present v "failure_composition" → ¬Present v "results" →
      Unmet v .outcome "neither failure_composition nor results is present"

/-- What may come of looking at a requirement: nothing if it is met, or else what is told of it. -/
def Judged (v : Json) (r : Requirement) : Option Problem → Prop
  | none => r.Met v
  | some p => r.Unmet v p.message

end Requirement

/-- What is told of some requirements: for each that is not met one thing, in their order, and for
the others nothing. -/
inductive MembersTold (v : Json) : List Requirement → List String → Prop where
  | nil : MembersTold v [] []
  | met {r : Requirement} {rest : List Requirement} {errors : List String} :
      r.Met v → MembersTold v rest errors → MembersTold v (r :: rest) errors
  | unmet {r : Requirement} {rest : List Requirement} {error : String} {errors : List String} :
      r.Unmet v error → MembersTold v rest errors → MembersTold v (r :: rest) (error :: errors)

/-- All required members are there and say something, and the outcome is a refusal or else
results. -/
def Complete (v : Json) : Prop := ∀ r ∈ requirements, r.Met v

/-! ## The first check -/

section

variable {v w : Json} {key : String}

theorem not_present_of_none (h : v.member? key = none) : ¬Present v key := by
  rintro ⟨value, hvalue, -⟩
  rw [h] at hvalue
  cases hvalue

theorem not_present_of_null (h : v.member? key = some .null) : ¬Present v key := by
  rintro ⟨value, hvalue, hne⟩
  rw [h, Option.some.injEq] at hvalue
  exact hne hvalue.symm

theorem isPresent_eq_true_iff : isPresent v key = true ↔ Present v key := by
  rw [isPresent, Json.memberOrNull]
  cases hmember : v.member? key with
  | none => exact iff_of_false Bool.false_ne_true (not_present_of_none hmember)
  | some value =>
    cases value with
    | null => exact iff_of_false Bool.false_ne_true (not_present_of_null hmember)
    | bool b | num n | str s | arr items | obj fields =>
      refine iff_of_true rfl ⟨_, hmember, ?_⟩
      rintro ⟨⟩

theorem isPresent_eq_false_iff : isPresent v key = false ↔ ¬Present v key := by
  rw [← isPresent_eq_true_iff, Bool.not_eq_true]

theorem isPresent_eq_not_iff {other : String} :
    isPresent v key = !isPresent v other ↔ (Present v key ↔ ¬Present v other) := by
  rw [← isPresent_eq_true_iff, ← isPresent_eq_false_iff]
  cases isPresent v key <;> cases isPresent v other <;> simp

namespace Requirement

theorem judged_text (v : Json) (key : String) : Judged v (.text key) (textProblem? v key) := by
  unfold textProblem?
  split
  · next s hs =>
    split
    · next hblank => exact .blank hs hblank
    · next hblank => exact ⟨s, hs, Text.isBlank_eq_false hblank⟩
  · next hnull => exact .noText (not_present_of_null hnull)
  · next hnone => exact .noText (not_present_of_none hnone)
  · next value hother hnull hvalue => exact .notText hvalue hnull hother

theorem judged_createdAt (v : Json) : Judged v .createdAt (createdAtProblem? v) := by
  unfold createdAtProblem?
  split
  · next n hn =>
    split
    · next hrange => exact ⟨n, hn, hrange⟩
    · next hrange =>
      refine .createdAt ?_
      rintro ⟨m, hm, hpos⟩
      rw [hn, Option.some.injEq, Json.num.injEq, Number.int.injEq] at hm
      subst hm
      exact hrange hpos
  · next hother =>
    refine .createdAt ?_
    rintro ⟨n, hn, -⟩
    exact hother n hn

theorem judged_object (v : Json) (key : String) :
    Judged v (.object key) (objectProblem? v key) := by
  unfold objectProblem?
  split
  · next hempty => exact .emptyObject hempty
  · next field rest hobject => exact ⟨field, rest, hobject⟩
  · next hnull => exact .noObject (not_present_of_null hnull)
  · next hnone => exact .noObject (not_present_of_none hnone)
  · next value hnil hcons hnull hvalue =>
    refine .notObject hvalue hnull ?_
    rintro (_ | ⟨field, rest⟩) hobject
    · exact hnil hobject
    · exact hcons field rest hobject

theorem judged_executions (v : Json) : Judged v .executions (executionsProblem? v) := by
  unfold executionsProblem?
  split
  · next hempty => exact .emptyArray hempty
  · next execution rest harray => exact ⟨execution, rest, harray⟩
  · next hnil hcons =>
    refine .noArray ?_
    rintro (_ | ⟨execution, rest⟩) harray
    · exact hnil harray
    · exact hcons execution rest harray

theorem judged_outcome (v : Json) : Judged v .outcome (outcomeProblem? v) := by
  unfold outcomeProblem?
  split
  · next hfailure hresults =>
    exact .both (isPresent_eq_true_iff.mp hfailure) (isPresent_eq_true_iff.mp hresults)
  · next hfailure hresults =>
    exact .neither (isPresent_eq_false_iff.mp hfailure) (isPresent_eq_false_iff.mp hresults)
  · next hboth hneither =>
    refine isPresent_eq_not_iff.mp ?_
    cases hfailure : isPresent v "failure_composition" <;>
      cases hresults : isPresent v "results" <;> simp_all

/-- What the first check finds wrong with a requirement. -/
def problem? (v : Json) : Requirement → Option Problem
  | .text key => textProblem? v key
  | .createdAt => createdAtProblem? v
  | .object key => objectProblem? v key
  | .executions => executionsProblem? v
  | .outcome => outcomeProblem? v

/-- **Each requirement is judged** by what is asked for. -/
theorem judged_problem? (v : Json) (r : Requirement) : r.Judged v (r.problem? v) := by
  cases r with
  | text key => exact judged_text v key
  | createdAt => exact judged_createdAt v
  | object key => exact judged_object v key
  | executions => exact judged_executions v
  | outcome => exact judged_outcome v

/-- Nothing is told of a requirement that is met. -/
theorem Unmet.not_met {r : Requirement} {error : String} (h : r.Unmet v error) : ¬r.Met v := by
  cases h with
  | noText hmissing =>
    rintro ⟨s, hs, -⟩
    exact hmissing ⟨_, hs, nofun⟩
  | blank hs hblank =>
    rintro ⟨t, ht, hcontent⟩
    rw [hs, Option.some.injEq, Json.str.injEq] at ht
    subst ht
    rw [hblank] at hcontent
    cases hcontent
  | notText hvalue _ hother =>
    rintro ⟨s, hs, -⟩
    rw [hvalue, Option.some.injEq] at hs
    exact hother s hs
  | createdAt hunmet => exact hunmet
  | noObject hmissing =>
    rintro ⟨field, rest, hobject⟩
    exact hmissing ⟨_, hobject, nofun⟩
  | emptyObject hempty =>
    rintro ⟨field, rest, hobject⟩
    rw [hempty] at hobject
    cases hobject
  | notObject hvalue _ hother =>
    rintro ⟨field, rest, hobject⟩
    rw [hvalue, Option.some.injEq] at hobject
    exact hother _ hobject
  | noArray hother =>
    rintro ⟨execution, rest, harray⟩
    exact hother _ harray
  | emptyArray hempty =>
    rintro ⟨execution, rest, harray⟩
    rw [hempty] at harray
    cases harray
  | both hfailure hresults =>
    intro hmet
    exact hmet.mp hfailure hresults
  | neither hfailure hresults =>
    intro hmet
    exact hfailure (hmet.mpr hresults)

/-- Only the members that a requirement names decide about it. -/
theorem problem?_congr {r : Requirement} (h : ∀ key ∈ r.keys, v.member? key = w.member? key) :
    r.problem? v = r.problem? w := by
  cases r with
  | text key =>
    rw [problem?, problem?, textProblem?, textProblem?, h key List.mem_cons_self]
  | createdAt =>
    rw [problem?, problem?, createdAtProblem?, createdAtProblem?, h _ List.mem_cons_self]
  | object key =>
    rw [problem?, problem?, objectProblem?, objectProblem?, h key List.mem_cons_self]
  | executions =>
    rw [problem?, problem?, executionsProblem?, executionsProblem?, h _ List.mem_cons_self]
  | outcome =>
    have hfailure : v.member? "failure_composition" = w.member? "failure_composition" :=
      h _ List.mem_cons_self
    have hresults : v.member? "results" = w.member? "results" :=
      h _ (List.mem_cons_of_mem _ List.mem_cons_self)
    simp only [problem?, outcomeProblem?, isPresent, Json.memberOrNull, hfailure, hresults]

end Requirement

theorem structureProblems_eq (v : Json) :
    structureProblems v = requirements.filterMap (Requirement.problem? v) := rfl

/-- **One thing is told of each requirement that is not met**, in order. -/
theorem membersTold_filterMap (v : Json) (rs : List Requirement) :
    MembersTold v rs ((rs.filterMap (Requirement.problem? v)).map Problem.message) := by
  induction rs with
  | nil => exact .nil
  | cons r rest ih =>
    have hjudged := Requirement.judged_problem? v r
    cases hproblem : r.problem? v with
    | none =>
      rw [hproblem] at hjudged
      rw [List.filterMap_cons_none hproblem]
      exact .met hjudged ih
    | some p =>
      rw [hproblem] at hjudged
      rw [List.filterMap_cons_some hproblem, List.map_cons]
      exact .unmet hjudged ih

/-- Nothing is told if all requirements are met, and only then. -/
theorem MembersTold.eq_nil_iff {rs : List Requirement} {errors : List String}
    (h : MembersTold v rs errors) : errors = [] ↔ ∀ r ∈ rs, r.Met v := by
  induction h with
  | nil => exact iff_of_true rfl (List.forall_mem_nil _)
  | met hmet _ ih => rw [ih, List.forall_mem_cons, and_iff_right hmet]
  | unmet hunmet _ _ =>
    refine iff_of_false (List.cons_ne_nil _ _) ?_
    intro hall
    exact hunmet.not_met (hall _ List.mem_cons_self)

/-- **The first check has nothing to tell** exactly of what is complete. -/
theorem structureProblems_eq_nil_iff : structureProblems v = [] ↔ Complete v := by
  rw [← List.map_eq_nil_iff, structureProblems_eq]
  exact (membersTold_filterMap v requirements).eq_nil_iff

end

/-! ## The second check -/

/-- The root that is stored is that of the chain. -/
def Rooted (hash : Hasher) (v : Json) : Prop :=
  ∃ root, v.member? "hash_chain_root" = some (.str root.hex) ∧
    (Bundle.chain hash v).root = some root

/-- What is told of the root: nothing if it is that of the chain, and else that there is none or
that it is another. -/
inductive RootTold (hash : Hasher) (v : Json) : List String → Prop where
  | rooted : Rooted hash v → RootTold hash v []
  | unavailable : (∀ s, v.member? "hash_chain_root" ≠ some (.str s)) →
      RootTold hash v ["hash_chain_root unavailable for comparison"]
  | mismatch {stored : String} {computed : Digest} :
      v.member? "hash_chain_root" = some (.str stored) →
      (Bundle.chain hash v).root = some computed → computed.hex ≠ stored →
      RootTold hash v [s!"hash_chain_root mismatch: stored {stored}, computed {computed.hex}"]

section

variable {hash : Hasher} {v w : Json}

theorem rootTold_hashProblem? (hash : Hasher) (v : Json) :
    RootTold hash v ((hashProblem? hash v).toList.map Problem.message) := by
  obtain ⟨computed, hcomputed⟩ := Bundle.exists_root hash v
  unfold hashProblem?
  split
  · next stored hstored =>
    rw [hcomputed]
    show RootTold hash v ((if computed.hex = stored then none
      else some (Problem.rootMismatch stored computed)).toList.map Problem.message)
    split
    · next hhex =>
      subst hhex
      exact .rooted ⟨computed, hstored, hcomputed⟩
    · next hhex => exact .mismatch hstored hcomputed hhex
  · next hother => exact .unavailable hother

/-- Nothing is told if the root is that of the chain, and only then. -/
theorem RootTold.eq_nil_iff {errors : List String} (h : RootTold hash v errors) :
    errors = [] ↔ Rooted hash v := by
  cases h with
  | rooted hrooted => exact iff_of_true rfl hrooted
  | unavailable hother =>
    refine iff_of_false (List.cons_ne_nil _ _) ?_
    rintro ⟨root, hstored, -⟩
    exact hother _ hstored
  | mismatch hstored hcomputed hne =>
    refine iff_of_false (List.cons_ne_nil _ _) ?_
    rintro ⟨root, hstored', hcomputed'⟩
    rw [hcomputed, Option.some.injEq] at hcomputed'
    rw [hstored, Option.some.injEq, Json.str.injEq] at hstored'
    subst hcomputed'
    exact hne hstored'.symm

/-- **The second check has nothing to tell** exactly of what has the root of its chain. -/
theorem isNone_hashProblem?_iff : (hashProblem? hash v).isNone = true ↔ Rooted hash v := by
  rw [Option.isNone_iff_eq_none, ← Option.toList_eq_nil_iff, ← List.map_eq_nil_iff]
  exact (rootTold_hashProblem? hash v).eq_nil_iff

end

/-! ## The third check -/

/-- The value has the shape of a bundle. -/
def Shaped (v : Json) : Prop := ∃ d, Bundle.Draft.codec.ofJson v = .ok d

/-- What is told of the shape: nothing if it is that of a bundle, and else the first fault in it. -/
inductive ShapeTold (v : Json) : List String → Prop where
  | shaped : Shaped v → ShapeTold v []
  | fault {fault : Fault} : Bundle.Draft.codec.ofJson v = .error fault →
      ShapeTold v [s!"bundle shape invalid: {fault.message}"]

theorem shapeTold_shapeProblem? (v : Json) :
    ShapeTold v ((shapeProblem? v).toList.map Problem.message) := by
  unfold shapeProblem?
  split
  · next d hd => exact .shaped ⟨d, hd⟩
  · next fault hfault => exact .fault hfault

/-- Nothing is told if the shape is that of a bundle, and only then. -/
theorem ShapeTold.eq_nil_iff {v : Json} {errors : List String} (h : ShapeTold v errors) :
    errors = [] ↔ Shaped v := by
  cases h with
  | shaped hshaped => exact iff_of_true rfl hshaped
  | fault hfault =>
    refine iff_of_false (List.cons_ne_nil _ _) ?_
    rintro ⟨d, hd⟩
    rw [hfault] at hd
    cases hd

/-- **The third check has nothing to tell** exactly of what has the shape of a bundle. -/
theorem isNone_shapeProblem?_iff {v : Json} : (shapeProblem? v).isNone = true ↔ Shaped v := by
  rw [Option.isNone_iff_eq_none, ← Option.toList_eq_nil_iff, ← List.map_eq_nil_iff]
  exact (shapeTold_shapeProblem? v).eq_nil_iff

end Verification

end Custody
