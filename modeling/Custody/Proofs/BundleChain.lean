import Custody.Bundle.Basic
import Custody.Proofs.ChainBinding

/-!
# What the chain of a bundle depends on

The chain is taken of a value of which nothing is known.  It looks up ten members and depends on
them only, and of each on no more than its canonical text.
-/

namespace Custody

namespace Json

theorem member?_norm (key : String) (v : Json) :
    v.norm.member? key = (v.member? key).map Json.norm := by
  cases v with
  | obj fields =>
    rw [norm, normFields_eq_map]
    exact Assoc.lookup_map Json.norm fields key
  | null | bool b | num n | str s | arr items => rfl

theorem memberOrNull_norm (key : String) (v : Json) :
    v.norm.memberOrNull key = (v.memberOrNull key).norm := by
  rw [memberOrNull, memberOrNull, member?_norm]
  cases v.member? key <;> rfl

theorem isNull_norm (v : Json) : v.norm.isNull = v.isNull := by
  cases v <;> rfl

theorem eq_null_of_isNull {v : Json} (h : v.isNull = true) : v = .null := by
  cases v with
  | null => rfl
  | bool b | num n | str s | arr items | obj fields => cases h

end Json

namespace Bundle

open Chain (committed)

/-- The keys of the members that a chain is taken of. -/
def chainedKeys : List String :=
  ["authority_version", "bundle_id", "context_snapshot", "created_at", "execution_snapshots",
    "failure_composition", "grant_snapshot", "intent_snapshot", "principal_snapshot", "results"]

theorem optionalElement_congr {v w : Json} {member : String}
    (h : v.memberOrNull member = w.memberOrNull member) (key : String) :
    optionalElement v key member = optionalElement w key member := by
  rw [optionalElement, optionalElement, h]

/-- Executions that are missing are as good as null. -/
theorem executionsOf_congr {v w : Json}
    (h : v.memberOrNull "execution_snapshots" = w.memberOrNull "execution_snapshots") :
    executionsOf v = executionsOf w := by
  rw [Json.memberOrNull, Json.memberOrNull] at h
  rw [executionsOf, executionsOf]
  cases hv : v.member? "execution_snapshots" with
  | none =>
    cases hw : w.member? "execution_snapshots" with
    | none => rfl
    | some executions =>
      rw [hv, hw] at h
      cases h
      rfl
  | some executions =>
    cases hw : w.member? "execution_snapshots" with
    | none =>
      rw [hv, hw] at h
      cases h
      rfl
    | some others =>
      rw [hv, hw] at h
      cases h
      rfl

/-- A chain looks at no other members than these, and at one that is missing as at null. -/
theorem elements_eq_of_memberOrNull {v w : Json}
    (h : ∀ key ∈ chainedKeys, v.memberOrNull key = w.memberOrNull key) :
    elements v = elements w := by
  rw [elements, elements, identity, identity,
    executionsOf_congr (h "execution_snapshots" (by decide)),
    optionalElement_congr (h "grant_snapshot" (by decide)),
    optionalElement_congr (h "failure_composition" (by decide)),
    optionalElement_congr (h "results" (by decide)),
    h "context_snapshot" (by decide), h "intent_snapshot" (by decide),
    h "principal_snapshot" (by decide), h "authority_version" (by decide),
    h "bundle_id" (by decide), h "created_at" (by decide)]

theorem elements_congr {v w : Json} (h : ∀ key ∈ chainedKeys, v.member? key = w.member? key) :
    elements v = elements w := by
  apply elements_eq_of_memberOrNull
  intro key hkey
  rw [Json.memberOrNull, Json.memberOrNull, h key hkey]

/-! ## Whole doubles -/

theorem committed_append (elements others : List (String × Json)) :
    committed (elements ++ others) = committed elements ++ committed others :=
  List.map_append

theorem committed_optionalElement_norm (v : Json) (key member : String) :
    committed (optionalElement v.norm key member) = committed (optionalElement v key member) := by
  simp only [optionalElement, Json.memberOrNull_norm, Json.isNull_norm]
  split
  · rfl
  · simp only [committed, List.map_cons, List.map_nil, Json.canonical_norm]

theorem committed_executionElements_norm (i : Nat) (executions : List Json) :
    committed (executionElements i (executions.map Json.norm)) =
      committed (executionElements i executions) := by
  induction executions generalizing i with
  | nil => rfl
  | cons execution rest ih =>
    have hrest := ih (i + 1)
    rw [committed, committed] at hrest
    rw [List.map_cons, executionElements, executionElements, committed, committed, List.map_cons,
      List.map_cons, hrest, Json.canonical_norm]

theorem committed_executionsOf_norm (v : Json) :
    committed (executionsOf v.norm) = committed (executionsOf v) := by
  rw [executionsOf, executionsOf, Json.member?_norm]
  cases v.member? "execution_snapshots" with
  | none => rfl
  | some executions =>
    cases executions with
    | arr items =>
      rw [Option.map_some, Json.norm, Json.normItems_eq_map]
      exact committed_executionElements_norm 0 items
    | null | bool b | num n | str s | obj fields => rfl

theorem identity_norm (v : Json) : identity v.norm = (identity v).norm := by
  rw [identity, identity, Json.memberOrNull_norm, Json.memberOrNull_norm]
  rfl

/-- **Making whole doubles integers leaves what the chain commits to.** -/
theorem committed_elements_norm (v : Json) :
    committed (elements v.norm) = committed (elements v) := by
  simp only [elements, committed_append, committed_optionalElement_norm,
    committed_executionsOf_norm]
  simp only [committed, List.map_cons, List.map_nil, Json.memberOrNull_norm, Json.canonical_norm,
    identity_norm]

theorem chain_norm (hash : Hasher) (v : Json) : chain hash v.norm = chain hash v :=
  Chain.ofElements_congr (committed_elements_norm v)

/-- There is always something to take a chain of. -/
theorem exists_root (hash : Hasher) (v : Json) : ∃ root, (chain hash v).root = some root := by
  apply Chain.exists_root
  intro h
  cases h

/-! ## Each member is told

The keys of a chain are distinct, so what is committed to under a key tells the member that it
stands for. -/

/-- The members that are always there in a chain, each after its key. -/
def plainMembers : List (String × String) :=
  [("context", "context_snapshot"), ("intent", "intent_snapshot"),
    ("principal", "principal_snapshot"), ("authority_version", "authority_version")]

/-- The members that are left out of a chain when they are null, each after its key. -/
def optionalMembers : List (String × String) :=
  [("grant", "grant_snapshot"), ("failure", "failure_composition"), ("results", "results")]

/-- The keys of elements that are no executions. -/
def fixedKeys : List String :=
  ["context", "intent", "principal", "grant", "failure", "results", "authority_version", "bundle"]

theorem executionKey_not_fixed (i : Nat) : s!"execution_{i}" ∉ fixedKeys := by
  have hfixed : ∀ key ∈ fixedKeys, ¬"execution_".toList <+: key.toList := by decide
  intro hmem
  apply hfixed _ hmem
  simp only [String.toList_append]
  exact ⟨_, (List.append_assoc _ _ _).symm⟩

theorem key_of_mem_executionElements {i : Nat} {executions : List Json} {key text : String}
    (h : (key, text) ∈ committed (executionElements i executions)) : key ∉ fixedKeys := by
  induction executions generalizing i with
  | nil => cases h
  | cons execution rest ih =>
    rw [executionElements, committed, List.map_cons] at h
    rcases List.mem_cons.mp h with heq | h
    · cases heq
      exact executionKey_not_fixed i
    · exact ih h

theorem key_of_mem_executionsOf {v : Json} {key text : String}
    (h : (key, text) ∈ committed (executionsOf v)) : key ∉ fixedKeys := by
  unfold executionsOf at h
  split at h
  · exact key_of_mem_executionElements h
  · cases h

theorem lookup_executionsOf (v : Json) {key : String} (h : key ∈ fixedKeys) :
    (committed (executionsOf v)).lookup key = none := by
  apply Assoc.lookup_eq_none
  rintro ⟨k, text⟩ hmem rfl
  exact key_of_mem_executionsOf hmem h

theorem lookup_optionalElement (v : Json) (key member k : String) :
    (committed (optionalElement v key member)).lookup k =
      if (v.memberOrNull member).isNull = false ∧ k = key then
        some (v.memberOrNull member).canonical else none := by
  rw [optionalElement]
  cases hnull : (v.memberOrNull member).isNull with
  | true => simp [committed]
  | false =>
    by_cases hk : k = key
    · simp [committed, hk]
    · simp [committed, hk]

/-- What is committed to under a key, the executions left out. -/
theorem lookup_elements (v : Json) {key : String} (h : key ∈ fixedKeys) :
    (committed (elements v)).lookup key =
      ((committed [("context", v.memberOrNull "context_snapshot"),
        ("intent", v.memberOrNull "intent_snapshot"),
        ("principal", v.memberOrNull "principal_snapshot")]).lookup key).or
      (((committed (optionalElement v "grant" "grant_snapshot")).lookup key).or
      (((committed (optionalElement v "failure" "failure_composition")).lookup key).or
      (((committed (optionalElement v "results" "results")).lookup key).or
      ((committed [("authority_version", v.memberOrNull "authority_version"),
        ("bundle", identity v)]).lookup key)))) := by
  simp only [elements, committed_append, List.lookup_append, lookup_executionsOf v h,
    Option.or_none, Option.or_assoc]

/-- A member that is left out when it is null is told by what is there of it. -/
theorem norm_eq_of_optional {a b : Json}
    (h : (if a.isNull = false then some a.canonical else none) =
      if b.isNull = false then some b.canonical else none) : a.norm = b.norm := by
  cases ha : a.isNull with
  | true =>
    cases hb : b.isNull with
    | true => rw [Json.eq_null_of_isNull ha, Json.eq_null_of_isNull hb]
    | false =>
      rw [ha, hb] at h
      cases h
  | false =>
    cases hb : b.isNull with
    | true =>
      rw [ha, hb] at h
      cases h
    | false =>
      rw [ha, hb, if_pos rfl, if_pos rfl, Option.some.injEq] at h
      exact Json.canonical_eq_iff.mp h

theorem lookup_optional (v : Json) {key member : String} (h : (key, member) ∈ optionalMembers) :
    (committed (elements v)).lookup key =
      if (v.memberOrNull member).isNull = false then some (v.memberOrNull member).canonical
      else none := by
  simp only [optionalMembers, List.mem_cons, Prod.mk.injEq, List.not_mem_nil, or_false] at h
  rcases h with ⟨rfl, rfl⟩ | ⟨rfl, rfl⟩ | ⟨rfl, rfl⟩ <;>
  · rw [lookup_elements v (by decide), lookup_optionalElement, lookup_optionalElement,
      lookup_optionalElement]
    simp [committed, List.lookup_cons]

theorem lookup_plain (v : Json) {key member : String} (h : (key, member) ∈ plainMembers) :
    (committed (elements v)).lookup key = some (v.memberOrNull member).canonical := by
  simp only [plainMembers, List.mem_cons, Prod.mk.injEq, List.not_mem_nil, or_false] at h
  rcases h with ⟨rfl, rfl⟩ | ⟨rfl, rfl⟩ | ⟨rfl, rfl⟩ | ⟨rfl, rfl⟩ <;>
  · rw [lookup_elements v (by decide), lookup_optionalElement, lookup_optionalElement,
      lookup_optionalElement]
    simp [committed, List.lookup_cons]

theorem lookup_identity (v : Json) :
    (committed (elements v)).lookup "bundle" = some (identity v).canonical := by
  rw [lookup_elements v (by decide), lookup_optionalElement, lookup_optionalElement,
    lookup_optionalElement]
  simp [committed, List.lookup_cons]

theorem filter_optionalElement (v : Json) {key member : String} (h : key ∈ fixedKeys) :
    (committed (optionalElement v key member)).filter (fun e => e.1 ∉ fixedKeys) = [] := by
  rw [optionalElement]
  split
  · rfl
  · exact List.filter_cons_of_neg (by simp [h])

/-- The elements for executions are those without a key of their own. -/
theorem filter_elements (v : Json) :
    (committed (elements v)).filter (fun e => e.1 ∉ fixedKeys) = committed (executionsOf v) := by
  have hexecutions : (committed (executionsOf v)).filter (fun e => e.1 ∉ fixedKeys) =
      committed (executionsOf v) := by
    apply List.filter_eq_self.mpr
    intro e he
    exact decide_eq_true (key_of_mem_executionsOf he)
  have hfirst : (committed [("context", v.memberOrNull "context_snapshot"),
      ("intent", v.memberOrNull "intent_snapshot"),
      ("principal", v.memberOrNull "principal_snapshot")]).filter
        (fun e => e.1 ∉ fixedKeys) = [] := rfl
  have hlast : (committed [("authority_version", v.memberOrNull "authority_version"),
      ("bundle", identity v)]).filter (fun e => e.1 ∉ fixedKeys) = [] := rfl
  rw [elements, committed_append, committed_append, committed_append, committed_append,
    committed_append, List.filter_append, List.filter_append, List.filter_append,
    List.filter_append, List.filter_append, hfirst, hexecutions, hlast,
    filter_optionalElement v (by decide), filter_optionalElement v (by decide),
    filter_optionalElement v (by decide)]
  simp only [List.nil_append, List.append_nil]

theorem texts_executionElements (i : Nat) (executions : List Json) :
    (committed (executionElements i executions)).map Prod.snd = executions.map Json.canonical := by
  induction executions generalizing i with
  | nil => rfl
  | cons execution rest ih =>
    rw [executionElements, committed, List.map_cons, List.map_cons, List.map_cons, ← ih (i + 1)]
    rfl

theorem map_norm_eq_of_canonical {items others : List Json}
    (h : items.map Json.canonical = others.map Json.canonical) :
    items.map Json.norm = others.map Json.norm := by
  induction items generalizing others with
  | nil =>
    cases others with
    | nil => rfl
    | cons other more => cases h
  | cons item rest ih =>
    cases others with
    | nil => cases h
    | cons other more =>
      rw [List.map_cons, List.map_cons, List.cons.injEq] at h
      rw [List.map_cons, List.map_cons, Json.canonical_eq_iff.mp h.1, ih h.2]

/-- **The chain tells the executions**, their number and their order. -/
theorem norm_executions_eq {v w : Json} {items others : List Json}
    (h : committed (elements v) = committed (elements w))
    (hv : v.member? "execution_snapshots" = some (.arr items))
    (hw : w.member? "execution_snapshots" = some (.arr others)) :
    (Json.arr items).norm = (Json.arr others).norm := by
  have hfilter := congrArg (List.filter fun e => e.1 ∉ fixedKeys) h
  rw [filter_elements, filter_elements, executionsOf, executionsOf, hv, hw] at hfilter
  have htexts := congrArg (List.map Prod.snd) hfilter
  simp only [texts_executionElements] at htexts
  rw [Json.norm, Json.norm, Json.normItems_eq_map, Json.normItems_eq_map,
    map_norm_eq_of_canonical htexts]

section

variable {v w : Json}

theorem norm_plain_eq (h : committed (elements v) = committed (elements w)) (key member : String)
    (hmember : (key, member) ∈ plainMembers) :
    (v.memberOrNull member).norm = (w.memberOrNull member).norm := by
  have hlookup := lookup_plain v hmember
  rw [h, lookup_plain w hmember, Option.some.injEq] at hlookup
  exact Json.canonical_eq_iff.mp hlookup.symm

theorem norm_optional_eq (h : committed (elements v) = committed (elements w))
    (key member : String) (hmember : (key, member) ∈ optionalMembers) :
    (v.memberOrNull member).norm = (w.memberOrNull member).norm := by
  have hlookup := lookup_optional v hmember
  rw [h, lookup_optional w hmember] at hlookup
  exact norm_eq_of_optional hlookup.symm

theorem norm_identity_eq (h : committed (elements v) = committed (elements w)) :
    (v.memberOrNull "bundle_id").norm = (w.memberOrNull "bundle_id").norm ∧
      (v.memberOrNull "created_at").norm = (w.memberOrNull "created_at").norm := by
  have hlookup := lookup_identity v
  rw [h, lookup_identity w, Option.some.injEq] at hlookup
  have hidentity := Json.canonical_eq_iff.mp hlookup.symm
  rw [identity, identity, Json.norm, Json.norm, Json.normFields_eq_map,
    Json.normFields_eq_map] at hidentity
  simpa using hidentity

/-- **The chain tells every other member** that it is taken of. -/
theorem norm_memberOrNull_eq (h : committed (elements v) = committed (elements w)) {key : String}
    (hkey : key ∈ chainedKeys) (hne : key ≠ "execution_snapshots") :
    (v.memberOrNull key).norm = (w.memberOrNull key).norm := by
  obtain ⟨hid, hcreated⟩ := norm_identity_eq h
  simp only [chainedKeys, List.mem_cons, List.not_mem_nil, or_false] at hkey
  rcases hkey with rfl | rfl | rfl | rfl | rfl | rfl | rfl | rfl | rfl | rfl
  · exact norm_plain_eq h "authority_version" "authority_version" (by decide)
  · exact hid
  · exact norm_plain_eq h "context" "context_snapshot" (by decide)
  · exact hcreated
  · exact absurd rfl hne
  · exact norm_optional_eq h "failure" "failure_composition" (by decide)
  · exact norm_optional_eq h "grant" "grant_snapshot" (by decide)
  · exact norm_plain_eq h "intent" "intent_snapshot" (by decide)
  · exact norm_plain_eq h "principal" "principal_snapshot" (by decide)
  · exact norm_optional_eq h "results" "results" (by decide)

end

end Bundle

end Custody
