import Custody.Proofs.BundleChain
import Custody.Proofs.ChainHistory

/-!
# The keys of a bundle's chain

The chain of a value has its elements in a fixed order, whatever the value is: some are always
there, three are left out when there is nothing for them, and in the middle stands one for each
execution.  No key comes twice.  What the elements are taken of is ten members of the value, as far
as their canonical texts go, and nothing else.
-/

namespace Custody.Bundle

/-! ## Which keys there are -/

/-- The keys of elements for a member that need not be there. -/
inductive OptionalKeys (v : Json) (key member : String) : List String → Prop where
  | missing : v.member? member = none → OptionalKeys v key member []
  | null : v.member? member = some .null → OptionalKeys v key member []
  | present {value : Json} : v.member? member = some value → value ≠ .null →
      OptionalKeys v key member [key]

/-- The keys of elements for executions. -/
inductive ExecutionKeys (v : Json) : List String → Prop where
  | array {executions : List Json} : v.member? "execution_snapshots" = some (.arr executions) →
      ExecutionKeys v ((List.range executions.length).map fun i => s!"execution_{i}")
  | other : (∀ executions, v.member? "execution_snapshots" ≠ some (.arr executions)) →
      ExecutionKeys v []

theorem optionalKeys_optionalElement (v : Json) (key member : String) :
    OptionalKeys v key member ((optionalElement v key member).map Prod.fst) := by
  rw [optionalElement, Json.memberOrNull]
  cases hmember : v.member? member with
  | none => exact .missing hmember
  | some value =>
    cases value with
    | null => exact .null hmember
    | bool b | num n | str s | arr items | obj fields =>
      refine .present hmember ?_
      rintro ⟨⟩

theorem keys_executionElements (i : Nat) (executions : List Json) :
    (executionElements i executions).map Prod.fst =
      (List.range' i executions.length).map fun j => s!"execution_{j}" := by
  induction executions generalizing i with
  | nil => rfl
  | cons execution rest ih =>
    rw [executionElements, List.map_cons, ih, List.length_cons, List.range'_succ, List.map_cons]

theorem executionKeys_executionsOf (v : Json) :
    ExecutionKeys v ((executionsOf v).map Prod.fst) := by
  unfold executionsOf
  split
  · next executions hmember =>
    rw [keys_executionElements, ← List.range_eq_range']
    exact .array hmember
  · next hother => exact .other hother

/-! ## No key comes twice -/

theorem OptionalKeys.sublist {v : Json} {key member : String} {keys : List String}
    (h : OptionalKeys v key member keys) : keys.Sublist [key] := by
  cases h with
  | missing | null => exact List.nil_sublist _
  | present => exact List.Sublist.refl _

theorem executionKey_injective {i j : Nat} (h : s!"execution_{i}" = s!"execution_{j}") : i = j := by
  have htext := congrArg String.toList h
  simp only [toString, String.toList_append, Nat.toList_repr] at htext
  have hdigits : Nat.toDigits 10 i = Nat.toDigits 10 j :=
    List.append_cancel_left htext
  rw [← Number.digitsValue_toDigits i, hdigits, Number.digitsValue_toDigits]

theorem ExecutionKeys.nodup {v : Json} {keys : List String} (h : ExecutionKeys v keys) :
    keys.Nodup := by
  cases h with
  | other => exact List.nodup_nil
  | array hmember =>
    rw [List.nodup_iff_pairwise_ne, List.pairwise_map]
    refine List.nodup_range.imp ?_
    intro i j hne hkeys
    exact hne (executionKey_injective hkeys)

theorem ExecutionKeys.not_fixed {v : Json} {keys : List String} (h : ExecutionKeys v keys) :
    ∀ key ∈ keys, key ∉ fixedKeys := by
  cases h with
  | other => exact List.forall_mem_nil _
  | array hmember =>
    intro key hkey
    obtain ⟨i, -, rfl⟩ := List.mem_map.mp hkey
    exact executionKey_not_fixed i

/-- Keys around those of executions are distinct if they are fixed ones in their order. -/
theorem nodup_around {before executions after : List String}
    (hfixed : (before ++ after).Sublist fixedKeys) (hnodup : executions.Nodup)
    (hother : ∀ key ∈ executions, key ∉ fixedKeys) : (before ++ executions ++ after).Nodup := by
  have hperm : (before ++ executions ++ after).Perm (executions ++ (before ++ after)) := by
    rw [← List.append_assoc]
    exact List.perm_append_comm.append_right after
  rw [hperm.nodup_iff, List.nodup_append]
  refine ⟨hnodup, hfixed.nodup (by decide), ?_⟩
  rintro key hkey key' hkey' rfl
  exact hother key hkey (hfixed.subset hkey')

/-- What the keys of a chain are, in their order. -/
theorem keys_elements (v : Json) :
    ∃ grant executions failure results,
      OptionalKeys v "grant" "grant_snapshot" grant ∧ ExecutionKeys v executions ∧
      OptionalKeys v "failure" "failure_composition" failure ∧
      OptionalKeys v "results" "results" results ∧
      (elements v).map Prod.fst = ["context", "intent", "principal"] ++ grant ++ executions ++
        failure ++ results ++ ["authority_version", "bundle"] := by
  refine ⟨_, _, _, _, optionalKeys_optionalElement v _ _, executionKeys_executionsOf v,
    optionalKeys_optionalElement v _ _, optionalKeys_optionalElement v _ _, ?_⟩
  simp only [elements, List.map_append, List.map_cons, List.map_nil]

theorem nodup_keys (v : Json) : ((elements v).map Prod.fst).Nodup := by
  obtain ⟨grant, executions, failure, results, hgrant, hexecutions, hfailure, hresults, hkeys⟩ :=
    keys_elements v
  have hfixed : ((["context", "intent", "principal"] ++ grant) ++
      (failure ++ results ++ ["authority_version", "bundle"])).Sublist fixedKeys :=
    ((List.Sublist.refl _).append hgrant.sublist).append
      ((hfailure.sublist.append hresults.sublist).append (List.Sublist.refl _))
  have hnodup := nodup_around hfixed hexecutions.nodup hexecutions.not_fixed
  rw [hkeys]
  simpa only [List.append_assoc] using hnodup

/-! ## What the chain is taken of -/

theorem keys_chain (hash : Hasher) (v : Json) :
    (chain hash v).entries.map Entry.key = (elements v).map Prod.fst := by
  rw [chain, Chain.entries_ofElements, List.map_map]
  rfl

/-- **Only the canonical texts of ten members matter.** -/
theorem chain_congr (hash : Hasher) {v w : Json}
    (h : ∀ key ∈ chainedKeys, (v.memberOrNull key).canonical = (w.memberOrNull key).canonical) :
    chain hash v = chain hash w := by
  have hnorm : elements v.norm = elements w.norm := by
    apply elements_eq_of_memberOrNull
    intro key hkey
    rw [Json.memberOrNull_norm, Json.memberOrNull_norm]
    exact Json.canonical_eq_iff.mp (h key hkey)
  rw [← chain_norm hash v, ← chain_norm hash w, chain, chain, hnorm]

/-- **The chain of any value has a root, and its keys in order and once each**: those that are
always there, those of optional members other than null, and one for each execution of an array.
Values whose ten members have the same canonical texts, a missing one counting as null, have the
same entries and the same root. -/
theorem chain_has_its_keys_in_order (hash : Hasher) (v : Json) :
    (∃ root, (chain hash v).root = some root) ∧
    (∃ grant executions failure results,
      OptionalKeys v "grant" "grant_snapshot" grant ∧ ExecutionKeys v executions ∧
      OptionalKeys v "failure" "failure_composition" failure ∧
      OptionalKeys v "results" "results" results ∧
      (chain hash v).entries.map Entry.key = ["context", "intent", "principal"] ++ grant ++
        executions ++ failure ++ results ++ ["authority_version", "bundle"]) ∧
    ((chain hash v).entries.map Entry.key).Nodup ∧
    ∀ w : Json, (∀ key ∈ chainedKeys,
        (v.memberOrNull key).canonical = (w.memberOrNull key).canonical) →
      (chain hash v).entries = (chain hash w).entries ∧
        (chain hash v).root = (chain hash w).root := by
  rw [keys_chain]
  refine ⟨exists_root hash v, keys_elements v, nodup_keys v, ?_⟩
  intro w h
  rw [chain_congr hash h]
  exact ⟨rfl, rfl⟩

/-- A null grant is as good as none, one as good as `1.0`, and a member with a key of its own is
not looked at. -/
theorem chain_has_its_keys_in_order_null_grant :
    ∃ v w : Json, v = .obj [("created_at", .num (.int ⟨1, by decide, by decide⟩)),
        ("grant_snapshot", .null)] ∧
      w = .obj [("created_at", .num (.float
          ⟨false, 0x10000000000000, 1022, by decide, by decide, by decide⟩)),
        ("note", .bool true)] ∧
      (∀ key ∈ chainedKeys, (v.memberOrNull key).canonical = (w.memberOrNull key).canonical) ∧
      ∀ hash : Hasher, (chain hash v).entries = (chain hash w).entries ∧
        (chain hash v).root = (chain hash w).root := by
  refine ⟨_, _, rfl, rfl, ?hsame, fun hash => ?_⟩
  case hsame => decide +kernel
  exact (chain_has_its_keys_in_order hash _).2.2.2 _ (by decide +kernel)

end Custody.Bundle
