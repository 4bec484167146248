import Custody.Proofs.ExportVerification

/-!
# Tampering is evident

Verifying is a matter of bytes of which nothing is known, and the checks do not bind them equally
well: the chain leaves out members that are null, takes executions that are no array for none, and
never looks at a member that it does not know.  The check of the shape closes these gaps.  What
passes all checks is an object with the members of a bundle and no others, where at most three are
missing that might as well be null; and each of them is told by what the chain commits to.
-/

namespace Custody

/-! ## Missing members as nulls -/

namespace Json

/-- Puts null under a key of an object that has no such member. -/
def putNull (fields : List (String × Json)) (key : String) : List (String × Json) :=
  if (fields.lookup key).isSome then fields else Assoc.insert key .null fields

/-- An object with null in place of each of these members that is missing.  Other values are left as
they are. -/
def withNulls (keys : List String) : Json → Json
  | .obj fields => .obj (keys.foldl putNull fields)
  | v => v

theorem sorted_putNull {fields : List (String × Json)} (h : Assoc.Sorted fields) (key : String) :
    Assoc.Sorted (putNull fields key) := by
  unfold putNull
  split
  · exact h
  · exact h.insert key .null

theorem lookup_putNull (fields : List (String × Json)) (key k : String) :
    (putNull fields key).lookup k =
      (fields.lookup k).or (if k = key then some .null else none) := by
  unfold putNull
  by_cases hk : k = key
  · subst hk
    rw [if_pos rfl]
    cases hlookup : fields.lookup k with
    | some v => exact hlookup
    | none => exact Assoc.lookup_insert_self k .null fields
  · rw [if_neg hk, Option.or_none]
    split
    · rfl
    · exact Assoc.lookup_insert_of_ne hk .null fields

theorem sorted_foldl_putNull {fields : List (String × Json)} (h : Assoc.Sorted fields)
    (keys : List String) : Assoc.Sorted (keys.foldl putNull fields) := by
  induction keys generalizing fields with
  | nil => exact h
  | cons key rest ih => exact ih (sorted_putNull h key)

theorem lookup_foldl_putNull (fields : List (String × Json)) (keys : List String) (k : String) :
    (keys.foldl putNull fields).lookup k =
      (fields.lookup k).or (if k ∈ keys then some .null else none) := by
  induction keys generalizing fields with
  | nil => exact (Option.or_none).symm
  | cons key rest ih =>
    rw [List.foldl_cons, ih, lookup_putNull, Option.or_assoc]
    congr 1
    by_cases hk : k = key
    · subst hk
      rw [if_pos rfl, if_pos List.mem_cons_self]
      rfl
    · rw [if_neg hk, Option.none_or]
      simp only [List.mem_cons, hk, false_or]

/-- The members of an object under given keys, null for those that are missing. -/
def restrict (keys : List String) (v : Json) : List (String × Json) :=
  keys.map fun key => (key, v.memberOrNull key)

theorem lookup_restrict {keys : List String} (v : Json) (k : String) :
    (restrict keys v).lookup k = if k ∈ keys then some (v.memberOrNull k) else none := by
  induction keys with
  | nil => rfl
  | cons key rest ih =>
    rw [restrict, List.map_cons]
    by_cases hk : k = key
    · subst hk
      rw [List.lookup_cons_self, if_pos List.mem_cons_self]
    · rw [Assoc.lookup_cons_of_ne hk]
      refine ih.trans ?_
      simp only [List.mem_cons, hk, false_or]

/-- An object that has no members but those under given keys, and lacks only some that nulls stand
for, is told by what it has under each key. -/
theorem withNulls_eq_restrict {fields : List (String × Json)} {keys missing : List String}
    (hsorted : Assoc.Sorted fields) (hkeys : keys.Pairwise (· < ·))
    (hknown : ∀ field ∈ fields, field.1 ∈ keys) (hmissing : ∀ key ∈ missing, key ∈ keys)
    (hthere : ∀ key ∈ keys, key ∉ missing → (fields.lookup key).isSome = true) :
    withNulls missing (.obj fields) = .obj (restrict keys (.obj fields)) := by
  have hrestrict : Assoc.Sorted (restrict keys (.obj fields)) := by
    apply Assoc.sorted_of_keys (List.map_map.trans ?_) hkeys
    exact List.map_id' keys
  rw [withNulls]
  congr 1
  apply Assoc.Sorted.ext (sorted_foldl_putNull hsorted missing) hrestrict
  intro key
  rw [lookup_foldl_putNull, lookup_restrict]
  show (fields.lookup key).or _ = if key ∈ keys then some ((fields.lookup key).getD .null) else none
  cases hlookup : fields.lookup key with
  | some v =>
    rw [if_pos (hknown _ (Assoc.mem_of_lookup hlookup))]
    rfl
  | none =>
    by_cases hmem : key ∈ missing
    · rw [if_pos hmem, if_pos (hmissing key hmem)]
      rfl
    · rw [if_neg hmem, if_neg]
      · rfl
      · intro hkey
        have hsome := hthere key hkey hmem
        rw [hlookup] at hsome
        cases hsome

end Json

/-! ## What the shape of a bundle says of an object -/

namespace Bundle

/-- The members of a bundle that nulls stand for. -/
def missingKeys : List String := ["failure_composition", "grant_snapshot", "results"]

/-- The value of a bundle with null for those of these members that it lacks. -/
def completed (v : Json) : Json := v.withNulls missingKeys

theorem exists_items_of_ofJson_list {α : Type} {c : Codec α} {v : Json} {things : List α}
    (h : c.list.ofJson v = .ok things) : ∃ items, v = .arr items := by
  cases v with
  | arr items => exact ⟨items, rfl⟩
  | null | bool b | num n | str s | obj fields => cases h

variable {fields : List (String × Json)} {d : Draft}

theorem members_of_ofJson (hsorted : Assoc.Sorted fields)
    (h : Draft.codec.ofJson (.obj fields) = .ok d) :
    (∀ field ∈ fields, field.1 ∈ keys) ∧
      (∀ key ∈ keys, key ∉ missingKeys → (fields.lookup key).isSome = true) ∧
      ∃ items, fields.lookup "execution_snapshots" = some (.arr items) := by
  obtain ⟨row, hrow, -⟩ := Codec.ofJson_iso.mp h
  obtain ⟨hknown, hgiven⟩ := (Codec.ofJson_record (by decide) hsorted).mp hrow
  refine ⟨?_, ?_, ?_⟩
  · intro field hfield
    have hnames : ∀ name ∈ Draft.fields.names, name ∈ keys := by decide
    exact hnames field.1 (hknown rfl field hfield)
  · intro key hkey hmissing
    have hrequired : ∀ key ∈ keys, key ∉ missingKeys → key ∈ Draft.fields.requiredNames := by decide
    exact hgiven.isSome_lookup key (hrequired key hkey hmissing)
  · obtain ⟨-, -, -, -, -, -, hexecutions, -⟩ := hgiven
    rcases hexecutions with ⟨v, hlookup, hread⟩ | ⟨-, habsent⟩
    · obtain ⟨items, rfl⟩ := exists_items_of_ofJson_list hread
      exact ⟨items, hlookup⟩
    · cases habsent

/-- What has the shape of a bundle is completed to what it has under each key of a bundle. -/
theorem completed_eq (hsorted : Assoc.Sorted fields)
    (h : Draft.codec.ofJson (.obj fields) = .ok d) :
    completed (.obj fields) = .obj (Json.restrict keys (.obj fields)) := by
  obtain ⟨hknown, hthere, -⟩ := members_of_ofJson hsorted h
  exact Json.withNulls_eq_restrict hsorted (by decide) hknown (by decide) hthere

theorem norm_restrict_eq {keys : List String} {v w : Json}
    (h : ∀ key ∈ keys, (v.memberOrNull key).norm = (w.memberOrNull key).norm) :
    (Json.obj (Json.restrict keys v)).norm = (Json.obj (Json.restrict keys w)).norm := by
  rw [Json.norm, Json.norm, Json.normFields_eq_map, Json.normFields_eq_map, Json.restrict,
    Json.restrict, List.map_map, List.map_map]
  congr 1
  apply List.map_congr_left
  intro key hkey
  exact Prod.ext rfl (h key hkey)

end Bundle

/-! ## What verification accepts -/

namespace Verification

/-- An object that passes all checks. -/
structure Accepts (hash : Hasher) (fields : List (String × Json)) (root : Digest) : Prop where
  sorted : Assoc.Sorted fields
  shape : ∃ d, Bundle.Draft.codec.ofJson (.obj fields) = .ok d
  stored : (Json.obj fields).member? "hash_chain_root" = some (.str root.hex)
  computed : (Bundle.chain hash (.obj fields)).root = some root

/-- **What is accepted** is an object in the shape of a bundle, with the root of its chain. -/
theorem accepts_of_isValid {hash : Hasher} {bytes : ByteArray}
    (h : (ofBytes hash bytes).isValid = true) :
    ∃ fields root, Json.parse? (Text.decode bytes) = some (.obj fields) ∧
      Accepts hash fields root := by
  rw [ofBytes, ofText] at h
  split at h
  · cases h
  · next v hparse =>
    split at h
    · next fields =>
      simp only [ofObject, Bool.and_eq_true] at h
      obtain ⟨⟨hhash, -⟩, hshape⟩ := h
      obtain ⟨root, hstored, hcomputed⟩ := isNone_hashProblem?_iff.mp hhash
      refine ⟨fields, root, hparse, ?_, isNone_shapeProblem?_iff.mp hshape, hstored, hcomputed⟩
      cases Json.ordered_of_parse? hparse with
      | obj hsorted _ => exact hsorted
    · cases h

/-- What is hashed while bytes are verified: what the chain of their value is taken of, if they are
an object that has a root to compare with. -/
def hashed (hash : Hasher) (bytes : ByteArray) : List ByteArray :=
  match Json.parse? (Text.decode bytes) with
  | some (.obj fields) =>
    match (Json.obj fields).member? "hash_chain_root" with
    | some (.str _) => Chain.hashed hash (Bundle.elements (.obj fields))
    | _ => []
  | _ => []

/-- **Nothing else is hashed**: a function that agrees there gives the same verification. -/
theorem ofBytes_eq_of_agree {hash hash' : Hasher} {bytes : ByteArray}
    (h : ∀ x ∈ hashed hash bytes, hash' x = hash x) : ofBytes hash' bytes = ofBytes hash bytes := by
  rw [hashed] at h
  rw [ofBytes, ofBytes, ofText, ofText]
  split
  · rfl
  · next v hparse =>
    split
    · next fields =>
      rw [hparse] at h
      have hproblem : hashProblem? hash' (.obj fields) = hashProblem? hash (.obj fields) := by
        unfold hashProblem?
        split
        · next stored hstored =>
          simp only [hstored] at h
          rw [Bundle.chain, Bundle.chain, Chain.ofElements_eq_of_agree h]
        · rfl
      rw [ofObject, ofObject, hproblem]
    · rfl

theorem hashed_eq {hash : Hasher} {bytes : ByteArray} {fields : List (String × Json)}
    {root : Digest} (hparse : Json.parse? (Text.decode bytes) = some (.obj fields))
    (h : Accepts hash fields root) :
    hashed hash bytes = Chain.hashed hash (Bundle.elements (.obj fields)) := by
  rw [hashed, hparse]
  simp only [h.stored]

/-! ## Tamper evidence -/

/-- Objects that are accepted with one root agree in every member of a bundle, whole doubles apart,
or there is a collision. -/
theorem norm_member_eq_or_collision {hash : Hasher} {fields others : List (String × Json)}
    {root : Digest} (hv : Accepts hash fields root) (hw : Accepts hash others root) :
    (∀ key ∈ Bundle.keys, ((Json.obj fields).memberOrNull key).norm =
      ((Json.obj others).memberOrNull key).norm) ∨
    Collision hash (Chain.hashed hash (Bundle.elements (.obj fields)) ++
      Chain.hashed hash (Bundle.elements (.obj others))) := by
  have hroots := hv.computed.trans hw.computed.symm
  rcases Chain.committed_eq_of_root_eq hroots with hcommitted | hcollision
  · refine Or.inl ?_
    intro key hkey
    by_cases hexecutions : key = "execution_snapshots"
    · subst hexecutions
      obtain ⟨d, hd⟩ := hv.shape
      obtain ⟨e, he⟩ := hw.shape
      obtain ⟨-, -, items, hitems⟩ := Bundle.members_of_ofJson hv.sorted hd
      obtain ⟨-, -, items', hitems'⟩ := Bundle.members_of_ofJson hw.sorted he
      have hnorm := Bundle.norm_executions_eq hcommitted hitems hitems'
      rw [Json.memberOrNull, Json.memberOrNull, Json.member?, Json.member?, hitems, hitems']
      exact hnorm
    · by_cases hroot : key = "hash_chain_root"
      · subst hroot
        rw [Json.memberOrNull, Json.memberOrNull, hv.stored, hw.stored]
      · have hchained :
            ∀ key ∈ Bundle.keys, key ≠ "hash_chain_root" → key ∈ Bundle.chainedKeys := by
          decide
        exact Bundle.norm_memberOrNull_eq hcommitted (hchained key hkey hroot) hexecutions
  · exact Or.inr hcollision

/-- An exported bundle lacks no member. -/
theorem completed_exported {b : Bundle} {v : Json}
    (h : Json.parse? b.exported.toList = some v) :
    (Bundle.completed v).canonical = b.exported := by
  rw [Bundle.parse?_exported] at h
  split at h
  · cases h
    have hcompleted :
        Bundle.completed (.obj b.draft.norm.members) = .obj b.draft.norm.members := rfl
    rw [hcompleted, ← Bundle.Draft.norm_members, Json.canonical_norm]
    rfl
  · cases h

/-- Objects that are accepted with one root are equal once completed, whole doubles apart, or there
is a collision. -/
theorem norm_completed_eq_or_collision {hash : Hasher} {fields others : List (String × Json)}
    {root : Digest} (hv : Accepts hash fields root) (hw : Accepts hash others root) :
    (Bundle.completed (.obj fields)).norm = (Bundle.completed (.obj others)).norm ∨
    Collision hash (Chain.hashed hash (Bundle.elements (.obj fields)) ++
      Chain.hashed hash (Bundle.elements (.obj others))) := by
  rcases norm_member_eq_or_collision hv hw with hmembers | hcollision
  · refine Or.inl ?_
    obtain ⟨d, hd⟩ := hv.shape
    obtain ⟨e, he⟩ := hw.shape
    rw [Bundle.completed_eq hv.sorted hd, Bundle.completed_eq hw.sorted he]
    exact Bundle.norm_restrict_eq hmembers
  · exact Or.inr hcollision

/-- **Tampering is evident.**  Bytes that are found valid are objects.  If two of them carry one
root, they have one canonical text once nulls stand for the three members that may be missing, and
differ at no depth but in how whole doubles are written; or else there is a collision among what was
hashed to verify them.  No null has to be put into what was exported. -/
theorem tamper_evident (hash : Hasher) (x y : ByteArray) (hx : (ofBytes hash x).isValid = true)
    (hy : (ofBytes hash y).isValid = true) :
    ∃ v w, Json.parse? (Text.decode x) = some v ∧ Json.parse? (Text.decode y) = some w ∧
      (v.member? "hash_chain_root" = w.member? "hash_chain_root" →
        ((Bundle.completed v).canonical = (Bundle.completed w).canonical ∧
          (Bundle.completed v).norm = (Bundle.completed w).norm) ∨
        Collision hash (hashed hash x ++ hashed hash y)) ∧
      ∀ b : Bundle, x = b.exported.toUTF8 → (Bundle.completed v).canonical = b.exported := by
  obtain ⟨fields, root, hparse, hv⟩ := accepts_of_isValid hx
  obtain ⟨others, root', hparse', hw⟩ := accepts_of_isValid hy
  refine ⟨.obj fields, .obj others, hparse, hparse', ?_, ?_⟩
  · intro hstored
    rw [hv.stored, hw.stored, Option.some.injEq, Json.str.injEq] at hstored
    have hroot : root = root' := Digest.hex_injective hstored
    subst hroot
    rw [hashed_eq hparse hv, hashed_eq hparse' hw]
    rcases norm_completed_eq_or_collision hv hw with hnorm | hcollision
    · refine Or.inl ⟨?_, hnorm⟩
      exact Json.canonical_eq_iff.mpr hnorm
    · exact Or.inr hcollision
  · rintro b rfl
    apply completed_exported
    rw [← hparse, String.toUTF8_eq_toByteArray, Text.decode_toByteArray]

/-- Two bundles of different names are both valid under one root, if all digests are equal. -/
theorem tamper_evident_constant :
    ∃ (hash : Hasher) (x y : ByteArray) (v w : Json), (ofBytes hash x).isValid = true ∧
      (ofBytes hash y).isValid = true ∧ Json.parse? (Text.decode x) = some v ∧
      Json.parse? (Text.decode y) = some w ∧
      v.member? "hash_chain_root" = w.member? "hash_chain_root" ∧
      v.member? "bundle_id" ≠ w.member? "bundle_id" ∧
      Collision hash (hashed hash x ++ hashed hash y) := by
  let zero : Digest := ⟨List.replicate 32 0, rfl⟩
  let hash : Hasher := fun _ => zero
  let b : Bundle := ⟨Bundle.refusedParts, zero, by decide⟩
  let c : Bundle := ⟨{ Bundle.refusedParts with id := "b-2" }, zero, by decide⟩
  have hdepth : b.toJson.depth ≤ 127 := by decide
  have hdepth' : c.toJson.depth ≤ 127 := by decide
  have hb : (ofBytes hash b.exported.toUTF8).isValid = true := by
    rw [Bundle.ofBytes_exported hdepth rfl]
    rfl
  have hc : (ofBytes hash c.exported.toUTF8).isValid = true := by
    rw [Bundle.ofBytes_exported hdepth' rfl]
    rfl
  obtain ⟨v, w, hv, hw, hevident, -⟩ := tamper_evident hash _ _ hb hc
  have hreadv : v = .obj b.draft.norm.members :=
    Option.some.inj (hv.symm.trans (Bundle.parse?_decode_exported hdepth))
  have hreadw : w = .obj c.draft.norm.members :=
    Option.some.inj (hw.symm.trans (Bundle.parse?_decode_exported hdepth'))
  subst hreadv hreadw
  refine ⟨hash, _, _, _, _, hb, hc, hv, hw, rfl, ?_, ?_⟩
  · intro hid
    have htext : "b-1" = "b-2" := Json.str.inj (Option.some.inj hid)
    exact absurd htext (by decide)
  · rcases hevident rfl with ⟨-, hnorm⟩ | hcollision
    · have hid := congrArg (Json.member? "bundle_id") hnorm
      have htext : "b-1" = "b-2" := Json.str.inj (Option.some.inj hid)
      exact absurd htext (by decide)
    · exact hcollision

end Verification

end Custody
