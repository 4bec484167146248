import Custody.Proofs.ImportedBundle
import Mathlib.Data.List.Basic

/-!
# The verdicts of verification

Three checks look at one value, and each has a verdict of its own.  A report has all that they find:
first what is told of the members, one thing for each requirement that is not met, then what is told
of the root, and last what is told of the shape.  No check keeps another from telling its own.  So a
list without problems is the same as a valid bundle, a member that no bundle has is told by the
third check alone, and the verdicts come in every combination.
-/

namespace Custody

namespace Verification

/-! ## What is told of an object -/

/-- A report on an object in which each check has its say.  A verdict is against the object exactly
if its check has something to tell. -/
structure FullReport (hash : Hasher) (v : Json) (r : Verification) : Prop where
  valid : r.isValid = (r.structureValid && r.hashValid && r.integrityValid)
  bundleId : ∀ s, r.bundleId = some s ↔ v.member? "bundle_id" = some (.str s)
  complete : r.structureValid = true ↔ Complete v
  rooted : r.hashValid = true ↔ Rooted hash v
  shaped : r.integrityValid = true ↔ Shaped v
  /-- Each requirement that is not met is told, in order; then what is wrong with the root, and what
  is wrong with the shape last. -/
  errors : ∃ ofMembers ofRoot ofShape : List String,
    r.errors = ofMembers ++ ofRoot ++ ofShape ∧
    (MembersTold v requirements ofMembers ∧ (ofMembers = [] ↔ r.structureValid = true)) ∧
    (RootTold hash v ofRoot ∧ ofRoot.length = if r.hashValid then 0 else 1) ∧
    (ShapeTold v ofShape ∧ ofShape.length = if r.integrityValid then 0 else 1)

theorem bundleId?_eq_some_iff {v : Json} {s : String} :
    bundleId? v = some s ↔ v.member? "bundle_id" = some (.str s) := by
  constructor
  · intro h
    unfold bundleId? at h
    split at h
    · next t ht =>
      cases h
      exact ht
    · cases h
  · intro h
    rw [bundleId?, h]

theorem length_map_toList (p? : Option Problem) :
    (p?.toList.map Problem.message).length = if p?.isNone then 0 else 1 := by
  cases p? <;> rfl

theorem errors_ofObject (hash : Hasher) (v : Json) :
    (ofObject hash v).errors = (structureProblems v).map Problem.message ++
      (hashProblem? hash v).toList.map Problem.message ++
      (shapeProblem? v).toList.map Problem.message := by
  rw [← List.map_append, ← List.map_append]
  rfl

/-- **Each check has its say** about an object. -/
theorem fullReport_ofObject (hash : Hasher) (v : Json) :
    FullReport hash v (ofObject hash v) where
  valid := by
    simp only [ofObject]
    rw [Bool.and_comm (hashProblem? hash v).isNone]
  bundleId := fun _ => bundleId?_eq_some_iff
  complete := List.isEmpty_iff.trans structureProblems_eq_nil_iff
  rooted := isNone_hashProblem?_iff
  shaped := isNone_shapeProblem?_iff
  errors := by
    refine ⟨_, _, _, errors_ofObject hash v, ⟨?_, ?_⟩, ⟨?_, ?_⟩, ?_, ?_⟩
    · exact membersTold_filterMap v requirements
    · exact List.map_eq_nil_iff.trans List.isEmpty_iff.symm
    · exact rootTold_hashProblem? hash v
    · exact length_map_toList _
    · exact shapeTold_shapeProblem? v
    · exact length_map_toList _

/-! ## A member that no bundle has -/

section

variable {hash : Hasher} {fields : List (String × Json)} {key : String} {value v w : Json}

/-- The first check is about the members of a bundle. -/
theorem structureProblems_congr (h : ∀ key ∈ Bundle.keys, v.member? key = w.member? key) :
    structureProblems v = structureProblems w := by
  have hkeys : ∀ r ∈ requirements, ∀ key ∈ r.keys, key ∈ Bundle.keys := by decide
  rw [structureProblems_eq, structureProblems_eq]
  apply List.filterMap_congr
  intro r hr
  exact Requirement.problem?_congr fun key hkey => h key (hkeys r hr key hkey)

/-- The second check is about the members of a bundle. -/
theorem hashProblem?_congr (h : ∀ key ∈ Bundle.keys, v.member? key = w.member? key) :
    hashProblem? hash v = hashProblem? hash w := by
  have hchained : ∀ key ∈ Bundle.chainedKeys, key ∈ Bundle.keys := by decide
  have helements : Bundle.elements v = Bundle.elements w :=
    Bundle.elements_congr fun key hkey => h key (hchained key hkey)
  rw [hashProblem?, hashProblem?, Bundle.chain, Bundle.chain, helements,
    h "hash_chain_root" (by decide)]

theorem member?_insert_of_notMem (h : key ∉ Bundle.keys) :
    ∀ k ∈ Bundle.keys,
      (Json.obj (Assoc.insert key value fields)).member? k = (Json.obj fields).member? k := by
  intro k hk
  have hne : k ≠ key := by
    rintro rfl
    exact h hk
  exact Assoc.lookup_insert_of_ne hne value fields

/-- **The shape of a bundle has no room** for a member that no bundle has. -/
theorem not_shaped_insert (hsorted : Assoc.Sorted fields) (h : key ∉ Bundle.keys) :
    ¬Shaped (.obj (Assoc.insert key value fields)) := by
  rintro ⟨d, hd⟩
  obtain ⟨hknown, -, -⟩ := Bundle.members_of_ofJson (hsorted.insert key value) hd
  have hmem : (key, value) ∈ Assoc.insert key value fields :=
    Assoc.mem_of_lookup (Assoc.lookup_insert_self key value fields)
  exact h (hknown _ hmem)

/-- Such a member is told by the third check alone. -/
theorem verdicts_insert (hsorted : Assoc.Sorted fields) (h : key ∉ Bundle.keys) :
    (ofObject hash (.obj (Assoc.insert key value fields))).structureValid =
        (ofObject hash (.obj fields)).structureValid ∧
      (ofObject hash (.obj (Assoc.insert key value fields))).hashValid =
        (ofObject hash (.obj fields)).hashValid ∧
      (ofObject hash (.obj (Assoc.insert key value fields))).integrityValid = false := by
  have hmember := @member?_insert_of_notMem fields key value h
  refine ⟨congrArg List.isEmpty (structureProblems_congr hmember),
    congrArg Option.isNone (hashProblem?_congr hmember), ?_⟩
  rw [Bool.eq_false_iff, Ne, (fullReport_ofObject hash _).shaped]
  exact not_shaped_insert hsorted h

/-- What the others tell stays as it was. -/
theorem errors_insert (h : key ∉ Bundle.keys) :
    ∃ told ofShape ofShape' : List String,
      (ofObject hash (.obj fields)).errors = told ++ ofShape ∧
      (ofObject hash (.obj (Assoc.insert key value fields))).errors = told ++ ofShape' ∧
      ShapeTold (.obj fields) ofShape ∧
      ShapeTold (.obj (Assoc.insert key value fields)) ofShape' := by
  have hmember := @member?_insert_of_notMem fields key value h
  refine ⟨_, _, _, errors_ofObject hash _, ?_, shapeTold_shapeProblem? _,
    shapeTold_shapeProblem? _⟩
  rw [errors_ofObject, structureProblems_congr hmember, hashProblem?_congr hmember]

end

/-! ## What is told of bytes -/

/-- What is found valid is what nothing is told of. -/
theorem isValid_ofObject_iff (hash : Hasher) (v : Json) :
    (ofObject hash v).isValid = true ↔ (ofObject hash v).errors = [] := by
  simp only [ofObject, Bool.and_eq_true, List.isEmpty_iff, Option.isNone_iff_eq_none,
    List.map_eq_nil_iff, List.append_eq_nil_iff, Option.toList_eq_nil_iff]
  constructor
  · rintro ⟨⟨hroot, hcomplete⟩, hshape⟩
    exact ⟨⟨hcomplete, hroot⟩, hshape⟩
  · rintro ⟨⟨hcomplete, hroot⟩, hshape⟩
    exact ⟨⟨hroot, hcomplete⟩, hshape⟩

/-- Bytes are a text of an object, and the report is on that, or else nothing is told but why
not. -/
theorem ofBytes_cases (hash : Hasher) (bytes : ByteArray) :
    (∃ fields, Json.parse? (Text.decode bytes) = some (.obj fields) ∧
      ofBytes hash bytes = ofObject hash (.obj fields)) ∨
    ((∀ fields, Json.parse? (Text.decode bytes) ≠ some (.obj fields)) ∧
      ∃ reason : String, ofBytes hash bytes = .failed s!"deserialization failed: {reason}" ∧
        (Json.parse? (Text.decode bytes) ≠ none → reason = "bundle is not a JSON object")) := by
  cases hparse : Json.parse? (Text.decode bytes) with
  | none =>
    refine Or.inr ⟨nofun, "invalid JSON", ?_, fun h => absurd rfl h⟩
    exact ofText_of_none hparse
  | some v =>
    cases v with
    | obj fields => exact Or.inl ⟨fields, rfl, ofText_of_obj hparse⟩
    | null | bool b | num n | str s | arr items =>
      refine Or.inr ⟨?_, "bundle is not a JSON object", ?_, fun _ => rfl⟩
      · rintro fields ⟨⟩
      · rw [ofBytes, ofText, hparse]
        rfl

theorem ofBytes_of_obj (hash : Hasher) {bytes : ByteArray} {fields : List (String × Json)}
    (h : Json.parse? (Text.decode bytes) = some (.obj fields)) :
    ofBytes hash bytes = ofObject hash (.obj fields) :=
  ofText_of_obj h

/-- A value nested at most 127 deep is read from its compact text as it is. -/
theorem parse?_compact {v : Json} (hordered : v.Ordered) (hdepth : v.depth ≤ 127) :
    Json.parse? (Text.decode v.compact.toUTF8) = some v := by
  rw [String.toUTF8_eq_toByteArray, Text.decode_toByteArray]
  exact Json.parse?_of_read (Json.fits_fromText hordered hdepth)
    (Document.read_compact (Document.isComplete_ofJson v))

/-! ## Every combination of verdicts -/

theorem exists_digest_ne (d : Digest) : ∃ e : Digest, e ≠ d := by
  have hne : (⟨List.replicate 32 0, rfl⟩ : Digest) ≠ ⟨List.replicate 32 1, rfl⟩ := by decide
  by_cases h : d = ⟨List.replicate 32 0, rfl⟩
  · subst h
    exact ⟨_, hne.symm⟩
  · exact ⟨_, Ne.symm h⟩

/-- The parts of a refused call, under its name or under none. -/
def namedParts (named : Bool) : Parts :=
  { Bundle.refusedParts with id := if named then "b-1" else "" }

variable {hash : Hasher} {named : Bool} {root : Digest}

theorem complete_named_iff :
    Complete (.obj (Bundle.Draft.mk (namedParts named) root).members) ↔ named = true := by
  constructor
  · intro h
    obtain ⟨s, hs, hcontent⟩ := h (.text "bundle_id") (by decide)
    cases named with
    | true => rfl
    | false =>
      have hempty : "" = s := Json.str.inj (Option.some.inj hs)
      rw [← hempty, Text.isBlank_empty] at hcontent
      cases hcontent
  · rintro rfl
    have hown : (namedParts true).OwnRules :=
      ⟨by decide, by decide, by decide, List.cons_ne_nil _ _, rfl⟩
    exact complete_members hown

theorem rooted_named_iff {computed : Digest}
    (h : ((namedParts named).chain hash).root = some computed) :
    Rooted hash (.obj (Bundle.Draft.mk (namedParts named) root).members) ↔ root = computed := by
  have hchain := chain_members hash ⟨namedParts named, root⟩
  constructor
  · rintro ⟨stored, hstored, hcomputed⟩
    have hhex : root.hex = stored.hex := Json.str.inj (Option.some.inj hstored)
    rw [hchain, h, Option.some.injEq] at hcomputed
    rw [Digest.hex_injective hhex, hcomputed]
  · rintro rfl
    refine ⟨root, rfl, ?_⟩
    rw [hchain]
    exact h

theorem shaped_named : Shaped (.obj (Bundle.Draft.mk (namedParts named) root).members) :=
  ⟨_, Bundle.Draft.reads_codec ⟨namedParts named, root⟩⟩

/-- The members of a refused call, with one too many unless they are plain. -/
def sampleMembers (named plain : Bool) (root : Digest) : List (String × Json) :=
  let members := (Bundle.Draft.mk (namedParts named) root).members
  if plain then members else Assoc.insert "explanation" .null members

theorem ordered_sampleMembers (named plain : Bool) (root : Digest) :
    (Json.obj (sampleMembers named plain root)).Ordered := by
  have hordered := Bundle.Draft.ordered_members ⟨namedParts named, root⟩
  cases plain with
  | true => exact hordered
  | false => exact (Table.insert ⟨_, hordered⟩ "explanation" .null .null).ordered

theorem depth_sampleMembers (named plain : Bool) (root : Digest) :
    (Json.obj (sampleMembers named plain root)).depth ≤ 127 := by
  cases named <;> cases plain <;> exact Nat.le_of_ble_eq_true rfl

/-- **The verdicts are independent**: whatever three are asked for, some bytes get them. -/
theorem exists_verdicts (hash : Hasher) (complete rooted shaped : Bool) :
    ∃ bytes, (ofBytes hash bytes).structureValid = complete ∧
      (ofBytes hash bytes).hashValid = rooted ∧ (ofBytes hash bytes).integrityValid = shaped := by
  obtain ⟨computed, hcomputed⟩ := Bundle.exists_root hash (.obj (namedParts complete).members)
  obtain ⟨other, hother⟩ := exists_digest_ne computed
  obtain ⟨root, hroot⟩ : ∃ root, root = computed ↔ rooted = true := by
    cases rooted with
    | true => exact ⟨computed, by simp⟩
    | false => exact ⟨other, by simp [hother]⟩
  let plain := (Bundle.Draft.mk (namedParts complete) root).members
  have hplain : (ofObject hash (.obj plain)).structureValid = complete ∧
      (ofObject hash (.obj plain)).hashValid = rooted ∧
      (ofObject hash (.obj plain)).integrityValid = true := by
    have hreport := fullReport_ofObject hash (.obj plain)
    refine ⟨?_, ?_, ?_⟩
    · rw [Bool.eq_iff_iff, hreport.complete, complete_named_iff]
    · rw [Bool.eq_iff_iff, hreport.rooted, rooted_named_iff hcomputed, hroot]
    · rw [hreport.shaped]
      exact shaped_named
  refine ⟨(Json.obj (sampleMembers complete shaped root)).compact.toUTF8, ?_⟩
  rw [ofBytes_of_obj hash (parse?_compact (ordered_sampleMembers complete shaped root)
    (depth_sampleMembers complete shaped root))]
  cases shaped with
  | true => exact hplain
  | false =>
    have hsorted : Assoc.Sorted plain := by
      cases Bundle.Draft.ordered_members ⟨namedParts complete, root⟩ with
      | obj hsorted _ => exact hsorted
    have hunknown : "explanation" ∉ Bundle.keys := by decide
    obtain ⟨hcomplete, hrooted, hshaped⟩ :=
      @verdicts_insert hash plain "explanation" .null hsorted hunknown
    exact ⟨hcomplete.trans hplain.1, hrooted.trans hplain.2.1, hshaped⟩

/-! ## Every failure is reported -/

/-- **Every failure is reported, by the check that finds it.**  Bytes are valid exactly if nothing
is told of them.  Of bytes that are no object, one thing is told and no verdict is for them.  Of an
object each check tells what it finds, whatever the others do: each requirement that is not met is
told, in order, with the member that fails it.  A member that no bundle has, of whatever value,
turns the verdict on the shape and no other, and what the other checks tell stays as it was.  And
the three verdicts come in every combination. -/
theorem every_failure_is_reported (hash : Hasher) :
    (∀ bytes, (ofBytes hash bytes).isValid = true ↔ (ofBytes hash bytes).errors = []) ∧
    (∀ bytes, (∀ fields, Json.parse? (Text.decode bytes) ≠ some (.obj fields)) →
      ∃ reason : String, ofBytes hash bytes =
          ⟨false, none, false, false, false, [s!"deserialization failed: {reason}"]⟩ ∧
        (Json.parse? (Text.decode bytes) ≠ none → reason = "bundle is not a JSON object")) ∧
    (∀ bytes fields, Json.parse? (Text.decode bytes) = some (.obj fields) →
      FullReport hash (.obj fields) (ofBytes hash bytes)) ∧
    (∀ fields key value, (Json.obj fields).Ordered → value.Ordered → key ∉ Bundle.keys →
      (Json.obj (Assoc.insert key value fields)).depth ≤ 127 →
      (∃ y, Json.parse? (Text.decode y) = some (.obj (Assoc.insert key value fields))) ∧
      ∀ x y, Json.parse? (Text.decode x) = some (.obj fields) →
        Json.parse? (Text.decode y) = some (.obj (Assoc.insert key value fields)) →
        ((ofBytes hash y).structureValid = (ofBytes hash x).structureValid ∧
          (ofBytes hash y).hashValid = (ofBytes hash x).hashValid ∧
          (ofBytes hash y).integrityValid = false) ∧
        ∃ told ofShape ofShape' : List String, (ofBytes hash x).errors = told ++ ofShape ∧
          (ofBytes hash y).errors = told ++ ofShape' ∧ ShapeTold (.obj fields) ofShape ∧
          ShapeTold (.obj (Assoc.insert key value fields)) ofShape') ∧
    ∀ complete rooted shaped : Bool, ∃ bytes, (ofBytes hash bytes).structureValid = complete ∧
      (ofBytes hash bytes).hashValid = rooted ∧ (ofBytes hash bytes).integrityValid = shaped := by
  refine ⟨?_, ?_, ?_, ?_, exists_verdicts hash⟩
  · intro bytes
    rcases ofBytes_cases hash bytes with ⟨fields, -, hreport⟩ | ⟨-, reason, hfailed, -⟩
    · rw [hreport]
      exact isValid_ofObject_iff hash (.obj fields)
    · rw [hfailed]
      constructor <;> intro h <;> cases h
  · intro bytes hnone
    rcases ofBytes_cases hash bytes with ⟨fields, hparse, -⟩ | ⟨-, hfailed⟩
    · exact absurd hparse (hnone fields)
    · exact hfailed
  · intro bytes fields hparse
    rw [ofBytes_of_obj hash hparse]
    exact fullReport_ofObject hash (.obj fields)
  · intro fields key value hordered hvalue hkey hdepth
    have hextended := (Table.insert ⟨fields, hordered⟩ key value hvalue).ordered
    refine ⟨⟨_, parse?_compact hextended hdepth⟩, ?_⟩
    intro x y hx hy
    rw [ofBytes_of_obj hash hx, ofBytes_of_obj hash hy]
    cases hordered with
    | obj hsorted _ => exact ⟨verdicts_insert hsorted hkey, errors_insert hkey⟩

/-- A blank name and a version that is a number, and nothing else. -/
def wanting : List (String × Json) := [("authority_version", .ofInt64 5), ("bundle_id", .str " ")]

theorem ordered_wanting : (Json.obj wanting).Ordered :=
  Json.ordered_of_keys ["authority_version", "bundle_id"] rfl (by decide)
    (by simp [wanting, Json.ofInt64, Json.Ordered.num, Json.Ordered.str])

/-- A text that is no JSON, a valid bundle to which a member is added, and an object that lacks all
that a bundle needs: it is told of everything. -/
theorem every_failure_is_reported_explanation :
    ∃ (hash : Hasher) (x y z : ByteArray) (fields : List (String × Json)),
      (∃ reason : String, ofBytes hash "not json".toUTF8 =
        ⟨false, none, false, false, false, [s!"deserialization failed: {reason}"]⟩) ∧
      Json.parse? (Text.decode x) = some (.obj fields) ∧ (ofBytes hash x).isValid = true ∧
      Json.parse? (Text.decode y) =
        some (.obj (Assoc.insert "explanation" (.str "free text") fields)) ∧
      (ofBytes hash y).structureValid = true ∧ (ofBytes hash y).hashValid = true ∧
      (ofBytes hash y).integrityValid = false ∧ (ofBytes hash y).errors ≠ [] ∧
      Json.parse? (Text.decode z) = some (.obj wanting) ∧
      FullReport hash (.obj wanting) (ofBytes hash z) ∧
      (ofBytes hash z).errors =
        ["bundle_id is empty", "authority_version is not a string", "hash_chain_root is missing",
          "created_at is missing or not a positive integer", "context_snapshot is missing",
          "intent_snapshot is missing", "principal_snapshot is missing",
          "execution_snapshots is missing",
          "neither failure_composition nor results is present",
          "hash_chain_root unavailable for comparison",
          "bundle shape invalid: invalid type: integer `5`, expected a string"] := by
  let zero : Digest := ⟨List.replicate 32 0, rfl⟩
  let hash : Hasher := fun _ => zero
  let d : Bundle.Draft := ⟨Bundle.refusedParts, zero⟩
  obtain ⟨hvalid, hunread, hreports, hinsert, -⟩ := every_failure_is_reported hash
  have hown : d.parts.OwnRules := ⟨by decide, by decide, by decide, List.cons_ne_nil _ _, rfl⟩
  have hdepth : (Json.obj d.members).depth ≤ 127 := by decide
  have hx := Bundle.Draft.parse?_decode_text hdepth
  have hreport := Bundle.Draft.ofBytes_text hown hdepth
    (rfl : (d.parts.chain hash).root = some zero)
  obtain ⟨⟨y, hy⟩, hverdicts⟩ := hinsert d.norm.members "explanation" (.str "free text")
    d.norm.ordered_members (.str _) (by decide) (by decide)
  obtain ⟨⟨hcomplete, hrooted, hshaped⟩, -⟩ := hverdicts _ y hx hy
  have hnone : ∀ fields, Json.parse? (Text.decode "not json".toUTF8) ≠ some (.obj fields) := by
    rw [String.toUTF8_eq_toByteArray, Text.decode_toByteArray]
    exact nofun
  obtain ⟨reason, hfailed, -⟩ := hunread _ hnone
  have hz := parse?_compact ordered_wanting (by decide)
  refine ⟨hash, _, y, _, _, ⟨reason, hfailed⟩, hx, ?_, hy, ?_, ?_, hshaped, ?_, hz,
    hreports _ _ hz, ?_⟩
  · rw [hreport]
    rfl
  · rw [hcomplete, hreport]
  · rw [hrooted, hreport]
    rfl
  · intro herrors
    have hall := (hvalid y).mpr herrors
    rw [(hreports y _ hy).valid, hshaped, Bool.and_false] at hall
    cases hall
  · rw [ofBytes_of_obj hash hz]
    rfl

end Verification

end Custody
