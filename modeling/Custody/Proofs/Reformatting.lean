import Custody.Proofs.Verdicts
import Custody.Proofs.WholeDoubles

/-!
# Bundles that are reformatted

An object that is read from bytes has a canonical text, and that can be verified in place of the
bytes.  White space, escapes, the order of members, repeated members and whole doubles are gone from
it.  The chain depends on nothing of that, so the verdict on the root is the same.  The other two
verdicts cannot get worse, since whole doubles are nowhere better than integers; they can get
better.
-/

namespace Custody

/-! ## How deep a value is that is read from a text -/

namespace Mode

theorem admits_depthItems (mode : Mode) (items : List Json) :
    mode.admits (Json.depthItems items) = true ↔ ∀ item ∈ items, mode.admits item.depth = true := by
  induction items with
  | nil => simp [Json.depthItems, mode.admits_zero]
  | cons item rest ih =>
    rw [Json.depthItems, mode.admits_max, Bool.and_eq_true, ih, List.forall_mem_cons]

theorem admits_depthFields (mode : Mode) (fields : List (String × Json)) :
    mode.admits (Json.depthFields fields) = true ↔
      ∀ field ∈ fields, mode.admits field.2.depth = true := by
  induction fields with
  | nil => simp [Json.depthFields, mode.admits_zero]
  | cons field rest ih =>
    rw [Json.depthFields, mode.admits_max, Bool.and_eq_true, ih, List.forall_mem_cons]

theorem admits_of_enter {mode inner : Mode} {n : Nat} (h : mode.enter = some inner)
    (hn : inner.admits n = true) : mode.admits (n + 1) = true := by
  rw [mode.admits_succ, h]
  exact hn

end Mode

namespace Document

-- As for the order of members: the induction follows the document, and each level of nesting uses
-- up one level of what the mode has left.
mutual
/-- No value of a document is nested deeper than its mode admits. -/
theorem admits_of_value? : ∀ (d : Document) {mode : Mode} {v : Json},
    d.value? mode = some v → mode.admits v.depth = true
  | .null, mode, _, h => by cases h; exact mode.admits_zero
  | .bool _, mode, _, h => by cases h; exact mode.admits_zero
  | .num _, mode, _, h => by cases h; exact mode.admits_zero
  | .str _, mode, _, h => by cases h; exact mode.admits_zero
  | .arr items closed, mode, v, h => by
    simp only [value?] at h
    split at h
    · cases h
    · next inner hinner =>
      split at h
      · obtain ⟨vs, hvs, rfl⟩ := Option.map_eq_some_iff.mp h
        apply Mode.admits_of_enter hinner
        rw [Mode.admits_depthItems]
        exact admits_of_itemValues? items hvs
      · cases h
  | .obj fields ending, mode, v, h => by
    simp only [value?] at h
    split at h
    · cases h
    · next inner hinner =>
      split at h
      · obtain ⟨vs, hvs, rfl⟩ := Option.map_eq_some_iff.mp h
        apply Mode.admits_of_enter hinner
        rw [Mode.admits_depthFields]
        intro field hfield
        exact admits_of_fieldValues? fields hvs field (Assoc.mem_of_mem_ofList hfield)
      · cases h
  | .unreadable, _, _, h => by cases h
  | .broken, _, _, h => by cases h
/-- No value of an item is nested deeper than its mode admits. -/
theorem admits_of_itemValues? : ∀ (items : List Document) {mode : Mode} {vs : List Json},
    itemValues? mode items = some vs → ∀ v ∈ vs, mode.admits v.depth = true
  | [], _, _, h => by
    cases h
    exact List.forall_mem_nil _
  | item :: rest, mode, vs, h => by
    simp only [itemValues?] at h
    split at h
    · cases h
    · next value hvalue =>
      obtain ⟨more, hmore, rfl⟩ := Option.map_eq_some_iff.mp h
      rw [List.forall_mem_cons]
      exact ⟨admits_of_value? item hvalue, admits_of_itemValues? rest hmore⟩
/-- No value of a member is nested deeper than its mode admits. -/
theorem admits_of_fieldValues? : ∀ (fields : List (String × Document)) {mode : Mode}
    {vs : List (String × Json)}, fieldValues? mode fields = some vs →
    ∀ field ∈ vs, mode.admits field.2.depth = true
  | [], _, _, h => by
    cases h
    exact List.forall_mem_nil _
  | (key, member) :: rest, mode, vs, h => by
    simp only [fieldValues?] at h
    split at h
    · cases h
    · next value hvalue =>
      obtain ⟨more, hmore, rfl⟩ := Option.map_eq_some_iff.mp h
      rw [List.forall_mem_cons]
      exact ⟨admits_of_value? member hvalue, admits_of_fieldValues? rest hmore⟩
end

end Document

namespace Json

theorem depth_of_parse? {cs : List Char} {v : Json} (h : parse? cs = some v) : v.depth ≤ 127 := by
  unfold parse? at h
  split at h
  · exact of_decide_eq_true (Document.admits_of_value? _ h)
  · cases h

/-- **What can be read once can be read again** from its canonical text, as itself with whole
doubles made integers. -/
theorem parse?_reformatted {cs : List Char} {v : Json} (h : parse? cs = some v) :
    parse? (Text.decode v.canonical.toUTF8) = some v.norm := by
  rw [String.toUTF8_eq_toByteArray, Text.decode_toByteArray,
    parse?_canonical (ordered_of_parse? h), if_pos (depth_of_parse? h)]

end Json

/-! ## The checks on a value with whole doubles made integers -/

namespace Verification

variable {hash : Hasher} {v : Json}

theorem isPresent_norm (v : Json) (key : String) : isPresent v.norm key = isPresent v key := by
  rw [isPresent, isPresent, Json.memberOrNull_norm, Json.isNull_norm]

theorem present_norm_iff {key : String} : Present v.norm key ↔ Present v key := by
  rw [← isPresent_eq_true_iff, isPresent_norm, isPresent_eq_true_iff]

/-- What is met is met after the change. -/
theorem Requirement.Met.norm {r : Requirement} (h : r.Met v) : r.Met v.norm := by
  cases r with
  | text key =>
    obtain ⟨s, hs, hcontent⟩ := h
    refine ⟨s, ?_, hcontent⟩
    rw [Json.member?_norm, hs]
    rfl
  | createdAt =>
    obtain ⟨n, hn, hrange⟩ := h
    refine ⟨n, ?_, hrange⟩
    rw [Json.member?_norm, hn]
    rfl
  | object key =>
    obtain ⟨⟨name, value⟩, rest, hobject⟩ := h
    refine ⟨(name, value.norm), Json.normFields rest, ?_⟩
    rw [Json.member?_norm, hobject]
    rfl
  | executions =>
    obtain ⟨execution, rest, harray⟩ := h
    refine ⟨execution.norm, Json.normItems rest, ?_⟩
    rw [Json.member?_norm, harray]
    rfl
  | outcome =>
    rw [Requirement.Met, present_norm_iff, present_norm_iff]
    exact h

/-- Nothing that is required is missing after the change. -/
theorem Complete.norm (h : Complete v) : Complete v.norm :=
  fun r hr => (h r hr).norm

/-- The second check has the same to tell after the change. -/
theorem hashProblem?_norm (hash : Hasher) (v : Json) :
    hashProblem? hash v.norm = hashProblem? hash v := by
  rw [hashProblem?, hashProblem?, Json.member?_norm, Bundle.chain_norm]
  cases hroot : v.member? "hash_chain_root" with
  | none => rfl
  | some root => cases root <;> rfl

theorem bundleId?_norm (v : Json) : bundleId? v.norm = bundleId? v := by
  rw [bundleId?, bundleId?, Json.member?_norm]
  cases hid : v.member? "bundle_id" with
  | none => rfl
  | some id => cases id <;> rfl

/-- What has the shape of a bundle has it after the change. -/
theorem Shaped.norm (h : Shaped v) (hordered : v.Ordered) : Shaped v.norm := by
  obtain ⟨d, hd⟩ := h
  exact ⟨d.norm, readsNorm_draft hordered hd⟩

/-- **Reformatting a bundle** neither spoils it nor repairs its root.  Of the canonical text of an
object that was read from some bytes, the verdict on the root and the name are those of the bytes;
and each other verdict that was for the bytes is for the text. -/
theorem canonical_form_keeps_verdicts (hash : Hasher) (x : ByteArray)
    (fields : List (String × Json)) (h : Json.parse? (Text.decode x) = some (.obj fields)) :
    let y := (Json.obj fields).canonical.toUTF8
    (ofBytes hash y).hashValid = (ofBytes hash x).hashValid ∧
    (ofBytes hash y).bundleId = (ofBytes hash x).bundleId ∧
    ((ofBytes hash x).structureValid = true → (ofBytes hash y).structureValid = true) ∧
    ((ofBytes hash x).integrityValid = true → (ofBytes hash y).integrityValid = true) ∧
    ((ofBytes hash x).isValid = true → (ofBytes hash y).isValid = true) := by
  intro y
  have hordered := Json.ordered_of_parse? h
  have hx : ofBytes hash x = ofObject hash (.obj fields) := ofBytes_of_obj hash h
  have hy : ofBytes hash y = ofObject hash (Json.obj fields).norm :=
    ofBytes_of_obj hash (Json.parse?_reformatted h)
  have hbefore := fullReport_ofObject hash (.obj fields)
  have hafter := fullReport_ofObject hash (Json.obj fields).norm
  rw [hx, hy]
  have hroot : (ofObject hash (Json.obj fields).norm).hashValid =
      (ofObject hash (.obj fields)).hashValid :=
    congrArg Option.isNone (hashProblem?_norm hash _)
  have hcomplete : (ofObject hash (.obj fields)).structureValid = true →
      (ofObject hash (Json.obj fields).norm).structureValid = true := by
    rw [hbefore.complete, hafter.complete]
    exact Complete.norm
  have hshape : (ofObject hash (.obj fields)).integrityValid = true →
      (ofObject hash (Json.obj fields).norm).integrityValid = true := by
    rw [hbefore.shaped, hafter.shaped]
    intro hshaped
    exact hshaped.norm hordered
  refine ⟨hroot, bundleId?_norm _, hcomplete, hshape, ?_⟩
  rw [hbefore.valid, hafter.valid, hroot]
  simp only [Bool.and_eq_true]
  rintro ⟨⟨hstructure, hhash⟩, hintegrity⟩
  exact ⟨⟨hcomplete hstructure, hhash⟩, hshape hintegrity⟩

/-- A time that is a double is an integer in canonical text, and nothing is wrong with that. -/
theorem canonical_form_keeps_verdicts_double_time :
    ∃ (hash : Hasher) (x : ByteArray) (fields : List (String × Json)),
      Json.parse? (Text.decode x) = some (.obj fields) ∧
      (ofBytes hash x).hashValid = true ∧ (ofBytes hash x).structureValid = false ∧
      (ofBytes hash (Json.obj fields).canonical.toUTF8).isValid = true := by
  let zero : Digest := ⟨List.replicate 32 0, rfl⟩
  let hash : Hasher := fun _ => zero
  let d : Bundle.Draft := ⟨Bundle.refusedParts, zero⟩
  let two : Number := .float ⟨false, 0x10000000000000, 1023, by decide, by decide, by decide⟩
  let fields := Assoc.insert "created_at" (.num two) d.members
  have hordered : (Json.obj fields).Ordered :=
    (Table.insert ⟨_, d.ordered_members⟩ "created_at" _ (.num two)).ordered
  have hdepth : (Json.obj fields).depth ≤ 127 := by decide
  have hparse := parse?_compact hordered hdepth
  have hown : d.parts.OwnRules := ⟨by decide, by decide, by decide, List.cons_ne_nil _ _, rfl⟩
  have htext : (Json.obj fields).canonical = d.text := by
    apply Json.canonical_eq_iff.mpr
    rfl
  obtain ⟨hroot, -, -, -, -⟩ := canonical_form_keeps_verdicts hash _ _ hparse
  have hvalid := Bundle.Draft.ofBytes_text hown (by decide : (Json.obj d.members).depth ≤ 127)
    (rfl : (d.parts.chain hash).root = some zero)
  refine ⟨hash, _, _, hparse, ?_, ?_, ?_⟩
  · rw [← hroot, htext, hvalid]
    rfl
  · rw [ofBytes_of_obj hash hparse, Bool.eq_false_iff, Ne, (fullReport_ofObject hash _).complete]
    intro hcomplete
    obtain ⟨n, hn, -⟩ := hcomplete .createdAt (by decide)
    have htime : some (Json.num two) = some (.num (.int n)) :=
      (Assoc.lookup_insert_self "created_at" _ d.members).symm.trans hn
    rw [Option.some.injEq, Json.num.injEq] at htime
    exact Number.noConfusion htime
  · rw [htext, hvalid]
    rfl

end Verification

end Custody
