import Custody.Digest.Sha256
import Custody.Proofs.TamperEvidence

/-!
# What verification accepts

Verifying looks at the members of a value and at its shape; it does not build the bundle.  What it
finds valid keeps all rules that a bundle has for itself, each of which is told by one member.  It
may still break a rule of one of its snapshots, which no check looks into; these alone decide
whether a bundle can be made of it.
-/

namespace Custody

theorem mapError_eq_ok_iff {ε ε' α : Type} {f : ε → ε'} {x : Except ε α} {a : α} :
    x.mapError f = .ok a ↔ x = .ok a := by
  cases x with
  | error e => constructor <;> intro h <;> cases h
  | ok b =>
    constructor
    · intro h
      cases h
      rfl
    · intro h
      cases h
      rfl

theorem mapError_eq_error_iff {ε ε' α : Type} {f : ε → ε'} {x : Except ε α} {e' : ε'} :
    x.mapError f = .error e' ↔ ∃ e, x = .error e ∧ f e = e' := by
  cases x with
  | error e =>
    constructor
    · intro h
      cases h
      exact ⟨e, rfl, rfl⟩
    · rintro ⟨e₀, h, rfl⟩
      cases h
      rfl
  | ok a =>
    constructor
    · intro h
      cases h
    · rintro ⟨e, h, -⟩
      cases h

/-! ## Values that can be read -/

namespace Codec

variable {α : Type} {c : Codec α} {v : Json}

/-- A thing with rules of its own is read just if it can be made of what is read. -/
theorem read_refine_eq_ok_iff {β : Type} {pack : α → Except String β} {unpack : β → α}
    {mode : Mode} {d : Document} {b : β} : (c.refine pack unpack).read mode d = .ok b ↔
      ∃ a, c.read mode d = .ok a ∧ pack a = .ok b := by
  cases hread : c.read mode d with
  | error fault => simp [refine, hread]
  | ok a => simp [refine, hread, mapError_eq_ok_iff]

theorem eq_str_of_ofJson_text {s : String} (h : text.ofJson v = .ok s) : v = .str s := by
  cases v with
  | str t =>
    cases h
    rfl
  | null | bool b | num n | arr items | obj fields => cases h

theorem exists_integer_of_ofJson_int64 {n : Int64} (h : int64.ofJson v = .ok n) :
    ∃ i : Integer, v = .num (.int i) ∧ i.toInt64? = some n := by
  cases v with
  | num number =>
    cases number with
    | int i =>
      simp only [ofJson, int64, Document.ofJson] at h
      split at h
      · next word hword =>
        cases h
        exact ⟨i, rfl, hword⟩
      · cases h
    | float x => cases h
  | null | bool b | str s | arr items | obj fields => cases h

theorem ne_nil_of_ofJson_list {d : Json} {rest : List Json} {things : List α}
    (h : c.list.ofJson (.arr (d :: rest)) = .ok things) : things ≠ [] := by
  rintro rfl
  simp only [ofJson, list, Document.ofJson, Document.ofItems, Mode.enter, readItems] at h
  split at h
  · cases h
  · next things hthings =>
    cases h
    split at hthings
    · cases hthings
    · split at hthings <;> cases hthings

theorem isSome_of_ofJson_optional {a? : Option α} (h : c.optional.ofJson v = .ok a?) :
    a?.isSome = !v.isNull := by
  cases hnull : v.isNull with
  | true =>
    cases v with
    | null =>
      cases h
      rfl
    | bool b | num n | str s | arr items | obj fields => cases hnull
  | false =>
    rw [ofJson_optional hnull] at h
    obtain ⟨a, -, rfl⟩ := map_eq_ok_iff.mp h
    rfl

end Codec

namespace Field

variable {α : Type} {name : String} {c : Codec α} {members : List (String × Json)}

theorem Gives.of_required {a : α} (h : (required name c).Gives members a) :
    ∃ v, members.lookup name = some v ∧ c.ofJson v = .ok a := by
  rcases h with hfound | ⟨-, habsent⟩
  · exact hfound
  · cases habsent

theorem Gives.isSome_of_nullable {a? : Option α} (h : (nullable name c).Gives members a?) :
    a?.isSome = Verification.isPresent (.obj members) name := by
  rw [Verification.isPresent, Json.memberOrNull, Json.member?]
  rcases h with ⟨v, hlookup, hread⟩ | ⟨hlookup, habsent⟩
  · have hlookup : members.lookup name = some v := hlookup
    rw [hlookup, Option.getD_some]
    exact Codec.isSome_of_ofJson_optional hread
  · have hlookup : members.lookup name = none := hlookup
    rw [hlookup]
    cases habsent
    rfl

end Field

/-! ## Reading a bundle -/

namespace Bundle

theorem make_eq_ok_iff {parts : Parts} {root : Digest} {b : Bundle} :
    make parts root = .ok b ↔ parts.error? = none ∧ b.draft = ⟨parts, root⟩ := by
  unfold make
  split
  · next error herror =>
    constructor
    · intro h
      cases h
    · rintro ⟨hnone, -⟩
      rw [herror] at hnone
      cases hnone
  · next hnone =>
    constructor
    · intro h
      cases h
      exact ⟨hnone, rfl⟩
    · rintro ⟨-, hdraft⟩
      cases b
      cases hdraft
      rfl

theorem make_eq_error_iff {parts : Parts} {root : Digest} {error : EvidenceError} :
    make parts root = .error error ↔ parts.error? = some error := by
  unfold make
  split
  · next error' herror => rw [herror, Except.error.injEq, Option.some.injEq]
  · next hnone =>
    constructor
    · intro h
      cases h
    · intro herror
      rw [hnone] at herror
      cases herror

variable {v : Json} {d : Draft}

theorem ofJson_codec_eq (h : Draft.codec.ofJson v = .ok d) :
    codec.ofJson v = ((make d.parts d.root).mapError EvidenceError.message).mapError .rule :=
  @Codec.ofJson_refine Draft Bundle Draft.codec _ draft v d h

/-- A bundle is made of a draft that keeps the rules of a bundle if its snapshots keep theirs. -/
theorem ofJson_codec_eq_ok_iff {b : Bundle} (h : Draft.codec.ofJson v = .ok d)
    (hown : d.parts.OwnRules) : codec.ofJson v = .ok b ↔ d.parts.SnapshotRules ∧ b.draft = d := by
  rw [ofJson_codec_eq h, mapError_eq_ok_iff, mapError_eq_ok_iff, make_eq_ok_iff, hown.error?_eq,
    Parts.snapshotError?_eq_none_iff]

theorem ofJson_codec_eq_error_iff {fault : Fault} (h : Draft.codec.ofJson v = .ok d)
    (hown : d.parts.OwnRules) :
    codec.ofJson v = .error fault ↔
      ∃ error, d.parts.snapshotError? = some error ∧ .rule error.message = fault := by
  rw [ofJson_codec_eq h, mapError_eq_error_iff]
  constructor
  · rintro ⟨message, hmessage, rfl⟩
    obtain ⟨error, herror, rfl⟩ := mapError_eq_error_iff.mp hmessage
    rw [make_eq_error_iff, hown.error?_eq] at herror
    exact ⟨error, herror, rfl⟩
  · rintro ⟨error, herror, rfl⟩
    have hmake : make d.parts d.root = .error error :=
      make_eq_error_iff.mpr (hown.error?_eq.trans herror)
    exact ⟨error.message, mapError_eq_error_iff.mpr ⟨error, hmake, rfl⟩, rfl⟩

end Bundle

/-! ## What the members tell -/

namespace Verification

/-- What the members of a value tell of the parts that are read from it, as far as the rules of a
bundle go. -/
structure Tells (v : Json) (p : Parts) : Prop where
  id : v.member? "bundle_id" = some (.str p.id)
  version : v.member? "authority_version" = some (.str p.authorityVersion)
  createdAt : ∃ i : Integer, v.member? "created_at" = some (.num (.int i)) ∧
    i.toInt64? = some p.createdAt
  executions : ∃ items, v.member? "execution_snapshots" = some (.arr items) ∧
    Snapshot.Execution.codec.list.ofJson (.arr items) = .ok p.executions
  failure : p.failure.isSome = isPresent v "failure_composition"
  results : p.results.isSome = isPresent v "results"

theorem tells_of_ofJson {fields : List (String × Json)} {d : Bundle.Draft}
    (hsorted : Assoc.Sorted fields) (h : Bundle.Draft.codec.ofJson (.obj fields) = .ok d) :
    Tells (.obj fields) d.parts := by
  obtain ⟨row, hrow, rfl⟩ := Codec.ofJson_iso.mp h
  obtain ⟨-, hid, hcreated, -, -, -, -, hexecutions, hversion, -, hfailure, hresults, -⟩ :=
    (Codec.ofJson_record (by decide) hsorted).mp hrow
  refine ⟨?_, ?_, ?_, ?_, hfailure.isSome_of_nullable, hresults.isSome_of_nullable⟩
  · obtain ⟨v, hlookup, hread⟩ := hid.of_required
    obtain rfl := Codec.eq_str_of_ofJson_text hread
    exact hlookup
  · obtain ⟨v, hlookup, hread⟩ := hversion.of_required
    obtain rfl := Codec.eq_str_of_ofJson_text hread
    exact hlookup
  · obtain ⟨v, hlookup, hread⟩ := hcreated.of_required
    obtain ⟨i, rfl, hword⟩ := Codec.exists_integer_of_ofJson_int64 hread
    exact ⟨i, hlookup, hword⟩
  · obtain ⟨v, hlookup, hread⟩ := hexecutions.of_required
    obtain ⟨items, rfl⟩ := Bundle.exists_items_of_ofJson_list hread
    exact ⟨items, hlookup, hread⟩

theorem Requirement.Met.content {v : Json} {key s : String} (h : (Requirement.text key).Met v)
    (hs : v.member? key = some (.str s)) : Text.isBlank s = false := by
  obtain ⟨t, ht, hcontent⟩ := h
  rw [hs, Option.some.injEq, Json.str.injEq] at ht
  subst ht
  exact hcontent

theorem Requirement.Met.pos {v : Json} {i : Integer} {n : Int64}
    (h : Requirement.createdAt.Met v) (hi : v.member? "created_at" = some (.num (.int i)))
    (hword : i.toInt64? = some n) : 0 < n := by
  obtain ⟨j, hj, hpos, hlt⟩ := h
  rw [hi, Option.some.injEq, Json.num.injEq, Number.int.injEq] at hj
  subst hj
  rw [Integer.toInt64?, if_pos hlt, Option.some.injEq] at hword
  rw [← hword, Int64.lt_iff_toInt_lt, Int64.toInt_ofInt_of_le i.lower hlt]
  exact hpos

/-- **What lacks nothing** keeps the rules of a bundle. -/
theorem Tells.ownRules {v : Json} {p : Parts} (h : Tells v p) (hcomplete : Complete v) :
    p.OwnRules := by
  simp only [Complete, requirements, List.forall_mem_cons] at hcomplete
  obtain ⟨hid, hversion, -, hcreated, -, -, -, hexecutions, houtcome, -⟩ := hcomplete
  refine ⟨hid.content h.id, ?_, hversion.content h.version, ?_, ?_⟩
  · obtain ⟨i, hlookup, hword⟩ := h.createdAt
    exact hcreated.pos hlookup hword
  · obtain ⟨items, hlookup, hread⟩ := h.executions
    obtain ⟨execution, rest, harray⟩ := hexecutions
    rw [hlookup, Option.some.injEq, Json.arr.injEq] at harray
    subst harray
    exact Codec.ne_nil_of_ofJson_list hread
  · rw [h.failure, h.results]
    exact isPresent_eq_not_iff.mpr houtcome

theorem complete_of_isValid {hash : Hasher} {bytes : ByteArray} {v : Json}
    (h : (ofBytes hash bytes).isValid = true) (hparse : Json.parse? (Text.decode bytes) = some v) :
    Complete v := by
  rw [ofBytes, ofText, hparse] at h
  cases v with
  | obj fields =>
    simp only [ofObject, Bool.and_eq_true] at h
    exact structureProblems_eq_nil_iff.mp (List.isEmpty_iff.mp h.1.2)
  | null | bool b | num n | str s | arr items => cases h

/-- **What is found valid keeps the rules of a bundle.**  It can be read as a draft that has a name,
a positive time, a version, an execution, and a refusal or else results.  Its snapshots alone decide
whether it is a bundle: it is if they keep their rules, and else the first that they break is told.
-/
theorem valid_keeps_own_rules (hash : Hasher) (bytes : ByteArray)
    (h : (ofBytes hash bytes).isValid = true) :
    ∃ v d, Json.parse? (Text.decode bytes) = some v ∧ Bundle.Draft.codec.ofJson v = .ok d ∧
      d.parts.OwnRules ∧
      (∀ b, Bundle.codec.ofJson v = .ok b ↔ d.parts.SnapshotRules ∧ b.draft = d) ∧
      ∀ fault, Bundle.codec.ofJson v = .error fault ↔
        ∃ error, d.parts.snapshotError? = some error ∧ .rule error.message = fault := by
  obtain ⟨fields, root, hparse, haccepts⟩ := accepts_of_isValid h
  obtain ⟨d, hd⟩ := haccepts.shape
  have hown : d.parts.OwnRules :=
    (tells_of_ofJson haccepts.sorted hd).ownRules (complete_of_isValid h hparse)
  refine ⟨.obj fields, d, hparse, hd, hown, ?_, ?_⟩
  · intro b
    exact Bundle.ofJson_codec_eq_ok_iff hd hown
  · intro fault
    exact Bundle.ofJson_codec_eq_error_iff hd hown

/-- An exported bundle is a bundle again. -/
theorem valid_keeps_own_rules_refused :
    ∃ (hash : Hasher) (bytes : ByteArray) (v : Json) (b : Bundle),
      (ofBytes hash bytes).isValid = true ∧ Json.parse? (Text.decode bytes) = some v ∧
        Bundle.codec.ofJson v = .ok b ∧ b.parts = Bundle.refusedParts.norm := by
  let hash : Hasher := fun _ => ⟨List.replicate 32 0, rfl⟩
  let b : Bundle := ⟨Bundle.refusedParts, ⟨List.replicate 32 0, rfl⟩, by decide⟩
  have hdepth : b.toJson.depth ≤ 127 := by decide
  have hvalid : (ofBytes hash b.exported.toUTF8).isValid = true := by
    rw [Bundle.ofBytes_exported hdepth rfl]
    rfl
  obtain ⟨v, d, hparse, hread, -, hmade, -⟩ := valid_keeps_own_rules hash _ hvalid
  have hv : v = .obj b.draft.norm.members :=
    Option.some.inj (hparse.symm.trans (Bundle.parse?_decode_exported hdepth))
  subst hv
  have hd : d = b.draft.norm := Except.ok.inj (hread.symm.trans (Bundle.Draft.reads_codec _))
  subst hd
  let c : Bundle := ⟨Bundle.refusedParts.norm, b.root, by decide⟩
  have hsnapshots : Bundle.refusedParts.norm.SnapshotRules :=
    (Parts.error?_eq_none_iff.mp c.valid).2
  exact ⟨hash, _, _, c, hvalid, hparse, (hmade c).mpr ⟨hsnapshots, rfl⟩, rfl⟩

end Verification

namespace Bundle

/-- A refused call of which the intent names no capability. -/
def blankIntentParts : Parts :=
  { refusedParts with
    context := .capture Sha256.hash .empty 1
    intent := ⟨"", none, 1⟩
    executions := [⟨none, "transfer", .ofCanonical Sha256.hash (.obj []), 2,
      .refused (.plain Reason.noGrant 2)⟩] }

theorem isSome_root_blankIntentParts : (blankIntentParts.chain Sha256.hash).root.isSome = true :=
  Option.isSome_iff_exists.mpr (exists_root Sha256.hash (.obj blankIntentParts.members))

/-- The same, under the root of its chain. -/
def blankIntent : Draft :=
  ⟨blankIntentParts, (blankIntentParts.chain Sha256.hash).root.get isSome_root_blankIntentParts⟩

theorem ownRules_blankIntent : blankIntent.parts.OwnRules where
  id_content := by decide
  createdAt_pos := by decide
  version_content := by decide
  executions_ne_nil := List.cons_ne_nil _ _
  outcome := rfl

theorem depth_blankIntent : (Json.obj blankIntent.members).depth ≤ 127 := by decide

/-- Verifying finds it valid, since the root is that of its chain. -/
theorem isValid_blankIntent :
    (Verification.ofBytes Sha256.hash blankIntent.text.toUTF8).isValid = true := by
  have hroot : (blankIntent.parts.chain Sha256.hash).root = some blankIntent.root :=
    (Option.some_get isSome_root_blankIntentParts).symm
  rw [Draft.ofBytes_text ownRules_blankIntent depth_blankIntent hroot]
  exact decide_eq_true rfl

end Bundle

namespace Verification

/-- **What is found valid need not be a bundle**: verifying passes over the intent of this one,
which is blank, and for that no bundle can be made of it. -/
theorem valid_with_blank_intent :
    (ofBytes Sha256.hash Bundle.blankIntent.text.toUTF8).isValid = true ∧
      ∃ v, Json.parse? (Text.decode Bundle.blankIntent.text.toUTF8) = some v ∧
        Bundle.codec.ofJson v =
          .error (.rule "intent_snapshot.capability_name must be non-empty") := by
  refine ⟨Bundle.isValid_blankIntent, .obj Bundle.blankIntent.norm.members,
    Bundle.Draft.parse?_decode_text Bundle.depth_blankIntent, ?_⟩
  have hread := Bundle.Draft.reads_codec Bundle.blankIntent.norm
  rw [Bundle.ofJson_codec_eq_error_iff hread Bundle.ownRules_blankIntent.norm]
  exact ⟨.emptyField "intent_snapshot.capability_name", rfl, rfl⟩

end Verification

end Custody
