import Custody.Proofs.Acceptance
import Custody.Proofs.LostCalls

/-!
# Three ways to a bundle

A bundle is sealed under the root of its chain, made under a root that is given, or read from its
value.  All three look at the same rules in the same order, and the first that is broken decides the
error.  The rules are listed here, with what each asks for, apart from the pass that checks them.
-/

namespace Custody

/-! ## Rules in order -/

/-- What evidence has to keep, and the error for breaking it. -/
structure EvidenceRule where
  Kept : Prop
  error : EvidenceError

namespace EvidenceRule

/-- A text must not be blank. -/
def content (field text : String) : EvidenceRule := ⟨Text.isBlank text = false, .emptyField field⟩

/-- A time must be positive. -/
def positive (field : String) (time : Int64) : EvidenceRule :=
  ⟨0 < time, .invalidTimestamp field time⟩

/-- An error is that of the first rule that is broken: all rules before it are kept. -/
def FirstBroken (rules : List EvidenceRule) (error : EvidenceError) : Prop :=
  ∃ before rule after, rules = before ++ rule :: after ∧ (∀ r ∈ before, r.Kept) ∧
    ¬rule.Kept ∧ rule.error = error

/-- Whether a check goes through some rules in order: it finds nothing if all are kept, and else the
error of the first that is broken. -/
def Checked (rules : List EvidenceRule) : Option EvidenceError → Prop
  | none => ∀ rule ∈ rules, rule.Kept
  | some error => FirstBroken rules error

theorem FirstBroken.mem {rules : List EvidenceRule} {error : EvidenceError}
    (h : FirstBroken rules error) : ∃ rule ∈ rules, rule.error = error := by
  obtain ⟨before, rule, after, rfl, -, -, rfl⟩ := h
  exact ⟨rule, List.mem_append_right before List.mem_cons_self, rfl⟩

theorem FirstBroken.append_right {rules : List EvidenceRule} {error : EvidenceError}
    (h : FirstBroken rules error) (more : List EvidenceRule) :
    FirstBroken (rules ++ more) error := by
  obtain ⟨before, rule, after, rfl, hbefore, hrule⟩ := h
  refine ⟨before, rule, after ++ more, ?_, hbefore, hrule⟩
  rw [List.append_assoc, List.cons_append]

theorem FirstBroken.append_left {rules more : List EvidenceRule} {error : EvidenceError}
    (hrules : ∀ rule ∈ rules, rule.Kept) (h : FirstBroken more error) :
    FirstBroken (rules ++ more) error := by
  obtain ⟨before, rule, after, rfl, hbefore, hrule⟩ := h
  refine ⟨rules ++ before, rule, after, (List.append_assoc _ _ _).symm, ?_, hrule⟩
  intro r hr
  rcases List.mem_append.mp hr with hr | hr
  · exact hrules r hr
  · exact hbefore r hr

theorem checked_nil : Checked [] none := by simp [Checked]

theorem checked_one {rule : EvidenceRule} {check : Option EvidenceError}
    (hnone : check = none → rule.Kept)
    (hsome : ∀ error, check = some error → ¬rule.Kept ∧ rule.error = error) :
    Checked [rule] check := by
  cases check with
  | none => simpa [Checked] using hnone rfl
  | some error => exact ⟨[], rule, [], rfl, by simp, hsome error rfl⟩

theorem checked_content (field text : String) :
    Checked [content field text] (EvidenceError.ofText? field text) := by
  apply checked_one
  · exact EvidenceError.ofText?_eq_none_iff.mp
  · intro error herror
    simpa [EvidenceError.ofText?, content] using herror

theorem checked_positive (field : String) (time : Int64) :
    Checked [positive field time] (EvidenceError.ofTime? field time) := by
  apply checked_one
  · exact EvidenceError.ofTime?_eq_none_iff.mp
  · intro error herror
    simpa [EvidenceError.ofTime?, positive] using herror

/-- One check after another goes through the rules of both. -/
theorem Checked.or {rules more : List EvidenceRule} {check check' : Option EvidenceError}
    (h : Checked rules check) (h' : Checked more check') :
    Checked (rules ++ more) (check.or check') := by
  cases check with
  | some error => exact FirstBroken.append_right h more
  | none =>
    cases check' with
    | some error => exact FirstBroken.append_left h h'
    | none =>
      intro rule hrule
      rcases List.mem_append.mp hrule with hrule | hrule
      · exact h rule hrule
      · exact h' rule hrule

/-- Checking the things of a list one by one goes through the rules of each. -/
theorem checked_findSome? {α : Type} {rules : α → List EvidenceRule}
    {check : α → Option EvidenceError} (h : ∀ a, Checked (rules a) (check a)) (things : List α) :
    Checked (things.flatMap rules) (things.findSome? check) := by
  induction things with
  | nil => exact checked_nil
  | cons a rest ih =>
    have hboth := (h a).or ih
    rw [List.flatMap_cons, List.findSome?_cons]
    cases hcheck : check a with
    | some error =>
      rw [hcheck] at hboth
      exact hboth
    | none =>
      rw [hcheck, Option.none_or] at hboth
      exact hboth

end EvidenceRule

/-! ## Messages that end in no position -/

namespace Text

/-- Nothing is left out of a message if what stands before the digits at its end, or at its end
where there are none, is not the mark of a column. -/
theorem withoutPosition_eq_self {s : String} {start digits : List Char} {c d : Char}
    (hs : s.toList = start ++ c :: d :: digits) (hdigits : ∀ x ∈ digits, x.isDigit = true)
    (hd : d.isDigit = false) (hmark : c ≠ 'n' ∨ d ≠ ' ') : withoutPosition s = s := by
  have hreverse : s.toList.reverse = digits.reverse ++ d :: c :: start.reverse := by
    simp [hs]
  have hdrop : s.toList.reverse.dropWhile Char.isDigit = d :: c :: start.reverse := by
    rw [hreverse, List.dropWhile_append_of_pos fun x hx => hdigits x (List.mem_reverse.mp hx)]
    simp [hd]
  have hsuffix : " column ".toList.isSuffixOf? (d :: c :: start.reverse).reverse = none := by
    cases hmatch : " column ".toList.isSuffixOf? (d :: c :: start.reverse).reverse with
    | none => rfl
    | some before =>
      obtain ⟨rest, hrest, -⟩ := Option.map_eq_some_iff.mp hmatch
      rw [List.reverse_reverse] at hrest
      have heq : d :: c :: start.reverse = ' ' :: 'n' :: ("muloc ".toList ++ rest) :=
        eq_append_of_isPrefixOf? hrest
      have hspace : d = ' ' := List.head_eq_of_cons_eq heq
      have hn : c = 'n' := List.head_eq_of_cons_eq (List.tail_eq_of_cons_eq heq)
      rcases hmark with hc | hd
      · exact absurd hn hc
      · exact absurd hspace hd
  have hnone : beforeNumber? " column ".toList s.toList = none := by
    simp only [beforeNumber?, hdrop, hsuffix]
    split <;> rfl
  simp only [withoutPosition, hnone, Option.bind_none]

/-- An integer is a sign and digits. -/
theorem toList_toString_int (n : Int) : ∃ sign digits : List Char,
    (sign = [] ∨ sign = ['-']) ∧ (∀ c ∈ digits, c.isDigit = true) ∧
      (toString n).toList = sign ++ digits := by
  rw [Int.toString_eq_repr, Int.repr_eq_if]
  split
  · refine ⟨[], n.toNat.repr.toList, Or.inl rfl, ?_, rfl⟩
    rw [Nat.toList_repr]
    exact Number.allDigits_toDigits _
  · refine ⟨['-'], (-n).toNat.repr.toList, Or.inr rfl, ?_, by simp⟩
    rw [Nat.toList_repr]
    exact Number.allDigits_toDigits _

end Text

namespace EvidenceError

theorem withoutPosition_emptyField (field : String) :
    Text.withoutPosition (emptyField field).message = (emptyField field).message := by
  have htext : (emptyField field).message.toList =
      field.toList ++ " must be non-emp".toList ++ 't' :: 'y' :: [] := by
    show (field ++ " must be non-empty").toList = _
    simp
  exact Text.withoutPosition_eq_self htext (by simp) (by decide) (Or.inl (by decide))

theorem withoutPosition_invalidTimestamp (field : String) (time : Int64) :
    Text.withoutPosition (invalidTimestamp field time).message =
      (invalidTimestamp field time).message := by
  obtain ⟨sign, digits, hsign, hdigits, htime⟩ := Text.toList_toString_int time.toInt
  have htext : (invalidTimestamp field time).message.toList =
      (field.toList ++ " must be positive, got ".toList) ++ (sign ++ digits) := by
    rw [← htime, ← String.toList_append, ← String.toList_append]
    rfl
  rcases hsign with rfl | rfl
  · have hsplit : " must be positive, got ".toList =
        " must be positive, go".toList ++ ['t', ' '] := by simp
    rw [hsplit, List.append_assoc, List.append_assoc, ← List.append_assoc] at htext
    exact Text.withoutPosition_eq_self htext hdigits (by decide) (Or.inl (by decide))
  · have hsplit : " must be positive, got ".toList =
        " must be positive, got".toList ++ [' '] := by simp
    rw [hsplit, List.append_assoc, List.append_assoc, ← List.append_assoc] at htext
    exact Text.withoutPosition_eq_self htext hdigits (by decide) (Or.inl (by decide))

/-- What a rule of a bundle can be about: a text other than the root, a time, the executions or the
outcome. -/
def IsOwn : EvidenceError → Prop
  | .emptyField field => field ≠ "hash_chain_root"
  | .invalidTimestamp _ _ | .noExecutions | .bothOutcomes | .neitherOutcome => True
  | .inconsistentExecution _ | .bundleNotFound _ => False

/-- The message of such an error is told as it is. -/
theorem IsOwn.message_eq {error : EvidenceError} (h : error.IsOwn) :
    (Fault.rule error.message).message = error.message := by
  cases error with
  | emptyField field => exact withoutPosition_emptyField field
  | invalidTimestamp field time => exact withoutPosition_invalidTimestamp field time
  | noExecutions | bothOutcomes | neitherOutcome => decide
  | inconsistentExecution text | bundleNotFound id => exact h.elim

end EvidenceError

/-! ## The rules of a bundle in order -/

namespace Parts

open EvidenceRule

def grantRules (grant : Snapshot.Grant) : List EvidenceRule :=
  [content "grant_snapshot.grant_id" grant.id,
    positive "grant_snapshot.captured_at" grant.capturedAt]

def executionRules (execution : Snapshot.Execution) : List EvidenceRule :=
  [content "execution_snapshot.capability_name" execution.capability,
    positive "execution_snapshot.executed_at" execution.executedAt]

/-- All rules of a bundle: those about its name, time and version, those of its circumstances, then
that there are executions, those of each in turn, and last those about the outcome. -/
def rules (p : Parts) : List EvidenceRule :=
  [content "bundle_id" p.id, positive "created_at" p.createdAt,
    content "authority_version" p.authorityVersion] ++
  [positive "context_snapshot.captured_at" p.context.capturedAt] ++
  [content "intent_snapshot.capability_name" p.intent.capability,
    positive "intent_snapshot.declared_at" p.intent.declaredAt] ++
  [content "principal_snapshot.principal_id" p.principal.id,
    positive "principal_snapshot.captured_at" p.principal.capturedAt] ++
  p.grant.toList.flatMap grantRules ++
  [⟨p.executions ≠ [], .noExecutions⟩] ++
  p.executions.flatMap executionRules ++
  [⟨¬(p.failure.isSome = true ∧ p.results.isSome = true), .bothOutcomes⟩,
    ⟨p.failure.isSome = true ∨ p.results.isSome = true, .neitherOutcome⟩]

theorem checked_grant (grant : Option Snapshot.Grant) :
    Checked (grant.toList.flatMap grantRules) (grant.bind Snapshot.Grant.error?) := by
  cases grant with
  | none => exact checked_nil
  | some grant => exact (checked_content _ _).or (checked_positive _ _)

theorem checked_executions (executions : List Snapshot.Execution) :
    Checked ([⟨executions ≠ [], .noExecutions⟩] ++ executions.flatMap executionRules)
      (executionsError? executions) := by
  cases executions with
  | nil => exact ⟨[], _, [], rfl, by simp, by simp, rfl⟩
  | cons execution rest =>
    have hsome : Checked [⟨execution :: rest ≠ [], .noExecutions⟩] none := by simp [Checked]
    have hall : Checked ((execution :: rest).flatMap executionRules)
        ((execution :: rest).findSome? Snapshot.Execution.error?) :=
      checked_findSome? (fun _ => (checked_content _ _).or (checked_positive _ _)) _
    exact hsome.or hall

theorem checked_outcome (failure : Option Refusal) (results : Option Results) :
    Checked [⟨¬(failure.isSome = true ∧ results.isSome = true), .bothOutcomes⟩,
      ⟨failure.isSome = true ∨ results.isSome = true, .neitherOutcome⟩]
      (outcomeError? failure results) := by
  cases failure <;> cases results
  · exact ⟨[_], _, [], rfl, by simp, by simp, rfl⟩
  · simp [Checked, outcomeError?]
  · simp [Checked, outcomeError?]
  · exact ⟨[], _, [_], rfl, by simp, by simp, rfl⟩

/-- **The rules of a bundle are checked in order.** -/
theorem checked_rules (p : Parts) : Checked p.rules p.error? := by
  have h := (checked_content "bundle_id" p.id).or <|
    (checked_positive "created_at" p.createdAt).or <|
    (checked_content "authority_version" p.authorityVersion).or <|
    (checked_positive "context_snapshot.captured_at" p.context.capturedAt).or <|
    ((checked_content "intent_snapshot.capability_name" p.intent.capability).or
      (checked_positive "intent_snapshot.declared_at" p.intent.declaredAt)).or <|
    ((checked_content "principal_snapshot.principal_id" p.principal.id).or
      (checked_positive "principal_snapshot.captured_at" p.principal.capturedAt)).or <|
    (checked_grant p.grant).or <|
    (checked_executions p.executions).or <|
    checked_outcome p.failure p.results
  simp only [List.cons_append, List.nil_append] at h
  simp only [rules, error?, Snapshot.Context.error?, Snapshot.Intent.error?,
    Snapshot.Principal.error?, List.append_assoc, List.cons_append, List.nil_append]
  exact h

theorem error?_eq_none_iff_kept {p : Parts} : p.error? = none ↔ ∀ rule ∈ p.rules, rule.Kept := by
  have h := p.checked_rules
  cases herror : p.error? with
  | none =>
    rw [herror] at h
    exact iff_of_true rfl h
  | some error =>
    rw [herror] at h
    obtain ⟨before, rule, after, hrules, -, hbroken, -⟩ := h
    refine iff_of_false (by simp) fun hall => hbroken (hall rule ?_)
    rw [hrules]
    exact List.mem_append_right before List.mem_cons_self

theorem firstBroken_of_error? {p : Parts} {error : EvidenceError} (h : p.error? = some error) :
    FirstBroken p.rules error := by
  have hchecked := p.checked_rules
  rw [h] at hchecked
  exact hchecked

theorem isOwn_of_mem_rules {p : Parts} : ∀ rule ∈ p.rules, rule.error.IsOwn := by
  simp only [rules, grantRules, executionRules, content, positive, List.forall_mem_append,
    List.forall_mem_flatMap, List.forall_mem_cons, EvidenceError.IsOwn]
  simp

/-- The value of a bundle with these parts under a root, whether or not there is such a bundle. -/
def document (p : Parts) (root : Digest) : Json :=
  .obj (Assoc.insert "hash_chain_root" (.str root.hex) p.members)

end Parts

/-! ## Sealing, making and reading -/

namespace Bundle

theorem document_eq (p : Parts) (root : Digest) :
    p.document root = .obj (Draft.mk p root).members := rfl

/-- Reading the value of parts is making a bundle of them, and an error is told by its message. -/
theorem ofJson_document (p : Parts) (root : Digest) :
    codec.ofJson (p.document root) =
      ((make p root).mapError EvidenceError.message).mapError .rule := by
  have hread : Draft.codec.ofJson (.obj (Draft.mk p root).members) = .ok ⟨p, root⟩ :=
    Draft.reads_codec ⟨p, root⟩
  rw [document_eq, ofJson_codec_eq hread]

/-- A bundle that was made is in order just under the root of its chain. -/
theorem verifyRoot_make_iff {hash : Hasher} {p : Parts} {sealed : Bundle}
    (hsealed : ofParts hash p = .ok sealed) (hparts : sealed.parts = p) (root : Digest) :
    (∃ b, make p root = .ok b ∧ b.verifyRoot hash = true) ↔ root = sealed.root := by
  have hvalid : p.error? = none := hparts ▸ sealed.valid
  have hroot : (p.chain hash).root = some sealed.root := by
    have hverify := verifyRoot_of_ofParts hsealed
    rw [verifyRoot, hparts] at hverify
    exact of_decide_eq_true hverify
  constructor
  · rintro ⟨b, hb, hverify⟩
    obtain ⟨-, hdraft⟩ := make_eq_ok_iff.mp hb
    have hbparts : b.parts = p := congrArg Draft.parts hdraft
    have hbroot : b.root = root := congrArg Draft.root hdraft
    rw [verifyRoot, hbparts, hroot, hbroot] at hverify
    exact (Option.some.inj (of_decide_eq_true hverify)).symm
  · rintro rfl
    refine ⟨⟨p, sealed.root, hvalid⟩, make_eq_ok_iff.mpr ⟨hvalid, rfl⟩, ?_⟩
    exact decide_eq_true hroot

/-- **The three ways to a bundle agree.**  Sealing parts, making a bundle of them under any root and
reading their value under that root all succeed if the parts keep every rule; the root of the sealed
bundle is then the only one under which a bundle of these parts is found to be in order.  If not,
all three fail with the error of the first rule that is broken.  Sealing never fails for want of a
root, and it makes no difference from which text the value was read. -/
theorem seal_make_read_agree (hash : Hasher) (p : Parts) (root : Digest) :
    (((∀ rule ∈ p.rules, rule.Kept) ∧ ∃ sealed made : Bundle,
        ofParts hash p = .ok sealed ∧ make p root = .ok made ∧
        codec.ofJson (p.document root) = .ok made ∧
        sealed.parts = p ∧ made.draft = ⟨p, root⟩ ∧
        ∀ r, (∃ b, make p r = .ok b ∧ b.verifyRoot hash = true) ↔ r = sealed.root) ∨
      ∃ error, EvidenceRule.FirstBroken p.rules error ∧
        ofParts hash p = .error error ∧ make p root = .error error ∧
        codec.ofJson (p.document root) = .error (.rule error.message) ∧
        (Fault.rule error.message).message = error.message) ∧
    ofParts hash p ≠ .error (.emptyField "hash_chain_root") ∧
    ∀ text, Json.parse? text = some (p.document root) →
      codec.decodeValue text = codec.ofJson (p.document root) := by
  have hdecode : ∀ text, Json.parse? text = some (p.document root) →
      codec.decodeValue text = codec.ofJson (p.document root) := by
    intro text htext
    rw [Codec.decodeValue, htext]
  cases herror : p.error? with
  | none =>
    obtain ⟨sealed, hsealed, hparts⟩ := exists_ofParts hash herror
    have hmake : make p root = .ok ⟨p, root, herror⟩ := make_eq_ok_iff.mpr ⟨herror, rfl⟩
    have hread : codec.ofJson (p.document root) = .ok ⟨p, root, herror⟩ := by
      rw [ofJson_document, hmake]
      rfl
    refine ⟨Or.inl ⟨Parts.error?_eq_none_iff_kept.mp herror, sealed, ⟨p, root, herror⟩, hsealed,
      hmake, hread, hparts, rfl, verifyRoot_make_iff hsealed hparts⟩, ?_, hdecode⟩
    simp [hsealed]
  | some error =>
    have hbroken := Parts.firstBroken_of_error? herror
    obtain ⟨rule, hrule, rfl⟩ := hbroken.mem
    have hown := Parts.isOwn_of_mem_rules rule hrule
    have hseal : ofParts hash p = .error rule.error := ofParts_eq_error herror
    have hmake : make p root = .error rule.error := make_eq_error_iff.mpr herror
    have hread : codec.ofJson (p.document root) = .error (.rule rule.error.message) := by
      rw [ofJson_document, hmake]
      rfl
    refine ⟨Or.inr ⟨rule.error, hbroken, hseal, hmake, hread, hown.message_eq⟩, ?_, hdecode⟩
    rw [hseal]
    intro hroot
    rw [Except.error.inj hroot] at hown
    exact hown rfl

end Bundle

end Custody
