import Custody.Proofs.ChainBinding

/-!
# A chain as it grows

A chain holds its entries and a running digest, and an append changes each on its own, with a case
of its own for the first element.  The two stay in step: whatever is appended, the running digest is
that of the first entry with the digests of all others linked to it in turn.  So the root can be
found again from the entries alone, and it does not matter whether elements are appended one by one,
all at once or in two goes.
-/

namespace Custody.Chain

/-! ## One append after the other -/

/-- Appends elements one after the other, and tells what each append told. -/
def pushAll (hash : Hasher) : Chain → List (String × Json) → List Digest × Chain
  | chain, [] => ([], chain)
  | chain, (key, value) :: rest =>
    let (told, chain) := chain.push hash key value
    let (later, chain) := pushAll hash chain rest
    (told :: later, chain)

/-- The entry of an element. -/
def entryOf (hash : Hasher) (element : String × Json) : Entry :=
  ⟨element.1, elementDigest hash element.1 element.2⟩

/-- The first digest, with all others linked to it in turn. -/
def folded (hash : Hasher) : List Digest → Option Digest
  | [] => none
  | first :: rest => some (rest.foldl (link hash) first)

variable {hash : Hasher}

theorem pushAll_cons (chain : Chain) (element : String × Json) (rest : List (String × Json)) :
    pushAll hash chain (element :: rest) =
      ((chain.push hash element.1 element.2).1 ::
          (pushAll hash (chain.append hash element.1 element.2) rest).1,
        (pushAll hash (chain.append hash element.1 element.2) rest).2) := by
  rw [← push_snd]
  rfl

/-- Appending one by one comes to the fold over all elements. -/
theorem pushAll_snd (chain : Chain) (elements : List (String × Json)) :
    (pushAll hash chain elements).2 =
      elements.foldl (fun c e => c.append hash e.1 e.2) chain := by
  induction elements generalizing chain with
  | nil => rfl
  | cons element rest ih =>
    rw [pushAll_cons, List.foldl_cons]
    exact ih (chain.append hash element.1 element.2)

theorem pushAll_empty (elements : List (String × Json)) :
    (pushAll hash empty elements).2 = ofElements hash elements :=
  pushAll_snd empty elements

/-- The second half is appended to the chain of the first. -/
theorem pushAll_ofElements (elements more : List (String × Json)) :
    (pushAll hash (ofElements hash elements) more).2 = ofElements hash (elements ++ more) := by
  rw [pushAll_snd, ofElements, ofElements, List.foldl_append]

/-! ## Entries -/

/-- What was there stays where it was, and each element adds its own entry. -/
theorem entries_pushAll (chain : Chain) (elements : List (String × Json)) :
    (pushAll hash chain elements).2.entries = chain.entries ++ elements.map (entryOf hash) := by
  induction elements generalizing chain with
  | nil => exact (List.append_nil chain.entries).symm
  | cons element rest ih =>
    rw [pushAll_cons, List.map_cons]
    show (pushAll hash (chain.append hash element.1 element.2) rest).2.entries = _
    rw [ih, entries_append, List.append_assoc]
    rfl

theorem entries_ofElements (elements : List (String × Json)) :
    (ofElements hash elements).entries = elements.map (entryOf hash) := by
  rw [← pushAll_empty, entries_pushAll]
  rfl

/-! ## The running digest -/

/-- Each append tells the running digest after it, so after some of them it is what the last
told. -/
theorem current_pushAll (chain : Chain) (elements : List (String × Json)) :
    (pushAll hash chain elements).2.current =
      (pushAll hash chain elements).1.getLast?.or chain.current := by
  induction elements generalizing chain with
  | nil => rfl
  | cons element rest ih =>
    rw [pushAll_cons]
    show (pushAll hash (chain.append hash element.1 element.2) rest).2.current = _
    rw [ih, current_append, List.getLast?_cons]
    cases (pushAll hash (chain.append hash element.1 element.2) rest).1.getLast? <;> rfl

/-- The digest to link to is there unless there is no other. -/
theorem folded_concat (digests : List Digest) (last : Digest) :
    folded hash (digests ++ [last]) =
      match folded hash digests with
      | none => some last
      | some previous => some (link hash previous last) := by
  cases digests with
  | nil => rfl
  | cons first rest =>
    show some ((rest ++ [last]).foldl (link hash) first) = _
    rw [List.foldl_append]
    rfl

theorem folded_eq_none_iff {digests : List Digest} : folded hash digests = none ↔ digests = [] := by
  cases digests with
  | nil => exact iff_of_true rfl rfl
  | cons first rest => exact iff_of_false (Option.some_ne_none _) (List.cons_ne_nil first rest)

/-- The running digest is the one that the entries tell. -/
def InStep (hash : Hasher) (chain : Chain) : Prop :=
  chain.current = folded hash (chain.entries.map Entry.digest)

theorem inStep_empty : InStep hash empty := rfl

/-- **One append keeps them in step.** -/
theorem InStep.append {chain : Chain} (h : InStep hash chain) (key : String) (value : Json) :
    InStep hash (chain.append hash key value) := by
  rw [InStep, entries_append, List.map_append, List.map_singleton, folded_concat, ← h]
  rfl

theorem InStep.pushAll {chain : Chain} (h : InStep hash chain) (elements : List (String × Json)) :
    InStep hash (pushAll hash chain elements).2 := by
  induction elements generalizing chain with
  | nil => exact h
  | cons element rest ih =>
    rw [pushAll_cons]
    exact ih (h.append element.1 element.2)

/-- The root of a chain is told by its elements. -/
theorem root_ofElements (elements : List (String × Json)) :
    (ofElements hash elements).root =
      folded hash ((elements.map (entryOf hash)).map Entry.digest) := by
  have hstep : InStep hash (ofElements hash elements) := by
    rw [← pushAll_empty]
    exact inStep_empty.pushAll elements
  rw [← entries_ofElements]
  exact hstep

/-- **Appending keeps the entries and the running digest in step.**  After any appends to an empty
chain there is one entry for each, in order, and what was there before stays.  The running digest is
the root, it is what the last append told, and it is the digest of the first entry with all others
linked to it in turn; only a chain without entries has none.  Elements at once, one by one or in two
goes make one chain, and a root is verified if there are elements that tell it. -/
theorem entries_tell_running_digest (hash : Hasher) (elements more : List (String × Json)) :
    (∃ told chain, pushAll hash empty elements = (told, chain) ∧
      chain.entries = elements.map (entryOf hash) ∧
      chain.entries <+: (pushAll hash chain more).2.entries ∧
      chain.root = chain.current ∧ chain.current = told.getLast? ∧
      chain.current = folded hash (chain.entries.map Entry.digest) ∧
      (chain.current = none ↔ chain.entries = []) ∧
      ofElements hash elements = chain ∧
      (pushAll hash chain more).2 = ofElements hash (elements ++ more)) ∧
    ∀ root, verifyRoot hash elements root = true ↔
      elements ≠ [] ∧ folded hash ((elements.map (entryOf hash)).map Entry.digest) = some root := by
  refine ⟨⟨(pushAll hash empty elements).1, (pushAll hash empty elements).2, rfl, ?_⟩, ?_⟩
  · have hstep : InStep hash (pushAll hash empty elements).2 := inStep_empty.pushAll elements
    refine ⟨entries_pushAll empty elements, ?_, rfl, ?_, hstep, ?_, (pushAll_empty elements).symm,
      ?_⟩
    · rw [entries_pushAll _ more]
      exact List.prefix_append _ _
    · rw [current_pushAll]
      exact Option.or_none
    · rw [hstep, folded_eq_none_iff, List.map_eq_nil_iff]
    · rw [pushAll_empty, pushAll_ofElements]
  · intro root
    rw [verifyRoot, decide_eq_true_iff, root_ofElements]
    constructor
    · intro h
      refine ⟨?_, h⟩
      rintro rfl
      cases h
    · rintro ⟨-, h⟩
      exact h

end Custody.Chain
