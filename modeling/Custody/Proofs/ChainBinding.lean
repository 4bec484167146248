import Custody.Proofs.Preimage

/-!
# A root binds the elements

Nothing is assumed of the hash function.  Two lists of elements with one root have the same keys and
the same canonical texts in the same order, or else two different byte strings among those hashed
for them have one digest.  The argument goes through both chains from their last elements back: what
was hashed last is either the same, and tells the last element and the digest before it, or
different, and then it collides.
-/

namespace Custody

/-- Two different byte strings among these have one digest. -/
def Collision (hash : Hasher) (inputs : List ByteArray) : Prop :=
  ∃ x ∈ inputs, ∃ y ∈ inputs, x ≠ y ∧ hash x = hash y

theorem Collision.mono {hash : Hasher} {inputs others : List ByteArray}
    (h : Collision hash inputs) (hsub : inputs ⊆ others) : Collision hash others := by
  obtain ⟨x, hx, y, hy, hne, heq⟩ := h
  exact ⟨x, hsub hx, y, hsub hy, hne, heq⟩

/-- Texts with one digest are equal, or they collide. -/
theorem eq_or_collision {hash : Hasher} {s t : String} (h : hash s.toUTF8 = hash t.toUTF8) :
    s = t ∨ Collision hash [s.toUTF8, t.toUTF8] := by
  by_cases heq : s = t
  · exact Or.inl heq
  · refine Or.inr ⟨s.toUTF8, by simp, t.toUTF8, by simp, ?_, h⟩
    intro hbytes
    exact heq (String.toByteArray_inj.mp hbytes)

namespace Chain

variable (hash : Hasher)

/-! ## What is hashed -/

/-- What is hashed when an element is appended: its text, and the text that links it to the running
digest if there is one. -/
def appended (chain : Chain) (key : String) (value : Json) : List ByteArray :=
  (elementText key value).toUTF8 ::
    match chain.current with
    | none => []
    | some previous => [(linkText previous (elementDigest hash key value)).toUTF8]

/-- What is hashed when elements are appended to a chain, in order. -/
def hashedFrom : Chain → List (String × Json) → List ByteArray
  | _, [] => []
  | chain, (key, value) :: rest =>
    chain.appended hash key value ++ hashedFrom (chain.append hash key value) rest

/-- What is hashed for the chain of a list of elements. -/
def hashed (elements : List (String × Json)) : List ByteArray := hashedFrom hash empty elements

/-- What a chain commits to: the keys, and the canonical texts of the values. -/
def committed (elements : List (String × Json)) : List (String × String) :=
  elements.map fun element => (element.1, element.2.canonical)

variable {hash}

theorem hashedFrom_append (chain : Chain) (elements more : List (String × Json)) :
    hashedFrom hash chain (elements ++ more) = hashedFrom hash chain elements ++
      hashedFrom hash (elements.foldl (fun c e => c.append hash e.1 e.2) chain) more := by
  induction elements generalizing chain with
  | nil => rfl
  | cons element rest ih =>
    rw [List.cons_append, hashedFrom, hashedFrom, ih, List.foldl_cons, List.append_assoc]

theorem hashed_concat (elements : List (String × Json)) (last : String × Json) :
    hashed hash (elements ++ [last]) =
      hashed hash elements ++ (ofElements hash elements).appended hash last.1 last.2 := by
  rw [hashed, hashedFrom_append, hashedFrom, hashedFrom, List.append_nil]
  rfl

theorem ofElements_concat (elements : List (String × Json)) (last : String × Json) :
    ofElements hash (elements ++ [last]) =
      (ofElements hash elements).append hash last.1 last.2 := by
  rw [ofElements, List.foldl_append]
  rfl

/-- The digest after one more element. -/
theorem root_concat (elements : List (String × Json)) (last : String × Json) :
    (ofElements hash (elements ++ [last])).root =
      match (ofElements hash elements).root with
      | none => some (elementDigest hash last.1 last.2)
      | some previous => some (link hash previous (elementDigest hash last.1 last.2)) := by
  rw [ofElements_concat]
  rfl

/-! ## The chain sees only what is committed to and hashed -/

/-- The chain of a list depends on nothing but what is committed to. -/
theorem append_congr (chain : Chain) {key : String} {v w : Json}
    (h : v.canonical = w.canonical) : chain.append hash key v = chain.append hash key w := by
  rw [append, append, elementDigest, elementDigest, elementText, elementText, h]

theorem ofElements_congr {elements others : List (String × Json)}
    (h : committed elements = committed others) :
    ofElements hash elements = ofElements hash others := by
  suffices hfold : ∀ chain : Chain,
      elements.foldl (fun c e => c.append hash e.1 e.2) chain =
        others.foldl (fun c e => c.append hash e.1 e.2) chain from hfold empty
  induction elements generalizing others with
  | nil =>
    cases others with
    | nil => intro chain; rfl
    | cons other more => cases h
  | cons element rest ih =>
    cases others with
    | nil => cases h
    | cons other more =>
      intro chain
      rw [committed, committed, List.map_cons, List.map_cons, List.cons.injEq, Prod.mk.injEq] at h
      rw [List.foldl_cons, List.foldl_cons, h.1.1, append_congr chain h.1.2]
      exact ih h.2 _

/-- The digests of a chain are those of what is listed as hashed: another function that agrees there
gives the same chain. -/
theorem foldl_append_eq_of_agree {hash' : Hasher} {chain : Chain} {elements : List (String × Json)}
    (h : ∀ x ∈ hashedFrom hash chain elements, hash' x = hash x) :
    elements.foldl (fun c e => c.append hash' e.1 e.2) chain =
      elements.foldl (fun c e => c.append hash e.1 e.2) chain := by
  induction elements generalizing chain with
  | nil => rfl
  | cons element rest ih =>
    rw [hashedFrom] at h
    have helement : elementDigest hash' element.1 element.2 =
        elementDigest hash element.1 element.2 :=
      h _ (List.mem_append_left _ List.mem_cons_self)
    have happend : chain.append hash' element.1 element.2 =
        chain.append hash element.1 element.2 := by
      rw [append, append, helement]
      cases hcurrent : chain.current with
      | none => rfl
      | some previous =>
        have hlink : link hash' previous (elementDigest hash element.1 element.2) =
            link hash previous (elementDigest hash element.1 element.2) := by
          refine h _ (List.mem_append_left _ ?_)
          simp [appended, hcurrent]
        simp only [hlink]
    rw [List.foldl_cons, List.foldl_cons, happend]
    exact ih fun x hx => h x (List.mem_append_right _ hx)

/-- **Nothing else is hashed** for a chain than `hashed` lists. -/
theorem ofElements_eq_of_agree {hash' : Hasher} {elements : List (String × Json)}
    (h : ∀ x ∈ hashed hash elements, hash' x = hash x) :
    ofElements hash' elements = ofElements hash elements :=
  foldl_append_eq_of_agree h

/-! ## Backwards through two chains -/

theorem elementText_mem (elements : List (String × Json)) (last : String × Json) :
    (elementText last.1 last.2).toUTF8 ∈ hashed hash (elements ++ [last]) := by
  rw [hashed_concat]
  exact List.mem_append_right _ List.mem_cons_self

theorem linkText_mem {elements : List (String × Json)} {previous : Digest}
    (h : (ofElements hash elements).root = some previous) (last : String × Json) :
    (linkText previous (elementDigest hash last.1 last.2)).toUTF8 ∈
      hashed hash (elements ++ [last]) := by
  rw [hashed_concat]
  refine List.mem_append_right _ ?_
  rw [root] at h
  simp [appended, h]

theorem hashed_subset (elements : List (String × Json)) (last : String × Json) :
    hashed hash elements ⊆ hashed hash (elements ++ [last]) := by
  rw [hashed_concat]
  exact List.subset_append_left _ _

/-- Elements with one digest are the same, or their texts collide. -/
theorem elementDigest_eq {key key' : String} {v w : Json}
    (h : elementDigest hash key v = elementDigest hash key' w) :
    key = key' ∧ v.canonical = w.canonical ∨
      Collision hash [(elementText key v).toUTF8, (elementText key' w).toUTF8] := by
  rcases eq_or_collision h with htext | hcollision
  · exact Or.inl (elementText_inj htext)
  · exact Or.inr hcollision

/-- The digest of an element is that of a link only by a collision. -/
theorem collision_of_elementDigest_eq_link {key : String} {v : Json} {a b : Digest}
    (h : elementDigest hash key v = link hash a b) :
    Collision hash [(elementText key v).toUTF8, (linkText a b).toUTF8] := by
  rcases eq_or_collision h with htext | hcollision
  · exact absurd htext (elementText_ne_linkText key v a b)
  · exact hcollision

theorem collision_of_mem {inputs : List ByteArray} {x y : ByteArray}
    (h : Collision hash [x, y]) (hx : x ∈ inputs) (hy : y ∈ inputs) : Collision hash inputs := by
  apply h.mono
  intro z hz
  simp only [List.mem_cons, List.not_mem_nil, or_false] at hz
  rcases hz with rfl | rfl
  · exact hx
  · exact hy

theorem committed_concat {elements others : List (String × Json)} {last last' : String × Json}
    (h : committed elements = committed others)
    (hlast : last.1 = last'.1 ∧ last.2.canonical = last'.2.canonical) :
    committed (elements ++ [last]) = committed (others ++ [last']) := by
  rw [committed, committed] at h
  rw [committed, committed, List.map_append, List.map_append, h, List.map_cons, List.map_cons,
    hlast.1, hlast.2]

/-- Elements that are bound stay so when elements of one digest are appended. -/
theorem committed_concat_or_collision {elements others : List (String × Json)}
    {last last' : String × Json}
    (h : committed elements = committed others ∨
      Collision hash (hashed hash elements ++ hashed hash others))
    (hdigest : elementDigest hash last.1 last.2 = elementDigest hash last'.1 last'.2) :
    committed (elements ++ [last]) = committed (others ++ [last']) ∨
      Collision hash (hashed hash (elements ++ [last]) ++ hashed hash (others ++ [last'])) := by
  rcases h with hbefore | hcollision
  · rcases elementDigest_eq hdigest with hlast | hcollision
    · exact Or.inl (committed_concat hbefore hlast)
    · refine Or.inr (collision_of_mem hcollision ?_ ?_)
      · exact List.mem_append_left _ (elementText_mem elements last)
      · exact List.mem_append_right _ (elementText_mem others last')
  · refine Or.inr (hcollision.mono (List.append_subset.mpr ⟨?_, ?_⟩))
    · intro x hx
      exact List.mem_append_left _ (hashed_subset elements last hx)
    · intro x hx
      exact List.mem_append_right _ (hashed_subset others last' hx)

/-- One step back: if equal roots bind all elements but the last, they bind the last too. -/
theorem committed_eq_concat {elements others : List (String × Json)} {last last' : String × Json}
    (ih : (ofElements hash elements).root = (ofElements hash others).root →
      committed elements = committed others ∨
        Collision hash (hashed hash elements ++ hashed hash others))
    (h : (ofElements hash (elements ++ [last])).root = (ofElements hash (others ++ [last'])).root) :
    committed (elements ++ [last]) = committed (others ++ [last']) ∨
      Collision hash (hashed hash (elements ++ [last]) ++ hashed hash (others ++ [last'])) := by
  rw [root_concat, root_concat] at h
  -- A list of one element has its digest for a root, a longer one has a link.
  cases hroot : (ofElements hash elements).root with
  | none =>
    cases hroot' : (ofElements hash others).root with
    | none =>
      rw [hroot, hroot', Option.some.injEq] at h
      exact committed_concat_or_collision (ih (hroot.trans hroot'.symm)) h
    | some previous =>
      rw [hroot, hroot', Option.some.injEq] at h
      refine Or.inr (collision_of_mem (collision_of_elementDigest_eq_link h) ?_ ?_)
      · exact List.mem_append_left _ (elementText_mem elements last)
      · exact List.mem_append_right _ (linkText_mem hroot' last')
  | some previous =>
    cases hroot' : (ofElements hash others).root with
    | none =>
      rw [hroot, hroot', Option.some.injEq] at h
      refine Or.inr (collision_of_mem (collision_of_elementDigest_eq_link h.symm) ?_ ?_)
      · exact List.mem_append_right _ (elementText_mem others last')
      · exact List.mem_append_left _ (linkText_mem hroot last)
    | some previous' =>
      rw [hroot, hroot', Option.some.injEq] at h
      rcases eq_or_collision h with htext | hcollision
      · obtain ⟨hprevious, hdigest⟩ := linkText_inj htext
        have hbefore : (ofElements hash elements).root = (ofElements hash others).root := by
          rw [hroot, hroot', hprevious]
        exact committed_concat_or_collision (ih hbefore) hdigest
      · refine Or.inr (collision_of_mem hcollision ?_ ?_)
        · exact List.mem_append_left _ (linkText_mem hroot last)
        · exact List.mem_append_right _ (linkText_mem hroot' last')

theorem root_concat_ne_none (elements : List (String × Json)) (last : String × Json) :
    (ofElements hash (elements ++ [last])).root ≠ none := by
  rw [root_concat]
  cases (ofElements hash elements).root <;> exact Option.some_ne_none _

theorem exists_root {elements : List (String × Json)} (h : elements ≠ []) :
    ∃ root, (ofElements hash elements).root = some root := by
  rcases List.eq_nil_or_concat elements with rfl | ⟨before, last, rfl⟩
  · exact absurd rfl h
  · rw [List.concat_eq_append]
    exact Option.ne_none_iff_exists'.mp (root_concat_ne_none before last)

-- Appending goes to the end, so the induction is on the lists reversed.
theorem committed_eq_reverse (elements others : List (String × Json))
    (h : (ofElements hash elements.reverse).root = (ofElements hash others.reverse).root) :
    committed elements.reverse = committed others.reverse ∨
      Collision hash (hashed hash elements.reverse ++ hashed hash others.reverse) := by
  induction elements generalizing others with
  | nil =>
    cases others with
    | nil => exact Or.inl rfl
    | cons other more =>
      rw [List.reverse_cons] at h
      exact absurd h.symm (root_concat_ne_none more.reverse other)
  | cons element rest ih =>
    cases others with
    | nil =>
      rw [List.reverse_cons] at h
      exact absurd h (root_concat_ne_none rest.reverse element)
    | cons other more =>
      rw [List.reverse_cons, List.reverse_cons] at h ⊢
      exact committed_eq_concat (fun hroot => ih more hroot) h

/-- **Equal roots bind**: the same is committed to, or there is a collision. -/
theorem committed_eq_of_root_eq {elements others : List (String × Json)}
    (h : (ofElements hash elements).root = (ofElements hash others).root) :
    committed elements = committed others ∨
      Collision hash (hashed hash elements ++ hashed hash others) := by
  rw [← List.reverse_reverse elements, ← List.reverse_reverse others] at h ⊢
  exact committed_eq_reverse elements.reverse others.reverse h

/-- **A root binds the elements of its chain, whatever the hash function.**  Lists with one root are
both empty, or equally long with the same key and the same canonical text at every place, or two
different byte strings hashed for them have one digest.  So the root of a list is verified for lists
that commit to the same, and for no others without such a collision. -/
theorem root_binds_elements (hash : Hasher) (elements others : List (String × Json)) :
    ((ofElements hash elements).root = (ofElements hash others).root →
      elements = [] ∧ others = [] ∨
      (elements.length = others.length ∧ ∀ (i : Nat) (hi : i < elements.length)
        (hi' : i < others.length), elements[i].1 = others[i].1 ∧
          elements[i].2.canonical = others[i].2.canonical) ∨
      Collision hash (hashed hash elements ++ hashed hash others)) ∧
    ∀ root, (ofElements hash elements).root = some root →
      (committed others = committed elements → verifyRoot hash others root = true) ∧
      (verifyRoot hash others root = true → committed others = committed elements ∨
        Collision hash (hashed hash others ++ hashed hash elements)) := by
  refine ⟨?_, ?_⟩
  · intro h
    rcases committed_eq_of_root_eq h with hcommitted | hcollision
    · refine Or.inr (Or.inl ⟨?_, ?_⟩)
      · simpa [committed] using congrArg List.length hcommitted
      · intro i hi hi'
        have hget := congrArg (fun texts => texts[i]?) hcommitted
        simp only [committed, List.getElem?_map, List.getElem?_eq_getElem hi,
          List.getElem?_eq_getElem hi', Option.map_some, Option.some.injEq, Prod.mk.injEq] at hget
        exact hget
    · exact Or.inr (Or.inr hcollision)
  · intro root hroot
    refine ⟨?_, ?_⟩
    · intro hcommitted
      rw [verifyRoot, ofElements_congr hcommitted, hroot]
      exact decide_eq_true rfl
    · intro hverify
      have hothers := of_decide_eq_true hverify
      exact committed_eq_of_root_eq (hothers.trans hroot.symm)

/-- A function that gives everything one digest gives different elements one root, by a
collision. -/
theorem root_binds_elements_constant :
    ∃ hash : Hasher, (ofElements hash [("a", .null)]).root = (ofElements hash [("b", .null)]).root ∧
      Collision hash (hashed hash [("a", .null)] ++ hashed hash [("b", .null)]) := by
  let zero : Hasher := fun _ => ⟨List.replicate 32 0, rfl⟩
  refine ⟨zero, rfl, ?_⟩
  rcases (root_binds_elements zero [("a", .null)] [("b", .null)]).1 rfl with h | h | h
  · cases h.1
  · exact absurd (h.2 0 (by decide) (by decide)).1 (by decide)
  · exact h

end Chain

end Custody
