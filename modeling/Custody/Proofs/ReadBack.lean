import Custody.Json.Writer
import Custody.Proofs.NumberText

/-!
# Documents read back

A document without broken places is read back from its text, however numbers are written, if only
each number is read back on its own.  The statements are about a text and whatever follows it, so
that the text of an item or member is seen to end where it does.
-/

namespace Custody

/-! ## Strings -/

namespace Text

theorem hexUnit?_control :
    ∀ n < 0x20, hexUnit? '0' '0' (hexDigit (n / 16)) (hexDigit (n % 16)) = some n := by
  decide

theorem joinPieces?_char (c : Char) (ps : List Piece) :
    joinPieces? (.char c :: ps) = (joinPieces? ps).map (c :: ·) := rfl

/-- A unit below the surrogates is a character on its own, whatever follows it. -/
theorem joinPieces?_unit {c : Char} (hc : c.toNat < 0x20) (ps : List Piece) :
    joinPieces? (.unit c.toNat :: ps) = (joinPieces? ps).map (c :: ·) := by
  have hhigh : isHighSurrogate c.toNat = false := by
    simp only [isHighSurrogate, Bool.and_eq_false_iff, decide_eq_false_iff_not]
    omega
  have hlow : isLowSurrogate c.toNat = false := by
    simp only [isLowSurrogate, Bool.and_eq_false_iff, decide_eq_false_iff_not]
    omega
  match ps with
  | [] => simp [joinPieces?, hhigh, hlow, Char.ofNat_toNat]
  | .char d :: ps => simp [joinPieces?, hhigh, hlow, Char.ofNat_toNat]
  | .unit n :: ps => simp [joinPieces?, hhigh, hlow, Char.ofNat_toNat]

/-- A character inside a string is written as a letter after a backslash, by its number, or as
itself. -/
theorem jsonEscape_cases (c : Char) :
    (∃ e, e ≠ 'u' ∧ simpleEscape? e = some c ∧ jsonEscape c = ['\\', e]) ∨
    (c.toNat < 0x20 ∧ jsonEscape c =
      ['\\', 'u', '0', '0', hexDigit (c.toNat / 16), hexDigit (c.toNat % 16)]) ∨
    (0x20 ≤ c.toNat ∧ c ≠ '"' ∧ c ≠ '\\' ∧ jsonEscape c = [c]) := by
  by_cases hquote : c = '"'
  · exact Or.inl ⟨'"', by subst hquote; decide⟩
  by_cases hslash : c = '\\'
  · exact Or.inl ⟨'\\', by subst hslash; decide⟩
  by_cases hback : c = '\x08'
  · exact Or.inl ⟨'b', by subst hback; decide⟩
  by_cases hfeed : c = '\x0c'
  · exact Or.inl ⟨'f', by subst hfeed; decide⟩
  by_cases hline : c = '\n'
  · exact Or.inl ⟨'n', by subst hline; decide⟩
  by_cases hreturn : c = '\r'
  · exact Or.inl ⟨'r', by subst hreturn; decide⟩
  by_cases htab : c = '\t'
  · exact Or.inl ⟨'t', by subst htab; decide⟩
  right
  by_cases hcontrol : c.toNat < 0x20
  · exact Or.inl ⟨hcontrol, by
      simp [jsonEscape, hquote, hslash, hback, hfeed, hline, hreturn, htab, hcontrol]⟩
  · exact Or.inr ⟨by omega, hquote, hslash, by
      simp [jsonEscape, hquote, hslash, hback, hfeed, hline, hreturn, htab, hcontrol]⟩

theorem readPieces?_escape {e c : Char} (he : e ≠ 'u') (hc : simpleEscape? e = some c)
    (rest : List Char) :
    readPieces? ('\\' :: e :: rest) =
      (readPieces? rest).map fun (ps, after) => (.char c :: ps, after) := by
  rw [readPieces?.eq_def]
  split
  · next heq => cases heq
  · next heq => cases heq
  · next heq =>
    cases heq
    exact absurd rfl he
  · next heq =>
    cases heq
    simp only [hc]
  · next hne heq =>
    cases heq
    exact (hne e rest rfl rfl).elim

theorem readPieces?_plain {c : Char} (hge : 0x20 ≤ c.toNat) (hquote : c ≠ '"')
    (hslash : c ≠ '\\') (rest : List Char) :
    readPieces? (c :: rest) =
      (readPieces? rest).map fun (ps, after) => (.char c :: ps, after) := by
  have hplain : ¬(c.toNat < 0x20 ∨ c = '\\') := by
    rintro (hlt | heq)
    · omega
    · exact hslash heq
  rw [readPieces?.eq_def]
  split
  · next heq => cases heq
  · next heq =>
    cases heq
    exact absurd rfl hquote
  · next heq =>
    cases heq
    exact absurd rfl hslash
  · next heq =>
    cases heq
    exact absurd rfl hslash
  · next heq =>
    cases heq
    rw [if_neg hplain]

/-- Each character of a string is read as one piece, and that piece is the character. -/
theorem readPieces?_jsonEscape (c : Char) :
    ∃ p : Piece,
      (∀ rest, readPieces? (jsonEscape c ++ rest) =
        (readPieces? rest).map fun (ps, after) => (p :: ps, after)) ∧
      ∀ ps, joinPieces? (p :: ps) = (joinPieces? ps).map (c :: ·) := by
  rcases jsonEscape_cases c with ⟨e, he, hc, htext⟩ | ⟨hlt, htext⟩ | ⟨hge, hquote, hslash, htext⟩
  · refine ⟨.char c, fun rest => ?_, joinPieces?_char c⟩
    rw [htext]
    exact readPieces?_escape he hc rest
  · refine ⟨.unit c.toNat, fun rest => ?_, joinPieces?_unit hlt⟩
    rw [htext]
    simp [readPieces?, hexUnit?_control c.toNat hlt]
  · refine ⟨.char c, fun rest => ?_, joinPieces?_char c⟩
    rw [htext]
    exact readPieces?_plain hge hquote hslash rest

/-- **A string reads back**, with every character that it may hold. -/
theorem readPieces?_flatMap (cs rest : List Char) :
    ∃ ps, readPieces? (cs.flatMap jsonEscape ++ '"' :: rest) = some (ps, rest) ∧
      joinPieces? ps = some cs := by
  induction cs with
  | nil => exact ⟨[], rfl, rfl⟩
  | cons c cs ih =>
    obtain ⟨p, hread, hjoin⟩ := readPieces?_jsonEscape c
    obtain ⟨ps, hps, hcs⟩ := ih
    refine ⟨p :: ps, ?_, ?_⟩
    · rw [List.flatMap_cons, List.append_assoc, hread, hps]
      rfl
    · rw [hjoin, hcs]
      rfl

end Text

namespace Document

theorem readString_append (s : String) (rest : List Char) :
    readString (s.toList.flatMap Text.jsonEscape ++ '"' :: rest) = (.str s, rest) := by
  obtain ⟨ps, hread, hjoin⟩ := Text.readPieces?_flatMap s.toList rest
  simp only [readString, hread, hjoin, String.ofList_toList]

theorem jsonString_append (s : String) (rest : List Char) :
    Text.jsonString s ++ rest = '"' :: (s.toList.flatMap Text.jsonEscape ++ '"' :: rest) := by
  simp [Text.jsonString]

theorem readName?_append (key : String) (rest : List Char) :
    readName? (Text.jsonString key ++ rest) = some (some key, rest) := by
  rw [jsonString_append, readName?]
  simp [Text.skipSpace, Text.isJsonSpace, readString_append]

/-! ## Documents with a text of their own -/

mutual
/-- Whether nothing in a document is broken or without a value, and every array and object is
closed. -/
def isComplete : Document → Bool
  | .arr items closed => itemsAreComplete items && closed
  | .obj fields ending => fieldsAreComplete fields && ending.isClosed
  | .unreadable => false
  | .broken => false
  | _ => true
/-- Whether every item is complete. -/
def itemsAreComplete : List Document → Bool
  | [] => true
  | item :: rest => item.isComplete && itemsAreComplete rest
/-- Whether every member is complete. -/
def fieldsAreComplete : List (String × Document) → Bool
  | [] => true
  | (_, member) :: rest => member.isComplete && fieldsAreComplete rest
end

mutual
/-- The document with every number in it changed. -/
def mapNumbers (f : Number → Number) : Document → Document
  | .num n => .num (f n)
  | .arr items closed => .arr (mapItems f items) closed
  | .obj fields ending => .obj (mapFields f fields) ending
  | .null => .null
  | .bool b => .bool b
  | .str s => .str s
  | .unreadable => .unreadable
  | .broken => .broken
/-- `mapNumbers` on every item. -/
def mapItems (f : Number → Number) : List Document → List Document
  | [] => []
  | item :: rest => item.mapNumbers f :: mapItems f rest
/-- `mapNumbers` on every member. -/
def mapFields (f : Number → Number) : List (String × Document) → List (String × Document)
  | [] => []
  | (key, member) :: rest => (key, member.mapNumbers f) :: mapFields f rest
end

/-! ## Where a document begins -/

theorem skipSpace_cons {c : Char} (h : Text.isJsonSpace c = false) (cs : List Char) :
    Text.skipSpace (c :: cs) = c :: cs := by
  rw [Text.skipSpace, List.dropWhile_cons_of_neg (by simp [h])]

/-- A character that can stand at the beginning of a document. -/
def Opens (c : Char) : Prop := Text.isJsonSpace c = false ∧ c ≠ ']' ∧ c ≠ '}'

instance (c : Char) : Decidable (Opens c) :=
  inferInstanceAs (Decidable (Text.isJsonSpace c = false ∧ c ≠ ']' ∧ c ≠ '}'))

theorem opens_of_isDigit {c : Char} (h : c.isDigit = true) : Opens c := by
  refine ⟨?_, ?_, ?_⟩
  · by_cases hspace : Text.isJsonSpace c = true
    · simp only [Text.isJsonSpace, Bool.or_eq_true, decide_eq_true_eq] at hspace
      rcases hspace with ((rfl | rfl) | rfl) | rfl <;> exact absurd h (by decide)
    · exact Bool.eq_false_iff.mpr hspace
  · rintro rfl
    exact absurd h (by decide)
  · rintro rfl
    exact absurd h (by decide)

variable {number : Number → List Char} {back : Number → Number}

theorem write_num_opens (h : Number.ReadsBack number back) (n : Number) :
    ∃ c rest, number n = c :: rest ∧ Opens c ∧ c ≠ '[' ∧ c ≠ '{' := by
  obtain ⟨c, rest, htext, hc⟩ := h.starts n
  refine ⟨c, rest, htext, ?_⟩
  rcases hc with hc | rfl
  · refine ⟨opens_of_isDigit hc, ?_, ?_⟩
    · rintro rfl
      exact absurd hc (by decide)
    · rintro rfl
      exact absurd hc (by decide)
  · exact ⟨by decide, by decide, by decide⟩

theorem write_opens (h : Number.ReadsBack number back) (d : Document)
    (hd : d.isComplete = true) : ∃ c rest, d.write number = c :: rest ∧ Opens c := by
  cases d with
  | null => exact ⟨_, _, rfl, by decide⟩
  | bool b => cases b <;> exact ⟨_, _, rfl, by decide⟩
  | num n =>
    obtain ⟨c, rest, htext, hc, -⟩ := write_num_opens h n
    exact ⟨c, rest, htext, hc⟩
  | str s => exact ⟨_, _, rfl, by decide⟩
  | arr items closed => cases items <;> exact ⟨_, _, rfl, by decide⟩
  | obj fields ending => cases fields <;> exact ⟨_, _, rfl, by decide⟩
  | unreadable | broken => cases hd

/-! ## One step of reading -/

/-- What begins with neither bracket is read at once. -/
theorem readValue_leaf {c : Char} (hc : Opens c) (harr : c ≠ '[') (hobj : c ≠ '{') (fuel : Nat)
    (cs : List Char) : readValue (fuel + 1) (c :: cs) = readLeaf (c :: cs) := by
  rw [readValue, skipSpace_cons hc.1]
  split
  · next heq =>
    cases heq
    exact absurd rfl harr
  · next heq =>
    cases heq
    exact absurd rfl hobj
  · rfl

theorem readValue_items {c : Char} (hc : Opens c) (fuel : Nat) (cs : List Char) :
    readValue (fuel + 1) ('[' :: c :: cs) =
      (.arr (readItems fuel (c :: cs)).1 (readItems fuel (c :: cs)).2.1,
        (readItems fuel (c :: cs)).2.2) := by
  rw [readValue, skipSpace_cons (by decide)]
  simp only [skipSpace_cons hc.1]
  split
  · next heq =>
    cases heq
    exact absurd rfl hc.2.1
  · rfl

theorem readValue_fields {c : Char} (hc : Opens c) (fuel : Nat) (cs : List Char) :
    readValue (fuel + 1) ('{' :: c :: cs) =
      (.obj (readFields fuel (c :: cs)).1 (readFields fuel (c :: cs)).2.1,
        (readFields fuel (c :: cs)).2.2) := by
  rw [readValue, skipSpace_cons (by decide)]
  simp only [skipSpace_cons hc.1]
  split
  · next heq =>
    cases heq
    exact absurd rfl hc.2.2
  · rfl

/-! ## Reading undoes writing -/

theorem readValue_num (h : Number.ReadsBack number back) (n : Number) (fuel : Nat)
    {rest : List Char} (hr : Number.Ends rest) :
    readValue (fuel + 1) (number n ++ rest) = (.num (back n), rest) := by
  obtain ⟨c, more, htext, hc, harr, hobj⟩ := write_num_opens h n
  rw [← h.readLeaf_eq n hr, htext, List.cons_append]
  exact readValue_leaf hc harr hobj fuel (more ++ rest)

theorem readValue_str (s : String) (fuel : Nat) (rest : List Char) :
    readValue (fuel + 1) (Text.jsonString s ++ rest) = (.str s, rest) := by
  rw [jsonString_append, readValue_leaf (by decide) (by decide) (by decide)]
  exact readString_append s rest

/-- The text of one more item, and what is written for the items after it. -/
theorem tail_writeItems (item : Document) (items : List Document) :
    (writeItems number (item :: items)).tail = item.write number ++ writeItems number items := rfl

theorem tail_writeFields (key : String) (member : Document) (fields : List (String × Document)) :
    (writeFields number ((key, member) :: fields)).tail =
      Text.jsonString key ++ ':' :: (member.write number ++ writeFields number fields) := rfl

/-- What stands after an item or member: the bracket that closes all, or a comma. -/
theorem ends_of_mem {c : Char} (hc : c = ',' ∨ c = ']' ∨ c = '}') (rest : List Char) :
    Number.Ends (c :: rest) := by
  apply Number.ends_cons
  rcases hc with rfl | rfl | rfl <;> decide

theorem readItems_last {fuel : Nat} {cs rest : List Char} {item : Document}
    (h : readValue fuel cs = (item, ']' :: rest)) :
    readItems (fuel + 1) cs = ([item], true, rest) := by
  rw [readItems, h]
  simp only [skipSpace_cons (c := ']') (by decide)]

theorem readItems_comma {fuel : Nat} {cs rest : List Char} {item : Document}
    (h : readValue fuel cs = (item, ',' :: rest)) :
    readItems (fuel + 1) cs =
      (item :: (readItems fuel rest).1, (readItems fuel rest).2.1, (readItems fuel rest).2.2) := by
  rw [readItems, h]
  simp only [skipSpace_cons (c := ',') (by decide)]

theorem readFields_last (key : String) {fuel : Nat} {cs rest : List Char} {member : Document}
    (h : readValue fuel cs = (member, '}' :: rest)) :
    readFields (fuel + 1) (Text.jsonString key ++ ':' :: cs) =
      ([(key, member)], .closed, rest) := by
  rw [readFields, readName?_append]
  simp only [skipSpace_cons (c := ':') (by decide), h, skipSpace_cons (c := '}') (by decide)]
  rfl

theorem readFields_comma (key : String) {fuel : Nat} {cs rest : List Char} {member : Document}
    (h : readValue fuel cs = (member, ',' :: rest)) :
    readFields (fuel + 1) (Text.jsonString key ++ ':' :: cs) =
      ((key, member) :: (readFields fuel rest).1, (readFields fuel rest).2.1,
        (readFields fuel rest).2.2) := by
  rw [readFields, readName?_append]
  simp only [skipSpace_cons (c := ':') (by decide), h, skipSpace_cons (c := ',') (by decide)]
  rfl

theorem eq_closed {ending : ObjectEnd} (h : ending.isClosed = true) : ending = .closed := by
  cases ending with
  | closed => rfl
  | unnamed => cases h
  | broken => cases h

theorem exists_fuel {fuel n : Nat} (h : n + 1 ≤ fuel) : ∃ k, fuel = k + 1 :=
  ⟨fuel - 1, by omega⟩

/-- An array is read back if its items are. -/
theorem readValue_array (h : Number.ReadsBack number back) {item : Document}
    {items : List Document} (hitem : item.isComplete = true) {fuel : Nat} {rest : List Char}
    (hread : readItems fuel ((writeItems number (item :: items)).tail ++ ']' :: rest) =
      (mapItems back (item :: items), true, rest)) :
    readValue (fuel + 1) ((arr (item :: items) true).write number ++ rest) =
      ((arr (item :: items) true).mapNumbers back, rest) := by
  obtain ⟨c, more, htext, hc⟩ := write_opens h item hitem
  have hwrite : (arr (item :: items) true).write number ++ rest =
      '[' :: ((writeItems number (item :: items)).tail ++ ']' :: rest) := by
    simp [write, tail_writeItems]
  rw [hwrite]
  rw [tail_writeItems, htext, List.cons_append, List.cons_append] at hread ⊢
  rw [readValue_items hc, hread]
  rfl

/-- An object is read back if its members are. -/
theorem readValue_object {key : String} {member : Document} {fields : List (String × Document)}
    {fuel : Nat} {rest : List Char}
    (hread : readFields fuel ((writeFields number ((key, member) :: fields)).tail ++ '}' :: rest) =
      (mapFields back ((key, member) :: fields), .closed, rest)) :
    readValue (fuel + 1) ((obj ((key, member) :: fields) .closed).write number ++ rest) =
      ((obj ((key, member) :: fields) .closed).mapNumbers back, rest) := by
  have hwrite : (obj ((key, member) :: fields) .closed).write number ++ rest =
      '{' :: ((writeFields number ((key, member) :: fields)).tail ++ '}' :: rest) := by
    simp [write, tail_writeFields]
  rw [hwrite]
  rw [tail_writeFields, List.append_assoc, jsonString_append] at hread ⊢
  rw [readValue_fields (by decide), hread]
  rfl

-- The induction is on the document; each call has fuel for the length of the text that is left to
-- it, since between two calls at least one character is consumed.
mutual
/-- **Reading undoes writing**: the document comes back with its numbers as they are read, and what
follows its text is left. -/
theorem readValue_write (h : Number.ReadsBack number back) :
    ∀ (d : Document) (fuel : Nat) (rest : List Char), d.isComplete = true →
      (d.write number).length ≤ fuel + 1 → Number.Ends rest →
      readValue (fuel + 1) (d.write number ++ rest) = (d.mapNumbers back, rest)
  | .null, fuel, rest, _, _, _ =>
    readValue_leaf (by decide) (by decide) (by decide) fuel _
  | .bool true, fuel, rest, _, _, _ =>
    readValue_leaf (by decide) (by decide) (by decide) fuel _
  | .bool false, fuel, rest, _, _, _ =>
    readValue_leaf (by decide) (by decide) (by decide) fuel _
  | .num n, fuel, rest, _, _, hr => readValue_num h n fuel hr
  | .str s, fuel, rest, _, _, _ => readValue_str s fuel rest
  | .arr [] closed, fuel, rest, hd, _, _ => by
    have hclosed : closed = true := by simpa [isComplete, itemsAreComplete] using hd
    subst hclosed
    rfl
  | .arr (item :: items) closed, fuel, rest, hd, hfuel, _ => by
    obtain ⟨hitems, rfl⟩ : itemsAreComplete (item :: items) = true ∧ closed = true := by
      simpa [isComplete] using hd
    have hitem : item.isComplete = true := by
      simp only [itemsAreComplete, Bool.and_eq_true] at hitems
      exact hitems.1
    have hlength : (writeItems number (item :: items)).length ≤ fuel := by
      simp only [write, writeItems, List.length_cons, List.length_append, List.length_nil]
        at hfuel ⊢
      omega
    obtain ⟨k, rfl⟩ := exists_fuel hlength
    exact readValue_array h hitem
      (readItems_write h (item :: items) k rest (by simp) hitems hlength)
  | .obj [] ending, fuel, rest, hd, _, _ => by
    obtain rfl := eq_closed hd
    rfl
  | .obj ((key, member) :: fields) ending, fuel, rest, hd, hfuel, _ => by
    obtain ⟨hfields, hending⟩ :
        fieldsAreComplete ((key, member) :: fields) = true ∧ ending.isClosed = true := by
      simpa [isComplete] using hd
    obtain rfl := eq_closed hending
    have hlength : (writeFields number ((key, member) :: fields)).length ≤ fuel := by
      simp only [write, writeFields, List.length_cons, List.length_append, List.length_nil]
        at hfuel ⊢
      omega
    obtain ⟨k, rfl⟩ := exists_fuel hlength
    exact readValue_object
      (readFields_write h ((key, member) :: fields) k rest (by simp) hfields hlength)
/-- The items of an array from one of them on. -/
theorem readItems_write (h : Number.ReadsBack number back) :
    ∀ (items : List Document) (fuel : Nat) (rest : List Char), items ≠ [] →
      itemsAreComplete items = true → (writeItems number items).length ≤ fuel + 1 →
      readItems (fuel + 1) ((writeItems number items).tail ++ ']' :: rest) =
        (mapItems back items, true, rest)
  | [], _, _, hne, _, _ => absurd rfl hne
  | item :: items, fuel, rest, _, hd, hfuel => by
    obtain ⟨hitem, hitems⟩ : item.isComplete = true ∧ itemsAreComplete items = true := by
      simpa [itemsAreComplete] using hd
    simp only [writeItems, List.length_cons, List.length_append] at hfuel
    obtain ⟨c, more, htext, -⟩ := write_opens h item hitem
    obtain ⟨k, rfl⟩ : ∃ k, fuel = k + 1 :=
      ⟨fuel - 1, by rw [htext, List.length_cons] at hfuel; omega⟩
    rw [tail_writeItems, List.append_assoc]
    cases items with
    | nil =>
      exact readItems_last
        (readValue_write h item k (']' :: rest) hitem (by omega) (ends_of_mem (by simp) rest))
    | cons next items =>
      have hread := readValue_write h item k
        (',' :: ((writeItems number (next :: items)).tail ++ ']' :: rest))
        hitem (by omega) (ends_of_mem (by simp) _)
      have hmore := readItems_write h (next :: items) k rest (by simp) hitems (by omega)
      have hcomma := readItems_comma hread
      rw [hmore] at hcomma
      exact hcomma
/-- The members of an object from one of them on. -/
theorem readFields_write (h : Number.ReadsBack number back) :
    ∀ (fields : List (String × Document)) (fuel : Nat) (rest : List Char), fields ≠ [] →
      fieldsAreComplete fields = true → (writeFields number fields).length ≤ fuel + 1 →
      readFields (fuel + 1) ((writeFields number fields).tail ++ '}' :: rest) =
        (mapFields back fields, .closed, rest)
  | [], _, _, hne, _, _ => absurd rfl hne
  | (key, member) :: fields, fuel, rest, _, hd, hfuel => by
    obtain ⟨hmember, hfields⟩ : member.isComplete = true ∧ fieldsAreComplete fields = true := by
      simpa [fieldsAreComplete] using hd
    simp only [writeFields, List.length_cons, List.length_append] at hfuel
    obtain ⟨k, rfl⟩ : ∃ k, fuel = k + 1 := ⟨fuel - 1, by omega⟩
    rw [tail_writeFields, List.append_assoc, List.cons_append, List.append_assoc]
    cases fields with
    | nil =>
      exact readFields_last key
        (readValue_write h member k ('}' :: rest) hmember (by omega) (ends_of_mem (by simp) rest))
    | cons next fields =>
      have hread := readValue_write h member k
        (',' :: ((writeFields number (next :: fields)).tail ++ '}' :: rest))
        hmember (by omega) (ends_of_mem (by simp) _)
      have hmore := readFields_write h (next :: fields) k rest (by simp) hfields (by omega)
      have hcomma := readFields_comma key hread
      rw [hmore] at hcomma
      exact hcomma
end

/-- A whole text is read back, and nothing is left of it. -/
theorem read_write (h : Number.ReadsBack number back) {d : Document} (hd : d.isComplete = true) :
    read (d.write number) = (d.mapNumbers back, true) := by
  have hread := readValue_write h d (2 * (d.write number).length + 1) [] hd (by omega)
    Number.ends_nil
  rw [List.append_nil] at hread
  simp only [read, hread]
  rfl

end Document

end Custody
