import Custody.Chain
import Custody.Proofs.Canonical
import Custody.Proofs.Hex

/-!
# What is hashed can be read in one way

For an element a chain hashes its key, a colon and the canonical text of its value.  Keys may hold
colons, and so may canonical texts.  Still only one colon has a canonical text after it that ends
where the whole does: what follows a colon inside a canonical text either ends within a string, or
closes a bracket that it did not open.  A scan that counts brackets outside strings shows this.
What is hashed for a link is never what is hashed for an element.
-/

namespace Custody

/-! ## Scanning -/

/-- How far a scan of JSON text has come: outside or inside a string, or after a backslash in one,
with so many brackets open; or lost, where no JSON text goes on. -/
inductive Scan where
  | outside (depth : Nat)
  | inside (depth : Nat)
  | escaped (depth : Nat)
  | lost

namespace Scan

/-- The scan after one more character.  Outside all brackets nothing may be closed and no colon may
stand. -/
def step : Scan → Char → Scan
  | .outside depth, c =>
    if c = '"' then .inside depth
    else if c = '\\' then .lost
    else if c = '[' ∨ c = '{' then .outside (depth + 1)
    else if c = ']' ∨ c = '}' then if depth = 0 then .lost else .outside (depth - 1)
    else if c = ':' then if depth = 0 then .lost else .outside depth
    else .outside depth
  | .inside depth, c =>
    if c = '"' then .outside depth
    else if c = '\\' then .escaped depth
    else .inside depth
  | .escaped depth, _ => .inside depth
  | .lost, _ => .lost

/-- The scan after a text. -/
def run (s : Scan) (cs : List Char) : Scan := cs.foldl step s

theorem run_append (s : Scan) (cs ds : List Char) : s.run (cs ++ ds) = (s.run cs).run ds :=
  List.foldl_append

theorem run_cons (s : Scan) (c : Char) (cs : List Char) : s.run (c :: cs) = (s.step c).run cs := rfl

theorem run_lost (cs : List Char) : lost.run cs = .lost := by
  induction cs with
  | nil => rfl
  | cons c rest ih => exact ih

/-! ## Inside out

A scan that takes the inside of strings for the outside meets a backslash where none may stand, or
ends inside where the other ends outside. -/

/-- Two scans that do not agree on what is inside a string. -/
inductive Opposed : Scan → Scan → Prop where
  | outside (m n : Nat) : Opposed (.outside m) (.inside n)
  | inside (m n : Nat) : Opposed (.inside m) (.outside n)
  | lostLeft (t : Scan) : Opposed .lost t
  | lostRight (s : Scan) : Opposed s .lost

theorem Opposed.symm {s t : Scan} (h : Opposed s t) : Opposed t s := by
  cases h with
  | outside m n => exact .inside n m
  | inside m n => exact .outside n m
  | lostLeft t => exact .lostRight t
  | lostRight s => exact .lostLeft s

theorem opposed_step_outside (m n : Nat) (c : Char) :
    Opposed (step (.outside m) c) (step (.inside n) c) := by
  by_cases hquote : c = '"'
  · subst hquote
    exact .inside m n
  by_cases hbackslash : c = '\\'
  · subst hbackslash
    exact .lostLeft _
  have hinside : step (.inside n) c = .inside n := by
    rw [step, if_neg hquote, if_neg hbackslash]
  rw [hinside, step, if_neg hquote, if_neg hbackslash]
  split
  · exact .outside _ _
  · split
    · split
      · exact .lostLeft _
      · exact .outside _ _
    · split
      · split
        · exact .lostLeft _
        · exact .outside _ _
      · exact .outside _ _

theorem Opposed.step {s t : Scan} (h : Opposed s t) (c : Char) : Opposed (s.step c) (t.step c) := by
  cases h with
  | outside m n => exact opposed_step_outside m n c
  | inside m n => exact (opposed_step_outside n m c).symm
  | lostLeft t => exact .lostLeft _
  | lostRight s => exact .lostRight _

theorem Opposed.run {s t : Scan} (h : Opposed s t) (cs : List Char) :
    Opposed (s.run cs) (t.run cs) := by
  induction cs generalizing s t with
  | nil => exact h
  | cons c rest ih => exact ih (h.step c)

end Scan

/-! ## What stands after a key and a colon -/

/-- Texts of some kind, each after a key and a colon, are read in one way, although keys and texts
may hold colons of their own. -/
def ReadOnce (kind : List Char → Prop) : Prop :=
  ∀ key key' cs ds, kind cs → kind ds → key ++ ':' :: cs = key' ++ ':' :: ds → key = key' ∧ cs = ds

/-- Of two ways to read a text neither has the longer key, unless its own colon and what follows end
the text of the other. -/
theorem eq_nil_of_colon {more cs ds : List Char} (h : ':' :: cs = more ++ ':' :: ds)
    (hne : cs ≠ more.tail ++ ':' :: ds) : more = [] := by
  cases more with
  | nil => rfl
  | cons c more =>
    rw [List.cons_append, List.cons.injEq] at h
    exact absurd h.2 hne

/-- **Texts are read in one way** exactly if none of them ends in a colon and another of them. -/
theorem readOnce_iff {kind : List Char → Prop} :
    ReadOnce kind ↔ ∀ before cs ds, kind cs → kind ds → cs ≠ before ++ ':' :: ds := by
  constructor
  · rintro h before cs ds hc hd rfl
    -- Behind an empty key the colon in the middle could be taken for the one after the key.
    obtain ⟨hkey, -⟩ := h [] (':' :: before) (before ++ ':' :: ds) ds hc hd rfl
    cases hkey
  · intro h key key' cs ds hc hd heq
    rcases List.append_eq_append_iff.mp heq with ⟨more, hkey, hrest⟩ | ⟨more, hkey, hrest⟩
    · obtain rfl := eq_nil_of_colon hrest (h _ cs ds hc hd)
      exact ⟨(hkey.trans (List.append_nil key)).symm, List.tail_eq_of_cons_eq hrest⟩
    · obtain rfl := eq_nil_of_colon hrest (h _ ds cs hd hc)
      exact ⟨hkey.trans (List.append_nil key'), (List.tail_eq_of_cons_eq hrest).symm⟩

theorem ReadOnce.mono {kind other : List Char → Prop} (h : ReadOnce other)
    (hkind : ∀ cs, kind cs → other cs) : ReadOnce kind := by
  intro key key' cs ds hc hd heq
  exact h key key' cs ds (hkind cs hc) (hkind ds hd) heq

/-! ## Balanced texts -/

/-- A text that begins and ends outside strings and closes just what it opens, at any depth. -/
def Balanced (cs : List Char) : Prop :=
  ∀ depth, Scan.run (.outside depth) cs = .outside depth

namespace Balanced

/-- A character that means nothing to a scan outside strings. -/
def Plain (c : Char) : Prop :=
  c ≠ '"' ∧ c ≠ '\\' ∧ c ≠ '[' ∧ c ≠ '{' ∧ c ≠ ']' ∧ c ≠ '}' ∧ c ≠ ':'

instance (c : Char) : Decidable (Plain c) :=
  inferInstanceAs (Decidable (c ≠ '"' ∧ c ≠ '\\' ∧ c ≠ '[' ∧ c ≠ '{' ∧ c ≠ ']' ∧ c ≠ '}' ∧ c ≠ ':'))

theorem step_plain {c : Char} (h : Plain c) (depth : Nat) :
    Scan.step (.outside depth) c = .outside depth := by
  obtain ⟨hquote, hbackslash, harr, hobj, harr', hobj', hcolon⟩ := h
  simp only [Scan.step, hquote, hbackslash, harr, hobj, harr', hobj', hcolon, if_false, or_self]

theorem of_plain {cs : List Char} (h : ∀ c ∈ cs, Plain c) : Balanced cs := by
  intro depth
  induction cs with
  | nil => rfl
  | cons c rest ih =>
    rw [Scan.run_cons, step_plain (h c List.mem_cons_self)]
    exact ih fun d hd => h d (List.mem_cons_of_mem c hd)

theorem append {cs ds : List Char} (hc : Balanced cs) (hd : Balanced ds) : Balanced (cs ++ ds) := by
  intro depth
  rw [Scan.run_append, hc depth, hd depth]

/-- After no colon inside a balanced text does the rest of it stand on its own. -/
theorem ne_append_colon {cs ds : List Char} (hc : Balanced cs) (hd : Balanced ds)
    (before : List Char) : cs ≠ before ++ ':' :: ds := by
  intro h
  have hrun := hc 0
  rw [h, Scan.run_append, Scan.run_cons] at hrun
  -- The rest, begun inside a string, cannot end outside: begun outside it does.
  have hinside : ∀ depth, Scan.run (.inside depth) ds ≠ .outside 0 := by
    intro depth heq
    have hopposed := (Scan.Opposed.outside 0 depth).run ds
    rw [hd 0, heq] at hopposed
    cases hopposed
  cases hbefore : Scan.run (.outside 0) before with
  | outside depth =>
    rw [hbefore] at hrun
    cases depth with
    | zero =>
      change Scan.run .lost ds = .outside 0 at hrun
      rw [Scan.run_lost] at hrun
      cases hrun
    | succ depth =>
      change Scan.run (.outside (depth + 1)) ds = .outside 0 at hrun
      rw [hd (depth + 1)] at hrun
      cases hrun
  | inside depth =>
    rw [hbefore] at hrun
    exact hinside depth hrun
  | escaped depth =>
    rw [hbefore] at hrun
    exact hinside depth hrun
  | lost =>
    rw [hbefore] at hrun
    change Scan.run .lost ds = .outside 0 at hrun
    rw [Scan.run_lost] at hrun
    cases hrun

/-- **One colon divides**: a text is a key, a colon and a balanced text in one way only. -/
theorem readOnce : ReadOnce Balanced := by
  rw [readOnce_iff]
  intro before cs ds hc hd
  exact hc.ne_append_colon hd before

theorem append_colon_inj {key key' cs ds : List Char} (hc : Balanced cs) (hd : Balanced ds)
    (h : key ++ ':' :: cs = key' ++ ':' :: ds) : key = key' ∧ cs = ds :=
  readOnce key key' cs ds hc hd h

end Balanced

/-! ## Numbers are plain and short -/

namespace Number

theorem plain_of_isDigit {c : Char} (h : c.isDigit = true) : Balanced.Plain c := by
  refine ⟨?_, ?_, ?_, ?_, ?_, ?_, ?_⟩ <;>
  · rintro rfl
    exact absurd h (by decide)

theorem plain_intText {n : Int} : ∀ c ∈ intText n, Balanced.Plain c := by
  intro c hc
  have hdigits : ∀ c ∈ Nat.toDigits 10 n.natAbs, Balanced.Plain c :=
    fun c hc => plain_of_isDigit (allDigits_toDigits n.natAbs c hc)
  unfold intText at hc
  split at hc
  · rcases List.mem_cons.mp hc with rfl | hc
    · decide
    · exact hdigits c hc
  · exact hdigits c hc

theorem plain_fractionText {digits : List Char} (h : AllDigits digits) :
    ∀ c ∈ fractionText digits, Balanced.Plain c := by
  intro c hc
  cases digits with
  | nil => cases hc
  | cons d rest =>
    rcases List.mem_cons.mp hc with rfl | hc
    · decide
    · exact plain_of_isDigit (h c hc)

theorem plain_exponentText (e : Option Int) : ∀ c ∈ exponentText e, Balanced.Plain c := by
  intro c hc
  cases e with
  | none => cases hc
  | some e =>
    rcases List.mem_cons.mp hc with rfl | hc
    · decide
    rcases List.mem_cons.mp hc with rfl | hc
    · split <;> decide
    · exact plain_of_isDigit (allDigits_toDigits e.natAbs c hc)

/-- The text of a double is that of its magnitude, after its sign. -/
theorem doubleText_eq (x : Decimal.Double) :
    doubleText x = (if x.negative then ['-'] else []) ++ scientificText x.magnitude.shortest := by
  unfold doubleText
  cases x.negative <;> rfl

theorem plain_doubleText (x : Decimal.Double) : ∀ c ∈ doubleText x, Balanced.Plain c := by
  obtain ⟨whole, fraction, e, h⟩ := isDecimal_scientificText x.magnitude.shortest
  intro c hc
  rw [doubleText_eq, h.text_eq] at hc
  rcases List.mem_append.mp hc with hc | hc
  · split at hc
    · rw [List.mem_singleton.mp hc]
      decide
    · cases hc
  rcases List.mem_append.mp hc with hc | hc
  · exact plain_of_isDigit (h.isWhole.allDigits c hc)
  rcases List.mem_append.mp hc with hc | hc
  · exact plain_fractionText h.allDigits c hc
  · exact plain_exponentText e c hc

theorem plain_canonicalText (n : Number) : ∀ c ∈ n.canonicalText, Balanced.Plain c := by
  cases n with
  | int n => exact plain_intText
  | float x =>
    cases hx : x.toInt? with
    | none => simpa only [canonicalText, hx] using plain_doubleText x
    | some n => simpa only [canonicalText, hx] using plain_intText

/-- An integer has at most twenty digits or a sign. -/
theorem intText_sign_or_short {n : Int} (h : n < 0x10000000000000000) :
    (∃ c ∈ intText n, c ∉ Text.hexDigits) ∨ (intText n).length ≤ 20 := by
  unfold intText
  split
  · exact Or.inl ⟨'-', List.mem_cons_self, by decide⟩
  · refine Or.inr ((Nat.length_toDigits_le_iff (by decide) (by decide)).mpr ?_)
    omega

/-- The text of a double has a point or a signed exponent. -/
theorem doubleText_point_or_sign (x : Decimal.Double) :
    ∃ c ∈ doubleText x, c ∉ Text.hexDigits := by
  obtain ⟨whole, fraction, e, h⟩ := isDecimal_scientificText x.magnitude.shortest
  have hscientific : ∃ c ∈ scientificText x.magnitude.shortest, c ∉ Text.hexDigits := by
    rw [h.text_eq]
    cases fraction with
    | cons c rest => exact ⟨'.', by simp [fractionText], by decide⟩
    | nil =>
      cases e with
      | none => cases h.notWhole
      | some e =>
        refine ⟨if e < 0 then '-' else '+', by simp [exponentText], ?_⟩
        split <;> decide
  obtain ⟨c, hc, hhex⟩ := hscientific
  rw [doubleText_eq]
  exact ⟨c, List.mem_append_right _ hc, hhex⟩

theorem canonicalText_mark_or_short (n : Number) :
    (∃ c ∈ n.canonicalText, c ∉ Text.hexDigits) ∨ n.canonicalText.length ≤ 20 := by
  cases n with
  | int n => exact intText_sign_or_short n.upper
  | float x =>
    cases hx : x.toInt? with
    | none =>
      simpa only [canonicalText, hx] using Or.inl (doubleText_point_or_sign x)
    | some n =>
      have hbound := (Decimal.Double.toInt?_eq_some_iff.mp hx).2
      simpa only [canonicalText, hx] using intText_sign_or_short (by omega)

end Number

/-! ## Canonical texts are balanced -/

namespace Text

theorem hexDigit_not_mark :
    ∀ n < 0x20, hexDigit (n / 16) ≠ '"' ∧ hexDigit (n / 16) ≠ '\\' ∧
      hexDigit (n % 16) ≠ '"' ∧ hexDigit (n % 16) ≠ '\\' := by
  decide

theorem run_inside {c : Char} (hquote : c ≠ '"') (hbackslash : c ≠ '\\') (depth : Nat)
    (cs : List Char) : Scan.run (.inside depth) (c :: cs) = Scan.run (.inside depth) cs := by
  rw [Scan.run_cons, Scan.step, if_neg hquote, if_neg hbackslash]

/-- What stands for a character in a string leaves the scan inside it. -/
theorem run_jsonEscape (depth : Nat) (c : Char) :
    Scan.run (.inside depth) (jsonEscape c) = .inside depth := by
  rcases jsonEscape_cases c with ⟨e, -, -, htext⟩ | ⟨hc, htext⟩ | ⟨-, hquote, hbackslash, htext⟩
  · rw [htext]
    rfl
  · obtain ⟨hhigh, hhigh', hlow, hlow'⟩ := hexDigit_not_mark c.toNat hc
    rw [htext]
    show Scan.run (.inside depth) ['0', '0', _, _] = .inside depth
    rw [run_inside (by decide) (by decide), run_inside (by decide) (by decide),
      run_inside hhigh hhigh', run_inside hlow hlow']
    rfl
  · rw [htext, run_inside hquote hbackslash]
    rfl

theorem run_jsonEscapes (depth : Nat) (cs : List Char) :
    Scan.run (.inside depth) (cs.flatMap jsonEscape) = .inside depth := by
  induction cs with
  | nil => rfl
  | cons c rest ih => rw [List.flatMap_cons, Scan.run_append, run_jsonEscape, ih]

theorem balanced_jsonString (s : String) : Balanced (jsonString s) := by
  intro depth
  show Scan.run (.inside depth) (s.toList.flatMap jsonEscape ++ ['"']) = .outside depth
  rw [Scan.run_append, run_jsonEscapes]
  rfl

end Text

namespace Document

variable {number : Number → List Char}

/-- What is written for one more member, wherever it stands in an object. -/
theorem run_member {key : String} {member : List Char} (hmember : Balanced member) (depth : Nat)
    (rest : List Char) :
    Scan.run (.outside (depth + 1)) (Text.jsonString key ++ ':' :: (member ++ rest)) =
      Scan.run (.outside (depth + 1)) rest := by
  rw [Scan.run_append, Text.balanced_jsonString key (depth + 1)]
  show Scan.run (.outside (depth + 1)) (member ++ rest) = _
  rw [Scan.run_append, hmember (depth + 1)]

-- The induction is on the document, at every depth: a bracket puts its items and members one level
-- deeper, which is why a colon between them loses nothing.
mutual
/-- **A document is written as a balanced text** if its numbers are written plainly. -/
theorem balanced_write (h : ∀ n, ∀ c ∈ number n, Balanced.Plain c) :
    ∀ d : Document, Balanced (d.write number)
  | .null => fun _ => rfl
  | .bool true => fun _ => rfl
  | .bool false => fun _ => rfl
  | .num n => .of_plain (h n)
  | .str s => Text.balanced_jsonString s
  | .arr [] _ => fun _ => rfl
  | .arr (item :: rest) _ => by
    intro depth
    show Scan.run (.outside (depth + 1)) (item.write number ++ (writeItems number rest ++ [']'])) =
      .outside depth
    rw [Scan.run_append, balanced_write h item (depth + 1), Scan.run_append,
      balanced_writeItems h rest (depth + 1)]
    rfl
  | .obj [] _ => fun _ => rfl
  | .obj ((key, member) :: rest) _ => by
    intro depth
    show Scan.run (.outside (depth + 1)) (Text.jsonString key ++
      ':' :: (member.write number ++ (writeFields number rest ++ ['}']))) = .outside depth
    rw [run_member (balanced_write h member), Scan.run_append, run_writeFields h rest depth]
    rfl
  | .unreadable => fun _ => rfl
  | .broken => fun _ => rfl
theorem balanced_writeItems (h : ∀ n, ∀ c ∈ number n, Balanced.Plain c) :
    ∀ items : List Document, Balanced (writeItems number items)
  | [] => fun _ => rfl
  | item :: rest => by
    intro depth
    show Scan.run (.outside depth) (item.write number ++ writeItems number rest) = .outside depth
    rw [Scan.run_append, balanced_write h item depth, balanced_writeItems h rest depth]
theorem run_writeFields (h : ∀ n, ∀ c ∈ number n, Balanced.Plain c) :
    ∀ (fields : List (String × Document)) (depth : Nat),
      Scan.run (.outside (depth + 1)) (writeFields number fields) = .outside (depth + 1)
  | [], _ => rfl
  | (key, member) :: rest, depth => by
    show Scan.run (.outside (depth + 1)) (Text.jsonString key ++
      ':' :: (member.write number ++ writeFields number rest)) = .outside (depth + 1)
    rw [run_member (balanced_write h member), run_writeFields h rest depth]
end

end Document

namespace Json

theorem balanced_canonical (v : Json) : Balanced v.canonical.toList := by
  rw [canonical, String.toList_ofList]
  exact Document.balanced_write Number.plain_canonicalText (Document.ofJson v)

/-- No canonical text is that of a digest: a number is too short or has a mark that no digit is, and
everything else begins with such a mark or holds a letter past the digits. -/
theorem canonical_mark_or_short (v : Json) :
    (∃ c ∈ v.canonical.toList, c ∉ Text.hexDigits) ∨ v.canonical.toList.length ≤ 20 := by
  rw [canonical, String.toList_ofList]
  cases v with
  | null => exact Or.inl ⟨'n', by decide⟩
  | bool b =>
    cases b with
    | true => exact Or.inl ⟨'t', by decide⟩
    | false => exact Or.inl ⟨'l', by decide⟩
  | num n => exact n.canonicalText_mark_or_short
  | str s => exact Or.inl ⟨'"', List.mem_cons_self, by decide⟩
  | arr items =>
    cases items with
    | nil => exact Or.inl ⟨'[', by decide⟩
    | cons v rest => exact Or.inl ⟨'[', List.mem_cons_self, by decide⟩
  | obj fields =>
    cases fields with
    | nil => exact Or.inl ⟨'\x7b', by decide⟩
    | cons field rest => exact Or.inl ⟨'\x7b', List.mem_cons_self, by decide⟩

theorem canonical_ne_hex (v : Json) (d : Digest) : v.canonical ≠ d.hex := by
  intro h
  rcases canonical_mark_or_short v with ⟨c, hc, hmark⟩ | hshort
  · rw [h] at hc
    exact hmark (Digest.mem_hex hc)
  · rw [h, Digest.length_hex] at hshort
    omega

end Json

/-! ## Texts of elements and links -/

namespace Chain

theorem toList_elementText (key : String) (v : Json) :
    (elementText key v).toList = key.toList ++ ':' :: v.canonical.toList := by
  rw [elementText, String.toList_append, String.toList_append, List.append_assoc]
  rfl

theorem toList_linkText (a b : Digest) :
    (linkText a b).toList = a.hex.toList ++ ':' :: b.hex.toList := by
  rw [linkText, String.toList_append, String.toList_append, List.append_assoc]
  rfl

theorem balanced_hex (d : Digest) : Balanced d.hex.toList := by
  have hplain : ∀ c ∈ Text.hexDigits, Balanced.Plain c := Text.forall_hexDigits (by decide)
  exact .of_plain fun c hc => hplain c (Digest.mem_hex hc)

/-- **What is hashed for an element tells its key and the canonical text of its value.** -/
theorem elementText_inj {key key' : String} {v w : Json}
    (h : elementText key v = elementText key' w) : key = key' ∧ v.canonical = w.canonical := by
  have hlist := congrArg String.toList h
  rw [toList_elementText, toList_elementText] at hlist
  obtain ⟨hkey, hvalue⟩ :=
    Balanced.append_colon_inj (Json.balanced_canonical v) (Json.balanced_canonical w) hlist
  exact ⟨String.toList_inj.mp hkey, String.toList_inj.mp hvalue⟩

theorem linkText_inj {a a' b b' : Digest} (h : linkText a b = linkText a' b') :
    a = a' ∧ b = b' := by
  have hlist := congrArg String.toList h
  rw [toList_linkText, toList_linkText] at hlist
  obtain ⟨hprevious, helement⟩ :=
    Balanced.append_colon_inj (balanced_hex b) (balanced_hex b') hlist
  exact ⟨Digest.hex_injective (String.toList_inj.mp hprevious),
    Digest.hex_injective (String.toList_inj.mp helement)⟩

/-- **Nothing is hashed both for an element and for a link.** -/
theorem elementText_ne_linkText (key : String) (v : Json) (a b : Digest) :
    elementText key v ≠ linkText a b := by
  intro h
  have hlist := congrArg String.toList h
  rw [toList_elementText, toList_linkText] at hlist
  obtain ⟨-, hvalue⟩ :=
    Balanced.append_colon_inj (Json.balanced_canonical v) (balanced_hex b) hlist
  exact Json.canonical_ne_hex v b (String.toList_inj.mp hvalue)

/-- A text is canonical if it is that of some value. -/
def IsCanonical (cs : List Char) : Prop := ∃ v : Json, v.canonical.toList = cs

theorem readOnce_canonical : ReadOnce IsCanonical := by
  apply Balanced.readOnce.mono
  rintro cs ⟨v, rfl⟩
  exact v.balanced_canonical

/-- **What is hashed can be read in one way.**  The bytes that are hashed for an element tell its
key and the canonical text of its value, whatever colons these hold; which is to say that no
canonical text ends in a colon and a canonical text.  And they are never those of a link. -/
theorem hashed_bytes_are_read_once :
    (∀ (key key' : String) (v w : Json),
      (elementText key v).toUTF8 = (elementText key' w).toUTF8 →
        key = key' ∧ v.canonical = w.canonical) ∧
    (∀ (before : String) (v w : Json), v.canonical ≠ before ++ ":" ++ w.canonical) ∧
    ∀ (key : String) (v : Json) (a b : Digest),
      (elementText key v).toUTF8 ≠ (linkText a b).toUTF8 := by
  refine ⟨?_, ?_, ?_⟩
  · intro key key' v w h
    exact elementText_inj (String.toByteArray_inj.mp h)
  · intro before v w h
    have hlist := congrArg String.toList h
    rw [String.toList_append, String.toList_append, List.append_assoc] at hlist
    exact readOnce_iff.mp readOnce_canonical before.toList _ _ ⟨v, rfl⟩ ⟨w, rfl⟩ hlist
  · intro key v a b h
    exact elementText_ne_linkText key v a b (String.toByteArray_inj.mp h)

/-- A key that looks like an element, with the number one as a double and as an integer. -/
theorem hashed_bytes_are_read_once_colon :
    ∃ v w : Json, v ≠ w ∧
      (elementText "a:1" v).toUTF8 = (elementText "a:1" w).toUTF8 ∧ v.canonical = w.canonical := by
  let v : Json := .num (.float ⟨false, 0x10000000000000, 1022, by decide, by decide, by decide⟩)
  let w : Json := .num (.int ⟨1, by decide, by decide⟩)
  have hbytes : (elementText "a:1" v).toUTF8 = (elementText "a:1" w).toUTF8 := by
    rw [elementText, elementText, show v.canonical = w.canonical by decide +kernel]
  refine ⟨v, w, ?_, hbytes, (hashed_bytes_are_read_once.1 "a:1" "a:1" v w hbytes).2⟩
  intro h
  change Json.num (.float _) = .num (.int _) at h
  cases h

end Chain

end Custody
