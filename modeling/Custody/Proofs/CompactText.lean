import Custody.Proofs.ByteOrder
import Custody.Proofs.ImportedBundle

/-!
# The compact text

The compact text of JSON is given by a rule: no white space, members in the order of the bytes of
their keys, and in a string nothing escaped that need not be.  Both texts that this library writes
follow it.  The compact text does so for a value as it is, and the canonical text for the value with
its whole doubles made integers; so the two are the same just where there is no such double.
-/

namespace Custody

/-! ## The rule -/

namespace Text

/-- The characters that have a short escape, each with what follows the backslash. -/
def shortEscapes : List (Char × Char) :=
  [('"', '"'), ('\\', '\\'), ('\x08', 'b'), ('\x0c', 'f'), ('\n', 'n'), ('\r', 'r'), ('\t', 't')]

/-- A character in a string: a short escape if it has one, else its code in lower-case digits if it
is a control character, and else itself. -/
def plainChar (c : Char) : List Char :=
  match shortEscapes.lookup c with
  | some letter => ['\\', letter]
  | none =>
    if c.toNat < 0x20 then ['\\', 'u', '0', '0'] ++ hexByte (UInt8.ofNat c.toNat) else [c]

def plainString (s : String) : List Char := ['"'] ++ s.toList.flatMap plainChar ++ ['"']

/-- Pieces with commas between them. -/
def joined (pieces : List (List Char)) : List Char := [','].intercalate pieces

/-- Pieces in the order of the bytes of their keys. -/
def sortedByKey (pieces : List (String × List Char)) : List (String × List Char) :=
  pieces.mergeSort fun a b => a.1.toUTF8.toList ≤ b.1.toUTF8.toList

end Text

namespace Json

mutual
/-- The compact text of a value. -/
def plain : Json → List Char
  | .null => ['n', 'u', 'l', 'l']
  | .bool true => ['t', 'r', 'u', 'e']
  | .bool false => ['f', 'a', 'l', 's', 'e']
  | .num n => n.text
  | .str s => Text.plainString s
  | .arr items => ['['] ++ Text.joined (plainItems items) ++ [']']
  | .obj fields =>
    ['{'] ++ Text.joined ((Text.sortedByKey (plainMembers fields)).map Prod.snd) ++ ['}']
def plainItems : List Json → List (List Char)
  | [] => []
  | item :: rest => item.plain :: plainItems rest
/-- The text of each member, under its key. -/
def plainMembers : List (String × Json) → List (String × List Char)
  | [] => []
  | (key, value) :: rest =>
    (key, Text.plainString key ++ [':'] ++ value.plain) :: plainMembers rest
end

/-- Whether a number stands somewhere in a value, at whatever depth. -/
inductive Holds (n : Number) : Json → Prop where
  | num : Holds n (.num n)
  | item {items : List Json} {item : Json} : item ∈ items → Holds n item → Holds n (.arr items)
  | member {fields : List (String × Json)} {field : String × Json} :
      field ∈ fields → Holds n field.2 → Holds n (.obj fields)

end Json

/-! ## Strings -/

namespace Text

theorem jsonEscape_short : ∀ p ∈ shortEscapes, jsonEscape p.1 = ['\\', p.2] := by decide

/-- A control character is written with two digits after two zeros. -/
theorem hexByte_control {c : Char} (h : c.toNat < 0x20) :
    hexByte (UInt8.ofNat c.toNat) = [hexDigit (c.toNat / 16), hexDigit (c.toNat % 16)] := by
  have hbyte : (UInt8.ofNat c.toNat).toNat = c.toNat :=
    UInt8.toNat_ofNat_of_lt' (Nat.lt_trans h (by decide))
  rw [hexByte, hbyte]

theorem jsonEscape_eq (c : Char) : jsonEscape c = plainChar c := by
  unfold plainChar
  split
  · next letter hletter =>
    obtain ⟨before, after, hsplit, -⟩ := List.lookup_eq_some_iff.mp hletter
    apply jsonEscape_short (c, letter)
    rw [hsplit]
    exact List.mem_append_right before List.mem_cons_self
  · next hnone =>
    have hne : ∀ p ∈ shortEscapes, c ≠ p.1 := by
      intro p hp
      exact bne_iff_ne.mp (List.lookup_eq_none_iff.mp hnone p hp)
    simp only [shortEscapes, List.forall_mem_cons] at hne
    obtain ⟨hquote, hslash, hback, hfeed, hline, hreturn, htab, -⟩ := hne
    rw [jsonEscape, if_neg hquote, if_neg hslash, if_neg hback, if_neg hfeed, if_neg hline,
      if_neg hreturn, if_neg htab]
    by_cases hcontrol : c.toNat < 0x20
    · rw [if_pos hcontrol, if_pos hcontrol, hexByte_control hcontrol]
      rfl
    · rw [if_neg hcontrol, if_neg hcontrol]

theorem jsonString_eq (s : String) : jsonString s = plainString s := by
  have hchars : jsonEscape = plainChar := funext jsonEscape_eq
  rw [jsonString, hchars]
  rfl

theorem joined_cons (piece : List Char) (pieces : List (List Char)) :
    joined (piece :: pieces) = piece ++ pieces.flatMap (',' :: ·) := by
  induction pieces generalizing piece with
  | nil => simp [joined]
  | cons next more ih =>
    have hsplit : joined (piece :: next :: more) = piece ++ ',' :: joined (next :: more) := by
      simp [joined]
    rw [hsplit, ih next, List.flatMap_cons, List.cons_append]

/-- Pieces that are under sorted keys stay where they are. -/
theorem sortedByKey_eq_self {pieces : List (String × List Char)} (h : Assoc.Sorted pieces) :
    sortedByKey pieces = pieces := by
  apply List.mergeSort_of_pairwise
  apply h.imp
  intro a b hlt
  apply decide_eq_true
  exact List.le_of_lt (toUTF8_lt_iff.mpr hlt)

end Text

/-! ## Values -/

namespace Json

theorem plainMembers_eq_map (fields : List (String × Json)) :
    plainMembers fields =
      fields.map fun field => (field.1, Text.plainString field.1 ++ [':'] ++ field.2.plain) := by
  induction fields with
  | nil => rfl
  | cons field rest ih => rw [plainMembers, ih, List.map_cons]

theorem sortedByKey_plainMembers {fields : List (String × Json)} (h : Assoc.Sorted fields) :
    Text.sortedByKey (plainMembers fields) = plainMembers fields := by
  apply Text.sortedByKey_eq_self
  rw [plainMembers_eq_map]
  exact List.pairwise_map.mpr h

end Json

namespace Document

mutual
/-- An ordered value is written by the rule. -/
theorem write_ofJson : ∀ {v : Json}, v.Ordered → (ofJson v).write Number.text = v.plain
  | .null, _ => rfl
  | .bool true, _ => rfl
  | .bool false, _ => rfl
  | .num _, _ => rfl
  | .str s, _ => Text.jsonString_eq s
  | .arr [], _ => rfl
  | .arr (item :: rest), h => by
    cases h with
    | arr hitems =>
      obtain ⟨hitem, hrest⟩ := List.forall_mem_cons.mp hitems
      rw [ofJson, ofItems, write, Json.plain, Json.plainItems, Text.joined_cons,
        write_ofJson hitem, writeItems_ofItems hrest]
      simp
  | .obj fields, h => by
    cases h with
    | obj hsorted hfields =>
      rw [Json.plain, Json.sortedByKey_plainMembers hsorted]
      cases fields with
      | nil => rfl
      | cons field rest =>
        obtain ⟨key, value⟩ := field
        obtain ⟨hvalue, hrest⟩ := List.forall_mem_cons.mp hfields
        rw [ofJson, ofFields, write, Json.plainMembers, List.map_cons, Text.joined_cons,
          Text.jsonString_eq, write_ofJson hvalue, writeFields_ofFields hrest]
        simp
theorem writeItems_ofItems : ∀ {items : List Json}, (∀ item ∈ items, item.Ordered) →
    writeItems Number.text (ofItems items) = (Json.plainItems items).flatMap (',' :: ·)
  | [], _ => rfl
  | item :: rest, h => by
    obtain ⟨hitem, hrest⟩ := List.forall_mem_cons.mp h
    rw [ofItems, writeItems, write_ofJson hitem, writeItems_ofItems hrest]
    rfl
theorem writeFields_ofFields : ∀ {fields : List (String × Json)},
    (∀ field ∈ fields, field.2.Ordered) → writeFields Number.text (ofFields fields) =
      ((Json.plainMembers fields).map Prod.snd).flatMap (',' :: ·)
  | [], _ => rfl
  | (key, value) :: rest, h => by
    obtain ⟨hvalue, hrest⟩ := List.forall_mem_cons.mp h
    rw [ofFields, writeFields, Text.jsonString_eq, write_ofJson hvalue, writeFields_ofFields hrest,
      Json.plainMembers]
    simp
end

end Document

theorem Json.compact_eq_plain {v : Json} (h : v.Ordered) : v.compact = String.ofList v.plain :=
  congrArg String.ofList (Document.write_ofJson h)

/-! ## Whole doubles -/

/-- Whether the value of a double is an integer of magnitude at most `2 ^ 53`. -/
def Decimal.Double.IsWhole (x : Decimal.Double) : Prop :=
  ∃ n : Int, x.signedUnits = n * Decimal.unitsPerOne ∧ n.natAbs ≤ 0x20000000000000

namespace Number

theorem exists_norm_of_isWhole {x : Decimal.Double} (h : x.IsWhole) :
    ∃ i : Integer, norm (.float x) = .int i ∧ x.signedUnits = i.val * Decimal.unitsPerOne := by
  obtain ⟨n, hn⟩ := h
  obtain ⟨i, rfl, hi⟩ := norm_of_toInt? (Decimal.Double.toInt?_eq_some_iff.mpr hn)
  exact ⟨i, hi, hn.1⟩

theorem norm_of_not_isWhole {x : Decimal.Double} (h : ¬x.IsWhole) : norm (.float x) = .float x := by
  apply norm_of_toInt?_eq_none
  cases hx : x.toInt? with
  | none => rfl
  | some n => exact absurd ⟨n, Decimal.Double.toInt?_eq_some_iff.mp hx⟩ h

/-- A number is left alone unless it is a whole double. -/
theorem norm_eq_self_iff {n : Number} : n.norm = n ↔ ∀ x, n = .float x → ¬x.IsWhole := by
  constructor
  · rintro h x rfl hwhole
    obtain ⟨i, hi, -⟩ := exists_norm_of_isWhole hwhole
    rw [hi] at h
    cases h
  · intro h
    cases n with
    | int i => rfl
    | float x => exact norm_of_not_isWhole (h x rfl)

/-- The plain text of the changed number is the canonical text. -/
theorem text_norm (n : Number) : n.norm.text = n.canonicalText := by
  cases n with
  | int i => rfl
  | float x =>
    cases hx : x.toInt? with
    | none =>
      rw [norm_of_toInt?_eq_none hx, canonicalText, hx]
      rfl
    | some m =>
      obtain ⟨i, hval, hi⟩ := norm_of_toInt? hx
      rw [hi, canonicalText, hx, ← hval]
      rfl

end Number

namespace Json

section

variable {n : Number}

theorem holds_num_iff {m : Number} : Holds n (.num m) ↔ n = m := by
  constructor
  · rintro ⟨⟩
    rfl
  · rintro rfl
    exact .num

theorem holds_arr_iff {items : List Json} :
    Holds n (.arr items) ↔ ∃ item ∈ items, Holds n item := by
  constructor
  · rintro (_ | ⟨hmem, hitem⟩)
    exact ⟨_, hmem, hitem⟩
  · rintro ⟨item, hmem, hitem⟩
    exact .item hmem hitem

theorem holds_obj_iff {fields : List (String × Json)} :
    Holds n (.obj fields) ↔ ∃ field ∈ fields, Holds n field.2 := by
  constructor
  · rintro (_ | _ | ⟨hmem, hfield⟩)
    exact ⟨_, hmem, hfield⟩
  · rintro ⟨field, hmem, hfield⟩
    exact .member hmem hfield

/-- **The change reaches every depth**: the numbers of the changed value are the changed numbers. -/
theorem holds_norm_iff {v : Json} (h : v.Ordered) :
    v.norm.Holds n ↔ ∃ m, v.Holds m ∧ m.norm = n := by
  induction h with
  | null | bool b | str s =>
    constructor
    · rintro ⟨⟩
    · rintro ⟨m, ⟨⟩, -⟩
  | num m =>
    rw [norm, holds_num_iff]
    constructor
    · rintro rfl
      exact ⟨m, .num, rfl⟩
    · rintro ⟨m', hm, rfl⟩
      rw [holds_num_iff.mp hm]
  | arr _ ih =>
    rw [norm, normItems_eq_map, holds_arr_iff]
    constructor
    · rintro ⟨item, hitem, hn⟩
      obtain ⟨original, hmem, rfl⟩ := List.mem_map.mp hitem
      obtain ⟨m, hm, hnorm⟩ := (ih original hmem).mp hn
      exact ⟨m, .item hmem hm, hnorm⟩
    · rintro ⟨m, hm, hnorm⟩
      obtain ⟨item, hmem, hitem⟩ := holds_arr_iff.mp hm
      exact ⟨item.norm, List.mem_map_of_mem hmem, (ih item hmem).mpr ⟨m, hitem, hnorm⟩⟩
  | obj _ _ ih =>
    rw [norm, normFields_eq_map, holds_obj_iff]
    constructor
    · rintro ⟨field, hfield, hn⟩
      obtain ⟨original, hmem, rfl⟩ := List.mem_map.mp hfield
      obtain ⟨m, hm, hnorm⟩ := (ih original hmem).mp hn
      exact ⟨m, .member hmem hm, hnorm⟩
    · rintro ⟨m, hm, hnorm⟩
      obtain ⟨field, hmem, hfield⟩ := holds_obj_iff.mp hm
      refine ⟨(field.1, field.2.norm), List.mem_map.mpr ⟨field, hmem, rfl⟩, ?_⟩
      exact (ih field hmem).mpr ⟨m, hfield, hnorm⟩

end

theorem map_eq_self_iff {α : Type} {f : α → α} {items : List α} :
    items.map f = items ↔ ∀ item ∈ items, f item = item := by
  constructor
  · intro h
    exact List.map_inj_left.mp (h.trans (List.map_id items).symm)
  · intro h
    exact (List.map_inj_left.mpr h).trans (List.map_id items)

/-- A value is left alone if all its numbers are. -/
theorem norm_eq_self_iff {v : Json} (h : v.Ordered) :
    v.norm = v ↔ ∀ n, v.Holds n → n.norm = n := by
  induction h with
  | null | bool b | str s =>
    constructor
    · rintro - n ⟨⟩
    · intro _
      rfl
  | num m =>
    rw [norm, Json.num.injEq]
    constructor
    · rintro h n hn
      rw [holds_num_iff.mp hn, h]
    · intro h
      exact h m .num
  | arr _ ih =>
    rw [norm, normItems_eq_map, Json.arr.injEq, map_eq_self_iff]
    constructor
    · intro hall n hn
      obtain ⟨item, hmem, hitem⟩ := holds_arr_iff.mp hn
      exact (ih item hmem).mp (hall item hmem) n hitem
    · intro hall item hmem
      exact (ih item hmem).mpr fun n hn => hall n (.item hmem hn)
  | obj _ _ ih =>
    rw [norm, normFields_eq_map, Json.obj.injEq, map_eq_self_iff]
    constructor
    · intro hall n hn
      obtain ⟨field, hmem, hfield⟩ := holds_obj_iff.mp hn
      exact (ih field hmem).mp (congrArg Prod.snd (hall field hmem)) n hfield
    · intro hall field hmem
      have hvalue := (ih field hmem).mpr fun n hn => hall n (.member hmem hn)
      exact Prod.ext rfl hvalue

/-! ## Two texts, one rule -/

theorem compact_norm (v : Json) : v.norm.compact = v.canonical := by
  rw [compact, Document.compact, ← Document.mapNumbers_norm_ofJson,
    Document.write_mapNumbers Number.text_norm]
  rfl

/-- **The compact text tells all values apart.** -/
theorem compact_injective {v w : Json} (h : v.compact = w.compact) : v = w := by
  have hread := Document.read_compact (Document.isComplete_ofJson v)
  have hcompact : (Document.ofJson v).compact = (Document.ofJson w).compact := h
  rw [hcompact, Document.read_compact (Document.isComplete_ofJson w), Prod.mk.injEq] at hread
  exact Document.ofJson_injective hread.1.symm

/-- The two texts are the same for values without whole doubles, and for no others. -/
theorem canonical_eq_compact_iff {v : Json} (h : v.Ordered) :
    v.canonical = v.compact ↔ ∀ x, v.Holds (.float x) → ¬x.IsWhole := by
  rw [← compact_norm]
  constructor
  · intro heq x hx
    have hnorm := (norm_eq_self_iff h).mp (compact_injective heq) _ hx
    exact Number.norm_eq_self_iff.mp hnorm x rfl
  · intro hall
    have hnorm : v.norm = v := by
      apply (norm_eq_self_iff h).mpr
      intro n hn
      apply Number.norm_eq_self_iff.mpr
      rintro x rfl
      exact hall x hn
    rw [hnorm]

/-- **The canonical text is the compact text by the rule** of the value with whole doubles made
integers, at every depth and none but those.  The text that is called compact is by the rule that of
the value itself; so the two are the same for values without whole doubles, and for no others. -/
theorem canonical_eq_plain_norm (v : Json) (h : v.Ordered) :
    v.canonical = String.ofList v.norm.plain ∧
    (∀ n, v.norm.Holds n ↔ ∃ m, v.Holds m ∧ m.norm = n) ∧
    (∀ x : Decimal.Double,
      (x.IsWhole → ∃ i : Integer, Number.norm (.float x) = .int i ∧
        x.signedUnits = i.val * Decimal.unitsPerOne) ∧
      (¬x.IsWhole → Number.norm (.float x) = .float x)) ∧
    v.compact = String.ofList v.plain ∧
    (v.canonical = v.compact ↔ ∀ x, v.Holds (.float x) → ¬x.IsWhole) := by
  refine ⟨?_, fun n => holds_norm_iff h, ?_, compact_eq_plain h, canonical_eq_compact_iff h⟩
  · rw [← compact_norm, compact_eq_plain h.norm]
  · intro x
    exact ⟨Number.exists_norm_of_isWhole, Number.norm_of_not_isWhole⟩

/-- One as a double and a tab, in an array in an object. -/
theorem canonical_eq_plain_norm_one :
    ∃ v : Json, v.Ordered ∧ v.canonical ≠ v.compact ∧ v.canonical.toList =
      ['{', '"', 'n', '"', ':', '[', '1', ',', '"', '\\', 't', '"', ']', '}'] := by
  let one : Decimal.Double := ⟨false, 0x10000000000000, 1022, by decide, by decide, by decide⟩
  let v : Json := .obj [("n", .arr [.num (.float one), .str "\t"])]
  have hordered : v.Ordered := by
    apply ordered_of_keys ["n"] rfl (by decide)
    simp only [List.forall_mem_cons]
    refine ⟨.arr ?_, List.forall_mem_nil _⟩
    simp only [List.forall_mem_cons]
    exact ⟨.num _, .str _, List.forall_mem_nil _⟩
  have hwhole : one.IsWhole := ⟨1, by decide +kernel, by decide⟩
  have hholds : v.Holds (.float one) := .member List.mem_cons_self (.item List.mem_cons_self .num)
  obtain ⟨-, -, -, -, hsame⟩ := canonical_eq_plain_norm v hordered
  refine ⟨v, hordered, ?_, ?_⟩
  · intro heq
    exact hsame.mp heq one hholds hwhole
  · rw [canonical, String.toList_ofList]
    decide +kernel

end Json

end Custody
