import Custody.Proofs.Hex

/-!
# Texts of digests

A text is read as a digest exactly if it has 64 hexadecimal digits, in either case.  Of any other
text it is told what is wrong: first that its length is odd, then the first byte that is no digit,
and only then that there are too few or too many digits.  Lengths and positions count bytes, so a
character outside ASCII is as many bad bytes as it has.
-/

namespace Custody

namespace Text

/-! ## Digits in either case -/

/-- The characters that are hexadecimal digits. -/
def IsHexDigit (c : Char) : Prop :=
  ('0' ≤ c ∧ c ≤ '9') ∨ ('a' ≤ c ∧ c ≤ 'f') ∨ ('A' ≤ c ∧ c ≤ 'F')

instance (c : Char) : Decidable (IsHexDigit c) :=
  inferInstanceAs (Decidable (_ ∨ _))

/-- The bytes of hexadecimal digits. -/
def IsHexByte (b : UInt8) : Prop := IsHexDigit (Char.ofNat b.toNat)

/-- Just the digits have a value. -/
theorem isSome_hexValue?_code : ∀ code < 256,
    ((hexValue? code).isSome = true ↔ IsHexDigit (Char.ofNat code)) := by
  decide +kernel

theorem isSome_hexValue?_iff {b : UInt8} : (hexValue? b.toNat).isSome = true ↔ IsHexByte b :=
  isSome_hexValue?_code b.toNat b.toNat_lt

theorem IsHexDigit.ascii {c : Char} (h : IsHexDigit c) : c.toNat < 0x80 := by
  rcases h with ⟨-, h⟩ | ⟨-, h⟩ | ⟨-, h⟩ <;> exact Nat.lt_of_le_of_lt (Char.le_def.mp h) (by decide)

theorem IsHexByte.ascii {b : UInt8} (h : IsHexByte b) : b.toNat < 0x80 := by
  obtain ⟨v, hv⟩ := Option.isSome_iff_exists.mp (isSome_hexValue?_iff.mpr h)
  exact (hexDigit_of_hexValue? hv).1

/-! ## The first bad digit -/

/-- A byte that is no digit stands after digits only. -/
def FirstBadDigit (bytes : List UInt8) (b : UInt8) (index : Nat) : Prop :=
  ∃ before after, bytes = before ++ b :: after ∧ before.length = index ∧
    (∀ d ∈ before, IsHexByte d) ∧ ¬IsHexByte b

theorem firstBadDigit_cons_of_not {first : UInt8} (h : ¬IsHexByte first) {rest : List UInt8}
    {b : UInt8} {index : Nat} :
    FirstBadDigit (first :: rest) b index ↔ b = first ∧ index = 0 := by
  constructor
  · rintro ⟨before, after, hsplit, rfl, hbefore, -⟩
    cases before with
    | nil =>
      cases hsplit
      exact ⟨rfl, rfl⟩
    | cons d more =>
      cases hsplit
      exact absurd (hbefore first List.mem_cons_self) h
  · rintro ⟨rfl, rfl⟩
    exact ⟨[], rest, rfl, rfl, List.forall_mem_nil _, h⟩

theorem firstBadDigit_cons_of_isHexByte {first : UInt8} (h : IsHexByte first) {rest : List UInt8}
    {b : UInt8} {index : Nat} :
    FirstBadDigit (first :: rest) b index ↔ ∃ i, FirstBadDigit rest b i ∧ index = i + 1 := by
  constructor
  · rintro ⟨before, after, hsplit, rfl, hbefore, hb⟩
    cases before with
    | nil =>
      cases hsplit
      exact absurd h hb
    | cons d more =>
      cases hsplit
      exact ⟨more.length, ⟨more, after, rfl, rfl, (List.forall_mem_cons.mp hbefore).2, hb⟩, rfl⟩
  · rintro ⟨i, ⟨before, after, rfl, rfl, hbefore, hb⟩, rfl⟩
    exact ⟨first :: before, after, rfl, rfl, List.forall_mem_cons.mpr ⟨h, hbefore⟩, hb⟩

theorem not_firstBadDigit_nil {b : UInt8} {index : Nat} : ¬FirstBadDigit [] b index := by
  rintro ⟨before, after, hsplit, -⟩
  cases before <;> cases hsplit

-- The induction is on the bytes, from any index.
/-- **Reading digits fails** at the first byte that is none. -/
theorem hexValues_eq_error_iff {i : Nat} {bytes : List UInt8} {fault : HexFault} :
    hexValues i bytes = .error fault ↔
      ∃ b index, FirstBadDigit bytes b index ∧ fault = .badDigit b (i + index) := by
  induction bytes generalizing i with
  | nil => simp [hexValues, not_firstBadDigit_nil]
  | cons first rest ih =>
    rw [hexValues]
    cases hvalue : hexValue? first.toNat with
    | none =>
      have hfirst : ¬IsHexByte first := by
        rw [← isSome_hexValue?_iff, hvalue]
        exact Bool.false_ne_true
      simp only [Except.error.injEq, firstBadDigit_cons_of_not hfirst]
      constructor
      · rintro rfl
        exact ⟨first, 0, ⟨rfl, rfl⟩, rfl⟩
      · rintro ⟨b, index, ⟨rfl, rfl⟩, rfl⟩
        rfl
    | some v =>
      have hfirst : IsHexByte first := by
        rw [← isSome_hexValue?_iff, hvalue]
        rfl
      have hmap : ((hexValues (i + 1) rest).map (v :: ·) = .error fault) ↔
          hexValues (i + 1) rest = .error fault := by
        cases hexValues (i + 1) rest <;> simp [Except.map]
      simp only [hmap, ih, firstBadDigit_cons_of_isHexByte hfirst]
      constructor
      · rintro ⟨b, index, hbad, rfl⟩
        exact ⟨b, index + 1, ⟨index, hbad, rfl⟩, by rw [Nat.add_right_comm, Nat.add_assoc]⟩
      · rintro ⟨b, _, ⟨index, hbad, rfl⟩, rfl⟩
        exact ⟨b, index, hbad, by rw [Nat.add_right_comm, Nat.add_assoc]⟩

theorem exists_firstBadDigit {bytes : List UInt8} (h : ¬∀ b ∈ bytes, IsHexByte b) :
    ∃ b index, FirstBadDigit bytes b index := by
  induction bytes with
  | nil => exact absurd (List.forall_mem_nil _) h
  | cons first rest ih =>
    by_cases hfirst : IsHexByte first
    · obtain ⟨b, index, hbad⟩ := ih fun hrest => h (List.forall_mem_cons.mpr ⟨hfirst, hrest⟩)
      exact ⟨b, index + 1, (firstBadDigit_cons_of_isHexByte hfirst).mpr ⟨index, hbad, rfl⟩⟩
    · exact ⟨first, 0, (firstBadDigit_cons_of_not hfirst).mpr ⟨rfl, rfl⟩⟩

/-- Digits are read, and only they are. -/
theorem exists_hexValues_iff {i : Nat} {bytes : List UInt8} :
    (∃ values, hexValues i bytes = .ok values) ↔ ∀ b ∈ bytes, IsHexByte b := by
  cases hvalues : hexValues i bytes with
  | ok values =>
    refine iff_of_true ⟨values, rfl⟩ (Classical.byContradiction fun hbad => ?_)
    obtain ⟨b, index, hfirst⟩ := exists_firstBadDigit hbad
    have herror := (hexValues_eq_error_iff (i := i)).mpr ⟨b, index, hfirst, rfl⟩
    rw [hvalues] at herror
    cases herror
  | error fault =>
    refine iff_of_false (by simp) ?_
    obtain ⟨b, index, ⟨before, after, rfl, -, -, hb⟩, -⟩ := hexValues_eq_error_iff.mp hvalues
    intro hall
    exact hb (hall b (List.mem_append_right _ List.mem_cons_self))

theorem length_of_hexValues {i : Nat} {bytes : List UInt8} {values : List Nat}
    (h : hexValues i bytes = .ok values) : values.length = bytes.length := by
  simpa using congrArg List.length (map_hexDigit_of_hexValues h).2.2

/-! ## Pairs of digits -/

/-- Of a text that is no sequence of pairs, its length is looked at first. -/
theorem hexDecode_eq_error_iff {bytes : List UInt8} {fault : HexFault} :
    hexDecode bytes = .error fault ↔
      (bytes.length % 2 = 1 ∧ fault = .oddLength) ∨
      (bytes.length % 2 = 0 ∧
        ∃ b index, FirstBadDigit bytes b index ∧ fault = .badDigit b index) := by
  rcases Nat.mod_two_eq_zero_or_one bytes.length with heven | hodd
  · have hmap : ((hexValues 0 bytes).map pairUp = .error fault) ↔
        hexValues 0 bytes = .error fault := by
      cases hexValues 0 bytes <;> simp [Except.map]
    simp [hexDecode, heven, hmap, hexValues_eq_error_iff]
  · simp [hexDecode, hodd, eq_comm]

theorem exists_hexDecode_iff {bytes : List UInt8} :
    (∃ out, hexDecode bytes = .ok out) ↔
      bytes.length % 2 = 0 ∧ ∀ b ∈ bytes, IsHexByte b := by
  rcases Nat.mod_two_eq_zero_or_one bytes.length with heven | hodd
  · rw [← exists_hexValues_iff (i := 0), hexDecode, if_neg (by omega)]
    cases hexValues 0 bytes <;> simp [Except.map, heven]
  · simp [hexDecode, hodd]

/-- Two digits make a byte. -/
theorem length_of_hexDecode {bytes out : List UInt8} (h : hexDecode bytes = .ok out) :
    bytes.length = 2 * out.length := by
  rw [hexDecode] at h
  split at h
  · cases h
  · next heven =>
    cases hvalues : hexValues 0 bytes with
    | error fault =>
      rw [hvalues] at h
      cases h
    | ok values =>
      rw [hvalues] at h
      cases h
      have hlength := length_of_hexValues hvalues
      have hlt := (map_hexDigit_of_hexValues hvalues).2.1
      rw [← length_nibbles, nibbles_pairUp hlt (by omega), hlength]

/-! ## Bytes and characters of a text -/

theorem length_toUTF8 (s : String) : s.toUTF8.toList.length = s.utf8ByteSize := by
  show (ByteArray.toList.loop s.toByteArray 0 []).length = _
  rw [toList_loop]
  rfl

/-- A text has a byte for each digit. -/
theorem toUTF8_of_digits {s : String} (h : ∀ c ∈ s.toList, IsHexDigit c) :
    s.toUTF8.toList = s.toList.map fun c => UInt8.ofNat c.toNat := by
  have hbytes := toUTF8_ascii fun c hc => (h c hc).ascii
  rwa [String.ofList_toList] at hbytes

theorem isHexByte_ofNat {c : Char} (h : IsHexDigit c) : IsHexByte (UInt8.ofNat c.toNat) := by
  have hascii := h.ascii
  rw [IsHexByte, UInt8.toNat_ofNat_of_lt' (Nat.lt_trans hascii (by decide)), Char.ofNat_toNat]
  exact h

/-- All bytes of a text are those of digits just if all its characters are digits. -/
theorem forall_isHexByte_iff {s : String} :
    (∀ b ∈ s.toUTF8.toList, IsHexByte b) ↔ ∀ c ∈ s.toList, IsHexDigit c := by
  constructor
  · intro h c hc
    have hchars := congrArg String.toList (eq_ofList_of_ascii fun b hb => (h b hb).ascii)
    rw [String.toList_ofList] at hchars
    rw [hchars] at hc
    obtain ⟨b, hb, rfl⟩ := List.mem_map.mp hc
    exact h b hb
  · intro h b hb
    rw [toUTF8_of_digits h] at hb
    obtain ⟨c, hc, rfl⟩ := List.mem_map.mp hb
    exact isHexByte_ofNat (h c hc)

end Text

namespace Digest

/-- A text of 64 hexadecimal digits, in either case. -/
structure Spelled (s : String) : Prop where
  length : s.toList.length = 64
  digits : ∀ c ∈ s.toList, Text.IsHexDigit c

/-- Why a text is not read as a digest. -/
inductive Misspelled (s : String) : DigestError → Prop where
  | oddLength : s.utf8ByteSize % 2 = 1 → Misspelled s (.hex .oddLength)
  | badDigit {b : UInt8} {index : Nat} : s.utf8ByteSize % 2 = 0 →
      Text.FirstBadDigit s.toUTF8.toList b index → Misspelled s (.hex (.badDigit b index))
  | invalidLength : s.utf8ByteSize % 2 = 0 → (∀ b ∈ s.toUTF8.toList, Text.IsHexByte b) →
      s.utf8ByteSize ≠ 64 → Misspelled s (.invalidLength (s.utf8ByteSize / 2))

theorem spelled_iff {s : String} :
    Spelled s ↔ s.utf8ByteSize = 64 ∧ ∀ b ∈ s.toUTF8.toList, Text.IsHexByte b := by
  rw [Text.forall_isHexByte_iff, ← Text.length_toUTF8]
  constructor
  · rintro ⟨hlength, hdigits⟩
    refine ⟨?_, hdigits⟩
    rw [Text.toUTF8_of_digits hdigits, List.length_map, hlength]
  · rintro ⟨hlength, hdigits⟩
    refine ⟨?_, hdigits⟩
    rw [← hlength, Text.toUTF8_of_digits hdigits, List.length_map]

/-- A text that is not read has no bytes, or not as many as a digest. -/
theorem parse_eq_error_cases {s : String} {error : DigestError} :
    parse s = .error error ↔
      (∃ fault, Text.hexDecode s.toUTF8.toList = .error fault ∧ error = .hex fault) ∨
      ∃ bytes, Text.hexDecode s.toUTF8.toList = .ok bytes ∧ bytes.length ≠ 32 ∧
        error = .invalidLength bytes.length := by
  rw [parse]
  cases hdecode : Text.hexDecode s.toUTF8.toList with
  | error fault => simp [eq_comm]
  | ok bytes =>
    by_cases hlength : bytes.length = 32
    · simp [ofBytes, hlength]
    · simp [ofBytes, hlength, eq_comm]

/-- **A text is misread** for the first of three reasons. -/
theorem parse_eq_error_iff {s : String} {error : DigestError} :
    parse s = .error error ↔ Misspelled s error := by
  have hsize := Text.length_toUTF8 s
  rw [parse_eq_error_cases]
  constructor
  · rintro (⟨fault, hfault, rfl⟩ | ⟨bytes, hbytes, hne, rfl⟩)
    · rcases Text.hexDecode_eq_error_iff.mp hfault with ⟨hodd, rfl⟩ | ⟨heven, b, index, hbad, rfl⟩
      · exact .oddLength (hsize ▸ hodd)
      · exact .badDigit (hsize ▸ heven) hbad
    · obtain ⟨heven, hdigits⟩ := Text.exists_hexDecode_iff.mp ⟨bytes, hbytes⟩
      have hlength := Text.length_of_hexDecode hbytes
      have hhalf : bytes.length = s.utf8ByteSize / 2 := by omega
      rw [hhalf]
      exact .invalidLength (hsize ▸ heven) hdigits (by omega)
  · rintro (hodd | ⟨heven, hbad⟩ | ⟨heven, hdigits, hne⟩)
    · exact .inl ⟨_, Text.hexDecode_eq_error_iff.mpr (.inl ⟨hsize ▸ hodd, rfl⟩), rfl⟩
    · exact .inl
        ⟨_, Text.hexDecode_eq_error_iff.mpr (.inr ⟨hsize ▸ heven, _, _, hbad, rfl⟩), rfl⟩
    · obtain ⟨bytes, hbytes⟩ := Text.exists_hexDecode_iff.mpr ⟨hsize ▸ heven, hdigits⟩
      have hlength := Text.length_of_hexDecode hbytes
      have hhalf : s.utf8ByteSize / 2 = bytes.length := by omega
      exact .inr ⟨bytes, hbytes, by omega, by rw [hhalf]⟩

theorem exists_parse_iff {s : String} : (∃ d, parse s = .ok d) ↔ Spelled s := by
  have hsize := Text.length_toUTF8 s
  rw [spelled_iff]
  constructor
  · rintro ⟨d, hd⟩
    rw [parse] at hd
    split at hd
    · cases hd
    · next bytes hbytes =>
      have hlength := Text.length_of_hexDecode hbytes
      obtain ⟨-, hdigits⟩ := Text.exists_hexDecode_iff.mp ⟨bytes, hbytes⟩
      rw [ofBytes] at hd
      split at hd
      · exact ⟨by omega, hdigits⟩
      · cases hd
  · rintro ⟨h64, hdigits⟩
    obtain ⟨bytes, hbytes⟩ := Text.exists_hexDecode_iff.mpr ⟨by omega, hdigits⟩
    have hlength := Text.length_of_hexDecode hbytes
    have h32 : bytes.length = 32 := by omega
    refine ⟨⟨bytes, h32⟩, ?_⟩
    rw [parse, hbytes]
    exact dif_pos h32

/-- **Just 64 digits are read as a digest**, in either case, and the digest is written with the same
digits in lower case; so each digest is read back from its own.  Of any other text the error tells
that its number of bytes is odd, else the first byte that is no digit and its index, else that there
should be 32 bytes where there are half as many as the text has. -/
theorem parse_reads_just_its_digits :
    (∀ d : Digest, parse d.hex = .ok d) ∧
    (∀ s : String, ((∃ d, parse s = .ok d) ↔ Spelled s) ∧
      (∀ d, parse s = .ok d → d.hex = s.toLower) ∧
      ∀ error, parse s = .error error ↔ Misspelled s error) ∧
    ∀ actual : Nat, (DigestError.invalidLength actual).message =
      s!"invalid hash length: expected 32, got {actual}" := by
  refine ⟨parse_hex, ?_, fun _ => rfl⟩
  intro s
  exact ⟨exists_parse_iff, fun d => hex_of_parse, fun error => parse_eq_error_iff⟩

/-- The digits of a digest in upper case. -/
def upperCase : String := String.ofList (List.replicate 64 'A')

theorem parse_reads_just_its_digits_upperCase :
    ∃ d, parse upperCase = .ok d ∧ d.hex = upperCase.toLower := by
  obtain ⟨-, hread, -⟩ := parse_reads_just_its_digits
  have hchars : upperCase.toList = List.replicate 64 'A' := String.toList_ofList
  have hspelled : Spelled upperCase := by
    refine ⟨?_, ?_⟩
    · rw [hchars, List.length_replicate]
    · intro c hc
      rw [hchars] at hc
      rw [List.eq_of_mem_replicate hc]
      decide
  obtain ⟨d, hd⟩ := (hread upperCase).1.mpr hspelled
  exact ⟨d, hd, (hread upperCase).2.1 d hd⟩

/-- Of a character outside ASCII the first of its bytes is told. -/
example : parse "aé+" = .error (.hex (.badDigit 195 1)) := by cbv

end Digest

end Custody
