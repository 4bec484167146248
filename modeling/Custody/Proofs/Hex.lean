import Custody.Digest.Basic

/-!
# Digests read back

The digits of a digest are read as that digest, so no two digests are written alike.  A lower-case
digit is an ASCII character, and its byte has the value that it was written for.  Digits in upper
case are read too; what is read is written in lower case.
-/

namespace Custody

/-! ## Bytes of ASCII text -/

namespace Text

theorem toList_loop (bytes : ByteArray) (i : Nat) (acc : List UInt8) :
    ByteArray.toList.loop bytes i acc = acc.reverse ++ bytes.data.toList.drop i := by
  fun_induction ByteArray.toList.loop bytes i acc with
  | case1 i acc hi ih =>
    have hlength : i < bytes.data.toList.length := by
      rw [Array.length_toList]
      exact hi
    have hget : bytes.get! i = bytes.data.toList[i] := by
      rw [Array.getElem_toList]
      exact getElem!_pos bytes.data i hi
    rw [ih, hget, List.reverse_cons, List.append_assoc, List.singleton_append,
      List.getElem_cons_drop]
  | case2 i acc hi =>
    have hlength : bytes.data.toList.length ≤ i := by
      rw [Array.length_toList]
      exact Nat.le_of_not_lt hi
    rw [List.drop_eq_nil_of_le hlength, List.append_nil]

theorem toList_toByteArray (bytes : List UInt8) : bytes.toByteArray.toList = bytes := by
  show ByteArray.toList.loop _ 0 [] = bytes
  rw [toList_loop, List.toList_data_toByteArray]
  rfl

/-- An ASCII character is one byte, its code. -/
theorem toUTF8_ascii {cs : List Char} (h : ∀ c ∈ cs, c.toNat < 0x80) :
    (String.ofList cs).toUTF8.toList = cs.map fun c => UInt8.ofNat c.toNat := by
  have hbytes : cs.flatMap String.utf8EncodeChar = cs.map fun c => UInt8.ofNat c.toNat := by
    induction cs with
    | nil => rfl
    | cons c rest ih =>
      have hc : String.utf8EncodeChar c = [UInt8.ofNat c.toNat] :=
        if_pos (Nat.le_of_lt_succ (h c List.mem_cons_self))
      rw [List.flatMap_cons, hc, ih fun d hd => h d (List.mem_cons_of_mem c hd)]
      rfl
  show (String.ofList cs).toByteArray.toList = _
  rw [String.toByteArray_ofList, List.utf8Encode, hbytes, toList_toByteArray]

/-! ## Digits -/

/-- The sixteen lower-case digits. -/
def hexDigits : List Char :=
  ['0', '1', '2', '3', '4', '5', '6', '7', '8', '9', 'a', 'b', 'c', 'd', 'e', 'f']

theorem hexDigit_mem : ∀ n < 16, hexDigit n ∈ hexDigits := by decide

theorem forall_hexDigits {p : Char → Prop} [DecidablePred p]
    (h : (hexDigits.all fun c => p c) = true) : ∀ c ∈ hexDigits, p c := by
  intro c hc
  exact of_decide_eq_true (List.all_eq_true.mp h c hc)

theorem hexDigits_ascii : ∀ c ∈ hexDigits, c.toNat < 0x80 := forall_hexDigits (by decide)

theorem hexValue?_hexDigit :
    ∀ n < 16, hexValue? (UInt8.ofNat (hexDigit n).toNat).toNat = some n := by
  decide

/-- The values of the digits of a sequence of bytes. -/
def nibbles (bytes : List UInt8) : List Nat :=
  bytes.flatMap fun b => [b.toNat / 16, b.toNat % 16]

theorem nibbles_cons (b : UInt8) (bytes : List UInt8) :
    nibbles (b :: bytes) = b.toNat / 16 :: b.toNat % 16 :: nibbles bytes := rfl

theorem nibbles_lt {bytes : List UInt8} : ∀ n ∈ nibbles bytes, n < 16 := by
  intro n hn
  obtain ⟨b, -, hb⟩ := List.mem_flatMap.mp hn
  have hlt := b.toNat_lt
  simp only [List.mem_cons, List.not_mem_nil, or_false] at hb
  rcases hb with rfl | rfl <;> omega

theorem length_nibbles (bytes : List UInt8) : (nibbles bytes).length = 2 * bytes.length := by
  induction bytes with
  | nil => rfl
  | cons b rest ih =>
    rw [nibbles_cons, List.length_cons, List.length_cons, List.length_cons, ih]
    omega

theorem hexEncode_eq_map (bytes : List UInt8) : hexEncode bytes = (nibbles bytes).map hexDigit := by
  induction bytes with
  | nil => rfl
  | cons b rest ih =>
    rw [nibbles_cons, List.map_cons, List.map_cons, ← ih]
    rfl

theorem mem_hexEncode {bytes : List UInt8} {c : Char} (h : c ∈ hexEncode bytes) :
    c ∈ hexDigits := by
  rw [hexEncode_eq_map] at h
  obtain ⟨n, hn, rfl⟩ := List.mem_map.mp h
  exact hexDigit_mem n (nibbles_lt n hn)

/-! ## Reading undoes writing -/

theorem hexValues_hexDigit (i : Nat) {ns : List Nat} (h : ∀ n ∈ ns, n < 16) :
    hexValues i (ns.map fun n => UInt8.ofNat (hexDigit n).toNat) = .ok ns := by
  induction ns generalizing i with
  | nil => rfl
  | cons n rest ih =>
    have hrest : ∀ m ∈ rest, m < 16 := fun m hm => h m (List.mem_cons_of_mem n hm)
    rw [List.map_cons, hexValues, hexValue?_hexDigit n (h n List.mem_cons_self)]
    simp only [ih (i + 1) hrest]
    rfl

theorem pairUp_nibbles (bytes : List UInt8) : pairUp (nibbles bytes) = bytes := by
  induction bytes with
  | nil => rfl
  | cons b rest ih =>
    have hb : 16 * (b.toNat / 16) + b.toNat % 16 = b.toNat := by omega
    rw [nibbles_cons, pairUp, ih, hb, UInt8.ofNat_toNat]

theorem hexDecode_hexEncode (bytes : List UInt8) :
    hexDecode (String.ofList (hexEncode bytes)).toUTF8.toList = .ok bytes := by
  have hascii : ∀ c ∈ hexEncode bytes, c.toNat < 0x80 :=
    fun c hc => hexDigits_ascii c (mem_hexEncode hc)
  rw [toUTF8_ascii hascii, hexEncode_eq_map, List.map_map, hexDecode, if_neg]
  · show (hexValues 0 ((nibbles bytes).map fun n => UInt8.ofNat (hexDigit n).toNat)).map pairUp = _
    rw [hexValues_hexDigit 0 nibbles_lt, Except.map, pairUp_nibbles]
  · rw [List.length_map, length_nibbles]
    omega

/-! ## Digits in either case -/

/-- Bytes are told by their list. -/
theorem byteArray_ext {bytes others : ByteArray} (h : bytes.toList = others.toList) :
    bytes = others := by
  have hdata : ∀ b : ByteArray, b.toList = b.data.toList := fun b => toList_loop b 0 []
  rw [hdata, hdata] at h
  exact ByteArray.ext (Array.toList_inj.mp h)

theorem toNat_ofNat_ascii : ∀ n < 0x80, (Char.ofNat n).toNat = n := by decide

/-- A text whose bytes are all ASCII has a character for each of them. -/
theorem eq_ofList_of_ascii {s : String} (h : ∀ b ∈ s.toUTF8.toList, b.toNat < 0x80) :
    s = String.ofList (s.toUTF8.toList.map fun b => Char.ofNat b.toNat) := by
  have hchars : ∀ c ∈ s.toUTF8.toList.map fun b => Char.ofNat b.toNat, c.toNat < 0x80 := by
    intro c hc
    obtain ⟨b, hb, rfl⟩ := List.mem_map.mp hc
    rw [toNat_ofNat_ascii _ (h b hb)]
    exact h b hb
  have hback : (s.toUTF8.toList.map fun b => Char.ofNat b.toNat).map
      (fun c => UInt8.ofNat c.toNat) = s.toUTF8.toList := by
    rw [List.map_map]
    refine (List.map_congr_left fun b hb => ?_).trans (List.map_id _)
    rw [Function.comp_apply, toNat_ofNat_ascii _ (h b hb), UInt8.ofNat_toNat]
    rfl
  exact (String.toByteArray_inj.mp (byteArray_ext ((toUTF8_ascii hchars).trans hback))).symm

/-- A digit of either case is an ASCII character, and is written back in lower case. -/
theorem hexValue?_lower : ∀ code < 256, ((hexValue? code).all fun v =>
    decide (code < 0x80 ∧ v < 16 ∧ hexDigit v = (Char.ofNat code).toLower)) = true := by
  decide +kernel

theorem hexDigit_of_hexValue? {b : UInt8} {v : Nat} (h : hexValue? b.toNat = some v) :
    b.toNat < 0x80 ∧ v < 16 ∧ hexDigit v = (Char.ofNat b.toNat).toLower := by
  have hall := hexValue?_lower b.toNat b.toNat_lt
  rw [h] at hall
  exact of_decide_eq_true hall

/-- The values of digits in either case are those of the digits in lower case. -/
theorem map_hexDigit_of_hexValues {i : Nat} {bytes : List UInt8} {values : List Nat}
    (h : hexValues i bytes = .ok values) :
    (∀ b ∈ bytes, b.toNat < 0x80) ∧ (∀ v ∈ values, v < 16) ∧
      values.map hexDigit = bytes.map fun b => (Char.ofNat b.toNat).toLower := by
  induction bytes generalizing i values with
  | nil =>
    cases h
    exact ⟨List.forall_mem_nil _, List.forall_mem_nil _, rfl⟩
  | cons b rest ih =>
    rw [hexValues] at h
    split at h
    · cases h
    · next v hv =>
      obtain ⟨hascii, hlt, hdigit⟩ := hexDigit_of_hexValue? hv
      cases hrest : hexValues (i + 1) rest with
      | error fault =>
        rw [hrest] at h
        cases h
      | ok more =>
        rw [hrest] at h
        cases h
        obtain ⟨hasciis, hlts, hdigits⟩ := ih hrest
        refine ⟨List.forall_mem_cons.mpr ⟨hascii, hasciis⟩,
          List.forall_mem_cons.mpr ⟨hlt, hlts⟩, ?_⟩
        rw [List.map_cons, List.map_cons, hdigit, hdigits]

theorem nibbles_pairUp {values : List Nat} (h : ∀ v ∈ values, v < 16)
    (heven : values.length % 2 = 0) : nibbles (pairUp values) = values := by
  fun_induction pairUp values with
  | case1 high low rest ih =>
    have hhigh : high < 16 := h high List.mem_cons_self
    have hlow : low < 16 := h low (List.mem_cons_of_mem _ List.mem_cons_self)
    have hrest : ∀ v ∈ rest, v < 16 := fun v hv =>
      h v (List.mem_cons_of_mem _ (List.mem_cons_of_mem _ hv))
    have hbyte : (UInt8.ofNat (16 * high + low)).toNat = 16 * high + low :=
      UInt8.toNat_ofNat_of_lt' (by show _ < 256; omega)
    have hrest_even : rest.length % 2 = 0 := by
      rw [List.length_cons, List.length_cons] at heven
      omega
    rw [nibbles_cons, hbyte, ih hrest hrest_even]
    congr 1
    · omega
    · congr 1
      omega
  | case2 values hshort =>
    cases values with
    | nil => rfl
    | cons v rest =>
      cases rest with
      | nil => cases heven
      | cons w more => exact absurd rfl (hshort v w more)

/-- **Digits in either case** are written back in lower case. -/
theorem hexEncode_of_hexDecode {s : String} {bytes : List UInt8}
    (h : hexDecode s.toUTF8.toList = .ok bytes) : String.ofList (hexEncode bytes) = s.toLower := by
  rw [hexDecode] at h
  split at h
  · cases h
  · next heven =>
    cases hvalues : hexValues 0 s.toUTF8.toList with
    | error fault =>
      rw [hvalues] at h
      cases h
    | ok values =>
      rw [hvalues] at h
      cases h
      obtain ⟨hascii, hlt, hdigits⟩ := map_hexDigit_of_hexValues hvalues
      have hlength : values.length = s.toUTF8.toList.length := by
        simpa using congrArg List.length hdigits
      rw [hexEncode_eq_map, nibbles_pairUp hlt (by omega), hdigits]
      have hchars := congrArg String.toList (eq_ofList_of_ascii hascii)
      rw [String.toList_ofList] at hchars
      have hlower : s.toLower.toList = s.toList.map Char.toLower := String.toList_map
      apply String.ext
      rw [hlower, hchars, String.toList_ofList, List.map_map]
      rfl

end Text

namespace Digest

/-- **A digest is read back from its digits.** -/
@[simp] theorem parse_hex (d : Digest) : parse d.hex = .ok d := by
  rw [parse, hex, Text.hexDecode_hexEncode]
  exact ofBytes_bytes d

theorem hex_injective {a b : Digest} (h : a.hex = b.hex) : a = b := by
  have hparse := parse_hex a
  rw [h, parse_hex b] at hparse
  cases hparse
  rfl

theorem mem_hex {d : Digest} {c : Char} (h : c ∈ d.hex.toList) : c ∈ Text.hexDigits := by
  rw [hex, String.toList_ofList] at h
  exact Text.mem_hexEncode h

theorem length_hex (d : Digest) : d.hex.toList.length = 64 := by
  rw [hex, String.toList_ofList, Text.length_hexEncode, d.length_eq]

/-- **What is read as a digest** is its digits, up to the case of letters. -/
theorem hex_of_parse {s : String} {d : Digest} (h : parse s = .ok d) : d.hex = s.toLower := by
  rw [parse] at h
  split at h
  · cases h
  · next bytes hbytes =>
    rw [ofBytes] at h
    split at h
    · cases h
      exact Text.hexEncode_of_hexDecode hbytes
    · cases h

end Digest

end Custody
