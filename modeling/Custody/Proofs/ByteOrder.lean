import Custody.Proofs.Hex

/-!
# The order of texts and of their bytes

Texts are ordered by code point, and so are their UTF-8 bytes: the first byte of a character tells
how many follow and holds the highest digits of its code point, in base 64, and each byte that
follows holds the next digit.  So keys that are sorted as texts are sorted as bytes.
-/

namespace Custody.Text

/-! ## The bytes of a character -/

/-- How many bytes follow the first byte of a code point. -/
def followers (n : Nat) : Nat :=
  if n ≤ 0x7f then 0 else if n ≤ 0x7ff then 1 else if n ≤ 0xffff then 2 else 3

/-- The bits that mark a first byte that so many bytes follow. -/
def leadMark : Nat → Nat
  | 0 => 0x00
  | 1 => 0xc0
  | 2 => 0xe0
  | _ => 0xf0

/-- The first byte of a code point. -/
def leadByte (n : Nat) : Nat := n / Nat.pow 64 (followers n) + leadMark (followers n)

/-- The last bytes of a code point. -/
def lastBytes : Nat → Nat → List UInt8
  | 0, _ => []
  | k + 1, n => UInt8.ofNat (n / Nat.pow 64 k % 64 + 0x80) :: lastBytes k n

theorem char_lt (c : Char) : c.toNat < 0x110000 := by
  have hvalid : c.toNat < 0xd800 ∨ 0xdfff < c.toNat ∧ c.toNat < 0x110000 := c.valid
  omega

/-- The four kinds of code points, by how many bytes follow the first. -/
theorem leadByte_cases {n : Nat} (h : n < 0x110000) :
    n < 0x80 ∧ followers n = 0 ∧ leadByte n = n ∨
    0x80 ≤ n ∧ n < 0x800 ∧ followers n = 1 ∧ leadByte n = n / 64 + 0xc0 ∨
    0x800 ≤ n ∧ n < 0x10000 ∧ followers n = 2 ∧ leadByte n = n / 4096 + 0xe0 ∨
    0x10000 ≤ n ∧ n < 0x110000 ∧ followers n = 3 ∧ leadByte n = n / 262144 + 0xf0 := by
  by_cases h1 : n ≤ 0x7f
  · have hf : followers n = 0 := if_pos h1
    rw [leadByte, hf]
    exact Or.inl ⟨by omega, rfl, Nat.div_one n⟩
  · by_cases h2 : n ≤ 0x7ff
    · have hf : followers n = 1 := by rw [followers, if_neg h1, if_pos h2]
      rw [leadByte, hf]
      exact Or.inr (Or.inl ⟨by omega, by omega, rfl, rfl⟩)
    · by_cases h3 : n ≤ 0xffff
      · have hf : followers n = 2 := by rw [followers, if_neg h1, if_neg h2, if_pos h3]
        rw [leadByte, hf]
        exact Or.inr (Or.inr (Or.inl ⟨by omega, by omega, rfl, rfl⟩))
      · have hf : followers n = 3 := by rw [followers, if_neg h1, if_neg h2, if_neg h3]
        rw [leadByte, hf]
        exact Or.inr (Or.inr (Or.inr ⟨by omega, h, rfl, rfl⟩))

theorem lastBytes_one (n : Nat) : lastBytes 1 n = [UInt8.ofNat (n % 64 + 0x80)] := by
  have hone : n / Nat.pow 64 0 = n := Nat.div_one n
  rw [lastBytes, hone, lastBytes]

theorem utf8EncodeChar_eq (c : Char) :
    String.utf8EncodeChar c =
      UInt8.ofNat (leadByte c.toNat) :: lastBytes (followers c.toNat) c.toNat := by
  have hval : c.val.toNat = c.toNat := rfl
  simp only [String.utf8EncodeChar, hval]
  rcases leadByte_cases (char_lt c) with ⟨hn, hf, hl⟩ | ⟨hn, hn', hf, hl⟩ | ⟨hn, hn', hf, hl⟩ |
    ⟨hn, hn', hf, hl⟩
  · rw [hf, hl, if_pos (by omega)]
    rfl
  · rw [hf, hl, if_neg (by omega), if_pos (by omega), Nat.mod_eq_of_lt (by omega), lastBytes_one]
  · rw [hf, hl, if_neg (by omega), if_neg (by omega), if_pos (by omega),
      Nat.mod_eq_of_lt (by omega), lastBytes, lastBytes_one]
  · rw [hf, hl, if_neg (by omega), if_neg (by omega), if_neg (by omega),
      Nat.mod_eq_of_lt (by omega), lastBytes, lastBytes, lastBytes_one]

/-- Later code points have no smaller first byte. -/
theorem leadByte_mono {m n : Nat} (h : m ≤ n) (hn : n < 0x110000) : leadByte m ≤ leadByte n := by
  have hm := leadByte_cases (Nat.lt_of_le_of_lt h hn)
  have hn := leadByte_cases hn
  omega

theorem leadByte_lt {n : Nat} (h : n < 0x110000) : leadByte n < 256 := by
  have hn := leadByte_cases h
  omega

/-- Code points with the same first byte have as many bytes and the same highest digits. -/
theorem digits_of_leadByte {m n : Nat} (hm : m < 0x110000) (hn : n < 0x110000)
    (h : leadByte m = leadByte n) :
    followers m = followers n ∧ m / Nat.pow 64 (followers m) = n / Nat.pow 64 (followers n) := by
  have hfollowers : followers m = followers n := by
    have hm := leadByte_cases hm
    have hn := leadByte_cases hn
    omega
  refine ⟨hfollowers, ?_⟩
  rw [leadByte, leadByte, hfollowers] at h
  rw [hfollowers]
  exact Nat.add_right_cancel h

section

variable {xs ys : List UInt8} {m n : Nat}

/-- One byte of a code point, and what follows it. -/
theorem cons_lt_cons_of_digits (hm : m < 256) (hn : n < 256) (h : m < n ∨ m = n ∧ xs < ys) :
    UInt8.ofNat m :: xs < UInt8.ofNat n :: ys := by
  rw [List.cons_lt_cons_iff]
  rcases h with hlt | ⟨rfl, hrest⟩
  · left
    rw [UInt8.lt_iff_toNat_lt, UInt8.toNat_ofNat_of_lt' hm, UInt8.toNat_ofNat_of_lt' hn]
    exact hlt
  · exact Or.inr ⟨rfl, hrest⟩

/-- The last digits decide if the digits before them are the same. -/
theorem lastBytes_append_lt {k : Nat} (h : m < n) (hsame : m / Nat.pow 64 k = n / Nat.pow 64 k) :
    lastBytes k m ++ xs < lastBytes k n ++ ys := by
  induction k with
  | zero =>
    have hsame : m / 1 = n / 1 := hsame
    omega
  | succ k ih =>
    have hsame : m / (Nat.pow 64 k * 64) = n / (Nat.pow 64 k * 64) := hsame
    rw [← Nat.div_div_eq_div_mul, ← Nat.div_div_eq_div_mul] at hsame
    have hle : m / Nat.pow 64 k ≤ n / Nat.pow 64 k := Nat.div_le_div_right (Nat.le_of_lt h)
    apply cons_lt_cons_of_digits (by omega) (by omega)
    by_cases hdigit : m / Nat.pow 64 k = n / Nat.pow 64 k
    · exact Or.inr ⟨by rw [hdigit], ih hdigit⟩
    · left
      omega

end

/-- The bytes of a character come before those of a later one, whatever follows either. -/
theorem utf8EncodeChar_append_lt {c d : Char} (h : c < d) (xs ys : List UInt8) :
    String.utf8EncodeChar c ++ xs < String.utf8EncodeChar d ++ ys := by
  have hlt : c.toNat < d.toNat := h
  have hc := char_lt c
  have hd := char_lt d
  rw [utf8EncodeChar_eq, utf8EncodeChar_eq]
  apply cons_lt_cons_of_digits (leadByte_lt hc) (leadByte_lt hd)
  rcases Nat.lt_or_eq_of_le (leadByte_mono (Nat.le_of_lt hlt) hd) with hlead | hlead
  · exact Or.inl hlead
  · obtain ⟨hfollowers, hdigits⟩ := digits_of_leadByte hc hd hlead
    rw [← hfollowers] at hdigits ⊢
    exact Or.inr ⟨hlead, lastBytes_append_lt hlt hdigits⟩

/-! ## Texts -/

theorem toUTF8_toList (s : String) :
    s.toUTF8.toList = s.toList.flatMap String.utf8EncodeChar := by
  have hbytes : s.toUTF8 = s.toList.utf8Encode := by
    rw [String.toUTF8_eq_toByteArray, ← String.toByteArray_ofList, String.ofList_toList]
  rw [hbytes, List.utf8Encode, toList_toByteArray]

theorem flatMap_utf8EncodeChar_lt {cs ds : List Char} (h : cs < ds) :
    cs.flatMap String.utf8EncodeChar < ds.flatMap String.utf8EncodeChar := by
  induction cs generalizing ds with
  | nil =>
    cases ds with
    | nil => exact absurd h (List.lt_irrefl [])
    | cons d more =>
      rw [List.flatMap_cons, utf8EncodeChar_eq]
      exact List.nil_lt_cons _ _
  | cons c rest ih =>
    cases ds with
    | nil => exact absurd h (List.not_lt_nil _)
    | cons d more =>
      rw [List.flatMap_cons, List.flatMap_cons]
      rcases List.cons_lt_cons_iff.mp h with hlt | ⟨rfl, hrest⟩
      · exact utf8EncodeChar_append_lt hlt _ _
      · exact List.append_left_lt (ih hrest)

theorem toUTF8_lt_of_lt {s t : String} (h : s < t) : s.toUTF8.toList < t.toUTF8.toList := by
  rw [toUTF8_toList, toUTF8_toList]
  exact flatMap_utf8EncodeChar_lt (String.lt_iff.mp h)

/-- **Texts are in the order of their bytes.** -/
theorem toUTF8_lt_iff {s t : String} : s.toUTF8.toList < t.toUTF8.toList ↔ s < t := by
  constructor
  · intro h
    by_cases hlt : s < t
    · exact hlt
    · exfalso
      by_cases heq : s = t
      · subst heq
        exact List.lt_irrefl _ h
      · have hgt : t < s := Std.lt_of_le_of_ne (String.not_lt.mp hlt) (Ne.symm heq)
        exact List.lt_irrefl _ (List.lt_trans h (toUTF8_lt_of_lt hgt))
  · exact toUTF8_lt_of_lt

end Custody.Text
