import Custody.Json.Reader
import Custody.Proofs.Decimal

/-!
# Numbers read back

Every text of a number consists of a whole part, a fraction and an exponent, and reading takes it
apart in the same places.  So the plain text of a number reads back as that number, and its
canonical text as the number with its double written as an integer where nothing is lost by it.  A
number ends where no digit, point or exponent follows it.
-/

namespace Custody.Number

open Decimal (Double Magnitude Scientific)

/-! ## Digits -/

/-- All characters are decimal digits. -/
def AllDigits (cs : List Char) : Prop := ∀ c ∈ cs, c.isDigit = true

/-- A text that does not begin with a digit. -/
def NoDigit (rest : List Char) : Prop := ∀ c ∈ rest.head?, c.isDigit = false

/-- A text before which a number has come to its end. -/
def Ends (rest : List Char) : Prop :=
  ∀ c ∈ rest.head?, c.isDigit = false ∧ c ≠ '.' ∧ c ≠ 'e' ∧ c ≠ 'E'

theorem Ends.noDigit {rest : List Char} (h : Ends rest) : NoDigit rest :=
  fun c hc => (h c hc).1

theorem ends_nil : Ends [] := by
  intro c hc
  cases hc

theorem ends_cons {c : Char} (rest : List Char)
    (h : c.isDigit = false ∧ c ≠ '.' ∧ c ≠ 'e' ∧ c ≠ 'E') : Ends (c :: rest) := by
  intro d hd
  cases hd
  exact h

theorem noDigit_cons {c : Char} (rest : List Char) (h : c.isDigit = false) :
    NoDigit (c :: rest) := by
  intro d hd
  cases hd
  exact h

theorem takeWhile_eq_nil {rest : List Char} (h : NoDigit rest) :
    rest.takeWhile Char.isDigit = [] := by
  cases rest with
  | nil => rfl
  | cons c rest => exact List.takeWhile_cons_of_neg (by simp [h c rfl])

theorem takeWhile_digits {digits rest : List Char} (hd : AllDigits digits) (hr : NoDigit rest) :
    (digits ++ rest).takeWhile Char.isDigit = digits := by
  rw [List.takeWhile_append_of_pos hd, takeWhile_eq_nil hr, List.append_nil]

theorem dropWhile_digits {digits rest : List Char} (hd : AllDigits digits) (hr : NoDigit rest) :
    (digits ++ rest).dropWhile Char.isDigit = rest := by
  have hsplit := List.takeWhile_append_dropWhile (p := Char.isDigit) (l := digits ++ rest)
  rw [takeWhile_digits hd hr] at hsplit
  exact List.append_cancel_left hsplit

theorem allDigits_toDigits (n : Nat) : AllDigits (Nat.toDigits 10 n) :=
  fun _ hc => Nat.isDigit_of_mem_toDigits (by decide) (by decide) hc

theorem AllDigits.append {cs ds : List Char} (hc : AllDigits cs) (hd : AllDigits ds) :
    AllDigits (cs ++ ds) := by
  intro c h
  rcases List.mem_append.mp h with h | h
  · exact hc c h
  · exact hd c h

theorem allDigits_zeros (n : Nat) : AllDigits (List.replicate n '0') := by
  intro c hc
  rw [List.eq_of_mem_replicate hc]
  rfl

theorem AllDigits.take {cs : List Char} (h : AllDigits cs) (n : Nat) : AllDigits (cs.take n) :=
  fun c hc => h c (List.mem_of_mem_take hc)

theorem AllDigits.drop {cs : List Char} (h : AllDigits cs) (n : Nat) : AllDigits (cs.drop n) :=
  fun c hc => h c (List.mem_of_mem_drop hc)

/-! ## The value of digits -/

theorem digitsValue_eq (digits : List Char) :
    Text.digitsValue digits = Nat.ofDigitChars 10 digits 0 := rfl

@[simp] theorem digitsValue_toDigits (n : Nat) : Text.digitsValue (Nat.toDigits 10 n) = n := by
  rw [digitsValue_eq, Nat.ofDigitChars_ten_toDigits]

/-- Zeros before the digits change nothing. -/
theorem digitsValue_zeros_append (n : Nat) (digits : List Char) :
    Text.digitsValue (List.replicate n '0' ++ digits) = Text.digitsValue digits := by
  rw [digitsValue_eq, digitsValue_eq, Nat.ofDigitChars_append, Nat.ofDigitChars_replicate_zero,
    Nat.mul_zero]

/-- Zeros after the digits multiply by ten each. -/
theorem digitsValue_append_zeros (digits : List Char) (n : Nat) :
    Text.digitsValue (digits ++ List.replicate n '0') =
      Text.digitsValue digits * Nat.pow 10 n := by
  rw [digitsValue_eq, digitsValue_eq, Nat.ofDigitChars_append, Nat.ofDigitChars_replicate_zero,
    Nat.mul_comm]
  rfl

/-- Only the number zero begins with a zero. -/
theorem head?_toDigits {n : Nat} (hn : n ≠ 0) : (Nat.toDigits 10 n).head? ≠ some '0' := by
  induction n using Nat.strongRecOn with
  | _ n ih =>
    rw [Nat.toDigits_eq_if (by decide)]
    split
    · simpa using hn
    · have hquotient : n / 10 ≠ 0 := by omega
      have hhead := ih (n / 10) (by omega) hquotient
      cases hdigits : Nat.toDigits 10 (n / 10) with
      | nil => exact absurd hdigits Nat.toDigits_ne_nil
      | cons c rest =>
        rw [hdigits] at hhead
        simpa using hhead

/-! ## The parts of a number -/

/-- Digits that can be the whole part of a number: no zero stands needlessly before them. -/
structure IsWhole (digits : List Char) : Prop where
  ne_nil : digits ≠ []
  allDigits : AllDigits digits
  eq_zero : digits.head? = some '0' → digits = ['0']

theorem isWhole_toDigits (n : Nat) : IsWhole (Nat.toDigits 10 n) where
  ne_nil := Nat.toDigits_ne_nil
  allDigits := allDigits_toDigits n
  eq_zero h := by
    by_cases hn : n = 0
    · rw [hn, Nat.toDigits_zero]
    · exact absurd h (head?_toDigits hn)

/-- The digits of a positive number can be cut anywhere but before the first. -/
theorem isWhole_take {n k : Nat} (hn : n ≠ 0) (hk : 0 < k) :
    IsWhole ((Nat.toDigits 10 n).take k) where
  ne_nil := by
    simp only [ne_eq, List.take_eq_nil_iff, Nat.toDigits_ne_nil, or_false]
    omega
  allDigits := (allDigits_toDigits n).take k
  eq_zero h := by
    rw [List.head?_take, if_neg (by omega)] at h
    exact absurd h (head?_toDigits hn)

theorem isWhole_append_zeros {n : Nat} (hn : n ≠ 0) (k : Nat) :
    IsWhole (Nat.toDigits 10 n ++ List.replicate k '0') where
  ne_nil := by simp
  allDigits := (allDigits_toDigits n).append (allDigits_zeros k)
  eq_zero h := by
    cases hdigits : Nat.toDigits 10 n with
    | nil => exact absurd hdigits Nat.toDigits_ne_nil
    | cons c digits =>
      rw [hdigits] at h
      exact absurd (hdigits ▸ h) (head?_toDigits hn)

theorem readWhole?_append {digits rest : List Char} (hd : IsWhole digits) (hr : NoDigit rest) :
    readWhole? (digits ++ rest) = some (digits, rest) := by
  rw [readWhole?, takeWhile_digits hd.allDigits hr, dropWhile_digits hd.allDigits hr]
  split
  · exact absurd rfl hd.ne_nil
  · rfl
  · next more hmore => exact absurd (hd.eq_zero rfl) (by simpa using hmore)
  · rfl

/-- The fraction of a number, with its point. -/
def fractionText : List Char → List Char
  | [] => []
  | c :: rest => '.' :: c :: rest

/-- The exponent of a number, with its sign. -/
def exponentText : Option Int → List Char
  | none => []
  | some e => 'e' :: (if e < 0 then '-' else '+') :: Nat.toDigits 10 e.natAbs

theorem readFraction?_append {digits rest : List Char} (hd : AllDigits digits)
    (hr : NoDigit rest) (hpoint : rest.head? ≠ some '.') :
    readFraction? (fractionText digits ++ rest) = some (digits, rest) := by
  cases digits with
  | nil =>
    cases rest with
    | nil => rfl
    | cons c rest =>
      change readFraction? (c :: rest) = _
      unfold readFraction?
      split
      · next heq =>
        cases heq
        exact absurd rfl hpoint
      · rfl
  | cons c digits =>
    change readFraction? ('.' :: (c :: digits ++ rest)) = _
    simp only [readFraction?, takeWhile_digits hd hr, dropWhile_digits hd hr]
    rfl

theorem readExponentDigits?_append (negative : Bool) (n : Nat) {rest : List Char}
    (hr : NoDigit rest) :
    readExponentDigits? negative (Nat.toDigits 10 n ++ rest) =
      some (some (if negative then -(n : Int) else n), rest) := by
  simp [readExponentDigits?, takeWhile_digits (allDigits_toDigits n) hr,
    dropWhile_digits (allDigits_toDigits n) hr]

theorem readExponent?_append (e : Option Int) {rest : List Char} (hr : Ends rest) :
    readExponent? (exponentText e ++ rest) = some (e, rest) := by
  cases e with
  | none =>
    cases rest with
    | nil => rfl
    | cons c rest =>
      obtain ⟨-, -, he, hE⟩ := hr c rfl
      exact if_neg (not_or.mpr ⟨he, hE⟩)
  | some e =>
    by_cases hneg : e < 0
    · have hvalue : -(e.natAbs : Int) = e := by omega
      rw [exponentText, if_pos hneg]
      refine (readExponentDigits?_append true e.natAbs hr.noDigit).trans ?_
      rw [if_pos rfl, hvalue]
    · have hvalue : (e.natAbs : Int) = e := by omega
      rw [exponentText, if_neg hneg]
      refine (readExponentDigits?_append false e.natAbs hr.noDigit).trans ?_
      rw [if_neg Bool.false_ne_true, hvalue]

/-- **Numbers come apart where they were put together.**  Without a fraction or an exponent the
digits are a whole number, with either they are a decimal. -/
theorem readUnsigned_append (negative : Bool) {whole fraction rest : List Char} (e : Option Int)
    (hw : IsWhole whole) (hf : AllDigits fraction) (hr : Ends rest) :
    readUnsigned negative (whole ++ (fractionText fraction ++ (exponentText e ++ rest))) =
      ((if fraction.isEmpty && e.isNone then ofDigits? negative (Text.digitsValue whole)
          else ofScientific? negative
            ⟨Text.digitsValue (whole ++ fraction), e.getD 0 - fraction.length⟩).elim
        .unreadable .num, rest) := by
  have hexponent : NoDigit (exponentText e ++ rest) ∧
      (exponentText e ++ rest).head? ≠ some '.' := by
    cases e with
    | none =>
      refine ⟨hr.noDigit, fun hpoint => ?_⟩
      exact (hr '.' hpoint).2.1 rfl
    | some e => exact ⟨noDigit_cons _ rfl, by simp [exponentText]⟩
  have hfraction : NoDigit (fractionText fraction ++ (exponentText e ++ rest)) := by
    cases fraction with
    | nil => exact hexponent.1
    | cons c fraction => exact noDigit_cons _ rfl
  simp only [readUnsigned, readWhole?_append hw hfraction,
    readFraction?_append hf hexponent.1 hexponent.2, readExponent?_append e hr]
  generalize (if fraction.isEmpty && e.isNone then _ else _) = number?
  cases number? <;> rfl

/-! ## Decimals -/

/-- A decimal text with a point or an exponent, and what it is read as. -/
structure IsDecimal (text : List Char) (d : Scientific) (whole fraction : List Char)
    (e : Option Int) : Prop where
  text_eq : text = whole ++ (fractionText fraction ++ exponentText e)
  isWhole : IsWhole whole
  allDigits : AllDigits fraction
  notWhole : (fraction.isEmpty && e.isNone) = false
  nearest?_eq : Scientific.nearest? ⟨Text.digitsValue (whole ++ fraction),
    e.getD 0 - fraction.length⟩ = d.nearest?

theorem trimZeros_spec (fuel n : Nat) :
    n = (trimZeros fuel n).1 * Nat.pow 10 (trimZeros fuel n).2 := by
  induction fuel generalizing n with
  | zero => exact (Nat.mul_one n).symm
  | succ fuel ih =>
    rw [trimZeros]
    split
    · next h =>
      change n = (trimZeros fuel (n / 10)).1 * Nat.pow 10 ((trimZeros fuel (n / 10)).2 + 1)
      rw [Decimal.pow_ten_add, ← Nat.mul_assoc, ← ih (n / 10)]
      change n = n / 10 * 10
      omega
    · exact (Nat.mul_one n).symm

theorem fractionText_of_ne_nil {digits : List Char} (h : digits ≠ []) :
    fractionText digits = '.' :: digits := by
  cases digits with
  | nil => exact absurd rfl h
  | cons c digits => rfl

/-- Zeros between the point and the digits. -/
theorem isDecimal_zeros_before (n zeros : Nat) :
    IsDecimal (['0', '.'] ++ List.replicate zeros '0' ++ Nat.toDigits 10 n)
      ⟨n, -(zeros : Int) - (Nat.toDigits 10 n).length⟩ ['0']
      (List.replicate zeros '0' ++ Nat.toDigits 10 n) none where
  text_eq := by
    rw [fractionText_of_ne_nil (by simp)]
    simp [exponentText]
  isWhole := isWhole_toDigits 0
  allDigits := (allDigits_zeros zeros).append (allDigits_toDigits n)
  notWhole := by simp
  nearest?_eq := by
    have hvalue :
        Text.digitsValue (['0'] ++ (List.replicate zeros '0' ++ Nat.toDigits 10 n)) = n := by
      change Text.digitsValue (List.replicate 1 '0' ++ _) = n
      rw [digitsValue_zeros_append, digitsValue_zeros_append, digitsValue_toDigits]
    rw [hvalue]
    congr 2
    simp only [Option.getD_none, List.length_append, List.length_replicate]
    omega

/-- Zeros between the digits and the point. -/
theorem isDecimal_zeros_after {n : Nat} (hn : n ≠ 0) (zeros : Nat) :
    IsDecimal (Nat.toDigits 10 n ++ List.replicate zeros '0' ++ ['.', '0']) ⟨n, zeros⟩
      (Nat.toDigits 10 n ++ List.replicate zeros '0') ['0'] none where
  text_eq := by simp [fractionText, exponentText]
  isWhole := isWhole_append_zeros hn zeros
  allDigits := allDigits_zeros 1
  notWhole := rfl
  nearest?_eq := by
    have hvalue : Text.digitsValue (Nat.toDigits 10 n ++ List.replicate zeros '0' ++ ['0']) =
        n * Nat.pow 10 (zeros + 1) := by
      change Text.digitsValue (_ ++ List.replicate 1 '0') = _
      rw [digitsValue_append_zeros, digitsValue_append_zeros, digitsValue_toDigits,
        Decimal.pow_ten_add, Nat.mul_assoc]
    rw [hvalue, ← Scientific.nearest?_mul_pow n (zeros + 1) zeros]
    congr 2
    simp only [Option.getD_none, List.length_singleton]
    omega

/-- A point between the digits. -/
theorem isDecimal_point {n k : Nat} (hn : n ≠ 0) (hpos : 0 < k)
    (hlt : k < (Nat.toDigits 10 n).length) :
    IsDecimal ((Nat.toDigits 10 n).take k ++ '.' :: (Nat.toDigits 10 n).drop k)
      ⟨n, k - (Nat.toDigits 10 n).length⟩ ((Nat.toDigits 10 n).take k)
      ((Nat.toDigits 10 n).drop k) none where
  text_eq := by
    rw [fractionText_of_ne_nil (fun h => Nat.not_le.mpr hlt (List.drop_eq_nil_iff.mp h))]
    simp [exponentText]
  isWhole := isWhole_take hn hpos
  allDigits := (allDigits_toDigits n).drop k
  notWhole := by
    simp only [Option.isNone_none, Bool.and_true, List.isEmpty_eq_false_iff, ne_eq,
      List.drop_eq_nil_iff]
    exact Nat.not_le.mpr hlt
  nearest?_eq := by
    rw [List.take_append_drop, digitsValue_toDigits]
    congr 2
    simp only [Option.getD_none, List.length_drop]
    omega

theorem isDecimal_positional {n : Nat} (hn : n ≠ 0) (point : Int) {e : Int}
    (he : e = point - (Nat.toDigits 10 n).length) :
    ∃ whole fraction, IsDecimal (positional (Nat.toDigits 10 n) point) ⟨n, e⟩ whole fraction
      none := by
  subst he
  unfold positional
  split
  · have h := isDecimal_zeros_before n (-point).toNat
    rw [show -((-point).toNat : Int) = point by omega] at h
    exact ⟨_, _, h⟩
  · split
    · have h := isDecimal_zeros_after hn (point.toNat - (Nat.toDigits 10 n).length)
      rw [show ((point.toNat - (Nat.toDigits 10 n).length : Nat) : Int) =
        point - (Nat.toDigits 10 n).length by omega] at h
      exact ⟨_, _, h⟩
    · have h := isDecimal_point (k := point.toNat) hn (by omega) (by omega)
      rw [show (point.toNat : Int) = point by omega] at h
      exact ⟨_, _, h⟩

/-- One digit before the point, and an exponent. -/
theorem isDecimal_exponential {n : Nat} (hn : n ≠ 0) (exponent : Int) {e : Int}
    (he : e = exponent + 1 - (Nat.toDigits 10 n).length) :
    IsDecimal (exponential (Nat.toDigits 10 n) exponent) ⟨n, e⟩ ((Nat.toDigits 10 n).take 1)
      ((Nat.toDigits 10 n).drop 1) (some exponent) where
  text_eq := by
    unfold exponential
    cases (Nat.toDigits 10 n).drop 1 with
    | nil => simp [fractionText, exponentText]
    | cons c digits => simp [fractionText, exponentText]
  isWhole := isWhole_take hn (by decide)
  allDigits := (allDigits_toDigits n).drop 1
  notWhole := Bool.and_false _
  nearest?_eq := by
    have hlength : 0 < (Nat.toDigits 10 n).length := Nat.length_toDigits_pos
    rw [List.take_append_drop, digitsValue_toDigits]
    congr 2
    simp only [Option.getD_some, List.length_drop]
    omega

/-- **A decimal reads back by its value.** -/
theorem isDecimal_scientificText (d : Scientific) :
    ∃ whole fraction e, IsDecimal (scientificText d) d whole fraction e := by
  obtain ⟨significand, exponent⟩ := d
  have hsplit := trimZeros_spec (Decimal.digitCount significand) significand
  unfold scientificText
  generalize trimZeros (Decimal.digitCount significand) significand = trimmed at hsplit
  obtain ⟨n, zeros⟩ := trimmed
  change significand = n * Nat.pow 10 zeros at hsplit
  have hvalue : Scientific.nearest? ⟨n, exponent + zeros⟩ =
      Scientific.nearest? ⟨significand, exponent⟩ := by
    rw [hsplit, ← Scientific.nearest?_mul_pow n zeros (exponent + zeros)]
    congr 2
    omega
  by_cases hn : n = 0
  · refine ⟨['0'], ['0'], none, ?_, isWhole_toDigits 0, allDigits_zeros 1, rfl, ?_⟩
    · simp [hn, fractionText, exponentText]
    · rw [← hvalue, hn]
      simp [Scientific.nearest?, Text.digitsValue]
  · simp only [if_neg hn]
    split
    · obtain ⟨whole, fraction, h⟩ := isDecimal_positional hn
        (exponent + zeros + (Nat.toDigits 10 n).length) (e := exponent + zeros) (by omega)
      exact ⟨whole, fraction, none, h.text_eq, h.isWhole, h.allDigits, h.notWhole,
        h.nearest?_eq.trans hvalue⟩
    · have h := isDecimal_exponential hn
        (exponent + zeros + (Nat.toDigits 10 n).length - 1) (e := exponent + zeros) (by omega)
      exact ⟨_, _, _, h.text_eq, h.isWhole, h.allDigits, h.notWhole, h.nearest?_eq.trans hvalue⟩

/-! ## Numbers -/

/-- What stands where a number begins. -/
def Starts (text : List Char) : Prop :=
  ∃ c rest, text = c :: rest ∧ (c.isDigit = true ∨ c = '-')

theorem IsWhole.starts {digits : List Char} (h : IsWhole digits) (rest : List Char) :
    Starts (digits ++ rest) := by
  cases hdigits : digits with
  | nil => exact absurd hdigits h.ne_nil
  | cons c more => exact ⟨c, more ++ rest, rfl, Or.inl (h.allDigits c (by simp [hdigits]))⟩

theorem readLeaf_of_starts {digits : List Char} (h : IsWhole digits) (rest : List Char) :
    Document.readLeaf (digits ++ rest) = readUnsigned false (digits ++ rest) := by
  cases hdigits : digits with
  | nil => exact absurd hdigits h.ne_nil
  | cons c more =>
    have hc : c.isDigit = true := h.allDigits c (by simp [hdigits])
    rw [List.cons_append]
    generalize more ++ rest = tail
    unfold Document.readLeaf
    split
    -- No letter, quote or sign is a digit.
    all_goals first
      | rfl
      | next heq =>
        cases heq
        exact absurd hc (by decide)

/-- The text of a number, with or without a sign, is read by its digits. -/
theorem readLeaf_sign (negative : Bool) {whole : List Char} (hw : IsWhole whole)
    (rest : List Char) :
    Document.readLeaf ((if negative then '-' :: whole else whole) ++ rest) =
      readUnsigned negative (whole ++ rest) := by
  cases negative with
  | true => rfl
  | false => exact readLeaf_of_starts hw rest

theorem readUnsigned_toDigits (negative : Bool) (n : Nat) {rest : List Char} (hr : Ends rest) :
    readUnsigned negative (Nat.toDigits 10 n ++ rest) =
      ((ofDigits? negative n).elim .unreadable .num, rest) := by
  have hnil : AllDigits [] := fun c hc => absurd hc (List.not_mem_nil)
  have hread := readUnsigned_append negative none (isWhole_toDigits n) hnil hr
  rwa [digitsValue_toDigits] at hread

theorem ofDigits?_natAbs {n : Int} {i : Integer} (hi : Integer.ofInt? n = some i) :
    ofDigits? (decide (n < 0)) n.natAbs = some (.int i) := by
  have hsign : (decide (n < 0) && decide (n.natAbs = 0)) = false := by
    simp only [Bool.and_eq_false_iff, decide_eq_false_iff_not]
    omega
  have hvalue : (if decide (n < 0) = true then -(n.natAbs : Int) else n.natAbs) = n := by
    split
    · next h =>
      have := of_decide_eq_true h
      omega
    · next h =>
      have := of_decide_eq_false (Bool.eq_false_iff.mpr h)
      omega
  rw [ofDigits?, hsign, hvalue, hi]
  rfl

theorem readLeaf_intText {n : Int} {i : Integer} (hi : Integer.ofInt? n = some i)
    {rest : List Char} (hr : Ends rest) :
    Document.readLeaf (intText n ++ rest) = (.num (.int i), rest) := by
  have htext : intText n =
      if decide (n < 0) = true then '-' :: Nat.toDigits 10 n.natAbs
        else Nat.toDigits 10 n.natAbs := by
    by_cases h : n < 0 <;> simp [intText, h]
  rw [htext, readLeaf_sign _ (isWhole_toDigits _), readUnsigned_toDigits _ _ hr,
    ofDigits?_natAbs hi]
  rfl

/-- **A double reads back**, whatever its text looks like. -/
theorem readLeaf_doubleText (x : Double) {rest : List Char} (hr : Ends rest) :
    Document.readLeaf (doubleText x ++ rest) = (.num (.float x), rest) := by
  obtain ⟨whole, fraction, e, h⟩ := isDecimal_scientificText x.magnitude.shortest
  have hread := readUnsigned_append x.negative e h.isWhole h.allDigits hr
  rw [h.notWhole, ofScientific?, h.nearest?_eq, Magnitude.nearest?_shortest] at hread
  have htext : doubleText x ++ rest = (if x.negative then '-' :: whole else whole) ++
      (fractionText fraction ++ (exponentText e ++ rest)) := by
    unfold doubleText
    rw [h.text_eq]
    cases x.negative <;> simp
  rw [htext, readLeaf_sign x.negative h.isWhole, hread]
  rfl

/-- Whole numbers up to `2 ^ 53` fit a word. -/
theorem exists_integer_of_toInt? {x : Double} {n : Int} (h : x.toInt? = some n) :
    ∃ i, Integer.ofInt? n = some i := by
  have hbound : -0x20000000000000 ≤ n ∧ n ≤ 0x20000000000000 := by
    unfold Double.toInt? at h
    split at h
    · split at h
      · cases h
        split <;> omega
      · cases h
    · cases h
  exact ⟨⟨n, by omega, by omega⟩, dif_pos ⟨by omega, by omega⟩⟩

/-- How numbers are written, and which number is read back. -/
structure ReadsBack (write : Number → List Char) (back : Number → Number) : Prop where
  starts : ∀ n, Starts (write n)
  readLeaf_eq : ∀ n {rest : List Char}, Ends rest →
    Document.readLeaf (write n ++ rest) = (.num (back n), rest)

theorem starts_intText (n : Int) : Starts (intText n) := by
  unfold intText
  split
  · exact ⟨'-', _, rfl, Or.inr rfl⟩
  · have h := (isWhole_toDigits n.natAbs).starts []
    rwa [List.append_nil] at h

theorem starts_doubleText (x : Double) : Starts (doubleText x) := by
  obtain ⟨whole, fraction, e, h⟩ := isDecimal_scientificText x.magnitude.shortest
  unfold doubleText
  rw [h.text_eq]
  cases x.negative with
  | true => exact ⟨'-', _, rfl, Or.inr rfl⟩
  | false => exact h.isWhole.starts _

/-- The plain text reads back as the same number. -/
theorem readsBack_text : ReadsBack text id where
  starts n := by
    cases n with
    | int n => exact starts_intText n.val
    | float x => exact starts_doubleText x
  readLeaf_eq n rest hr := by
    cases n with
    | int n => exact readLeaf_intText n.ofInt?_val hr
    | float x => exact readLeaf_doubleText x hr

/-- The canonical text reads back as the number with whole doubles made integers. -/
theorem readsBack_canonicalText : ReadsBack canonicalText norm where
  starts n := by
    cases n with
    | int n => exact starts_intText n.val
    | float x =>
      cases hx : x.toInt? with
      | none => simpa only [canonicalText, hx] using starts_doubleText x
      | some n => simpa only [canonicalText, hx] using starts_intText n
  readLeaf_eq n rest hr := by
    cases n with
    | int n => exact readLeaf_intText n.ofInt?_val hr
    | float x =>
      cases hx : x.toInt? with
      | none =>
        simpa only [canonicalText, norm, hx, Option.bind_none] using readLeaf_doubleText x hr
      | some n =>
        obtain ⟨i, hi⟩ := exists_integer_of_toInt? hx
        simpa only [canonicalText, norm, hx, Option.bind_some, hi] using readLeaf_intText hi hr

end Custody.Number
