import Custody.Proofs.Canonical
import Mathlib.Data.Rat.Floor
import Mathlib.Tactic.Ring

/-!
# The values of numbers

A number stands for a rational number, a double for the one that its bit pattern means.  The
canonical text of a double is an integer literal exactly if its value is an integer of magnitude at
most `2 ^ 53`, and then a literal of just that value; the text of any other double shows that it is
one.  So numbers of equal value have one canonical text, but for an integer and a double past that
bound.
-/

namespace Custody

namespace Decimal

/-! ## Doubles and their values -/

theorem cast_one_shiftLeft (k : ℕ) : ((1 <<< k : ℕ) : ℚ) = 2 ^ (k : ℤ) := by
  rw [Nat.shiftLeft_eq, Nat.one_mul, Nat.cast_pow, Nat.cast_ofNat, zpow_natCast]

theorem unitsPerOne_eq : (unitsPerOne : ℚ) = 2 ^ (1074 : ℤ) := cast_one_shiftLeft 1074

theorem unitsPerOne_ne_zero : (unitsPerOne : ℚ) ≠ 0 :=
  Nat.cast_ne_zero.mpr (Nat.ne_of_gt unitsPerOne_pos)

namespace Double

/-- The number that a double stands for. -/
def value (x : Double) : ℚ := x.signedUnits / unitsPerOne

/-- The number that a finite bit pattern means: a sign, an exponent of eleven bits and a fraction of
52, which has a one before it but for the lowest exponent. -/
def patternValue (bits : UInt64) : ℚ :=
  let sign : ℚ := if bits.toNat < 2 ^ 63 then 1 else -1
  let exponent : ℕ := bits.toNat / 2 ^ 52 % 2 ^ 11
  let fraction : ℚ := (bits.toNat % 2 ^ 52 : ℕ) / 2 ^ 52
  if exponent = 0 then sign * fraction * 2 ^ (-1022 : ℤ)
  else sign * (1 + fraction) * 2 ^ ((exponent : ℤ) - 1023)

/-- The word that a double is cast to: what stands before the point, or the word next to that if it
fits none. -/
def toInt64 (x : Double) : Int64 :=
  Int64.ofIntClamp (if 0 ≤ x.value then ⌊x.value⌋ else ⌈x.value⌉)

theorem value_eq_intCast_iff {x : Double} {n : ℤ} :
    x.value = n ↔ x.signedUnits = n * unitsPerOne := by
  rw [value, div_eq_iff unitsPerOne_ne_zero]
  exact_mod_cast Iff.rfl

theorem value_inj {x y : Double} : x.value = y.value ↔ x.signedUnits = y.signedUnits := by
  rw [value, value, div_left_inj' unitsPerOne_ne_zero, Int.cast_inj]

theorem value_eq (x : Double) :
    x.value = (if x.negative then -1 else 1) * x.magnitude.mantissa *
      2 ^ ((x.magnitude.exponent : ℤ) - 1074) := by
  have hunits : (x.magnitude.units : ℚ) =
      x.magnitude.mantissa * 2 ^ (x.magnitude.exponent : ℤ) := by
    rw [Magnitude.units, Nat.shiftLeft_eq, Nat.cast_mul, Nat.cast_pow, Nat.cast_ofNat, zpow_natCast]
  rw [value, unitsPerOne_eq, signedUnits, zpow_sub₀ two_ne_zero]
  cases x.negative with
  | true =>
    rw [if_pos rfl, if_pos rfl, Int.cast_neg, Int.cast_natCast, hunits]
    ring
  | false =>
    rw [if_neg Bool.false_ne_true, if_neg Bool.false_ne_true, Int.cast_natCast, hunits]
    ring

theorem two_zpow_sub (k : ℤ) : (2 : ℚ) ^ (k - 52) = 2 ^ k / 2 ^ 52 :=
  zpow_sub₀ two_ne_zero k 52

/-- The sign is the highest bit. -/
theorem sign_eq (n : ℕ) : (if decide (2 ^ 63 ≤ n) then (-1 : ℚ) else 1) =
    if n < 2 ^ 63 then 1 else -1 := by
  by_cases h : n < 2 ^ 63
  · rw [if_pos h, if_neg (by simpa using h)]
  · rw [if_neg h, if_pos (by simpa using h)]

/-- **Every finite bit pattern is that of a double**, of the value that the pattern means. -/
theorem exists_ofBits? {bits : UInt64} (h : bits.toNat / 2 ^ 52 % 2 ^ 11 ≠ 0x7ff) :
    ∃ x, ofBits? bits = some x ∧ x.value = patternValue bits := by
  have hfraction : bits.toNat % 2 ^ 52 < 2 ^ 52 := Nat.mod_lt _ (by decide)
  have hexponent : bits.toNat / 2 ^ 52 % 2 ^ 11 < 2 ^ 11 := Nat.mod_lt _ (by decide)
  unfold ofBits? patternValue
  simp only [← sign_eq]
  change ∃ x, Option.map _ (if bits.toNat / 2 ^ 52 % 2 ^ 11 = 0 then
    Magnitude.ofParts? (bits.toNat % 2 ^ 52) 0 else
    Magnitude.ofParts? (2 ^ 52 + bits.toNat % 2 ^ 52) (bits.toNat / 2 ^ 52 % 2 ^ 11 - 1)) =
      some x ∧ _
  generalize bits.toNat / 2 ^ 52 % 2 ^ 11 = exponent at *
  generalize bits.toNat % 2 ^ 52 = fraction at *
  split
  · let x : Magnitude := ⟨fraction, 0, by omega, by decide, Or.inl rfl⟩
    refine ⟨⟨decide (2 ^ 63 ≤ bits.toNat), x⟩, congrArg (Option.map _) x.ofParts?_self, ?_⟩
    rw [value_eq, show ((x.exponent : ℕ) : ℤ) - 1074 = -1022 - 52 from rfl, two_zpow_sub]
    ring
  · let x : Magnitude := ⟨2 ^ 52 + fraction, exponent - 1, by omega, by omega, Or.inr (by omega)⟩
    have hpower : ((x.exponent : ℕ) : ℤ) - 1074 = (exponent : ℤ) - 1023 - 52 := by
      show ((exponent - 1 : ℕ) : ℤ) - 1074 = _
      omega
    refine ⟨⟨decide (2 ^ 63 ≤ bits.toNat), x⟩, congrArg (Option.map _) x.ofParts?_self, ?_⟩
    have hleading : ((2 ^ 52 + fraction : ℕ) : ℚ) / 2 ^ 52 = 1 + fraction / 2 ^ 52 := by
      rw [Nat.cast_add, Nat.cast_pow, Nat.cast_ofNat, add_div, div_self (by norm_num)]
    rw [value_eq, hpower, two_zpow_sub, ← hleading]
    ring

/-! ## Whole doubles -/

/-- Integers within the bound, as integers and as rational numbers. -/
theorem abs_intCast_le_iff {n : ℤ} : |(n : ℚ)| ≤ 2 ^ 53 ↔ n.natAbs ≤ 0x20000000000000 := by
  rw [← Int.cast_abs, Int.abs_eq_natAbs, Int.cast_natCast]
  exact_mod_cast Iff.rfl

/-- **A double is written as an integer by its value.** -/
theorem toInt?_eq_some_iff_value {x : Double} {n : ℤ} :
    x.toInt? = some n ↔ x.value = n ∧ |x.value| ≤ 2 ^ 53 := by
  rw [toInt?_eq_some_iff, ← value_eq_intCast_iff]
  constructor
  · rintro ⟨hvalue, hle⟩
    refine ⟨hvalue, ?_⟩
    rw [hvalue]
    exact abs_intCast_le_iff.mpr hle
  · rintro ⟨hvalue, hle⟩
    rw [hvalue] at hle
    exact ⟨hvalue, abs_intCast_le_iff.mp hle⟩

theorem exists_toInt?_iff {x : Double} :
    (∃ n, x.toInt? = some n) ↔ (∃ n : ℤ, x.value = n) ∧ |x.value| ≤ 2 ^ 53 := by
  simp only [toInt?_eq_some_iff_value, exists_and_right]

/-- A cast loses nothing of a whole double. -/
theorem toInt_toInt64 {x : Double} {n : ℤ} (h : x.toInt? = some n) : x.toInt64.toInt = n := by
  obtain ⟨hvalue, hle⟩ := toInt?_eq_some_iff.mp h
  rw [← value_eq_intCast_iff] at hvalue
  rw [toInt64, hvalue, Int.floor_intCast, Int.ceil_intCast, ite_self]
  have hmin : Int64.minValue.toInt = -0x8000000000000000 := rfl
  have hmax : Int64.maxValue.toInt = 0x7fffffffffffffff := rfl
  exact Int64.toInt_ofIntClamp (by omega) (by omega)

/-! ## One double for each value -/

end Double

theorem Magnitude.eq_of_units {x y : Magnitude} (h : x.units = y.units) : x = y := by
  have hexponent : x.exponent = y.exponent := by
    rw [← log2_units x, h, log2_units y]
  have hmantissa : x.mantissa = y.mantissa := by
    rw [units, units, hexponent, Nat.shiftLeft_eq, Nat.shiftLeft_eq] at h
    exact Nat.eq_of_mul_eq_mul_right (Nat.two_pow_pos _) h
  cases x
  cases y
  cases hexponent
  cases hmantissa
  rfl

namespace Double

theorem negative_eq {x : Double} (h : x.signedUnits ≠ 0) :
    x.negative = decide (x.signedUnits < 0) := by
  unfold signedUnits at h ⊢
  by_cases hneg : x.negative = true
  · rw [if_pos hneg] at h ⊢
    rw [hneg]
    exact (decide_eq_true (by omega)).symm
  · rw [if_neg hneg] at h ⊢
    rw [Bool.eq_false_iff.mpr hneg]
    exact (decide_eq_false (by omega)).symm

/-- Only zero is the value of two doubles. -/
theorem eq_of_value {x y : Double} (h : x.value = y.value) (hne : x.value ≠ 0) : x = y := by
  have hsigned : x.signedUnits = y.signedUnits := value_inj.mp h
  have hx : x.signedUnits ≠ 0 := by
    intro hzero
    rw [value, hzero, Int.cast_zero, zero_div] at hne
    exact hne rfl
  have hmagnitude : x.magnitude = y.magnitude := by
    apply Magnitude.eq_of_units
    rw [← natAbs_signedUnits, hsigned, natAbs_signedUnits]
  have hnegative : x.negative = y.negative := by
    rw [negative_eq hx, hsigned, negative_eq (hsigned ▸ hx)]
  cases x
  cases y
  cases hmagnitude
  cases hnegative
  rfl

end Double

end Decimal

namespace Number

open Decimal (Double)

/-! ## Literals -/

/-- The literals of an integer: digits without a needless zero before them, and a minus only if it
is negative. -/
inductive Literal (n : ℤ) : List Char → Prop where
  | natural {digits : List Char} : IsWhole digits → n = Text.digitsValue digits →
      Literal n digits
  | negative {digits : List Char} : IsWhole digits → n = -(Text.digitsValue digits : ℤ) → n ≠ 0 →
      Literal n ('-' :: digits)

theorem literal_intText (n : ℤ) : Literal n (intText n) := by
  unfold intText
  split
  · refine .negative (isWhole_toDigits _) ?_ (by omega)
    rw [digitsValue_toDigits]
    omega
  · refine .natural (isWhole_toDigits _) ?_
    rw [digitsValue_toDigits]
    omega

theorem IsWhole.ne_minus {digits rest : List Char} (h : IsWhole digits) : digits ≠ '-' :: rest := by
  rintro rfl
  exact absurd (h.allDigits '-' List.mem_cons_self) (by decide)

/-- A literal has one value. -/
theorem Literal.eq {m n : ℤ} {cs : List Char} (hm : Literal m cs) (hn : Literal n cs) : m = n := by
  cases hm with
  | natural hwhole hm =>
    generalize hcs : cs = other at hn
    cases hn with
    | natural _ hn => rw [hm, hn, hcs]
    | negative => exact absurd hcs hwhole.ne_minus
  | negative _ hm =>
    cases hn with
    | natural hwhole => exact absurd rfl hwhole.ne_minus
    | negative _ hn => rw [hm, hn]

/-- What shows that a number is a double: a point or an exponent. -/
def Marked (cs : List Char) : Prop := '.' ∈ cs ∨ 'e' ∈ cs

theorem Literal.not_marked {n : ℤ} {cs : List Char} (h : Literal n cs) : ¬Marked cs := by
  have hdigits : ∀ digits : List Char, IsWhole digits → '.' ∉ digits ∧ 'e' ∉ digits := by
    intro digits hwhole
    exact ⟨fun hmem => absurd (hwhole.allDigits _ hmem) (by decide),
      fun hmem => absurd (hwhole.allDigits _ hmem) (by decide)⟩
  cases h with
  | natural hwhole =>
    obtain ⟨hpoint, hexponent⟩ := hdigits _ hwhole
    exact not_or.mpr ⟨hpoint, hexponent⟩
  | negative hwhole =>
    obtain ⟨hpoint, hexponent⟩ := hdigits _ hwhole
    refine not_or.mpr ⟨?_, ?_⟩
    · exact List.not_mem_cons_of_ne_of_not_mem (by decide) hpoint
    · exact List.not_mem_cons_of_ne_of_not_mem (by decide) hexponent

theorem marked_doubleText (x : Double) : Marked (doubleText x) := by
  obtain ⟨whole, fraction, e, h⟩ := isDecimal_scientificText x.magnitude.shortest
  have hmarked : Marked (scientificText x.magnitude.shortest) := by
    rw [h.text_eq]
    cases fraction with
    | cons c rest => exact Or.inl (by simp [fractionText])
    | nil =>
      cases e with
      | none => cases h.notWhole
      | some e => exact Or.inr (by simp [exponentText])
  unfold doubleText
  split
  · exact hmarked.imp (List.mem_cons_of_mem _) (List.mem_cons_of_mem _)
  · exact hmarked

/-! ## Values -/

/-- The number that a JSON number stands for. -/
def value : Number → ℚ
  | .int n => n.val
  | .float x => x.value

/-- An integer and a double of a magnitude past the bound. -/
inductive Apart : Number → Number → Prop where
  | left (n : Integer) {x : Double} : 2 ^ 53 < |x.value| → Apart (.int n) (.float x)
  | right {x : Double} (n : Integer) : 2 ^ 53 < |x.value| → Apart (.float x) (.int n)

theorem norm_float_eq_int_iff_value {x : Double} {i : Integer} :
    norm (.float x) = .int i ↔ x.value = i.val ∧ |x.value| ≤ 2 ^ 53 := by
  rw [norm_float_eq_int_iff, ← Double.toInt?_eq_some_iff, Double.toInt?_eq_some_iff_value]

/-- Making a double an integer leaves its value. -/
theorem value_norm (n : Number) : n.norm.value = n.value := by
  cases n with
  | int i => rfl
  | float x =>
    cases hx : x.toInt? with
    | none => rw [norm_of_toInt?_eq_none hx]
    | some m =>
      obtain ⟨i, -, hi⟩ := norm_of_toInt? hx
      rw [hi]
      exact (norm_float_eq_int_iff_value.mp hi).1.symm

/-- **The canonical text tells numbers apart** as far as they are not made the same integer. -/
theorem canonicalText_eq_iff {m n : Number} :
    m.canonicalText = n.canonicalText ↔ m.norm = n.norm := by
  constructor
  · intro h
    have hm := readsBack_canonicalText.readLeaf_eq m ends_nil
    rw [h, readsBack_canonicalText.readLeaf_eq n ends_nil, Prod.mk.injEq] at hm
    exact (Document.num.inj hm.1).symm
  · intro h
    rw [← canonicalText_norm m, h, canonicalText_norm n]

theorem norm_float_eq_iff {x y : Double} :
    norm (.float x) = norm (.float y) ↔ x.value = y.value := by
  constructor
  · intro h
    have hvalue := congrArg value h
    rwa [value_norm, value_norm] at hvalue
  · intro h
    cases hx : x.toInt? with
    | some n =>
      obtain ⟨i, -, hi⟩ := norm_of_toInt? hx
      have hvalue := norm_float_eq_int_iff_value.mp hi
      rw [h] at hvalue
      rw [hi, norm_float_eq_int_iff_value.mpr hvalue]
    | none =>
      -- Zero is an integer within the bound, so this double is another, and the only one of its
      -- value.
      have hne : x.value ≠ 0 := by
        intro hzero
        have hwhole : x.toInt? = some 0 := by
          rw [Double.toInt?_eq_some_iff_value, hzero]
          norm_num
        rw [hx] at hwhole
        cases hwhole
      rw [Double.eq_of_value h hne]

theorem apart_comm {m n : Number} : Apart m n ↔ Apart n m := by
  constructor <;>
  · rintro (⟨i, h⟩ | ⟨i, h⟩)
    · exact .right i h
    · exact .left i h

theorem norm_int_eq_iff {i j : Integer} :
    norm (.int i) = norm (.int j) ↔ value (.int i) = value (.int j) := by
  constructor
  · intro h
    rw [← value_norm, h, value_norm]
  · intro h
    have hval : i.val = j.val := Int.cast_inj.mp h
    cases i
    cases j
    cases hval
    rfl

/-- An integer is what a double is made if they have one value, within the bound. -/
theorem norm_int_eq_float_iff {i : Integer} {x : Double} :
    norm (.int i) = norm (.float x) ↔
      value (.int i) = value (.float x) ∧ ¬Apart (.int i) (.float x) := by
  show Number.int i = norm (.float x) ↔ _
  rw [eq_comm, norm_float_eq_int_iff_value]
  constructor
  · rintro ⟨hvalue, hle⟩
    refine ⟨hvalue.symm, ?_⟩
    rintro ⟨-, hlt⟩
    exact not_lt.mpr hle hlt
  · rintro ⟨hvalue, hapart⟩
    exact ⟨hvalue.symm, not_lt.mp fun hlt => hapart (.left i hlt)⟩

theorem norm_eq_iff {m n : Number} : m.norm = n.norm ↔ m.value = n.value ∧ ¬Apart m n := by
  cases m with
  | int i =>
    cases n with
    | int j =>
      rw [norm_int_eq_iff, and_iff_left]
      rintro ⟨⟩
    | float y => exact norm_int_eq_float_iff
  | float x =>
    cases n with
    | int j => rw [eq_comm, norm_int_eq_float_iff, eq_comm, apart_comm]
    | float y =>
      rw [norm_float_eq_iff]
      refine (and_iff_left ?_).symm
      rintro ⟨⟩

/-! ## Texts and values -/

/-- The canonical text of a double whose value is written as an integer. -/
theorem canonicalText_of_toInt? {x : Double} {n : ℤ} (h : x.toInt? = some n) :
    canonicalText (.float x) = intText n := by
  rw [canonicalText, h]

theorem canonicalText_of_toInt?_eq_none {x : Double} (h : x.toInt? = none) :
    canonicalText (.float x) = doubleText x := by
  rw [canonicalText, h]

theorem literal_canonicalText_iff {x : Double} {n : ℤ} :
    Literal n (canonicalText (.float x)) ↔ x.toInt? = some n := by
  cases hx : x.toInt? with
  | some m =>
    rw [canonicalText_of_toInt? hx, Option.some.injEq]
    constructor
    · intro h
      exact (literal_intText m).eq h
    · rintro rfl
      exact literal_intText m
  | none =>
    rw [canonicalText_of_toInt?_eq_none hx]
    constructor
    · intro h
      exact absurd (marked_doubleText x) h.not_marked
    · intro h
      cases h

/-- A text that is no literal shows a double, and is read back as it. -/
theorem marked_of_not_literal {x : Double} (h : ¬∃ n, Literal n (canonicalText (.float x))) :
    Marked (canonicalText (.float x)) ∧
      Json.parse? (canonicalText (.float x)) = some (.num (.float x)) := by
  have hnone : x.toInt? = none := by
    cases hx : x.toInt? with
    | none => rfl
    | some n => exact absurd ⟨n, literal_canonicalText_iff.mpr hx⟩ h
  refine ⟨?_, ?_⟩
  · rw [canonicalText_of_toInt?_eq_none hnone]
    exact marked_doubleText x
  · have hdepth : (Json.num (.float x)).depth ≤ 127 := Nat.zero_le 127
    have hread := Json.parse?_canonical (.num (.float x))
    rwa [Json.canonical, String.toList_ofList, if_pos hdepth, Json.norm,
      norm_of_toInt?_eq_none hnone] at hread

theorem exists_integer {n : ℤ} (hlower : -2 ^ 63 ≤ n) (hupper : n < 2 ^ 64) :
    ∃ i, Integer.ofInt? n = some i ∧ Literal n (canonicalText (.int i)) :=
  ⟨⟨n, by omega, by omega⟩, dif_pos ⟨by omega, by omega⟩, literal_intText n⟩

/-- **The canonical text of a number tells its value.**  Each finite bit pattern is that of a double
of the value that the pattern means.  A double is written as an integer literal exactly if its value
is an integer of magnitude at most `2 ^ 53`; the literal then has that value and so has the word
that the double is cast to.  Any other double has a point or an exponent in its text and is read
back from it.  Integers of 64 bits are written in decimal.  Two numbers share their text exactly if
they have one value and are not an integer and a double past the bound. -/
theorem canonicalText_tells_value :
    (∀ bits : UInt64, bits.toNat / 2 ^ 52 % 2 ^ 11 ≠ 0x7ff →
      ∃ x, Double.ofBits? bits = some x ∧ x.value = Double.patternValue bits) ∧
    (∀ x : Double,
      ((∃ n, Literal n (canonicalText (.float x))) ↔
        (∃ n : ℤ, x.value = n) ∧ |x.value| ≤ 2 ^ 53) ∧
      (∀ n, Literal n (canonicalText (.float x)) → x.value = n ∧ x.toInt64.toInt = n) ∧
      ((¬∃ n, Literal n (canonicalText (.float x))) →
        Marked (canonicalText (.float x)) ∧
          Json.parse? (canonicalText (.float x)) = some (.num (.float x)))) ∧
    (∀ n : ℤ, -2 ^ 63 ≤ n → n < 2 ^ 64 →
      ∃ i, Integer.ofInt? n = some i ∧ Literal n (canonicalText (.int i))) ∧
    ∀ m n : Number, m.canonicalText = n.canonicalText ↔ m.value = n.value ∧ ¬Apart m n := by
  refine ⟨fun bits => Double.exists_ofBits?, ?_, fun n => exists_integer, ?_⟩
  · intro x
    refine ⟨?_, ?_, marked_of_not_literal⟩
    · simp only [literal_canonicalText_iff]
      exact Double.exists_toInt?_iff
    · intro n h
      have hwhole := literal_canonicalText_iff.mp h
      exact ⟨(Double.toInt?_eq_some_iff_value.mp hwhole).1, Double.toInt_toInt64 hwhole⟩
  · intro m n
    rw [canonicalText_eq_iff, norm_eq_iff]

/-- Minus `2 ^ 53` is still written as an integer, the double after `2 ^ 53` is not. -/
theorem canonicalText_tells_value_bound :
    ∃ x y : Double, Double.ofBits? 0xC340000000000000 = some x ∧
      x.value = Double.patternValue 0xC340000000000000 ∧
      x.value = (-0x20000000000000 : ℤ) ∧ x.toInt64.toInt = -0x20000000000000 ∧
      Double.ofBits? 0x4340000000000001 = some y ∧ Marked (canonicalText (.float y)) ∧
      Json.parse? (canonicalText (.float y)) = some (.num (.float y)) ∧
      ∃ i, Integer.ofInt? (-2 ^ 63) = some i ∧ Literal (-2 ^ 63) (canonicalText (.int i)) := by
  obtain ⟨hpatterns, hdoubles, hintegers, -⟩ := canonicalText_tells_value
  obtain ⟨x, hx, hpattern⟩ := hpatterns 0xC340000000000000 (by decide)
  obtain ⟨y, hy, -⟩ := hpatterns 0x4340000000000001 (by decide)
  have hwhole : x.toInt? = some (-0x20000000000000) := by
    have : (Double.ofBits? 0xC340000000000000).bind Double.toInt? = some (-0x20000000000000) := by
      decide +kernel
    rwa [hx] at this
  have hnone : y.toInt? = none := by
    have : (Double.ofBits? 0x4340000000000001).bind Double.toInt? = none := by decide +kernel
    rwa [hy] at this
  obtain ⟨hvalue, hcast⟩ := (hdoubles x).2.1 _ (literal_canonicalText_iff.mpr hwhole)
  have hliteral : ¬∃ n, Literal n (canonicalText (.float y)) := by
    rintro ⟨n, h⟩
    rw [literal_canonicalText_iff, hnone] at h
    cases h
  obtain ⟨hmarked, hread⟩ := (hdoubles y).2.2 hliteral
  exact ⟨x, y, hx, hpattern, hvalue, hcast, hy, hmarked, hread,
    hintegers (-2 ^ 63) (by decide) (by decide)⟩

/-- The sign of zero is not written. -/
example : canonicalText (.float ⟨true, .zero⟩) = ['0'] := by decide +kernel

end Number

end Custody
