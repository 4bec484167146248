import Custody.Decimal.Shortest

/-!
# Decimals read back

Rounding looks at the value of a decimal and at nothing else: zeros may move between its
significand and its exponent.  The exact value of a magnitude is rounded to that magnitude, whether
it is normal or not, so the shortest decimal of a magnitude reads back as it.
-/

namespace Custody.Decimal

/-! ## Rounding depends on the quotient -/

theorem roundDiv_mul_mul {c : Nat} (hc : 0 < c) (a b : Nat) :
    roundDiv (a * c) (b * c) = roundDiv a b := by
  have hdiv : a * c / (b * c) = a / b := Nat.mul_div_mul_right a b hc
  have hmod : a * c % (b * c) = a % b * c := Nat.mul_mod_mul_right c a b
  have hlow : 2 * (a % b * c) < b * c ↔ 2 * (a % b) < b := by
    rw [← Nat.mul_assoc, Nat.mul_lt_mul_right hc]
  have hhigh : b * c < 2 * (a % b * c) ↔ b < 2 * (a % b) := by
    rw [← Nat.mul_assoc, Nat.mul_lt_mul_right hc]
  simp only [roundDiv, hdiv, hmod, hlow, hhigh]

/-- A quotient without a remainder needs no rounding. -/
theorem roundDiv_mul_self {b : Nat} (hb : 0 < b) (q : Nat) : roundDiv (q * b) b = q := by
  have hmod : q * b % b = 0 := Nat.mul_mod_left q b
  simp only [roundDiv, hmod, Nat.mul_div_cancel q hb]
  rw [if_pos (by omega)]

theorem shiftLeft_mul (a c n : Nat) : (a * c) <<< n = (a <<< n) * c := by
  rw [Nat.shiftLeft_eq, Nat.shiftLeft_eq, Nat.mul_right_comm]

theorem nearestQuotient?_mul_mul {c : Nat} (hc : 0 < c) (a b : Nat) :
    nearestQuotient? (a * c) (b * c) = nearestQuotient? a b := by
  have hunits : a * c * unitsPerOne = a * unitsPerOne * c := Nat.mul_right_comm a c unitsPerOne
  simp only [nearestQuotient?, hunits, Nat.mul_div_mul_right _ _ hc, shiftLeft_mul,
    roundDiv_mul_mul hc]

/-! ## Moving zeros -/

theorem pow_ten_pos (k : Nat) : 0 < Nat.pow 10 k :=
  Nat.pow_pos (by decide)

theorem pow_ten_add (m n : Nat) : Nat.pow 10 (m + n) = Nat.pow 10 m * Nat.pow 10 n :=
  Nat.pow_add 10 m n

theorem digitCount_mul_pow {n : Nat} (hn : 0 < n) (k : Nat) :
    digitCount (n * Nat.pow 10 k) = digitCount n + k := by
  induction k with
  | zero => rw [show n * Nat.pow 10 0 = n from Nat.mul_one n, Nat.add_zero]
  | succ k ih =>
    have hpos : 0 < n * Nat.pow 10 k := Nat.mul_pos hn (pow_ten_pos k)
    have hsucc : n * Nat.pow 10 (k + 1) = 10 * (n * Nat.pow 10 k) + 0 := by
      rw [pow_ten_add, show Nat.pow 10 1 = 10 from rfl, ← Nat.mul_assoc]
      omega
    rw [hsucc, digitCount, ← Nat.toDigits_append_toDigits (by decide) hpos (by decide),
      List.length_append, ← Nat.add_assoc, ← ih]
    rfl

/-- **A decimal is read by its value.**  Zeros may be moved from the exponent to the significand. -/
theorem Scientific.nearest?_mul_pow (s k : Nat) (e : Int) :
    Scientific.nearest? ⟨s * Nat.pow 10 k, e - k⟩ = Scientific.nearest? ⟨s, e⟩ := by
  by_cases hs : s = 0
  · subst hs
    simp [nearest?]
  have hpos : 0 < s := Nat.pos_of_ne_zero hs
  have hne : s * Nat.pow 10 k ≠ 0 := Nat.ne_of_gt (Nat.mul_pos hpos (pow_ten_pos k))
  have htop : e - (k : Int) + (digitCount (s * Nat.pow 10 k) : Int) = e + digitCount s := by
    rw [digitCount_mul_pow hpos]
    omega
  simp only [nearest?, if_neg hs, if_neg hne, htop]
  -- Within the limits both sides round a quotient; where the sign of the exponent changes, the
  -- power of ten moves from the divisor to the dividend.
  have hquotient :
      (if 0 ≤ e - (k : Int) then
          nearestQuotient? (s * Nat.pow 10 k * Nat.pow 10 (e - k).toNat) 1
        else nearestQuotient? (s * Nat.pow 10 k) (Nat.pow 10 (-(e - k)).toNat)) =
        if 0 ≤ e then nearestQuotient? (s * Nat.pow 10 e.toNat) 1
        else nearestQuotient? s (Nat.pow 10 (-e).toNat) := by
    by_cases he : 0 ≤ e
    · rw [if_pos he]
      by_cases hek : 0 ≤ e - (k : Int)
      · rw [if_pos hek, Nat.mul_assoc, ← pow_ten_add]
        congr 3
        omega
      · rw [if_neg hek, ← nearestQuotient?_mul_mul (pow_ten_pos (-(e - k)).toNat) _ 1,
          Nat.mul_assoc, ← pow_ten_add, Nat.one_mul]
        congr 3
        omega
    · rw [if_neg he, if_neg (by omega), ← nearestQuotient?_mul_mul (pow_ten_pos k) s,
        ← pow_ten_add]
      congr 2
      omega
  rw [hquotient]

/-! ## The exact value of a magnitude -/

namespace Magnitude

/-- The exponent of a magnitude can be told from its value. -/
theorem log2_units (x : Magnitude) : x.units.log2 - 52 = x.exponent := by
  have hlt : x.mantissa < 2 ^ 53 := x.mantissa_lt
  rcases x.normal with hexp | hnormal
  · have hunits : x.units = x.mantissa := by
      rw [units, hexp, Nat.shiftLeft_zero]
    by_cases hzero : x.mantissa = 0
    · rw [hunits, hzero, hexp]
      rfl
    · have := (Nat.log2_lt hzero).mpr hlt
      rw [hunits, hexp]
      omega
  · have hge : 2 ^ 52 ≤ x.mantissa := hnormal
    have hunits : x.units = x.mantissa * 2 ^ x.exponent := Nat.shiftLeft_eq _ _
    have hne : x.units ≠ 0 := by
      rw [hunits]
      exact Nat.ne_of_gt (Nat.mul_pos (by omega) (Nat.two_pow_pos _))
    have hlower : 52 + x.exponent ≤ x.units.log2 := by
      rw [Nat.le_log2 hne, hunits, Nat.pow_add]
      exact Nat.mul_le_mul_right _ hge
    have hupper : x.units.log2 < 53 + x.exponent := by
      rw [Nat.log2_lt hne, hunits, Nat.pow_add]
      exact Nat.mul_lt_mul_of_pos_right hlt (Nat.two_pow_pos _)
    omega

/-- A quotient that is exactly a magnitude is rounded to it. -/
theorem nearestQuotient?_of_eq (x : Magnitude) {a b : Nat} (hb : 0 < b)
    (h : a * unitsPerOne = x.units * b) : nearestQuotient? a b = some x := by
  have hshift : (a * unitsPerOne / b).log2 - 52 = x.exponent := by
    rw [h, Nat.mul_div_cancel _ hb, log2_units]
  have hmantissa : roundDiv (a * unitsPerOne) (b <<< x.exponent) = x.mantissa := by
    have hproduct : x.units * b = x.mantissa * (b <<< x.exponent) := by
      rw [units, Nat.shiftLeft_eq, Nat.shiftLeft_eq, Nat.mul_assoc, Nat.mul_comm b]
    have hpos : 0 < b <<< x.exponent := by
      rw [Nat.shiftLeft_eq]
      exact Nat.mul_pos hb (Nat.two_pow_pos _)
    rw [h, hproduct, roundDiv_mul_self hpos]
  have hne : x.mantissa ≠ 0x20000000000000 := Nat.ne_of_lt x.mantissa_lt
  simp only [nearestQuotient?, hshift, hmantissa, if_neg hne, ofParts?_self]

theorem units_lt {x : Magnitude} {e : Nat} (h : x.exponent ≤ e) :
    x.units < Nat.pow 2 53 * Nat.pow 2 e := by
  have hlt : x.mantissa < 2 ^ 53 := x.mantissa_lt
  have hpow : 2 ^ x.exponent ≤ 2 ^ e := Nat.pow_le_pow_right (by decide) h
  rw [units, Nat.shiftLeft_eq]
  exact Nat.mul_lt_mul_of_lt_of_le hlt hpow (Nat.two_pow_pos _)

theorem units_pos {x : Magnitude} (h : x.mantissa ≠ 0) : 0 < x.units := by
  rw [units, Nat.shiftLeft_eq]
  exact Nat.mul_pos (Nat.pos_of_ne_zero h) (Nat.two_pow_pos _)

theorem eq_zero_of_mantissa {x : Magnitude} (h : x.mantissa = 0) : x = zero := by
  obtain ⟨mantissa, exponent, hlt, hle, hnormal⟩ := x
  change mantissa = 0 at h
  subst h
  rcases hnormal with rfl | hge
  · rfl
  · exact absurd hge (by decide)

end Magnitude

/-- Within the limits a negative exponent is a power of ten to divide by. -/
theorem Scientific.nearest?_of_neg {s k : Nat} (hs : 0 < s) (hk : 0 < k)
    (hlow : k ≤ digitCount s + 340) (hhigh : digitCount s ≤ k + 320) :
    Scientific.nearest? ⟨s, -(k : Int)⟩ = nearestQuotient? s (Nat.pow 10 k) := by
  have hneg : -(-(k : Int)) = k := Int.neg_neg _
  simp only [nearest?, if_neg (Nat.ne_of_gt hs), hneg, Int.toNat_natCast]
  rw [if_neg (by omega), if_neg (by omega), if_neg (by omega)]

namespace Magnitude

theorem pow_five_pos : 0 < Nat.pow 5 1074 := by decide +kernel

theorem pow_five_ge : Nat.pow 10 733 ≤ Nat.pow 5 1074 := by decide +kernel

theorem pow_five_le : Nat.pow 2 53 * Nat.pow 2 2045 * Nat.pow 5 1074 ≤ Nat.pow 10 1394 := by
  decide +kernel

theorem pow_five_mul_unitsPerOne : Nat.pow 5 1074 * unitsPerOne = Nat.pow 10 1074 := by
  decide +kernel

theorem lt_digitCount {n k : Nat} (hk : 0 < k) (h : Nat.pow 10 k ≤ n) : k < digitCount n := by
  apply Nat.lt_of_not_le
  intro hle
  have hlt : n < Nat.pow 10 k := (Nat.length_toDigits_le_iff (by decide) hk).mp hle
  exact absurd h (Nat.not_le.mpr hlt)

theorem digitCount_le {n k : Nat} (hk : 0 < k) (h : n < Nat.pow 10 k) : digitCount n ≤ k :=
  (Nat.length_toDigits_le_iff (by decide) hk).mpr h

/-- The leading digit of the exact value stands where reading does not cut it off. -/
theorem digitCount_exact {x : Magnitude} (h : x.mantissa ≠ 0) :
    1074 ≤ digitCount (x.units * Nat.pow 5 1074) + 340 ∧
      digitCount (x.units * Nat.pow 5 1074) ≤ 1074 + 320 := by
  have hlower : Nat.pow 10 733 ≤ x.units * Nat.pow 5 1074 :=
    Nat.le_trans pow_five_ge (Nat.le_mul_of_pos_left _ (units_pos h))
  have hunits : x.units < Nat.pow 2 53 * Nat.pow 2 2045 := units_lt x.exponent_le
  have hupper : x.units * Nat.pow 5 1074 < Nat.pow 10 1394 :=
    Nat.lt_of_lt_of_le (Nat.mul_lt_mul_of_pos_right hunits pow_five_pos) pow_five_le
  have hmany := lt_digitCount (by decide) hlower
  exact ⟨Nat.add_le_add_right hmany 340, digitCount_le (by decide) hupper⟩

theorem nearest?_exactDecimal {x : Magnitude} (h : x.mantissa ≠ 0) :
    x.exactDecimal.nearest? = some x := by
  obtain ⟨hlow, hhigh⟩ := digitCount_exact h
  have hpos : 0 < x.units * Nat.pow 5 1074 := Nat.mul_pos (units_pos h) pow_five_pos
  have hten : 0 < Nat.pow 10 1074 := by decide +kernel
  have hvalue : x.units * Nat.pow 5 1074 * unitsPerOne = x.units * Nat.pow 10 1074 := by
    rw [Nat.mul_assoc, pow_five_mul_unitsPerOne]
  have hread := Scientific.nearest?_of_neg hpos (by decide) hlow hhigh
  exact hread.trans (nearestQuotient?_of_eq x hten hvalue)

/-- **The shortest decimal reads back.**  A candidate is taken only if it does, and the exact value
does in any case. -/
theorem nearest?_shortest (x : Magnitude) : x.shortest.nearest? = some x := by
  by_cases hzero : x.mantissa = 0
  · rw [shortest, if_pos hzero, eq_zero_of_mantissa hzero]
    rfl
  · simp only [shortest, if_neg hzero]
    cases hfound : (List.range 17).findSome? fun (n : Nat) =>
        (x.neighbours (x.decimalOrder - n)).find? fun d => d.nearest? = some x with
    | none => exact nearest?_exactDecimal hzero
    | some d =>
      obtain ⟨n, -, hn⟩ := List.exists_of_findSome?_eq_some hfound
      have hd := List.find?_some hn
      exact of_decide_eq_true hd

end Magnitude

/-! ## Whole doubles -/

theorem unitsPerOne_pos : 0 < unitsPerOne := by decide +kernel

theorem Magnitude.toNat?_eq_some_iff {x : Magnitude} {n : Nat} :
    x.toNat? = some n ↔ x.units = n * unitsPerOne := by
  unfold toNat?
  constructor
  · intro h
    split at h
    · next hmod =>
      cases h
      exact (Nat.div_mul_cancel (Nat.dvd_of_mod_eq_zero hmod)).symm
    · cases h
  · intro h
    rw [h, Nat.mul_mod_left, if_pos rfl, Nat.mul_div_cancel n unitsPerOne_pos]

namespace Double

/-- The value with its sign, counted in units of `2 ^ -1074`. -/
def signedUnits (x : Double) : Int :=
  if x.negative then -(x.magnitude.units : Int) else x.magnitude.units

theorem natAbs_signedUnits (x : Double) : x.signedUnits.natAbs = x.magnitude.units := by
  unfold signedUnits
  split
  · rw [Int.natAbs_neg, Int.natAbs_natCast]
  · exact Int.natAbs_natCast _

/-- The whole numbers that doubles are turned into are those of at most 53 bits, each from the
doubles of its value. -/
theorem toInt?_eq_some_iff {x : Double} {n : Int} :
    x.toInt? = some n ↔ x.signedUnits = n * unitsPerOne ∧ n.natAbs ≤ 0x20000000000000 := by
  have hone : (0 : Int) < unitsPerOne := Int.natCast_pos.mpr unitsPerOne_pos
  unfold toInt?
  constructor
  · intro h
    split at h
    · next m hm =>
      have hunits := Magnitude.toNat?_eq_some_iff.mp hm
      split at h
      · next hle =>
        rw [Option.some.injEq] at h
        subst h
        unfold signedUnits
        rw [hunits]
        cases x.negative with
        | true =>
          refine ⟨?_, by simpa using hle⟩
          rw [if_pos rfl, if_pos rfl, Int.natCast_mul, Int.neg_mul]
        | false =>
          refine ⟨?_, by simpa using hle⟩
          rw [if_neg Bool.false_ne_true, if_neg Bool.false_ne_true, Int.natCast_mul]
      · cases h
    · cases h
  · rintro ⟨hvalue, hle⟩
    have hunits : x.magnitude.units = n.natAbs * unitsPerOne := by
      rw [← natAbs_signedUnits, hvalue, Int.natAbs_mul, Int.natAbs_natCast]
    rw [Magnitude.toNat?_eq_some_iff.mpr hunits]
    simp only [if_pos hle, Option.some.injEq]
    unfold signedUnits at hvalue
    split at hvalue
    · next hneg =>
      have hnonpos : n * unitsPerOne ≤ 0 * unitsPerOne := by omega
      have := Int.le_of_mul_le_mul_right hnonpos hone
      rw [if_pos hneg]
      omega
    · next hneg =>
      have hnonneg : 0 * (unitsPerOne : Int) ≤ n * unitsPerOne := by omega
      have := Int.le_of_mul_le_mul_right hnonneg hone
      rw [if_neg hneg]
      omega

end Double

end Custody.Decimal
