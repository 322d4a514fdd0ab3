/-
  GraphSchema.Proofs.Number.Integral — doubles and the integers they equal.

  A double is a number with a sign (`Double.value`), and the integer found for it is the one it
  equals (`toInt?_eq_some_iff`): a fraction equals none, and the two zeros equal the same. An
  integer that is no double is rounded to one, but not below the power of two with as many
  binary digits (`twoPow_le_magnitude_of_ofRatio?`), so a large integer is not rounded to a
  small one.
-/

import GraphSchema.Proofs.Number.Shortest

namespace GraphSchema

namespace Double

variable {x : Double}

/-! ## The integer that a double equals -/

/-- The number, with its sign. -/
def value (x : Double) : ℚ := if x.negative then -x.magnitude else x.magnitude

theorem denominator_pos (x : Double) : 0 < x.denominator := Nat.two_pow_pos _

theorem numerator_eq (x : Double) : (x.numerator : ℚ) = x.magnitude * x.denominator := by
  have htwo := zpow_mul_pow_neg (b := 2) (by norm_num) x.exponent
  simp only [numerator, denominator, magnitude, Nat.pow_eq, Nat.cast_mul, Nat.cast_pow,
    Nat.cast_ofNat, ← htwo]
  ring

theorem magnitude_eq_intCast_iff {n : ℤ} :
    x.magnitude = n ↔
      x.numerator % x.denominator = 0 ∧ (x.numerator : ℤ) / x.denominator = n := by
  have hpos : (0 : ℤ) < x.denominator := Int.natCast_pos.mpr x.denominator_pos
  have hne : (x.denominator : ℚ) ≠ 0 := Nat.cast_ne_zero.mpr x.denominator_pos.ne'
  have hproduct : x.magnitude = n ↔ (x.numerator : ℤ) = n * x.denominator := by
    rw [← mul_left_inj' hne, ← numerator_eq]
    norm_cast
  rw [hproduct, ← Nat.dvd_iff_mod_eq_zero, ← Int.natCast_dvd_natCast]
  constructor
  · intro h
    rw [h]
    exact ⟨Int.dvd_mul_left .., Int.mul_ediv_cancel n hpos.ne'⟩
  · intro h
    obtain ⟨hdvd, hquotient⟩ := h
    rw [← hquotient, Int.ediv_mul_cancel hdvd]

/-- The integer found is the one that the double equals, and it is found if there is one. -/
theorem toInt?_eq_some_iff {n : ℤ} : x.toInt? = some n ↔ x.value = n := by
  have hsigned : x.value = n ↔ x.magnitude = ((if x.negative then -n else n : ℤ) : ℚ) := by
    rw [value]
    split
    · rw [Int.cast_neg, neg_eq_iff_eq_neg]
    · rfl
  rw [hsigned, magnitude_eq_intCast_iff, toInt?]
  by_cases hwhole : x.numerator % x.denominator = 0
  · rw [if_pos hwhole, Option.some.injEq]
    split
    · rw [neg_eq_iff_eq_neg]
      simp [hwhole]
    · simp [hwhole]
  · rw [if_neg hwhole]
    simp [hwhole]

/-! ## Rounding an integer -/

variable {negative : Bool} {n : ℕ}

theorem exponentFor_one (h : n ≠ 0) : exponentFor n 1 = n.log2 - 52 := by
  have hlog := Nat.log2_self_le h
  have hlow : max (-1074) ((n.log2 : ℤ) - (1 : ℕ).log2 - 53) = n.log2 - 53 := by
    have hone : (1 : ℕ).log2 = 0 := rfl
    rw [hone]
    omega
  have hbound : (n.log2 : ℤ) - 53 + 53 = n.log2 := by omega
  have hnonneg : (-(n.log2 : ℤ)).toNat = 0 := by omega
  simp only [exponentFor, hlow, hbound, Int.toNat_natCast, hnonneg, Nat.pow_eq, pow_zero, one_mul,
    mul_one, if_pos hlog]
  omega

theorem div_le_roundHalfEven (num den : ℕ) : num / den ≤ roundHalfEven num den := by
  unfold roundHalfEven
  dsimp only
  split
  · exact le_rfl
  split
  · exact Nat.le_succ _
  split
  · exact le_rfl
  · exact Nat.le_succ _

/-- Rounded to the unit for its size, an integer keeps 53 binary digits. -/
theorem twoPow_le_roundTo (h : n ≠ 0) : 2 ^ 52 ≤ roundTo n 1 (n.log2 - 52) := by
  have hlog := Nat.log2_self_le h
  refine le_trans ?_ (div_le_roundHalfEven _ _)
  rw [Nat.pow_eq, Nat.pow_eq, one_mul, Nat.le_div_iff_mul_le (Nat.two_pow_pos _)]
  rcases le_total 52 n.log2 with hle | hle
  · have hup : ((n.log2 : ℤ) - 52).toNat = n.log2 - 52 := by omega
    have hdown : (-((n.log2 : ℤ) - 52)).toNat = 0 := by omega
    rw [hup, hdown, ← pow_add, pow_zero, mul_one, Nat.add_sub_cancel' hle]
    exact hlog
  · have hup : ((n.log2 : ℤ) - 52).toNat = 0 := by omega
    have hdown : (-((n.log2 : ℤ) - 52)).toNat = 52 - n.log2 := by omega
    calc 2 ^ 52 * 2 ^ ((n.log2 : ℤ) - 52).toNat
        = 2 ^ n.log2 * 2 ^ (52 - n.log2) := by
          rw [hup, pow_zero, mul_one, ← pow_add, Nat.add_sub_cancel' hle]
      _ ≤ n * 2 ^ (-((n.log2 : ℤ) - 52)).toNat := by
        rw [hdown]
        exact Nat.mul_le_mul_right _ hlog

/-- The double an integer is rounded to is not below the power of two with as many digits. -/
theorem twoPow_le_magnitude_of_ofRatio? (h : n ≠ 0) (hx : ofRatio? negative n 1 = some x) :
    2 ^ n.log2 ≤ x.magnitude := by
  have hround := twoPow_le_roundTo h
  have hunit : (2 : ℚ) ^ n.log2 = 2 ^ 52 * 2 ^ ((n.log2 : ℤ) - 52) := by
    rw [← zpow_natCast 2 n.log2, ← zpow_natCast 2 52, ← zpow_add₀ (by norm_num)]
    congr 1
    omega
  simp only [ofRatio?, if_neg h, exponentFor_one h] at hx
  rw [hunit, magnitude]
  split at hx
  · -- The digits were all ones and became a one with zeros: half of it in the unit twice as large.
    obtain ⟨-, hsignificand, hexponent⟩ := ofParts?_eq_some_iff.mp hx
    rw [hsignificand, hexponent, Nat.pow_eq, Nat.cast_pow, Nat.cast_ofNat]
    refine mul_le_mul_of_nonneg_left (zpow_le_zpow_right₀ (by norm_num) (by omega)) (by norm_num)
  · obtain ⟨-, hsignificand, hexponent⟩ := ofParts?_eq_some_iff.mp hx
    rw [hsignificand, hexponent]
    refine mul_le_mul_of_nonneg_right ?_ (by positivity)
    exact_mod_cast hround

/-- The integer that an integer was rounded to has at least as many binary digits. -/
theorem twoPow_le_natAbs_of_ofInt? {m k : ℤ} (h : m ≠ 0) (hx : ofInt? m = some x)
    (hk : x.toInt? = some k) : 2 ^ m.natAbs.log2 ≤ k.natAbs := by
  have hmagnitude := twoPow_le_magnitude_of_ofRatio? (Int.natAbs_ne_zero.mpr h) hx
  have habs : x.magnitude = k.natAbs := by
    have hvalue := toInt?_eq_some_iff.mp hk
    have hnonneg : 0 ≤ x.magnitude := by
      unfold magnitude
      positivity
    rw [value] at hvalue
    rw [Nat.cast_natAbs, Int.cast_abs, ← hvalue]
    split
    · rw [abs_neg, abs_of_nonneg hnonneg]
    · rw [abs_of_nonneg hnonneg]
  rw [habs] at hmagnitude
  exact_mod_cast hmagnitude

end Double

end GraphSchema
