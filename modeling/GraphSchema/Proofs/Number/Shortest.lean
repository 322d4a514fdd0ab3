/-
  GraphSchema.Proofs.Number.Shortest — the digits of a double tell which one it is.

  The numbers that round to a double (`Double.RoundsFrom`) lie between half a unit below it
  and half a unit above it, a fourth of one below a power of two; the ends round to it when
  its significand is even. Intervals of neighbours touch at most, and of two neighbours one
  is odd, so no number rounds to two doubles (`eq_of_roundsFrom`).

  The digits a double is written with stand for a number that rounds to it
  (`exists_shortest`): on the grid of seventeen digits one of the two points next to the
  double does, since the grid is finer than half of the interval
  (`isSome_gridPoint?`), so the search for a grid ends.
-/

import GraphSchema.Number.Shortest
import GraphSchema.Proofs.Number.Digits
import Mathlib.Algebra.Order.Field.Power
import Mathlib.Data.List.TakeWhile
import Mathlib.Tactic.Linarith
import Mathlib.Tactic.NormNum
import Mathlib.Tactic.Positivity
import Mathlib.Tactic.Ring

namespace GraphSchema

/-! ## Powers on the side where they count -/

theorem zpow_mul_pow_neg {b : ℚ} (hb : b ≠ 0) (k : ℤ) :
    b ^ k * b ^ (-k).toNat = b ^ k.toNat := by
  rw [← zpow_natCast, ← zpow_natCast, ← zpow_add₀ hb]
  congr 1
  omega

/-- What makes whole numbers of `a * 2 ^ e` and of `c * 10 ^ k`. -/
def clearing (e k : ℤ) : ℚ := 2 ^ (-e).toNat * 10 ^ (-k).toNat

theorem clearing_pos (e k : ℤ) : 0 < clearing e k := by
  unfold clearing
  positivity

theorem cast_binary (a : ℕ) (e k : ℤ) :
    ((a * Nat.pow 2 e.toNat * Nat.pow 10 (-k).toNat : ℕ) : ℚ) = a * 2 ^ e * clearing e k := by
  have htwo := zpow_mul_pow_neg (b := 2) (by norm_num) e
  simp only [Nat.pow_eq, Nat.cast_mul, Nat.cast_pow, Nat.cast_ofNat, ← htwo, clearing]
  ring

theorem cast_decimal (c : ℕ) (e k : ℤ) :
    ((c * Nat.pow 10 k.toNat * Nat.pow 2 (-e).toNat : ℕ) : ℚ) = c * 10 ^ k * clearing e k := by
  have hten := zpow_mul_pow_neg (b := 10) (by norm_num) k
  simp only [Nat.pow_eq, Nat.cast_mul, Nat.cast_pow, Nat.cast_ofNat, ← hten, clearing]
  ring

theorem binary_le_decimal_iff {a c : ℕ} {e k : ℤ} :
    a * Nat.pow 2 e.toNat * Nat.pow 10 (-k).toNat ≤ c * Nat.pow 10 k.toNat * Nat.pow 2 (-e).toNat ↔
      (a * 2 ^ e : ℚ) ≤ c * 10 ^ k := by
  rw [← Nat.cast_le (α := ℚ), cast_binary, cast_decimal, mul_le_mul_iff_left₀ (clearing_pos e k)]

theorem decimal_le_binary_iff {a c : ℕ} {e k : ℤ} :
    c * Nat.pow 10 k.toNat * Nat.pow 2 (-e).toNat ≤ a * Nat.pow 2 e.toNat * Nat.pow 10 (-k).toNat ↔
      (c * 10 ^ k : ℚ) ≤ a * 2 ^ e := by
  rw [← Nat.cast_le (α := ℚ), cast_binary, cast_decimal, mul_le_mul_iff_left₀ (clearing_pos e k)]

namespace Double

variable {x y : Double} {q : ℚ} {c : ℕ} {k : ℤ}

/-! ## What rounds to a double -/

/-- A fourth of the unit of the significand. -/
def quarter (x : Double) : ℚ := 2 ^ (x.exponent - 2)

theorem quarter_pos (x : Double) : 0 < x.quarter := by
  unfold quarter
  positivity

def magnitude (x : Double) : ℚ := x.significand * 2 ^ x.exponent

theorem magnitude_eq (x : Double) : x.magnitude = 4 * x.significand * x.quarter := by
  rw [magnitude, quarter, zpow_sub₀ (by norm_num)]
  ring

/-- The number lies in the interval around `x`, inside or at an end that counts. -/
structure RoundsFrom (x : Double) (q : ℚ) : Prop where
  low_le : x.lowQuarters * x.quarter ≤ q
  le_high : q ≤ x.highQuarters * x.quarter
  even_of_low : q = x.lowQuarters * x.quarter → x.significand % 2 = 0
  even_of_high : q = x.highQuarters * x.quarter → x.significand % 2 = 0

theorem roundsFrom_iff : x.roundsFrom c k = true ↔ x.RoundsFrom (c * 10 ^ k) := by
  have low := binary_le_decimal_iff (a := x.lowQuarters) (c := c) (e := x.exponent - 2) (k := k)
  have high := decimal_le_binary_iff (a := x.highQuarters) (c := c) (e := x.exponent - 2) (k := k)
  have below := binary_le_decimal_iff (a := x.highQuarters) (c := c) (e := x.exponent - 2) (k := k)
  have above := decimal_le_binary_iff (a := x.lowQuarters) (c := c) (e := x.exponent - 2) (k := k)
  rw [roundsFrom]
  split
  · rename_i even
    rw [Bool.and_eq_true, decide_eq_true_iff, decide_eq_true_iff, low, high]
    exact ⟨fun h => ⟨h.1, h.2, fun _ => even, fun _ => even⟩, fun h => ⟨h.low_le, h.le_high⟩⟩
  · rename_i odd
    rw [Bool.and_eq_true, decide_eq_true_iff, decide_eq_true_iff, ← not_le, ← not_le, above, below,
      not_le, not_le]
    constructor
    · intro h
      exact ⟨h.1.le, h.2.le, fun heq => absurd heq h.1.ne', fun heq => absurd heq h.2.ne⟩
    · intro h
      exact ⟨lt_of_le_of_ne h.low_le fun heq => odd (h.even_of_low heq.symm),
        lt_of_le_of_ne h.le_high fun heq => odd (h.even_of_high heq)⟩

theorem RoundsFrom.of_between (hlow : x.lowQuarters * x.quarter < q)
    (hhigh : q < x.highQuarters * x.quarter) : x.RoundsFrom q :=
  ⟨hlow.le, hhigh.le, fun heq => absurd heq hlow.ne', fun heq => absurd heq hhigh.ne⟩

/-! ## No number rounds to two doubles -/

def Precedes (x y : Double) : Prop :=
  x.exponent < y.exponent ∨ x.exponent = y.exponent ∧ x.significand < y.significand

/-- The interval of a double ends before that of a later one starts; where they touch, one
of the two is odd. -/
theorem high_le_low (h : x.Precedes y) :
    x.highQuarters ≤ y.lowQuarters * 2 ^ (y.exponent - x.exponent).toNat ∧
      (x.highQuarters = y.lowQuarters * 2 ^ (y.exponent - x.exponent).toNat →
        x.significand % 2 = 1 ∨ y.significand % 2 = 1) := by
  obtain ⟨xbound, -, -, -⟩ := x.canonical
  obtain ⟨ybound, -, -, ynormal⟩ := y.canonical
  obtain ⟨-, xleast, -, xnormal⟩ := x.canonical
  have two52 : Nat.pow 2 52 = 4503599627370496 := rfl
  have two53 : Nat.pow 2 53 = 9007199254740992 := rfl
  rw [two52] at xnormal ynormal
  rw [two53] at xbound ybound
  unfold highQuarters lowQuarters
  rw [two52]
  rcases h with hexponent | ⟨hexponent, hsignificand⟩
  · -- The unit of the later one is at least twice as large.
    obtain ⟨d, hd⟩ : ∃ d, (y.exponent - x.exponent).toNat = d + 1 :=
      ⟨(y.exponent - x.exponent).toNat - 1, by omega⟩
    have hwide : 18014398509481983 ≤ 4 * y.significand -
        (if y.significand = 4503599627370496 ∧ -1074 < y.exponent then 1 else 2) := by
      split <;> omega
    generalize 4 * y.significand - _ = low at hwide ⊢
    have hscale : low * 2 ≤ low * 2 ^ (d + 1) :=
      Nat.mul_le_mul_left low (Nat.le_self_pow (by omega) 2)
    rw [hd]
    exact ⟨by omega, fun heq => by omega⟩
  · rw [hexponent, sub_self, Int.toNat_zero, pow_zero, mul_one]
    split <;> omega

theorem not_roundsFrom_of_precedes (h : x.Precedes y) (hx : x.RoundsFrom q) : ¬ y.RoundsFrom q := by
  intro hy
  obtain ⟨hle, hodd⟩ := high_le_low h
  have hunit : y.quarter = 2 ^ (y.exponent - x.exponent).toNat * x.quarter := by
    have hexponent : x.exponent ≤ y.exponent := by
      rcases h with h | h
      · exact h.le
      · exact h.1.le
    rw [quarter, quarter, ← zpow_natCast, ← zpow_add₀ (by norm_num)]
    congr 1
    omega
  have hlow : (y.lowQuarters : ℚ) * y.quarter =
      (y.lowQuarters * 2 ^ (y.exponent - x.exponent).toNat : ℕ) * x.quarter := by
    rw [hunit]
    push_cast
    ring
  have hends : (x.highQuarters : ℚ) * x.quarter ≤ y.lowQuarters * y.quarter := by
    rw [hlow]
    exact mul_le_mul_of_nonneg_right (Nat.cast_le.mpr hle) x.quarter_pos.le
  -- So the number is where the intervals touch, and the end counts for both.
  have hxhigh : q = x.highQuarters * x.quarter := le_antisymm hx.le_high (hends.trans hy.low_le)
  have hylow : q = y.lowQuarters * y.quarter := le_antisymm (hx.le_high.trans hends) hy.low_le
  have htouch : x.highQuarters = y.lowQuarters * 2 ^ (y.exponent - x.exponent).toNat := by
    have := mul_right_cancel₀ x.quarter_pos.ne' (hxhigh.symm.trans (hylow.trans hlow))
    exact_mod_cast this
  have xeven := hx.even_of_high hxhigh
  have yeven := hy.even_of_low hylow
  rcases hodd htouch with xodd | yodd
  · omega
  · omega

theorem eq_of_roundsFrom (hx : x.RoundsFrom q) (hy : y.RoundsFrom q) :
    x.significand = y.significand ∧ x.exponent = y.exponent := by
  have hxy : ¬ x.Precedes y := fun h => not_roundsFrom_of_precedes h hx hy
  have hyx : ¬ y.Precedes x := fun h => not_roundsFrom_of_precedes h hy hx
  unfold Precedes at hxy hyx
  omega

/-! ## The first digit -/

theorem isZero_eq_false_iff : x.isZero = false ↔ 0 < x.significand := by
  rw [isZero, beq_eq_false_iff_ne, Nat.pos_iff_ne_zero]

theorem atLeastPowerOfTen_iff : x.atLeastPowerOfTen k = true ↔ 10 ^ k ≤ x.magnitude := by
  have := decimal_le_binary_iff (a := x.significand) (c := 1) (e := x.exponent) (k := k)
  rw [Nat.one_mul, Nat.cast_one, one_mul, Nat.mul_comm (Nat.pow 10 k.toNat)] at this
  rw [atLeastPowerOfTen, decide_eq_true_iff, magnitude, ← this]
  rfl

/-- A power of ten by its estimated exponent, less one, is at most the power of two: the
logarithm of two lies between `28 / 93` and `59 / 196`, close enough for these exponents. -/
theorem tenPow_le_twoPow {e m : ℤ} (hlow : -1074 ≤ e) (hhigh : e ≤ 1023)
    (hm : (m + 1) * 100000 ≤ e * 30103) : (10 : ℚ) ^ m ≤ 2 ^ e := by
  rcases le_or_gt m 0 with hneg | hpos
  · rcases le_or_gt 0 e with he | he
    · exact (zpow_le_one_of_nonpos₀ (by norm_num) hneg).trans (one_le_zpow₀ (by norm_num) he)
    · obtain ⟨a, rfl⟩ : ∃ a : ℕ, m = -a := ⟨m.natAbs, by omega⟩
      obtain ⟨b, rfl⟩ : ∃ b : ℕ, e = -b := ⟨e.natAbs, by omega⟩
      have hpow : (2 : ℕ) ^ b ≤ 10 ^ a := by
        refine (Nat.pow_le_pow_iff_left (n := 93) (by norm_num)).mp ?_
        calc (2 ^ b) ^ 93 = (2 ^ 93) ^ b := by rw [← pow_mul, ← pow_mul, Nat.mul_comm]
          _ ≤ (10 ^ 28) ^ b := Nat.pow_le_pow_left (by norm_num) b
          _ = 10 ^ (28 * b) := by rw [← pow_mul]
          _ ≤ 10 ^ (a * 93) := Nat.pow_le_pow_right (by norm_num) (by omega)
          _ = (10 ^ a) ^ 93 := by rw [pow_mul]
      rw [zpow_neg, zpow_neg, zpow_natCast, zpow_natCast]
      exact inv_anti₀ (by positivity) (by exact_mod_cast hpow)
  · obtain ⟨a, rfl⟩ : ∃ a : ℕ, m = a := ⟨m.natAbs, by omega⟩
    obtain ⟨b, rfl⟩ : ∃ b : ℕ, e = b := ⟨e.natAbs, by omega⟩
    have hpow : (10 : ℕ) ^ a ≤ 2 ^ b := by
      refine (Nat.pow_le_pow_iff_left (n := 59) (by norm_num)).mp ?_
      calc (10 ^ a) ^ 59 = (10 ^ 59) ^ a := by rw [← pow_mul, ← pow_mul, Nat.mul_comm]
        _ ≤ (2 ^ 196) ^ a := Nat.pow_le_pow_left (by norm_num) a
        _ = 2 ^ (196 * a) := by rw [← pow_mul]
        _ ≤ 2 ^ (b * 59) := Nat.pow_le_pow_right (by norm_num) (by omega)
        _ = (2 ^ b) ^ 59 := by rw [pow_mul]
    rw [zpow_natCast, zpow_natCast]
    exact_mod_cast hpow

theorem twoPow_le_magnitude (h : x.isZero = false) :
    (2 : ℚ) ^ ((x.significand.log2 : ℤ) + x.exponent) ≤ x.magnitude := by
  rw [magnitude, zpow_add₀ (by norm_num), zpow_natCast]
  refine mul_le_mul_of_nonneg_right ?_ (by positivity)
  exact_mod_cast Nat.log2_self_le (isZero_eq_false_iff.mp h).ne'

theorem tenPow_decimalExponent_le (h : x.isZero = false) : 10 ^ x.decimalExponent ≤ x.magnitude := by
  rw [decimalExponent]
  split
  · rename_i hmore
    exact atLeastPowerOfTen_iff.mp hmore
  split
  · rename_i hguess
    exact atLeastPowerOfTen_iff.mp hguess
  · obtain ⟨hbound, hleast, hgreatest, -⟩ := x.canonical
    have hlog : x.significand.log2 < 53 := (Nat.log2_lt (isZero_eq_false_iff.mp h).ne').mpr hbound
    refine (tenPow_le_twoPow (by omega) (by omega) ?_).trans (twoPow_le_magnitude h)
    rw [sub_add_cancel]
    exact Int.mul_le_of_le_ediv (by norm_num) (Int.fdiv_eq_ediv_of_nonneg _ (by norm_num)).le

/-! ## Seventeen digits suffice -/

theorem roundHalfEven_eq (num den : ℕ) :
    roundHalfEven num den = num / den ∨ roundHalfEven num den = num / den + 1 := by
  unfold roundHalfEven
  dsimp only
  split
  · exact Or.inl rfl
  split
  · exact Or.inr rfl
  split
  · exact Or.inl rfl
  · exact Or.inr rfl

theorem roundsFrom_of_gridPoint? (h : x.gridPoint? k = some c) : x.roundsFrom c k = true := by
  unfold gridPoint? at h
  dsimp only at h
  split at h
  · rename_i hbelow habove
    cases h
    rcases roundHalfEven_eq (x.numerator * Nat.pow 10 (-k).toNat)
      (x.denominator * Nat.pow 10 k.toNat) with heq | heq
    · rwa [heq]
    · rwa [heq]
  · rename_i hbelow habove
    cases h
    exact hbelow
  · rename_i hbelow habove
    cases h
    exact habove
  · cases h

/-- The grid points next to the double, a step apart. -/
theorem exists_gridPoints (x : Double) (k : ℤ) : ∃ below : ℕ,
    (below : ℚ) * 10 ^ k ≤ x.magnitude ∧ x.magnitude < (below + 1 : ℕ) * 10 ^ k ∧
      (x.roundsFrom below k = true ∨ x.roundsFrom (below + 1) k = true → (x.gridPoint? k).isSome) := by
  have hnum : x.magnitude * clearing x.exponent k = (x.numerator * Nat.pow 10 (-k).toNat : ℕ) := by
    rw [magnitude, ← cast_binary]
    rfl
  have hden : (10 : ℚ) ^ k * clearing x.exponent k = (x.denominator * Nat.pow 10 k.toNat : ℕ) := by
    have := cast_decimal 1 x.exponent k
    rw [Nat.one_mul, Nat.cast_one, one_mul, Nat.mul_comm] at this
    exact this.symm
  have hpos : 0 < x.denominator * Nat.pow 10 k.toNat :=
    Nat.mul_pos (Nat.pow_pos (by norm_num)) (Nat.pow_pos (by norm_num))
  refine ⟨x.numerator * Nat.pow 10 (-k).toNat / (x.denominator * Nat.pow 10 k.toNat), ?_, ?_, ?_⟩
  · rw [← mul_le_mul_iff_left₀ (clearing_pos x.exponent k), mul_assoc, hden, hnum]
    exact_mod_cast Nat.div_mul_le_self _ _
  · rw [← mul_lt_mul_iff_left₀ (clearing_pos x.exponent k), mul_assoc, hden, hnum]
    exact_mod_cast (Nat.div_lt_iff_lt_mul hpos).mp (Nat.lt_succ_self _)
  · intro h
    unfold gridPoint?
    dsimp only
    split
    · rfl
    · rfl
    · rfl
    · rename_i hbelow habove
      rw [hbelow, habove] at h
      simp at h

/-- On a grid of which sixteen steps of ten still lie below the double, half a step is less
than the way to either end of its interval. -/
theorem halfStep_lt (h : x.isZero = false) (hk : 10 ^ 16 * 10 ^ k ≤ x.magnitude) :
    x.lowQuarters * x.quarter + 10 ^ k / 2 < x.magnitude ∧
      x.magnitude + 10 ^ k / 2 < x.highQuarters * x.quarter := by
  obtain ⟨hbound, -, -, -⟩ := x.canonical
  have hsignificand := isZero_eq_false_iff.mp h
  have hunit := x.quarter_pos
  have two52 : Nat.pow 2 52 = 4503599627370496 := rfl
  have two53 : Nat.pow 2 53 = 9007199254740992 := rfl
  rw [two53] at hbound
  have hbound' : (x.significand : ℚ) ≤ 9007199254740991 := by exact_mod_cast Nat.le_of_lt_succ hbound
  have hscaled := mul_le_mul_of_nonneg_right hbound' hunit.le
  rw [magnitude_eq] at hk ⊢
  unfold highQuarters lowQuarters
  rw [two52]
  constructor
  · split
    · rename_i hpower
      rw [Nat.cast_sub (by omega), hpower.1]
      rw [hpower.1] at hk
      push_cast at hk ⊢
      linarith
    · rw [Nat.cast_sub (by omega)]
      push_cast
      linarith
  · push_cast
    linarith

theorem isSome_gridPoint? (h : x.isZero = false) (hk : 10 ^ 16 * 10 ^ k ≤ x.magnitude) :
    (x.gridPoint? k).isSome := by
  obtain ⟨hlow, hhigh⟩ := halfStep_lt h hk
  obtain ⟨below, hbelow, habove, hfound⟩ := x.exists_gridPoints k
  refine hfound ?_
  -- The nearer of the two points is at most half a step away.
  rcases le_or_gt (x.magnitude - 10 ^ k / 2) (below * 10 ^ k) with hnear | hfar
  · refine Or.inl (roundsFrom_iff.mpr (.of_between ?_ ?_))
    · linarith
    · have : (0 : ℚ) < 10 ^ k := by positivity
      linarith
  · have hstep : ((below + 1 : ℕ) : ℚ) * 10 ^ k = below * 10 ^ k + 10 ^ k := by
      push_cast
      ring
    have : (0 : ℚ) < 10 ^ k := by positivity
    rw [hstep] at habove
    refine Or.inr (roundsFrom_iff.mpr (.of_between ?_ ?_))
    · rw [hstep]
      linarith
    · rw [hstep]
      linarith

/-- The digits a double is written with are those of a number that rounds to it. -/
theorem exists_shortest (h : x.isZero = false) :
    ∃ c k, x.shortest = runOf c k ∧ x.RoundsFrom (c * 10 ^ k) := by
  have hlast : (x.gridPoint? (x.decimalExponent - 16)).isSome := by
    refine isSome_gridPoint? h (le_trans (le_of_eq ?_) (tenPow_decimalExponent_le h))
    rw [← zpow_natCast, ← zpow_add₀ (by norm_num)]
    congr 1
    push_cast
    ring
  have hfound : ((List.range maxDigits).map fun (more : Nat) => x.decimalExponent - more).findSome?
      (fun k => (x.gridPoint? k).map (runOf · k)) ≠ none := by
    intro hnone
    rw [List.findSome?_eq_none_iff] at hnone
    have := hnone (x.decimalExponent - 16) (List.mem_map.mpr ⟨16, by decide, rfl⟩)
    rw [Option.map_eq_none_iff] at this
    rw [this] at hlast
    cases hlast
  unfold shortest
  dsimp only
  split
  · rename_i run hrun
    obtain ⟨k, -, hpoint⟩ := List.exists_of_findSome?_eq_some hrun
    obtain ⟨c, hc, rfl⟩ := Option.map_eq_some_iff.mp hpoint
    exact ⟨c, k, rfl, roundsFrom_iff.mp (roundsFrom_of_gridPoint? hc)⟩
  · rename_i hnone
    exact absurd hnone hfound

/-! ## The digits of a number -/

theorem RoundsFrom.pos (hx : x.RoundsFrom q) (h : x.isZero = false) : 0 < q := by
  have hsignificand := isZero_eq_false_iff.mp h
  have hlow : (0 : ℚ) < x.lowQuarters := by
    have : 0 < x.lowQuarters := by
      unfold lowQuarters
      split <;> omega
    exact_mod_cast this
  exact lt_of_lt_of_le (mul_pos hlow x.quarter_pos) hx.low_le

theorem exists_dropTrailingZeros (digits : List Char) :
    ∃ n, digits = dropTrailingZeros digits ++ List.replicate n '0' := by
  refine ⟨(digits.reverse.takeWhile (· == '0')).length, ?_⟩
  have hzeros : digits.reverse.takeWhile (· == '0') =
      List.replicate (digits.reverse.takeWhile (· == '0')).length '0' := by
    refine List.eq_replicate_of_mem fun c hc => ?_
    simpa using List.mem_takeWhile_imp hc
  rw [← List.reverse_inj, List.reverse_append, dropTrailingZeros, List.reverse_reverse,
    List.reverse_replicate, ← hzeros]
  exact (List.takeWhile_append_dropWhile ..).symm

end Double

namespace DigitRun

/-- The number the digits stand for. -/
def value (run : DigitRun) : ℚ := natOfDigits run.digits * 10 ^ (run.exponent + 1 - run.digits.length)

/-- At least one digit, and nothing but digits. -/
structure Legible (run : DigitRun) : Prop where
  ne_nil : run.digits ≠ []
  digits : ∀ c ∈ run.digits, c.isDigit = true

end DigitRun

namespace Double

variable {x y : Double} {c : ℕ} {k : ℤ}

theorem runOf_legible (hc : c ≠ 0) : (runOf c k).Legible ∧ (runOf c k).value = c * 10 ^ k := by
  obtain ⟨n, hdigits⟩ := exists_dropTrailingZeros (natDigits c)
  have hnumber : c = natOfDigits (dropTrailingZeros (natDigits c)) * 10 ^ n := by
    have := natOfDigits_natDigits c
    rw [hdigits, natOfDigits_append, natOfDigits_replicate_zero, List.length_replicate] at this
    exact this.symm
  have hlength : (natDigits c).length = (dropTrailingZeros (natDigits c)).length + n := by
    conv_lhs => rw [hdigits]
    rw [List.length_append, List.length_replicate]
  refine ⟨⟨fun hnil => ?_, fun d hd => ?_⟩, ?_⟩
  · rw [runOf] at hnil
    dsimp only at hnil
    rw [hnil] at hnumber
    exact hc (hnumber.trans (Nat.zero_mul _))
  · exact isDigit_of_mem_natDigits (hdigits ▸ List.mem_append_left _ hd)
  · rw [DigitRun.value, runOf]
    dsimp only
    conv_rhs => rw [hnumber]
    rw [hlength]
    push_cast
    rw [mul_assoc, ← zpow_natCast, ← zpow_add₀ (by norm_num)]
    congr 2
    ring

theorem shortest_legible (h : x.isZero = false) :
    x.shortest.Legible ∧ x.RoundsFrom x.shortest.value := by
  obtain ⟨c, k, hrun, hround⟩ := exists_shortest h
  have hc : c ≠ 0 := by
    rintro rfl
    have := hround.pos h
    rw [Nat.cast_zero, zero_mul] at this
    exact lt_irrefl _ this
  obtain ⟨hlegible, hvalue⟩ := runOf_legible (k := k) hc
  rw [hrun]
  exact ⟨hlegible, hvalue ▸ hround⟩

end Double

end GraphSchema
