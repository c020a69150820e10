import SmartProcurement.Numeric.Monotone

namespace SmartProcurement.Numeric

/-! # Which numbers round to a number that fits

A column bounds what it keeps after two roundings: the one of the context and its
own.  Together they have one threshold on the exact number.
-/

variable {value : ℚ}

theorem roundHalfEven_lt_iff {bound : ℤ} (even : bound % 2 = 0) (value : ℚ) :
    roundHalfEven value < bound ↔ value < bound - 1 / 2 := by
  have tie : roundHalfEven (bound - 1 / 2) = bound := by
    have down : ⌊(bound - 1 / 2 : ℚ)⌋ = bound - 1 := by
      rw [Int.floor_eq_iff]
      push_cast
      constructor <;> linarith
    have rest : (bound - 1 / 2 : ℚ) - (bound - 1 : ℤ) = 1 / 2 := by
      push_cast
      ring
    unfold roundHalfEven
    dsimp only
    rw [down, rest, if_neg (lt_irrefl _), if_neg (lt_irrefl _), if_neg (by omega)]
    omega
  constructor
  · intro less
    by_contra reaches
    have rounded := roundHalfEven_mono (not_lt.mp reaches)
    rw [tie] at rounded
    omega
  · intro less
    have near := (abs_le.mp (abs_roundHalfEven_sub_le value)).2
    have below : (roundHalfEven value : ℚ) < bound := by linarith
    exact_mod_cast below

theorem abs_roundContext (value : ℚ) : |roundContext value| = roundContext |value| := by
  rcases le_total 0 value with nonneg | nonpos
  · rw [abs_of_nonneg nonneg, abs_of_nonneg (roundContext_nonneg nonneg)]
  · have mirrored : 0 ≤ -roundContext value := by
      rw [← roundContext_neg]
      exact roundContext_nonneg (neg_nonneg.mpr nonpos)
    rw [abs_of_nonpos nonpos, abs_of_nonpos (neg_nonneg.mp mirrored), roundContext_neg]

/-- A power of ten is not rounded. -/
theorem roundContext_zpow (exponent : ℤ) : roundContext (10 ^ exponent) = 10 ^ exponent := by
  have positive : (0 : ℚ) < 10 ^ exponent := zpow_pos (by norm_num) exponent
  have log : Int.log 10 ((10 : ℚ) ^ exponent) = exponent := by
    exact_mod_cast Int.log_zpow (R := ℚ) (b := 10) (by decide) exponent
  refine le_antisymm ?_ ?_
  · have scaled : (10 : ℚ) ^ exponent * contextScale (10 ^ exponent) = ((10 ^ 27 : ℤ) : ℚ) := by
      have power : exponent + (contextDigits - 1 - exponent) = 27 := by
        rw [contextDigits]
        ring
      rw [contextScale, abs_of_pos positive, log, ← zpow_add₀ (by norm_num : (10 : ℚ) ≠ 0), power]
      norm_num
    have same : roundContext (10 ^ exponent) = 10 ^ exponent := by
      rw [roundContext_of_ne positive.ne', scaled, roundHalfEven_intCast, ← scaled,
        mul_div_cancel_right₀ _ (contextScale_pos _).ne']
    exact same.le
  · have above := le_roundContext positive
    rwa [log] at above

/-- The numbers below it, and only these, are less than 10¹⁴ after both roundings. -/
def quotientLimit : ℚ := 10 ^ 14 - 5 / 10 ^ 5 - 5 / 10 ^ 15

theorem roundContext_lt_iff : roundContext value < 10 ^ 14 - 5 / 10 ^ 5 ↔ value < quotientLimit := by
  rcases lt_or_ge value (10 ^ 13) with small | large
  · have rounded : roundContext value ≤ 10 ^ 13 := by
      have mono := roundContext_mono small.le
      rwa [show (10 : ℚ) ^ 13 = 10 ^ (13 : ℤ) by norm_num, roundContext_zpow] at mono
    exact iff_of_true (rounded.trans_lt (by norm_num)) (small.trans (by norm_num [quotientLimit]))
  · rcases lt_or_ge value (10 ^ 14) with fits | exceeds
    · -- between the two powers of ten the context keeps fourteen fractional digits
      have positive : 0 < value := lt_of_lt_of_le (by norm_num) large
      have log : Int.log 10 |value| = 13 := by
        rw [abs_of_pos positive]
        refine le_antisymm (Int.lt_add_one_iff.mp ?_) ?_
        · exact (Int.lt_zpow_iff_log_lt (R := ℚ) (b := 10) (by decide) positive).mp (by exact_mod_cast fits)
        · exact (Int.zpow_le_iff_le_log (R := ℚ) (b := 10) (by decide) positive).mp (by exact_mod_cast large)
      have scale : contextScale value = 10 ^ 14 := by
        rw [contextScale, log, contextDigits]
        norm_num
      have threshold := roundHalfEven_lt_iff (by norm_num : (10 ^ 28 - 5 * 10 ^ 9 : ℤ) % 2 = 0) (value * 10 ^ 14)
      have units : ((10 ^ 14 - 5 / 10 ^ 5) * 10 ^ 14 : ℚ) = (10 ^ 28 - 5 * 10 ^ 9 : ℤ) := by norm_num
      have limit : quotientLimit * 10 ^ 14 = (10 ^ 28 - 5 * 10 ^ 9 : ℤ) - 1 / 2 := by norm_num [quotientLimit]
      rw [roundContext_of_ne positive.ne', scale, div_lt_iff₀ (by norm_num), units, Int.cast_lt, threshold, ← limit]
      exact mul_lt_mul_iff_of_pos_right (by norm_num)
    · have rounded : (10 : ℚ) ^ 14 ≤ roundContext value := by
        have mono := roundContext_mono exceeds
        rwa [show (10 : ℚ) ^ 14 = 10 ^ (14 : ℤ) by norm_num, roundContext_zpow] at mono
      refine iff_of_false (not_lt.mpr (le_trans (by norm_num) rounded)) (not_lt.mpr (le_trans ?_ exceeds))
      norm_num [quotientLimit]

/-- The threshold of a `Numeric(18, 4)` column. -/
theorem quantize_roundContext_lt_iff (value : ℚ) :
    |(⟨18, 4⟩ : Decimal.FixedPoint).quantize (roundContext value)| < 10 ^ 14 ↔ |value| < quotientLimit := by
  have unit : (0 : ℚ) < 10 ^ 4 := by norm_num
  have kept := roundHalfAway_lt_iff (roundContext value * 10 ^ 4) (10 ^ 18)
  rw [abs_mul, abs_of_pos unit, abs_roundContext] at kept
  rw [← roundContext_lt_iff, Decimal.FixedPoint.quantize, abs_div, abs_of_pos unit, div_lt_iff₀ unit]
  push_cast at kept
  constructor
  · intro less
    have below := kept.mp (by linarith)
    linarith
  · intro less
    have below := kept.mpr (by linarith)
    linarith

end SmartProcurement.Numeric
