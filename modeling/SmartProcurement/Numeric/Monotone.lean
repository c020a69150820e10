import SmartProcurement.Numeric.Rounding

namespace SmartProcurement.Numeric

/-! # Rounding keeps the order

A rounding that keeps the order, 0 and 1 is all that a computation needs to be
monotone wherever the exact one is.  The exact arithmetic and the one of the
context are two of them.
-/

structure Rounding where
  round : ℚ → ℚ
  monotone : Monotone round
  zero : round 0 = 0
  one : round 1 = 1

namespace Rounding

def exact : Rounding := ⟨id, monotone_id, rfl, rfl⟩

variable (rounding : Rounding) {value : ℚ}

theorem nonneg (positive : 0 ≤ value) : 0 ≤ rounding.round value :=
  rounding.zero ▸ rounding.monotone positive

theorem nonpos (negative : value ≤ 0) : rounding.round value ≤ 0 :=
  rounding.zero ▸ rounding.monotone negative

theorem one_le (large : 1 ≤ value) : 1 ≤ rounding.round value :=
  rounding.one ▸ rounding.monotone large

theorem le_one (small : value ≤ 1) : rounding.round value ≤ 1 :=
  rounding.one ▸ rounding.monotone small

end Rounding

/-! ## The rounding of the context -/

section Context

variable {less more value : ℚ}

theorem floor_le_roundHalfEven (value : ℚ) : ⌊value⌋ ≤ roundHalfEven value := by
  unfold roundHalfEven
  dsimp only
  split_ifs <;> omega

theorem roundHalfEven_le_floor_add_one (value : ℚ) : roundHalfEven value ≤ ⌊value⌋ + 1 := by
  unfold roundHalfEven
  dsimp only
  split_ifs <;> omega

theorem roundHalfEven_mono (le : less ≤ more) : roundHalfEven less ≤ roundHalfEven more := by
  rcases (Int.floor_le_floor le).lt_or_eq with below | same
  · calc roundHalfEven less ≤ ⌊less⌋ + 1 := roundHalfEven_le_floor_add_one less
      _ ≤ ⌊more⌋ := below
      _ ≤ roundHalfEven more := floor_le_roundHalfEven more
  · -- within one unit only the fractions decide
    unfold roundHalfEven
    dsimp only
    rw [same]
    split_ifs <;> first | omega | exact absurd le (by push Not; linarith)

theorem roundHalfEven_neg (value : ℚ) : roundHalfEven (-value) = -roundHalfEven value := by
  by_cases whole : (⌊value⌋ : ℚ) = value
  · rw [← whole, ← Int.cast_neg, roundHalfEven_intCast, roundHalfEven_intCast]
  · have below : (⌊value⌋ : ℚ) < value := (Int.floor_le value).lt_of_ne whole
    have above := Int.lt_floor_add_one value
    have mirrored : ⌊-value⌋ = -⌊value⌋ - 1 := by
      rw [Int.floor_eq_iff]
      push_cast
      constructor <;> linarith
    unfold roundHalfEven
    dsimp only
    rw [mirrored]
    push_cast
    split_ifs <;> first | omega | (exfalso; linarith)

theorem roundContext_neg (value : ℚ) : roundContext (-value) = -roundContext value := by
  by_cases zero : value = 0
  · simp [zero, roundContext]
  · rw [roundContext_of_ne (neg_ne_zero.mpr zero), roundContext_of_ne zero]
    have scale : contextScale (-value) = contextScale value := by rw [contextScale, contextScale, abs_neg]
    rw [scale, neg_mul, roundHalfEven_neg, Int.cast_neg, neg_div]

/-- A positive number is not rounded beyond the powers of ten around it. -/
theorem roundContext_le (positive : 0 < value) : roundContext value ≤ 10 ^ (Int.log 10 value + 1) := by
  have scale := contextScale_pos value
  have top : (10 : ℚ) ^ (Int.log 10 value + 1) * contextScale value = ((10 ^ 28 : ℤ) : ℚ) := by
    have exponent : Int.log 10 value + 1 + (contextDigits - 1 - Int.log 10 value) = 28 := by
      rw [contextDigits]
      ring
    rw [contextScale, abs_of_pos positive, ← zpow_add₀ (by norm_num : (10 : ℚ) ≠ 0), exponent]
    norm_num
  have below : value ≤ (10 : ℚ) ^ (Int.log 10 value + 1) := by
    exact_mod_cast (Int.lt_zpow_succ_log_self (R := ℚ) (b := 10) (by decide) value).le
  rw [roundContext_of_ne positive.ne', div_le_iff₀ scale, top, Int.cast_le, ← roundHalfEven_intCast (10 ^ 28), ← top]
  exact roundHalfEven_mono (mul_le_mul_of_nonneg_right below scale.le)

theorem le_roundContext (positive : 0 < value) : 10 ^ Int.log 10 value ≤ roundContext value := by
  have scale := contextScale_pos value
  have bottom : (10 : ℚ) ^ Int.log 10 value * contextScale value = ((10 ^ 27 : ℤ) : ℚ) := by
    have exponent : Int.log 10 value + (contextDigits - 1 - Int.log 10 value) = 27 := by
      rw [contextDigits]
      ring
    rw [contextScale, abs_of_pos positive, ← zpow_add₀ (by norm_num : (10 : ℚ) ≠ 0), exponent]
    norm_num
  have above : (10 : ℚ) ^ Int.log 10 value ≤ value := by
    exact_mod_cast Int.zpow_log_le_self (R := ℚ) (b := 10) (by decide) positive
  rw [roundContext_of_ne positive.ne', le_div_iff₀ scale, bottom, Int.cast_le, ← roundHalfEven_intCast (10 ^ 27), ← bottom]
  exact roundHalfEven_mono (mul_le_mul_of_nonneg_right above scale.le)

theorem roundContext_mono_pos (positive : 0 < less) (le : less ≤ more) : roundContext less ≤ roundContext more := by
  have later : 0 < more := positive.trans_le le
  rcases (Int.log_mono_right positive le : Int.log 10 less ≤ Int.log 10 more).lt_or_eq with below | same
  · calc roundContext less ≤ 10 ^ (Int.log 10 less + 1) := roundContext_le positive
      _ ≤ 10 ^ Int.log 10 more := zpow_le_zpow_right₀ (by norm_num) below
      _ ≤ roundContext more := le_roundContext later
  · have scale : contextScale less = contextScale more := by
      rw [contextScale, contextScale, abs_of_pos positive, abs_of_pos later, same]
    have positiveScale := contextScale_pos more
    rw [roundContext_of_ne positive.ne', roundContext_of_ne later.ne', scale]
    refine div_le_div_of_nonneg_right (Int.cast_le.mpr (roundHalfEven_mono ?_)) positiveScale.le
    exact mul_le_mul_of_nonneg_right le positiveScale.le

theorem roundContext_nonneg (nonneg : 0 ≤ value) : 0 ≤ roundContext value := by
  rcases nonneg.eq_or_lt with rfl | positive
  · rfl
  · exact (zpow_nonneg (by norm_num) _).trans (le_roundContext positive)

theorem roundContext_mono : Monotone roundContext := by
  intro less more le
  rcases lt_or_ge 0 less with positive | nonpos
  · exact roundContext_mono_pos positive le
  · have lower : roundContext less ≤ 0 := by
      have mirrored := roundContext_nonneg (neg_nonneg.mpr nonpos)
      rw [roundContext_neg] at mirrored
      linarith
    rcases lt_or_ge more 0 with negative | nonneg
    · have mirrored := roundContext_mono_pos (neg_pos.mpr negative) (neg_le_neg le)
      rw [roundContext_neg, roundContext_neg] at mirrored
      linarith
    · exact lower.trans (roundContext_nonneg nonneg)

end Context

def Rounding.context : Rounding where
  round := roundContext
  monotone := roundContext_mono
  zero := rfl
  one := roundContext_eq (show (1 : ℚ) * 10 ^ 0 = (1 : ℤ) by norm_num) (by decide) (by norm_num)

end SmartProcurement.Numeric
