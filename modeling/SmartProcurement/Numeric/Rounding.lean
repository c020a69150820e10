import SmartProcurement.Numeric.Decimal
import Mathlib.Algebra.Order.Floor.Ring
import Mathlib.Tactic.Linarith
import Mathlib.Tactic.FieldSimp
import Mathlib.Tactic.Ring

namespace SmartProcurement.Numeric

/-! # How far a rounding moves a number

A result of the context is off by less than one unit in its last digit, and not
at all if it has few enough digits.
-/

variable {value : ℚ}

theorem roundHalfEven_intCast (n : ℤ) : roundHalfEven n = n := by
  simp [roundHalfEven]

theorem abs_roundHalfEven_sub_le (value : ℚ) : |(roundHalfEven value : ℚ) - value| ≤ 1 / 2 := by
  have below := Int.floor_le value
  have above := Int.lt_floor_add_one value
  unfold roundHalfEven
  simp only
  split
  · rw [abs_le]
    constructor <;> linarith
  · split
    · push_cast
      rw [abs_le]
      constructor <;> linarith
    · split
      · rw [abs_le]
        constructor <;> linarith
      · push_cast
        rw [abs_le]
        constructor <;> linarith

theorem roundHalfAway_lt_iff (value : ℚ) (bound : ℕ) : |(roundHalfAway value : ℚ)| < bound ↔ |value| < bound - 1 / 2 := by
  have magnitude (positive : ℚ) (nonnegative : 0 ≤ positive) :
      |((⌊positive + 1 / 2⌋ : ℤ) : ℚ)| < bound ↔ positive < bound - 1 / 2 := by
    have floor : (0 : ℤ) ≤ ⌊positive + 1 / 2⌋ := Int.floor_nonneg.mpr (by linarith)
    rw [abs_of_nonneg (by exact_mod_cast floor), lt_sub_iff_add_lt]
    constructor
    · intro less
      have less : ⌊positive + 1 / 2⌋ < (bound : ℤ) := by exact_mod_cast less
      exact_mod_cast Int.floor_lt.mp less
    · intro less
      have less : ⌊positive + 1 / 2⌋ < (bound : ℤ) := Int.floor_lt.mpr (by exact_mod_cast less)
      exact_mod_cast less
  unfold roundHalfAway
  split
  · next nonnegative => rw [magnitude value nonnegative, abs_of_nonneg nonnegative]
  · next negative =>
    have negative := not_le.mp negative
    rw [Int.cast_neg, abs_neg, magnitude (-value) (by linarith), abs_of_neg negative]

/-! ## The context -/

/-- The power of ten by which the context scales a number before it rounds. -/
def contextScale (value : ℚ) : ℚ := 10 ^ (contextDigits - 1 - Int.log 10 |value|)

theorem contextScale_pos (value : ℚ) : 0 < contextScale value := zpow_pos (by norm_num) _

theorem roundContext_of_ne (nonzero : value ≠ 0) :
    roundContext value = roundHalfEven (value * contextScale value) / contextScale value := by
  simp only [roundContext, if_neg nonzero, contextScale]

/-- The scaled number has all the digits of the context. -/
theorem le_abs_mul_contextScale (nonzero : value ≠ 0) : (10 : ℚ) ^ (27 : ℕ) ≤ |value| * contextScale value := by
  have lower : (10 : ℚ) ^ Int.log 10 |value| ≤ |value| := by
    exact_mod_cast Int.zpow_log_le_self (R := ℚ) (b := 10) (by decide) (abs_pos.mpr nonzero)
  calc (10 : ℚ) ^ (27 : ℕ) = 10 ^ Int.log 10 |value| * contextScale value := by
        rw [contextScale, ← zpow_add₀ (by norm_num : (10 : ℚ) ≠ 0), ← zpow_natCast]
        congr 1
        simp only [contextDigits, Nat.cast_ofNat]
        ring
    _ ≤ |value| * contextScale value := mul_le_mul_of_nonneg_right lower (contextScale_pos value).le

theorem abs_roundContext_sub_le (value : ℚ) : |roundContext value - value| ≤ |value| / 10 ^ 27 := by
  by_cases zero : value = 0
  · simp [zero, roundContext]
  · have scale := contextScale_pos value
    have digits := le_abs_mul_contextScale zero
    have half := abs_roundHalfEven_sub_le (value * contextScale value)
    have moved : roundContext value - value =
        ((roundHalfEven (value * contextScale value) : ℚ) - value * contextScale value) / contextScale value := by
      rw [roundContext_of_ne zero]
      field_simp
    rw [moved, abs_div, abs_of_pos scale, div_le_div_iff₀ scale (by positivity)]
    nlinarith

/-- A number with few enough digits is left alone. -/
theorem roundContext_eq {places : ℕ} {n : ℤ} (scaled : value * 10 ^ places = n) (few : places ≤ 27)
    (small : |value| < 10 ^ (28 - places)) : roundContext value = value := by
  by_cases zero : value = 0
  · simp [zero, roundContext]
  · have positive := abs_pos.mpr zero
    have log : Int.log 10 |value| < (28 - places : ℕ) := by
      refine (Int.lt_zpow_iff_log_lt (R := ℚ) (b := 10) (by decide) positive).mp ?_
      rw [zpow_natCast]
      exact_mod_cast small
    obtain ⟨extra, split⟩ : ∃ extra : ℕ, contextDigits - 1 - Int.log 10 |value| = places + extra := by
      refine ⟨(contextDigits - 1 - Int.log 10 |value| - places).toNat, ?_⟩
      have : (28 - places : ℕ) = (28 : ℤ) - places := by omega
      simp only [contextDigits] at *
      omega
    have whole : value * contextScale value = ((n * 10 ^ extra : ℤ) : ℚ) := by
      rw [contextScale, split, zpow_add₀ (by norm_num : (10 : ℚ) ≠ 0), zpow_natCast, zpow_natCast, ← mul_assoc, scaled]
      push_cast
      rfl
    rw [roundContext_of_ne zero, whole, roundHalfEven_intCast, ← whole,
      mul_div_cancel_right₀ _ (contextScale_pos value).ne']

/-! ## Numbers that round alike -/

theorem abs_sub_le_of_roundContext_eq {left right : ℚ} (same : roundContext left = roundContext right) :
    |left - right| ≤ (|left| + |right|) / 10 ^ 27 := by
  have first := abs_roundContext_sub_le left
  have second := abs_roundContext_sub_le right
  rw [same, abs_sub_comm] at first
  have between := abs_sub_le left (roundContext right) right
  rw [add_div]
  linarith

/-- Divisors that come to the same quotient. -/
theorem abs_sub_le_of_roundContext_div_eq {total left right : ℚ} (nonzero : total ≠ 0) (leftPositive : 0 < left)
    (rightPositive : 0 < right) (same : roundContext (total / left) = roundContext (total / right)) :
    |left - right| ≤ (left + right) / 10 ^ 27 := by
  have size : 0 < |total| := abs_pos.mpr nonzero
  have product : 0 < left * right := mul_pos leftPositive rightPositive
  have near := abs_sub_le_of_roundContext_eq same
  have apart : |total / left - total / right| = |total| * |left - right| / (left * right) := by
    have difference : total / left - total / right = total * (right - left) / (left * right) := by
      field_simp
    rw [difference, abs_div, abs_mul, abs_of_pos product, abs_sub_comm right]
  have bound : (|total / left| + |total / right|) / 10 ^ 27 = |total| * ((left + right) / 10 ^ 27) / (left * right) := by
    rw [abs_div, abs_div, abs_of_pos leftPositive, abs_of_pos rightPositive]
    field_simp
    ring
  rw [apart, bound, div_le_div_iff_of_pos_right product] at near
  exact le_of_mul_le_mul_left near size

/-! ## Quotients of fixed-point numbers -/

theorem roundContext_threshold (exact : |value| = 1999 / 20000) : roundContext value = value := by
  have small : |value| < 10 ^ (28 - 5) := by
    rw [exact]
    norm_num
  rcases abs_choice value with same | same
  · have scaled : value * 10 ^ 5 = (9995 : ℤ) := by
      rw [← same, exact]
      norm_num
    exact roundContext_eq scaled (by decide) small
  · have scaled : value * 10 ^ 5 = (-9995 : ℤ) := by
      rw [← neg_neg value, ← same, exact]
      norm_num
    exact roundContext_eq scaled (by decide) small

/-- A quotient of integers of at most eighteen digits keeps its distance from
0.09995, so that rounding it does not carry it across. -/
theorem abs_roundContext_quotient_lt_iff {numerator divisor : ℤ} (nonzero : divisor ≠ 0)
    (small : |(divisor : ℚ)| < 10 ^ 18) :
    |roundContext (numerator / divisor)| < 1999 / 20000 ↔ |(numerator : ℚ) / divisor| < 1999 / 20000 := by
  have positive : (0 : ℚ) < |(divisor : ℚ)| := abs_pos.mpr (by exact_mod_cast nonzero)
  have moved := abs_roundContext_sub_le ((numerator : ℚ) / divisor)
  have upper := abs_sub_abs_le_abs_sub (roundContext ((numerator : ℚ) / divisor)) ((numerator : ℚ) / divisor)
  have lower := abs_sub_abs_le_abs_sub ((numerator : ℚ) / divisor) (roundContext ((numerator : ℚ) / divisor))
  rw [abs_sub_comm] at lower
  have product : |(numerator : ℚ) / divisor| * |(divisor : ℚ)| = |(numerator : ℚ)| := by
    rw [abs_div, div_mul_cancel₀ _ positive.ne']
  -- the comparison of the exact quotient is one of integers
  rcases lt_trichotomy (20000 * |numerator|) (1999 * |divisor|) with less | equal | more
  · have gap : 20000 * |(numerator : ℚ)| + 1 ≤ 1999 * |(divisor : ℚ)| := by exact_mod_cast less
    refine iff_of_true ?_ ?_
    · refine lt_of_mul_lt_mul_right (a := |(divisor : ℚ)|) ?_ positive.le
      nlinarith
    · refine lt_of_mul_lt_mul_right (a := |(divisor : ℚ)|) ?_ positive.le
      linarith
  · have gap : 20000 * |(numerator : ℚ)| = 1999 * |(divisor : ℚ)| := by exact_mod_cast equal
    have exact : |(numerator : ℚ) / divisor| = 1999 / 20000 := by
      refine mul_right_cancel₀ positive.ne' ?_
      linarith
    rw [roundContext_threshold exact]
  · have gap : 1999 * |(divisor : ℚ)| + 1 ≤ 20000 * |(numerator : ℚ)| := by exact_mod_cast more
    refine iff_of_false (not_lt.mpr ?_) (not_lt.mpr ?_)
    · refine le_of_mul_le_mul_right (a := |(divisor : ℚ)|) ?_ positive
      nlinarith
    · refine le_of_mul_le_mul_right (a := |(divisor : ℚ)|) ?_ positive
      linarith

end SmartProcurement.Numeric
