import SmartProcurement.Core.Values

namespace SmartProcurement

open Numeric

/-! # Trapped operations

On finite numbers only a division can signal.
-/

theorem trap_le (left right : ℚ) : trap ((Decimal.finite left).le (.finite right)) = .ok (!decide (right < left)) := rfl

theorem trap_nan_le (right : Decimal) : trap (Decimal.nan.le right) = .error (.decimal .invalidOperation) := by
  cases right <;> rfl

theorem trap_eq_zero (value : ℚ) : trap ((Decimal.finite value).eq .zero) = .ok (decide (value = 0)) := by
  simp [Decimal.eq, Decimal.nanOperand, Decimal.zero, trap]

theorem trap_sub (left right : ℚ) :
    trap ((Decimal.finite left).sub (.finite right)) = .ok (.finite (roundContext (left - right))) := by
  rw [sub_eq_add_neg]
  rfl

theorem trap_div (left : ℚ) {right : ℚ} (nonzero : right ≠ 0) :
    trap ((Decimal.finite left).div (.finite right)) = .ok (.finite (roundContext (left / right))) := by
  simp only [Decimal.div, Decimal.nanOperand, if_neg nonzero, trap]

/-- `sum(values, Decimal(0))` of finite values. -/
def decimalSum (values : List ℚ) : ℚ := values.foldl (fun total value => roundContext (total + value)) 0

theorem trap_sum (values : List ℚ) : trap (Decimal.sum (values.map .finite)) = .ok (.finite (decimalSum values)) := by
  have folds (total : ℚ) : (values.map Decimal.finite).foldlM Decimal.add (.finite total) =
      .ok (.finite (values.foldl (fun total value => roundContext (total + value)) total)) := by
    induction values generalizing total with
    | nil => rfl
    | cons value rest ih => exact ih (roundContext (total + value))
  exact congrArg trap (folds 0)

end SmartProcurement
