import SmartProcurement.Numeric.Rounding

namespace SmartProcurement.Numeric

/-! # Numbers and quiet NaNs

A quiet NaN goes through sums and quotients without a signal, and raises at the
first ordering comparison that it comes to.
-/

theorem roundContext_pos_iff {value : ℚ} : 0 < roundContext value ↔ 0 < value := by
  have moved := abs_le.mp (abs_roundContext_sub_le value)
  constructor
  · intro positive
    by_contra negative
    have negative := not_lt.mp negative
    rw [abs_of_nonpos negative] at moved
    linarith [moved.2]
  · intro positive
    rw [abs_of_pos positive] at moved
    linarith [moved.1]

namespace Decimal

/-- What arithmetic passes on without a signal. -/
inductive Quiet : Decimal → Prop where
  | number (value : ℚ) : Quiet (.finite value)
  | nan : Quiet .nan

variable {left right : Decimal} {divisor : ℚ} {values : List Decimal}

theorem Quiet.finite (quiet : left.Quiet) (number : left ≠ .nan) : ∃ value, left = .finite value := by
  cases quiet with
  | number value => exact ⟨value, rfl⟩
  | nan => exact absurd rfl number

/-- The result of an operation that has a number exactly where all its operands have. -/
structure Passes (operands : Prop) (operation : Except Signal Decimal) (result : Decimal) : Prop where
  computed : operation = .ok result
  quiet : result.Quiet
  number : result ≠ .nan ↔ operands

theorem Quiet.add (leftQuiet : left.Quiet) (rightQuiet : right.Quiet) :
    ∃ total, Passes (left ≠ .nan ∧ right ≠ .nan) (left.add right) total := by
  cases leftQuiet with
  | number first =>
      cases rightQuiet with
      | number second => exact ⟨_, rfl, .number _, by simp⟩
      | nan => exact ⟨_, rfl, .nan, by simp⟩
  | nan => cases rightQuiet <;> exact ⟨_, rfl, .nan, by simp⟩

theorem Quiet.neg (quiet : left.Quiet) : left.neg.Quiet ∧ (left.neg ≠ .nan ↔ left ≠ .nan) := by
  cases quiet with
  | number value => exact ⟨.number _, by simp [Decimal.neg]⟩
  | nan => exact ⟨.nan, Iff.rfl⟩

theorem Quiet.sub (leftQuiet : left.Quiet) (rightQuiet : right.Quiet) :
    ∃ change, Passes (left ≠ .nan ∧ right ≠ .nan) (left.sub right) change := by
  obtain ⟨quiet, number⟩ := rightQuiet.neg
  obtain ⟨change, passes⟩ := leftQuiet.add quiet
  exact ⟨change, passes.computed, passes.quiet, passes.number.trans (and_congr_right' number)⟩

theorem Quiet.div (quiet : left.Quiet) (nonzero : divisor ≠ 0) :
    ∃ ratio, Passes (left ≠ .nan) (left.div (.finite divisor)) ratio := by
  cases quiet with
  | number value =>
      refine ⟨.finite (roundContext (value / divisor)), ?_, .number _, by simp⟩
      simp only [Decimal.div, nanOperand, if_neg nonzero]
  | nan => exact ⟨_, rfl, .nan, Iff.rfl⟩

theorem Quiet.div_nan (quiet : left.Quiet) : left.div .nan = .ok .nan := by
  cases quiet <;> rfl

theorem quiet_foldl (total : Decimal) (totalQuiet : total.Quiet) (quiet : ∀ value ∈ values, value.Quiet) :
    ∃ result, Passes (total ≠ .nan ∧ ∀ value ∈ values, value ≠ .nan) (values.foldlM Decimal.add total) result := by
  induction values generalizing total with
  | nil => exact ⟨total, rfl, totalQuiet, by simp⟩
  | cons value rest ih =>
      obtain ⟨next, passes⟩ := totalQuiet.add (quiet value List.mem_cons_self)
      obtain ⟨result, later⟩ := ih next passes.quiet fun other member => quiet other (List.mem_cons_of_mem _ member)
      refine ⟨result, ?_, later.quiet, ?_⟩
      · rw [List.foldlM_cons, passes.computed]
        exact later.computed
      · rw [later.number, passes.number, List.forall_mem_cons, and_assoc]

theorem quiet_sum (quiet : ∀ value ∈ values, value.Quiet) :
    ∃ total, Passes (∀ value ∈ values, value ≠ .nan) (Decimal.sum values) total := by
  obtain ⟨total, passes⟩ := quiet_foldl .zero (.number 0) quiet
  exact ⟨total, passes.computed, passes.quiet, by simp [passes.number, Decimal.zero]⟩

end Decimal

end SmartProcurement.Numeric
