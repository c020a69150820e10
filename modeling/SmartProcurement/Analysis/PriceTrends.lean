import SmartProcurement.Analysis.Rules
import SmartProcurement.Core.Traps
import SmartProcurement.Integration.WatchedChanges
import SmartProcurement.Numeric.Rounding
import SmartProcurement.Observation.Aggregates

namespace SmartProcurement.Analysis

open Relational Transaction Numeric Observation Integration

/-! # When a price trend is an anomaly

The trend compares the two newest price rows of an item, whichever suppliers they
are from.  What the rule makes of it can be told from the two prices.
-/

/-! ## Stored quantities -/

/-- A number with the scale of a quantity column and within its precision. -/
structure StoredQuantity (value : ℚ) : Prop where
  scaled : quantityColumn.quantize value = value
  bounded : |value| < 10 ^ 14

section Quantities

variable {value : ℚ} {newest older : ℚ}

theorem storedQuantity_of_store {number stored : Decimal} (kept : quantityColumn.store number = some stored) :
    stored = .nan ∨ ∃ value, stored = .finite value ∧ StoredQuantity value := by
  cases number with
  | finite value =>
      simp only [Decimal.FixedPoint.store] at kept
      split at kept
      · next bounded =>
        cases kept
        exact .inr ⟨_, rfl, Decimal.FixedPoint.quantize_quantize _ value, by simpa [quantityColumn] using bounded⟩
      · cases kept
  | nan =>
      cases kept
      exact .inl rfl
  | snan =>
      cases kept
      exact .inl rfl
  | infinity _ => cases kept

theorem StoredQuantity.units (stored : StoredQuantity value) : ∃ n : ℤ, value * 10 ^ 4 = n := by
  refine ⟨roundHalfAway (value * 10 ^ 4), ?_⟩
  have scaled := stored.scaled
  simp only [Decimal.FixedPoint.quantize, quantityColumn] at scaled
  rwa [div_eq_iff (by norm_num), eq_comm] at scaled

theorem StoredQuantity.roundContext_eq (stored : StoredQuantity value) : roundContext value = value := by
  obtain ⟨n, scaled⟩ := stored.units
  exact Numeric.roundContext_eq scaled (by decide) (stored.bounded.trans (by norm_num))

theorem storedQuantity_abs (stored : StoredQuantity value) : roundContext |value| = |value| := by
  obtain ⟨n, scaled⟩ := stored.units
  have magnitude : |value| * 10 ^ 4 = (|n| : ℤ) := by
    rw [Int.cast_abs, ← scaled, abs_mul, abs_of_pos (by norm_num : (0 : ℚ) < 10 ^ 4)]
  refine Numeric.roundContext_eq magnitude (by decide) ?_
  rw [abs_abs]
  exact stored.bounded.trans (by norm_num)

theorem StoredQuantity.sub_exact (newestStored : StoredQuantity newest) (olderStored : StoredQuantity older) :
    roundContext (newest - older) = newest - older := by
  obtain ⟨n, newestScaled⟩ := newestStored.units
  obtain ⟨m, olderScaled⟩ := olderStored.units
  have scaled : (newest - older) * 10 ^ 4 = (n - m : ℤ) := by
    rw [sub_mul, newestScaled, olderScaled]
    push_cast
    rfl
  refine Numeric.roundContext_eq scaled (by decide) ?_
  have apart := abs_sub newest older
  have first := newestStored.bounded
  have second := olderStored.bounded
  have room : (10 : ℚ) ^ 14 + 10 ^ 14 < 10 ^ (28 - 4) := by norm_num
  linarith

/-- Rounding to four digits takes a relative change to 0.1 from 0.09995 on. -/
theorem quantize_change_lt_iff (newestStored : StoredQuantity newest) (olderStored : StoredQuantity older)
    (nonzero : older ≠ 0) :
    |quantityColumn.quantize (roundContext ((newest - older) / older))| < 1 / 10 ↔
      |newest - older| < 1999 / 20000 * |older| := by
  obtain ⟨n, newestScaled⟩ := newestStored.units
  obtain ⟨m, olderScaled⟩ := olderStored.units
  have unit : (10 : ℚ) ^ 4 ≠ 0 := by norm_num
  have divisor : m ≠ 0 := by
    rintro rfl
    rw [Int.cast_zero, mul_eq_zero] at olderScaled
    exact olderScaled.elim nonzero unit
  have small : |(m : ℚ)| < 10 ^ 18 := by
    rw [← olderScaled, abs_mul]
    have bounded := olderStored.bounded
    have magnitude : |(10 : ℚ) ^ 4| = 10 ^ 4 := abs_of_pos (by norm_num)
    rw [magnitude]
    linarith
  have quotient : (newest - older) / older = ((n - m : ℤ) : ℚ) / m := by
    rw [← mul_div_mul_right _ _ unit, sub_mul, newestScaled, olderScaled]
    push_cast
    rfl
  have rounded : |quantityColumn.quantize (roundContext ((newest - older) / older))| < 1 / 10 ↔
      |roundContext ((newest - older) / older)| < 1999 / 20000 := by
    have thousand := roundHalfAway_lt_iff (roundContext ((newest - older) / older) * 10 ^ 4) 1000
    simp only [Decimal.FixedPoint.quantize, quantityColumn]
    rw [abs_div, abs_of_pos (by norm_num : (0 : ℚ) < 10 ^ 4), div_lt_iff₀ (by norm_num)]
    rw [abs_mul, abs_of_pos (by norm_num : (0 : ℚ) < 10 ^ 4)] at thousand
    constructor
    · intro less
      have := thousand.mp (by push_cast; linarith)
      push_cast at this
      linarith
    · intro less
      have := thousand.mpr (by push_cast; linarith)
      push_cast at this
      linarith
  rw [rounded, quotient, abs_roundContext_quotient_lt_iff divisor small, ← quotient, abs_div,
    div_lt_iff₀ (abs_pos.mpr nonzero)]

end Quantities

/-! ## The rule -/

/-- A trend as the aggregate keeps it. -/
def StoredTrend : Option Decimal → Prop
  | some (.finite trend) => StoredQuantity trend
  | some .snan | some (.infinity _) => False
  | none | some .nan => True

/-- A trend that raises no anomaly: on a NaN the rule raises an exception instead. -/
def Calm : Option Decimal → Prop
  | some (.finite trend) => |trend| < 1 / 10
  | _ => True

section Rule

variable {aggregate : AggregateSnapshot}

theorem evaluatePriceAnomaly_finite {trend : ℚ} (given : aggregate.values.priceTrend = some (.finite trend))
    (stored : StoredQuantity trend) : evaluatePriceAnomaly aggregate =
      if |trend| < 1 / 10 then .ok none
      else (excessSeverity (.finite |trend|) priceAnomalyThresholdPct).map fun severity =>
        some (itemCandidate .priceAnomaly aggregate.itemId severity) := by
  have magnitude : trap (Decimal.finite trend).abs = .ok (.finite |trend|) := by
    simp only [Decimal.abs, storedQuantity_abs stored, trap]
  have compared : trap ((Decimal.finite |trend|).lt priceAnomalyThresholdPct) = .ok (decide (|trend| < 1 / 10)) := rfl
  simp only [evaluatePriceAnomaly, given, magnitude, bind, Except.bind, compared, decide_eq_true_eq]
  rfl

theorem Calm.quiet (calm : Calm aggregate.values.priceTrend) (stored : StoredTrend aggregate.values.priceTrend)
    (candidate : RiskCandidate) : evaluatePriceAnomaly aggregate ≠ .ok (some candidate) := by
  intro found
  match given : aggregate.values.priceTrend with
  | none =>
      simp only [evaluatePriceAnomaly, given, Except.ok.injEq, reduceCtorEq] at found
  | some .nan =>
      simp only [evaluatePriceAnomaly, given] at found
      cases found
  | some (.finite trend) =>
      have small : |trend| < 1 / 10 := by simpa only [given, Calm] using calm
      rw [given] at stored
      rw [evaluatePriceAnomaly_finite given stored, if_pos small] at found
      cases found
  | some .snan =>
      rw [given] at stored
      exact stored
  | some (.infinity _) =>
      rw [given] at stored
      exact stored

theorem candidate_of_not_calm {found : Option RiskCandidate} (jump : ¬ Calm aggregate.values.priceTrend)
    (stored : StoredTrend aggregate.values.priceTrend) (evaluated : evaluatePriceAnomaly aggregate = .ok found) :
    ∃ candidate, found = some candidate := by
  match given : aggregate.values.priceTrend with
  | some (.finite trend) =>
      have large : ¬ |trend| < 1 / 10 := by simpa only [given, Calm] using jump
      rw [given] at stored
      rw [evaluatePriceAnomaly_finite given stored, if_neg large] at evaluated
      obtain ⟨severity, _, rfl⟩ := except_map_eq_ok.mp evaluated
      exact ⟨_, rfl⟩
  | none => exact absurd (by rw [given]; trivial) jump
  | some .nan => exact absurd (by rw [given]; trivial) jump
  | some .snan => exact absurd (by rw [given]; trivial) jump
  | some (.infinity _) => exact absurd (by rw [given]; trivial) jump

end Rule

/-! ## The two newest prices -/

/-- The prices of the two newest rows that may be trusted, if both are numbers. -/
def newestPrices (db : DB) (itemId : Uuid) : Option (ℚ × ℚ) :=
  match sortNewestFirst (·.date? "valid_from") (trustedRows db .price itemId) with
  | row :: previous :: _ =>
      match row.col "unit_price", previous.col "unit_price" with
      | .decimal (.finite newest), .decimal (.finite older) => some (newest, older)
      | _, _ => none
  | _ => none

/-- The newest price is less than 9.995 percent away from the one before it. -/
def PricesAgree (db : DB) (itemId : Uuid) : Prop :=
  ∀ prices ∈ newestPrices db itemId, prices.2 = 0 ∨ |prices.1 - prices.2| < 1999 / 20000 * |prices.2|

instance (db : DB) (itemId : Uuid) : Decidable (PricesAgree db itemId) := by
  unfold PricesAgree
  infer_instance

theorem storedPrice {row : Row} {price : Decimal} (stored : StoredNumber "unit_price" row)
    (read : row.col "unit_price" = .decimal price) :
    price = .nan ∨ ∃ value, price = .finite value ∧ StoredQuantity value := by
  rw [StoredNumber, read] at stored
  simp only [ColumnType.bind, if_true] at stored
  cases kept : quantityColumn.store price with
  | none => simp [kept] at stored
  | some kept' =>
      rw [kept] at stored
      cases stored
      exact storedQuantity_of_store kept

theorem toDecimal_eq_ok {value : Value} {number : Decimal} (read : toDecimal value = .ok number) :
    value = .decimal number := by
  cases value <;> cases read
  rfl

/-- The trend of two prices, as `price_trend` computes it. -/
def trendOf (newest older : Decimal) : Except Error (Option Decimal) := do
  if ← trap (older.eq .zero) then return none
  let change ← trap (newest.sub older)
  return some (← trap (change.div older))

section Trends

variable {newest older : ℚ} {trend kept : Option Decimal}

/-- The trend of two stored prices is kept as a calm one exactly when they agree. -/
theorem trendOf_finite (newestStored : StoredQuantity newest) (olderStored : StoredQuantity older)
    (computed : trendOf (.finite newest) (.finite older) = .ok trend)
    (stored : storeQuantity "price_trend" trend = .ok kept) :
    StoredTrend kept ∧ (Calm kept ↔ older = 0 ∨ |newest - older| < 1999 / 20000 * |older|) := by
  simp only [trendOf, trap_eq_zero, bind, Except.bind, decide_eq_true_eq] at computed
  by_cases zero : older = 0
  · rw [if_pos zero] at computed
    cases computed
    cases stored
    exact ⟨trivial, iff_of_true trivial (.inl zero)⟩
  · rw [if_neg zero] at computed
    simp only [trap_sub, newestStored.sub_exact olderStored, trap_div _ zero, pure, Except.pure, Except.ok.injEq] at computed
    subst computed
    simp only [storeQuantity, Decimal.FixedPoint.store] at stored
    split at stored
    · next keptValue fits =>
      split at fits
      · next bounded =>
        cases fits
        cases stored
        refine ⟨⟨Decimal.FixedPoint.quantize_quantize _ _, by simpa [quantityColumn] using bounded⟩, ?_⟩
        rw [or_iff_right zero]
        exact quantize_change_lt_iff newestStored olderStored zero
      · cases fits
    · cases stored

theorem trendOf_nan {left right : Decimal} (special : left = .nan ∧ (right = .nan ∨ ∃ price, right = .finite price) ∨
      right = .nan ∧ ∃ price, left = .finite price)
    (computed : trendOf left right = .ok trend) (stored : storeQuantity "price_trend" trend = .ok kept) :
    StoredTrend kept ∧ Calm kept := by
  have outcomes : trend = none ∨ trend = some .nan := by
    rcases special with ⟨rfl, rfl | ⟨price, rfl⟩⟩ | ⟨rfl, price, rfl⟩
    · cases computed
      exact .inr rfl
    · simp only [trendOf, trap_eq_zero, bind, Except.bind, decide_eq_true_eq] at computed
      split at computed
      · cases computed
        exact .inl rfl
      · cases computed
        exact .inr rfl
    · cases computed
      exact .inr rfl
  rcases outcomes with rfl | rfl
  · cases stored
    exact ⟨trivial, trivial⟩
  · cases stored
    exact ⟨trivial, trivial⟩

end Trends

section Prices

variable {db : DB} {itemId : Uuid} {last trend kept : Option Decimal}

theorem priceTrend_of_two {row previous : Row} {rest : List Row}
    (sorted : sortNewestFirst (·.date? "valid_from") (trustedRows db .price itemId) = row :: previous :: rest) :
    priceTrend db itemId = do
      let newest ← toDecimal (row.col "unit_price")
      let older ← toDecimal (previous.col "unit_price")
      return (some newest, ← trendOf newest older) := by
  unfold priceTrend
  rw [sorted]
  refine bind_congr fun newest => bind_congr fun older => ?_
  unfold trendOf
  cases trap (older.eq .zero) with
  | error error => rfl
  | ok free =>
      cases free with
      | true => rfl
      | false =>
          cases trap (newest.sub older) with
          | error error => rfl
          | ok change => cases divided : trap (change.div older) <;> simp [divided, bind, Except.bind, pure, Except.pure]

/-- What the aggregate keeps of the trend tells whether the two newest prices agree. -/
theorem calm_iff_pricesAgree (numbers : ∀ row ∈ (db.canonical .price).rows, StoredNumber "unit_price" row)
    (computed : priceTrend db itemId = .ok (last, trend)) (stored : storeQuantity "price_trend" trend = .ok kept) :
    StoredTrend kept ∧ (Calm kept ↔ PricesAgree db itemId) := by
  have trusted : ∀ row ∈ sortNewestFirst (·.date? "valid_from") (trustedRows db .price itemId),
      StoredNumber "unit_price" row := fun row member =>
    numbers row (mem_trustedRows.mp ((List.mem_insertionSort _).mp member)).1
  unfold PricesAgree newestPrices
  cases sorted : sortNewestFirst (·.date? "valid_from") (trustedRows db .price itemId) with
  | nil =>
      rw [priceTrend, sorted] at computed
      cases computed
      cases stored
      exact ⟨trivial, iff_of_true trivial (by simp)⟩
  | cons row more =>
      cases more with
      | nil =>
          simp only [priceTrend, sorted, except_bind_eq_ok, except_pure_eq_ok, Prod.mk.injEq] at computed
          obtain ⟨_, _, _, rfl⟩ := computed
          cases stored
          exact ⟨trivial, iff_of_true trivial (by simp)⟩
      | cons previous rest =>
          rw [sorted] at trusted
          rw [priceTrend_of_two sorted] at computed
          simp only [except_bind_eq_ok, except_pure_eq_ok, Prod.mk.injEq] at computed
          obtain ⟨newest, newestRead, older, olderRead, _, trended, _, rfl⟩ := computed
          have newestRead := toDecimal_eq_ok newestRead
          have olderRead := toDecimal_eq_ok olderRead
          have first := storedPrice (trusted row List.mem_cons_self) newestRead
          have second := storedPrice (trusted previous (List.mem_cons_of_mem _ List.mem_cons_self)) olderRead
          simp only [newestRead, olderRead]
          rcases first with rfl | ⟨newest, rfl, newestStored⟩
          · have comparable := second.imp_right (Exists.imp fun _ found => found.1)
            obtain ⟨asStored, calm⟩ := trendOf_nan (.inl ⟨rfl, comparable⟩) trended stored
            exact ⟨asStored, iff_of_true calm (by simp)⟩
          · rcases second with rfl | ⟨older, rfl, olderStored⟩
            · obtain ⟨asStored, calm⟩ := trendOf_nan (.inr ⟨rfl, newest, rfl⟩) trended stored
              exact ⟨asStored, iff_of_true calm (by simp)⟩
            · obtain ⟨asStored, calm⟩ := trendOf_finite newestStored olderStored trended stored
              exact ⟨asStored, calm.trans (by simp)⟩

end Prices

end SmartProcurement.Analysis
