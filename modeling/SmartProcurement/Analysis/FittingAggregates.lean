import SmartProcurement.Analysis.FiniteInputs
import SmartProcurement.Analysis.RecomputationReturns
import SmartProcurement.Numeric.Limits

namespace SmartProcurement.Analysis

open Relational Transaction Numeric Observation

/-! # Aggregates that fit their columns

A rate and an average delay are of the size of what they are made from.  A cover
and a relative change are not: a small divisor takes them beyond the columns.
-/

/-- Every value of the item fits its column, so that no overflow ends a recomputation. -/
structure FitsColumns (db : DB) (itemId : Uuid) : Prop where
  quotients : ∀ values, aggregateValues db itemId = .ok (some values) → Fits values
  written : ∀ now enterpriseId column after,
    recomputeOne now enterpriseId itemId db ≠ .error (.database (.numericOverflow column)) after

/-- The stock is less than 10¹⁴ of the newest rates and the newest price less than 10¹⁴
of the older ones away from it, but for the half units of the two roundings. -/
structure Moderate (db : DB) (itemId : Uuid) : Prop where
  cover : ∀ row ∈ latestConsumption db itemId, 0 < number "quantity" row →
    |stockTotal db itemId| < quotientLimit * dailyRate row
  change : ∀ newest older, latestPrices db itemId = [newest, older] → number "unit_price" older ≠ 0 →
    |number "unit_price" newest - number "unit_price" older| < quotientLimit * |number "unit_price" older|

/-! ## Sums -/

section Sums

variable {values : List ℚ} {value total : ℚ}

theorem abs_roundContext_le {bound : ℚ} (bounded : |value| ≤ bound) : |roundContext value| ≤ roundContext bound := by
  rw [abs_roundContext]
  exact roundContext_mono bounded

/-- Nothing of the size of the values is added to a total of this size. -/
theorem roundContext_absorbs : roundContext (10 ^ 37 + 2 * 10 ^ 8) ≤ 10 ^ 37 := by
  have positive : (0 : ℚ) < 10 ^ 37 + 2 * 10 ^ 8 := by norm_num
  have log : Int.log 10 |(10 ^ 37 + 2 * 10 ^ 8 : ℚ)| = 37 := by
    rw [abs_of_pos positive]
    refine le_antisymm (Int.lt_add_one_iff.mp ?_) ?_
    · exact (Int.lt_zpow_iff_log_lt (R := ℚ) (b := 10) (by decide) positive).mp (by norm_num)
    · exact (Int.zpow_le_iff_le_log (R := ℚ) (b := 10) (by decide) positive).mp (by norm_num)
  have scale : contextScale (10 ^ 37 + 2 * 10 ^ 8) = 1 / 10 ^ 10 := by
    rw [contextScale, log, contextDigits]
    norm_num
  have near := (abs_le.mp (abs_roundHalfEven_sub_le ((10 ^ 37 + 2 * 10 ^ 8) * (1 / 10 ^ 10)))).2
  have whole : roundHalfEven ((10 ^ 37 + 2 * 10 ^ 8) * (1 / 10 ^ 10)) ≤ 10 ^ 27 := by
    rw [← Int.lt_add_one_iff, ← Int.cast_lt (R := ℚ)]
    push_cast
    linarith
  rw [roundContext_of_ne positive.ne', scale, div_le_iff₀ (by norm_num)]
  calc (roundHalfEven ((10 ^ 37 + 2 * 10 ^ 8) * (1 / 10 ^ 10)) : ℚ) ≤ ((10 ^ 27 : ℤ) : ℚ) := Int.cast_le.mpr whole
    _ = 10 ^ 37 * (1 / 10 ^ 10) := by norm_num

/-- A total that is bounded by its number of terms and absorbs further ones. -/
structure Held (count : ℕ) (total : ℚ) : Prop where
  perTerm : |total| ≤ 2 * 10 ^ 10 * count
  absorbed : |total| ≤ 10 ^ 37

theorem Held.add {count : ℕ} (held : Held count total) (small : |value| ≤ 2 * 10 ^ 8) :
    Held (count + 1) (roundContext (total + value)) := by
  have sum := abs_add_le total value
  have whole : |total + value| ≤ 10 ^ 37 + 2 * 10 ^ 8 := sum.trans (add_le_add held.absorbed small)
  have moved := abs_roundContext_sub_le (total + value)
  have size := abs_sub_abs_le_abs_sub (roundContext (total + value)) (total + value)
  have unit : |total + value| / 10 ^ 27 ≤ 10 ^ 10 + 1 := by
    rw [div_le_iff₀ (by norm_num)]
    exact whole.trans (by norm_num)
  refine ⟨?_, (abs_roundContext_le whole).trans roundContext_absorbs⟩
  have perTerm := held.perTerm
  push_cast
  linarith

theorem Held.sum {count : ℕ} (held : Held count total) (small : ∀ value ∈ values, |value| ≤ 2 * 10 ^ 8) :
    Held (count + values.length) (values.foldl (fun total value => roundContext (total + value)) total) := by
  induction values generalizing count total with
  | nil => exact held
  | cons value rest ih =>
      rw [List.length_cons, Nat.add_comm rest.length, ← Nat.add_assoc]
      exact ih (held.add (small value List.mem_cons_self)) fun other member => small other (List.mem_cons_of_mem _ member)

theorem abs_decimalSum_le (small : ∀ value ∈ values, |value| ≤ 2 * 10 ^ 8) :
    |decimalSum values| ≤ 2 * 10 ^ 10 * values.length := by
  have held : Held 0 0 := ⟨by simp, by norm_num⟩
  have perTerm := (held.sum small).perTerm
  rwa [Nat.zero_add] at perTerm

end Sums

/-! ## The values of an item -/

section Values

variable {db : DB} {itemId : Uuid} {row : Row} {rows : List Row} {value : ℚ} {newest older : ℚ}

/-- The numbers that a column of a derived value keeps. -/
def FitsColumn (value : ℚ) : Prop := |quantityColumn.quantize value| < 10 ^ 14

theorem fitsColumn_roundContext : FitsColumn (roundContext value) ↔ |value| < quotientLimit :=
  quantize_roundContext_lt_iff value

theorem StoredQuantity.lt_limit (stored : StoredQuantity value) : |value| < quotientLimit := by
  rw [← fitsColumn_roundContext, stored.roundContext_eq, FitsColumn, stored.scaled]
  exact stored.bounded

theorem StoredQuantity.fits (stored : StoredQuantity value) : FitsColumn value := by
  rw [FitsColumn, stored.scaled]
  exact stored.bounded

theorem dailyRate_fits (holds : HoldsNumber "quantity" row) : FitsColumn (dailyRate row) := by
  rw [dailyRate, fitsColumn_roundContext]
  have span : (1 : ℚ) ≤ consumptionDays row := by exact_mod_cast consumptionDays_pos row
  have less : |number "quantity" row / consumptionDays row| ≤ |number "quantity" row| := by
    rw [abs_div, abs_of_pos (zero_lt_one.trans_le span)]
    exact div_le_self (abs_nonneg _) span
  exact less.trans_lt holds.stored.lt_limit

theorem coverOf_fits (total : ℚ) (row : Row) :
    (∀ cover ∈ coverOf total (some (dailyRate row)), FitsColumn cover) ↔
      (0 < number "quantity" row → |total| < quotientLimit * dailyRate row) := by
  rw [← dailyRate_pos_iff, coverOf]
  by_cases consumed : 0 < dailyRate row
  · rw [if_pos consumed]
    simp only [Option.mem_some_iff, forall_eq', consumed, true_imp_iff]
    rw [fitsColumn_roundContext, abs_div, abs_of_pos consumed, div_lt_iff₀ consumed]
  · simp [consumed]

theorem relativeChange_fits : (∀ change ∈ relativeChange newest older, FitsColumn change) ↔
    (older ≠ 0 → |newest - older| < quotientLimit * |older|) := by
  unfold relativeChange
  by_cases zero : older = 0
  · simp [zero]
  · rw [if_neg zero]
    simp only [Option.mem_some_iff, forall_eq', ne_eq, zero, not_false_eq_true, true_imp_iff]
    rw [fitsColumn_roundContext, abs_div, div_lt_iff₀ (abs_pos.mpr zero)]

theorem changeOf_fits (short : rows.length ≤ 2) : (∀ change ∈ changeOf rows, FitsColumn change) ↔
    ∀ newest older, rows = [newest, older] → number "unit_price" older ≠ 0 →
      |number "unit_price" newest - number "unit_price" older| < quotientLimit * |number "unit_price" older| := by
  match rows, short with
  | [], _ => simp [changeOf]
  | [row], _ => simp [changeOf]
  | [newest, older], _ =>
      rw [changeOf, relativeChange_fits]
      simp

theorem InCalendar.bounds {moment : ℤ} (inCalendar : InCalendar moment) :
    -2440222 * 86400000000 ≤ moment ∧ moment < 106762940 * 86400000000 := inCalendar

theorem lateDays_le (admitted : ∀ name ∈ ["expected_at", "received_at"], ∀ moment ∈ row.timestamp? name, InCalendar moment)
    {days : ℤ} (late : lateDays row = some days) : |(days : ℚ)| ≤ 2 * 10 ^ 8 := by
  unfold lateDays at late
  split at late
  · next expected received isExpected isReceived =>
    have first := (admitted "expected_at" (by simp) expected isExpected).bounds
    have last := (admitted "received_at" (by simp) received isReceived).bounds
    have apart : |days| ≤ 2 * 10 ^ 8 := by
      rw [Option.some.injEq, Text.microsecondsPerDay] at late
      rw [abs_le]
      constructor <;> omega
    exact_mod_cast apart
  · cases late

theorem meanOf_fits {delays : List ℤ} : (∀ mean ∈ meanOf delays, FitsColumn mean) ↔
    (delays ≠ [] → |decimalSum (delays.map fun days : ℤ => (days : ℚ))| < quotientLimit * delays.length) := by
  cases delays with
  | nil => simp [meanOf]
  | cons first rest =>
      have count : (0 : ℚ) < (first :: rest).length := by exact_mod_cast Nat.succ_pos rest.length
      simp only [meanOf, Option.mem_some_iff, forall_eq', ne_eq, reduceCtorEq, not_false_eq_true, true_imp_iff]
      rw [fitsColumn_roundContext, abs_div, abs_of_pos count, div_lt_iff₀ count]

/-- No sum of delays within the calendar comes near the limit. -/
theorem delays_fit {delays : List ℤ} (small : ∀ days ∈ delays, |(days : ℚ)| ≤ 2 * 10 ^ 8) (some : delays ≠ []) :
    |decimalSum (delays.map fun days : ℤ => (days : ℚ))| < quotientLimit * delays.length := by
  have count : (0 : ℚ) < delays.length := by exact_mod_cast List.length_pos_iff.mpr some
  have terms : ∀ value ∈ delays.map fun days : ℤ => (days : ℚ), |value| ≤ 2 * 10 ^ 8 := by simpa using small
  have total := abs_decimalSum_le terms
  rw [List.length_map] at total
  have limit : (2 * 10 ^ 10 : ℚ) < quotientLimit := by norm_num [quotientLimit]
  exact total.trans_lt (mul_lt_mul_of_pos_right limit count)

theorem finiteValues_quiet (db : DB) (itemId : Uuid) : ∀ quantity ∈ (finiteValues db itemId).quantities, quantity.Quiet := by
  have quiet (column : Option ℚ) : ∀ quantity ∈ column.map Decimal.finite, quantity.Quiet := by
    cases column <;> simp [Decimal.Quiet.number]
  rw [forall_quantities, forall_columns]
  exact ⟨quiet _, quiet _, quiet _, quiet _, quiet _⟩

theorem forall_finite {column : Option ℚ} : (∀ quantity ∈ column.map Decimal.finite, ∀ value, quantity = .finite value →
    |quantityColumn.quantize value| < 10 ^ 14) ↔ ∀ value ∈ column, FitsColumn value := by
  cases column <;> simp [FitsColumn]

/-- The delays of the received orders are less than 10¹⁴ days on average. -/
def Punctual (db : DB) (itemId : Uuid) : Prop :=
  deliveryDelays db itemId ≠ [] →
    |decimalSum ((deliveryDelays db itemId).map fun days : ℤ => (days : ℚ))| <
      quotientLimit * (deliveryDelays db itemId).length

theorem fits_definite_iff (definite : Definite db itemId) :
    Fits (finiteValues db itemId) ↔ Moderate db itemId ∧ Punctual db itemId := by
  have rate : ∀ value ∈ (latestConsumption db itemId).map dailyRate, FitsColumn value := by
    simp only [Option.mem_def, Option.map_eq_some_iff, forall_exists_index, and_imp, forall_apply_eq_imp_iff₂]
    exact fun row newest => dailyRate_fits (definite.consumption row newest)
  have price : ∀ value ∈ (latestPrices db itemId).head?.map (number "unit_price"), FitsColumn value := by
    simp only [Option.mem_def, Option.map_eq_some_iff, forall_exists_index, and_imp, forall_apply_eq_imp_iff₂]
    exact fun row newest => (definite.prices row (List.mem_of_mem_head? newest)).stored.fits
  have cover : (∀ value ∈ coverOf (stockTotal db itemId) ((latestConsumption db itemId).map dailyRate), FitsColumn value) ↔
      ∀ row ∈ latestConsumption db itemId, 0 < number "quantity" row →
        |stockTotal db itemId| < quotientLimit * dailyRate row := by
    cases latestConsumption db itemId with
    | none => simp [coverOf]
    | some row =>
        rw [Option.map_some, coverOf_fits]
        simp
  have change := changeOf_fits (List.length_take_le _ _ : (latestPrices db itemId).length ≤ 2)
  rw [Fits, forall_quantities, forall_columns]
  simp only [finiteValues, forall_finite]
  constructor
  · rintro ⟨_, covered, _, changed, delayed⟩
    exact ⟨⟨cover.mp covered, change.mp changed⟩, meanOf_fits.mp delayed⟩
  · rintro ⟨moderate, punctual⟩
    exact ⟨rate, cover.mpr moderate.cover, price, change.mpr moderate.change, meanOf_fits.mpr punctual⟩

theorem Admitted.punctual (admitted : Admitted db itemId) : Punctual db itemId := by
  refine delays_fit fun days late => ?_
  obtain ⟨row, received, late⟩ := List.mem_filterMap.mp late
  exact lateDays_le (admitted.orders row (List.mem_filter.mp received).1) late

theorem fits_iff (admitted : Admitted db itemId) : Fits (finiteValues db itemId) ↔ Moderate db itemId :=
  (fits_definite_iff admitted.definite).trans (and_iff_left admitted.punctual)

/-- An item with stock fits its columns exactly if neither quotient has too small a divisor. -/
theorem fitsColumns_iff (admitted : Admitted db itemId) :
    FitsColumns db itemId ↔ (hasTrustedStock db itemId → Moderate db itemId) := by
  rw [hasTrustedStock_iff]
  constructor
  · intro fits stock
    exact (fits_iff admitted).mp (fits.quotients _ (aggregateValues_finite admitted stock))
  · intro moderate
    have quotients (values : AggregateValues) (computed : aggregateValues db itemId = .ok (some values)) :
        Fits values ∧ ∃ stored, storedValues values = .ok stored := by
      have stock : trustedRows db .stockLevel itemId ≠ [] := fun none => by
        rw [aggregateValues_eq_none.mpr none] at computed
        cases computed
      rw [aggregateValues_finite admitted stock] at computed
      cases computed
      have fits := (fits_iff admitted).mpr (moderate stock)
      exact ⟨fits, (storedValues_returns (finiteValues_quiet db itemId)).mpr fits⟩
    refine ⟨fun values computed => (quotients values computed).1, fun now enterpriseId column after raised => ?_⟩
    have raises : Raises (fun reason => reason ≠ .database (.numericOverflow column))
      (recomputeOne now enterpriseId itemId) db := by
      refine recomputeOne_raises (fun reason _ many => ?_) (fun reason refused => ?_) fun values computed => ?_
      · rw [scalarOrNone_error many]
        nofun
      · by_cases stock : trustedRows db .stockLevel itemId = []
        · rw [aggregateValues_eq_none.mpr stock] at refused
          cases refused
        · rw [aggregateValues_finite admitted stock] at refused
          cases refused
      · obtain ⟨_, stored, stores⟩ := quotients values computed
        rw [stores]
        exact refuses_ok stored
    exact raises _ _ raised rfl

end Values

/-- An item with some stock, of which next to nothing is used. -/
def hoardedItem (stock used : ℚ) : DB :=
  { (default : DB) with
    enterprise := [1]
    canonical := fun
      | .item => Table.empty.insert (.ofColumns 1 .fresh none [("sku", .text "bolt")])
      | .stockLevel => Table.empty.insert (.ofColumns 1 .fresh none
          [("item_id", .uuid 1), ("quantity", .decimal (.finite stock))])
      | .consumption => Table.empty.insert (.ofColumns 1 .fresh none
          [("item_id", .uuid 1), ("quantity", .decimal (.finite used))])
      | _ => .empty }

theorem hoardedItem_admitted {stock used : ℚ} (stockStored : StoredQuantity stock) (usedStored : StoredQuantity used)
    (itemId : Uuid) : Admitted (hoardedItem stock used) itemId where
  stock row trusted := by
    obtain rfl := List.mem_singleton.mp (mem_trustedRows.mp trusted).1
    exact ⟨stock, rfl, stockStored⟩
  consumption row trusted := by
    obtain rfl := List.mem_singleton.mp (mem_trustedRows.mp trusted).1
    exact ⟨used, rfl, usedStored⟩
  prices row trusted := absurd (mem_trustedRows.mp trusted).1 List.not_mem_nil
  orders row trusted := absurd (mem_trustedRows.mp trusted).1 List.not_mem_nil

theorem fitsColumns_hoardedItem : FitsColumns (hoardedItem 1000 (1 / 10000)) 1 := by
  refine (fitsColumns_iff (hoardedItem_admitted ⟨by decide +kernel, by norm_num⟩ ⟨by decide +kernel, by norm_num⟩ 1)).mpr
    fun _ => ⟨?_, ?_⟩
  · decide +kernel
  · nofun

/-- A billion in stock and a ten-thousandth used in a month: the cover is 3·10¹⁴ days. -/
theorem hoardedItem_overflows : Admitted (hoardedItem (10 ^ 9) (1 / 10000)) 1 ∧
    ¬ FitsColumns (hoardedItem (10 ^ 9) (1 / 10000)) 1 ∧
    (transact (recomputeAggregates 0 1 none) (hoardedItem (10 ^ 9) (1 / 10000))).1 =
      .error (.database (.numericOverflow "days_of_cover")) := by
  have admitted : Admitted (hoardedItem (10 ^ 9) (1 / 10000)) 1 :=
    hoardedItem_admitted ⟨by decide +kernel, by norm_num⟩ ⟨by decide +kernel, by norm_num⟩ 1
  refine ⟨admitted, fun fits => ?_, by decide +kernel⟩
  have moderate := (fits_iff admitted).mp (fits.quotients _ (aggregateValues_finite admitted (by decide +kernel)))
  exact absurd moderate.cover (by decide +kernel)

end SmartProcurement.Analysis
