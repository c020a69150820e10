import SmartProcurement.Core.Traps
import SmartProcurement.Numeric.Quiet
import SmartProcurement.Observation.Aggregates

namespace SmartProcurement.Observation

open Relational Transaction Numeric

/-! # When an aggregate is made of numbers

A NaN among the quantities of an item raises where it is compared, is kept in the
aggregate where it is only computed with, and is harmless where it is not read.
-/

/-- The column holds a quantity, be it a NaN. -/
def HoldsQuantity (name : String) (row : Row) : Prop := ∃ number, row.col name = .decimal number ∧ number.Quiet

def IsNumber (name : String) (row : Row) : Prop := row.col name ≠ .decimal .nan

instance (name : String) (row : Row) : Decidable (IsNumber name row) := by
  unfold IsNumber
  infer_instance

/-- The columns that the derivations and the rules compute with. -/
def quantityColumns : List (Entity × String) :=
  [(.stockLevel, "quantity"), (.consumption, "quantity"), (.price, "unit_price"), (.leadTime, "days")]

def HoldsQuantities (db : DB) : Prop :=
  ∀ source ∈ quantityColumns, ∀ row ∈ (db.canonical source.1).rows, HoldsQuantity source.2 row

/-! ## What is read -/

/-- The consumption that the daily average is taken from. -/
def latestConsumption (db : DB) (itemId : Uuid) : Option Row :=
  (sortNewestFirst (·.date? "period_end") (trustedRows db .consumption itemId)).head?

/-- The prices that the trend is taken from. -/
def latestPrices (db : DB) (itemId : Uuid) : List Row :=
  (sortNewestFirst (·.date? "valid_from") (trustedRows db .price itemId)).take 2

def positive (name : String) (row : Row) : Bool :=
  match row.col name with
  | .decimal (.finite value) => decide (0 < value)
  | _ => false

/-- The latest consumption is more than nothing, so that a stock lasts for a time. -/
def Consumed (db : DB) (itemId : Uuid) : Prop := ∃ row ∈ latestConsumption db itemId, positive "quantity" row = true

instance (db : DB) (itemId : Uuid) : Decidable (Consumed db itemId) := by
  unfold Consumed
  infer_instance

/-- No NaN is among the quantities that the values of the item are made of. -/
structure Derivable (db : DB) (itemId : Uuid) : Prop where
  consumption : ∀ row ∈ latestConsumption db itemId, IsNumber "quantity" row
  stock : Consumed db itemId → ∀ row ∈ trustedRows db .stockLevel itemId, IsNumber "quantity" row
  prices : ∀ row ∈ latestPrices db itemId, IsNumber "unit_price" row

end SmartProcurement.Observation

namespace SmartProcurement.AggregateValues

open Numeric

/-- The numeric columns of an aggregate. -/
def columns : List (String × (AggregateValues → Option Decimal)) := [
  ("avg_daily_consumption", (·.avgDailyConsumption)),
  ("days_of_cover", (·.daysOfCover)),
  ("last_price", (·.lastPrice)),
  ("price_trend", (·.priceTrend)),
  ("avg_supplier_delay_days", (·.avgSupplierDelayDays))]

def quantities (values : AggregateValues) : List Decimal := columns.filterMap fun column => column.2 values

/-- All quantities of the aggregate are finite numbers. -/
def Finite (values : AggregateValues) : Prop := ∀ quantity ∈ values.quantities, ∃ value, quantity = .finite value

end SmartProcurement.AggregateValues

namespace SmartProcurement.Observation

open Relational Transaction Numeric

/-! ## The parts of an aggregate -/

section Parts

variable {db : DB} {itemId : Uuid} {row : Row} {name : String} {rows : List Row} {total : Decimal}
variable {average : Option Decimal}

theorem HoldsQuantity.read (holds : HoldsQuantity name row) :
    ∃ number, toDecimal (row.col name) = .ok number ∧ number.Quiet ∧ (number ≠ .nan ↔ IsNumber name row) ∧
      ∀ value, number = .finite value → positive name row = decide (0 < value) := by
  obtain ⟨number, column, quiet⟩ := holds
  refine ⟨number, by rw [column]; rfl, quiet, ?_, ?_⟩
  · rw [IsNumber, column]
    simp
  · rintro value rfl
    rw [positive, column]

theorem trap_passes {operands : Prop} {operation : Except Signal Decimal} {result : Decimal}
    (passes : Decimal.Passes operands operation result) : trap operation = .ok result := by
  rw [passes.computed]
  rfl

theorem trusted_holds (source : Entity × String) (holds : HoldsQuantities db) (listed : source ∈ quantityColumns)
    (member : row ∈ trustedRows db source.1 itemId) : HoldsQuantity source.2 row :=
  holds source listed row (mem_trustedRows.mp member).1

theorem read_quantities (holds : ∀ row ∈ rows, HoldsQuantity name row) :
    ∃ numbers, (rows.mapM fun row => toDecimal (row.col name)) = .ok numbers ∧ (∀ number ∈ numbers, number.Quiet) ∧
      ((∀ number ∈ numbers, number ≠ .nan) ↔ ∀ row ∈ rows, IsNumber name row) := by
  induction rows with
  | nil => exact ⟨[], rfl, by simp, by simp⟩
  | cons row rest ih =>
      obtain ⟨number, read, quiet, number_iff, _⟩ := (holds row List.mem_cons_self).read
      obtain ⟨numbers, reads, quiets, numbers_iff⟩ := ih fun other member => holds other (List.mem_cons_of_mem _ member)
      refine ⟨number :: numbers, ?_, List.forall_mem_cons.mpr ⟨quiet, quiets⟩, ?_⟩
      · rw [List.mapM_cons, read, reads]
        rfl
      · rw [List.forall_mem_cons, List.forall_mem_cons, number_iff, numbers_iff]

theorem spanDays_pos {days : ℤ} (span : spanDays row = some days) : 0 < days := by
  unfold spanDays at span
  split at span
  · split at span
    · next after =>
      cases span
      exact after
    · cases span
  · cases span

theorem divisor_pos (row : Row) : 0 < (spanDays row).getD 30 := by
  cases span : spanDays row with
  | none => decide
  | some days => exact spanDays_pos span

/-- With or without a period, the quantity is divided by a number of days. -/
theorem avgDailyConsumption_of_newest {rest : List Row} {quantity : Decimal}
    (sorted : sortNewestFirst (·.date? "period_end") (trustedRows db .consumption itemId) = row :: rest)
    (read : toDecimal (row.col "quantity") = .ok quantity) :
    avgDailyConsumption db itemId = (trap (quantity.div (.finite ((spanDays row).getD 30 : ℤ)))).map some := by
  simp only [avgDailyConsumption, sorted, read, bind, Except.bind]
  cases span : spanDays row with
  | none =>
      have month : (Decimal.finite ((none.getD 30 : ℤ) : ℚ)) = daysInMonth := rfl
      rw [month]
      cases trap (quantity.div daysInMonth) <;> rfl
  | some days =>
      rw [Option.getD_some]
      simp only
      cases trap (quantity.div (.finite (days : ℚ))) <;> rfl

/-- The daily average: a NaN exactly if the consumption is one. -/
structure Averaged (db : DB) (itemId : Uuid) (average : Option Decimal) : Prop where
  computed : avgDailyConsumption db itemId = .ok average
  quiet : ∀ value ∈ average, value.Quiet
  number : (∀ value ∈ average, value ≠ .nan) ↔ ∀ row ∈ latestConsumption db itemId, IsNumber "quantity" row
  consumed : Consumed db itemId ↔ ∃ value, average = some (.finite value) ∧ 0 < value

theorem averaged (holds : HoldsQuantities db) (itemId : Uuid) : ∃ average, Averaged db itemId average := by
  have trusted : ∀ row ∈ sortNewestFirst (·.date? "period_end") (trustedRows db .consumption itemId),
      HoldsQuantity "quantity" row := fun row member =>
    trusted_holds (.consumption, "quantity") holds (by decide) ((List.mem_insertionSort _).mp member)
  cases sorted : sortNewestFirst (·.date? "period_end") (trustedRows db .consumption itemId) with
  | nil =>
      refine ⟨none, ?_, by simp, ?_, ?_⟩
      · rw [avgDailyConsumption, sorted]
      · simp [latestConsumption, sorted]
      · simp [Consumed, latestConsumption, sorted]
  | cons row rest =>
      obtain ⟨number, read, quiet, number_iff, positive_iff⟩ := (trusted row (sorted ▸ List.mem_cons_self)).read
      have longer : (0 : ℚ) < ((spanDays row).getD 30 : ℤ) := by exact_mod_cast divisor_pos row
      have divided := avgDailyConsumption_of_newest sorted read
      obtain ⟨average, passes⟩ := quiet.div longer.ne'
      refine ⟨some average, ?_, by simpa using passes.quiet, ?_, ?_⟩
      · rw [divided, trap_passes passes]
        rfl
      · simp only [latestConsumption, sorted, List.head?_cons, Option.mem_some_iff, forall_eq']
        rw [passes.number, number_iff]
      · simp only [Consumed, latestConsumption, sorted, List.head?_cons, Option.mem_some_iff, exists_eq_left',
          Option.some.injEq]
        cases quiet with
        | nan =>
            have nan : average = .nan := not_not.mp fun isNumber => absurd rfl (passes.number.mp isNumber)
            have notPositive : positive "quantity" row = false := by
              have isNan : row.col "quantity" = .decimal .nan := not_not.mp fun isNumber => absurd rfl (number_iff.mpr isNumber)
              rw [positive, isNan]
            simp [nan, notPositive]
        | number value =>
            have same : average = .finite (roundContext (value / ((spanDays row).getD 30 : ℤ))) := by
              have computed := passes.computed
              simp only [Decimal.div, Decimal.nanOperand, if_neg longer.ne', Except.ok.injEq] at computed
              exact computed.symm
            rw [positive_iff value rfl, decide_eq_true_eq, same]
            simp only [Decimal.finite.injEq, exists_eq_left', roundContext_pos_iff]
            exact (div_pos_iff_of_pos_right longer).symm

/-- A NaN as the average raises; a NaN as the total is kept where the stock is consumed. -/
theorem daysOfCover_nan (total : Decimal) : daysOfCover total (some .nan) = .error (.decimal .invalidOperation) := rfl

theorem daysOfCover_spec (quiet : total.Quiet) (averageQuiet : ∀ value ∈ average, value.Quiet)
    (number : ∀ value ∈ average, value ≠ .nan) :
    ∃ cover, daysOfCover total average = .ok cover ∧ (∀ value ∈ cover, value.Quiet) ∧
      (cover.isSome = true ↔ ∃ value, average = some (.finite value) ∧ 0 < value) ∧
      ((∀ value ∈ cover, value ≠ .nan) ↔ ((∃ value, average = some (.finite value) ∧ 0 < value) → total ≠ .nan)) := by
  match average, averageQuiet, number with
  | none, _, _ => exact ⟨none, rfl, by simp, by simp, by simp⟩
  | some average, averageQuiet, number =>
      obtain ⟨value, rfl⟩ := (averageQuiet average rfl).finite (number average rfl)
      have compared : trap (Decimal.zero.lt (.finite value)) = .ok (decide (0 < value)) := rfl
      simp only [Option.some.injEq, Decimal.finite.injEq, exists_eq_left']
      by_cases more : 0 < value
      · obtain ⟨cover, passes⟩ := quiet.div more.ne'
        refine ⟨some cover, ?_, by simpa using passes.quiet, by simpa using more, ?_⟩
        · simp only [daysOfCover, Decimal.truthy, more.ne', compared, trap_passes passes, decide_eq_true more, bind,
            Except.bind, ne_eq, not_false_eq_true, decide_true, Bool.not_true, Bool.false_eq_true, if_false, if_true]
          rfl
        · simpa [more] using passes.number
      · refine ⟨none, ?_, by simp, by simpa using more, by simp [more]⟩
        simp only [daysOfCover, compared, decide_eq_false more, bind, Except.bind, Bool.false_eq_true, if_false]
        split
        · rfl
        · rfl

theorem priceTrend_spec (holds : HoldsQuantities db) (itemId : Uuid) :
    ∃ last trend, priceTrend db itemId = .ok (last, trend) ∧ (∀ value ∈ last, value.Quiet) ∧
      (∀ value ∈ trend, value.Quiet) ∧ ((∀ value ∈ last, value ≠ .nan) ∧ (∀ value ∈ trend, value ≠ .nan) ↔
        ∀ row ∈ latestPrices db itemId, IsNumber "unit_price" row) := by
  have trusted : ∀ row ∈ sortNewestFirst (·.date? "valid_from") (trustedRows db .price itemId),
      HoldsQuantity "unit_price" row := fun row member =>
    trusted_holds (.price, "unit_price") holds (by decide) ((List.mem_insertionSort _).mp member)
  unfold latestPrices priceTrend
  match sortNewestFirst (·.date? "valid_from") (trustedRows db .price itemId), trusted with
  | [], _ => exact ⟨none, none, rfl, by simp, by simp, by simp⟩
  | [row], trusted =>
      obtain ⟨price, read, quiet, number, _⟩ := (trusted row List.mem_cons_self).read
      refine ⟨some price, none, ?_, by simpa using quiet, by simp, by simpa using number⟩
      simp only [read, bind, Except.bind]
      rfl
  | row :: previous :: rest, trusted =>
      obtain ⟨newest, read, quiet, number, _⟩ := (trusted row List.mem_cons_self).read
      obtain ⟨older, olderRead, olderQuiet, olderNumber, _⟩ :=
        (trusted previous (List.mem_cons_of_mem _ List.mem_cons_self)).read
      simp only [read, olderRead, bind, Except.bind, List.take_succ_cons, List.take_zero, List.forall_mem_cons,
        List.not_mem_nil, false_implies, implies_true, and_true, ← number, ← olderNumber]
      cases olderQuiet with
      | nan =>
          obtain ⟨change, passes⟩ := quiet.sub .nan
          refine ⟨some newest, some .nan, ?_, by simpa using quiet, by simp [Decimal.Quiet.nan], by simp⟩
          have compared : trap (Decimal.nan.eq .zero) = .ok false := rfl
          simp only [compared, trap_passes passes, passes.quiet.div_nan, Bool.false_eq_true, if_false]
          rfl
      | number value =>
          have compared := trap_eq_zero value
          by_cases zero : value = 0
          · refine ⟨some newest, none, ?_, by simpa using quiet, by simp, by simp⟩
            simp only [zero]
            rfl
          · obtain ⟨change, subtracts⟩ := quiet.sub (.number value)
            obtain ⟨ratio, divides⟩ := subtracts.quiet.div zero
            refine ⟨some newest, some ratio, ?_, by simpa using quiet, by simpa using divides.quiet, ?_⟩
            · simp only [compared, zero, decide_false, Bool.false_eq_true, if_false, trap_passes subtracts,
                trap_passes divides]
              rfl
            · simp [divides.number, subtracts.number]

theorem avgSupplierDelay_spec (db : DB) (itemId : Uuid) :
    ∃ delay, avgSupplierDelay db itemId = .ok delay ∧ ∀ value ∈ delay, value.Quiet ∧ value ≠ .nan := by
  unfold avgSupplierDelay
  match ((trustedRows db .purchaseOrder itemId).filter (withStatus "received")).filterMap lateDays with
  | [] => exact ⟨none, rfl, by simp⟩
  | first :: rest =>
      have numbers : ∀ value ∈ (first :: rest).map (fun days : Int => Decimal.finite days), value.Quiet ∧ value ≠ .nan := by
        intro value member
        obtain ⟨days, _, rfl⟩ := List.mem_map.mp member
        exact ⟨.number _, by simp⟩
      obtain ⟨total, sums⟩ := Decimal.quiet_sum fun value member => (numbers value member).1
      have several : ((first :: rest).length : ℚ) ≠ 0 := by
        exact_mod_cast (List.length_pos_of_mem (List.mem_cons_self (a := first) (l := rest))).ne'
      obtain ⟨delay, divides⟩ := sums.quiet.div several
      refine ⟨some delay, ?_, ?_⟩
      · simp only [trap_passes sums, bind, Except.bind, trap_passes divides]
        rfl
      · intro value member
        obtain rfl := Option.mem_some_iff.mp member
        exact ⟨divides.quiet, divides.number.mpr (sums.number.mpr fun value member => (numbers value member).2)⟩

end Parts

/-! ## The whole aggregate -/

section Aggregate

variable {db : DB} {itemId : Uuid} {values stored : AggregateValues} {column : String} {value kept : Option Decimal}

theorem forall_quantities {property : Decimal → Prop} : (∀ quantity ∈ values.quantities, property quantity) ↔
    ∀ column ∈ AggregateValues.columns, ∀ quantity ∈ column.2 values, property quantity := by
  simp only [AggregateValues.quantities, List.mem_filterMap, forall_exists_index, and_imp, Option.mem_def]
  exact ⟨fun all column listed quantity is => all quantity column listed is,
    fun all quantity column listed is => all column listed quantity is⟩

theorem forall_columns {property : String × (AggregateValues → Option Decimal) → Prop} :
    (∀ column ∈ AggregateValues.columns, property column) ↔
      property ("avg_daily_consumption", (·.avgDailyConsumption)) ∧ property ("days_of_cover", (·.daysOfCover)) ∧
        property ("last_price", (·.lastPrice)) ∧ property ("price_trend", (·.priceTrend)) ∧
        property ("avg_supplier_delay_days", (·.avgSupplierDelayDays)) := by
  simp [AggregateValues.columns]

/-- What the derivation of an item with stock comes to. -/
structure Derived (db : DB) (itemId : Uuid) (values : AggregateValues) : Prop where
  computed : aggregateValues db itemId = .ok (some values)
  quiet : ∀ quantity ∈ values.quantities, quantity.Quiet
  covered : values.daysOfCover.isSome = true ↔ Consumed db itemId
  number : (∀ quantity ∈ values.quantities, quantity ≠ .nan) ↔ Derivable db itemId

/-- Only a consumption that is no number raises; any other NaN ends in the aggregate. -/
theorem aggregateValues_spec (holds : HoldsQuantities db) (trusted : trustedRows db .stockLevel itemId ≠ []) :
    ((∀ row ∈ latestConsumption db itemId, IsNumber "quantity" row) → ∃ values, Derived db itemId values) ∧
      (¬ (∀ row ∈ latestConsumption db itemId, IsNumber "quantity" row) →
        aggregateValues db itemId = .error (.decimal .invalidOperation)) := by
  obtain ⟨average, averaged⟩ := averaged holds itemId
  obtain ⟨last, trend, trended, lastQuiet, trendQuiet, prices⟩ := priceTrend_spec holds itemId
  obtain ⟨delay, delayed, delays⟩ := avgSupplierDelay_spec db itemId
  have stockHolds : ∀ row ∈ trustedRows db .stockLevel itemId, HoldsQuantity "quantity" row := fun row member =>
    trusted_holds (.stockLevel, "quantity") holds (by decide) member
  obtain ⟨numbers, reads, quiets, stock⟩ := read_quantities stockHolds
  obtain ⟨total, sums⟩ := Decimal.quiet_sum quiets
  have derives : aggregateValues db itemId = (daysOfCover total average).map fun cover => some
      { avgDailyConsumption := average, daysOfCover := cover, nextExpectedDeliveryAt := nextExpectedDelivery db itemId,
        lastPrice := last, priceTrend := trend, avgSupplierDelayDays := delay } := by
    unfold aggregateValues
    split
    · next none => exact absurd none trusted
    · simp only [reads, trap_passes sums, averaged.computed, trended, delayed, bind, Except.bind]
      cases daysOfCover total average <;> rfl
  constructor
  · intro number
    have averageNumber := averaged.number.mpr number
    obtain ⟨cover, covers, coverQuiet, covered, coverNumber⟩ := daysOfCover_spec sums.quiet averaged.quiet averageNumber
    rw [covers] at derives
    refine ⟨_, derives, ?_, covered.trans averaged.consumed.symm, ?_⟩
    · rw [forall_quantities, forall_columns]
      exact ⟨averaged.quiet, coverQuiet, lastQuiet, trendQuiet, fun value is => (delays value is).1⟩
    · rw [← averaged.consumed, sums.number, stock] at coverNumber
      rw [forall_quantities, forall_columns]
      constructor
      · rintro ⟨_, cover, last, trend, _⟩
        exact ⟨number, coverNumber.mp cover, prices.mp ⟨last, trend⟩⟩
      · intro derivable
        exact ⟨averageNumber, coverNumber.mpr derivable.stock, (prices.mpr derivable.prices).1,
          (prices.mpr derivable.prices).2, fun value is => (delays value is).2⟩
  · intro nan
    have isNan : average = some .nan := by
      have notNumber : ¬ ∀ value ∈ average, value ≠ .nan := fun numbers => nan (averaged.number.mp numbers)
      simp only [not_forall, not_not] at notNumber
      obtain ⟨value, is, rfl⟩ := notNumber
      exact is
    rw [derives, isNan, daysOfCover_nan]
    rfl

/-- Storing keeps numbers numbers and NaNs NaNs. -/
theorem storeQuantity_nan (quiet : ∀ quantity ∈ value, quantity.Quiet) (stores : storeQuantity column value = .ok kept) :
    (kept.isSome = value.isSome) ∧ (∀ quantity ∈ kept, quantity.Quiet) ∧
      ((∀ quantity ∈ kept, quantity ≠ .nan) ↔ ∀ quantity ∈ value, quantity ≠ .nan) := by
  cases value with
  | none =>
      cases stores
      simp
  | some number =>
      obtain ⟨result, rfl, keeps⟩ : ∃ result, kept = some result ∧ quantityColumn.store number = some result := by
        simp only [storeQuantity] at stores
        split at stores
        · next result keeps =>
          cases stores
          exact ⟨result, rfl, keeps⟩
        · cases stores
      cases quiet number rfl with
      | number value =>
          simp only [Decimal.FixedPoint.store, Option.ite_none_right_eq_some, Option.some.injEq] at keeps
          obtain ⟨_, rfl⟩ := keeps
          simp [Decimal.Quiet.number]
      | nan =>
          cases keeps
          simp [Decimal.Quiet.nan]

/-- The numbers fit the columns of the aggregate. -/
def Fits (values : AggregateValues) : Prop :=
  ∀ quantity ∈ values.quantities, ∀ value, quantity = .finite value → |quantityColumn.quantize value| < 10 ^ 14

theorem storeQuantity_returns (column : String) (quiet : ∀ quantity ∈ value, quantity.Quiet) :
    (∃ kept, storeQuantity column value = .ok kept) ↔
      ∀ quantity ∈ value, ∀ number, quantity = .finite number → |quantityColumn.quantize number| < 10 ^ 14 := by
  cases value with
  | none => simp [storeQuantity]
  | some number =>
      have limit : quantityColumn.precision - quantityColumn.scale = 14 := rfl
      cases quiet number rfl with
      | number value =>
          simp only [storeQuantity, Decimal.FixedPoint.store, limit, Option.mem_some_iff, forall_eq', Decimal.finite.injEq]
          by_cases bounded : |quantityColumn.quantize value| < 10 ^ 14
          · simp [bounded]
          · simp [bounded]
      | nan => simp [storeQuantity, Decimal.FixedPoint.store]

theorem storedValues_eq_ok : storedValues values = .ok stored ↔
    (∀ column ∈ AggregateValues.columns, storeQuantity column.1 (column.2 values) = .ok (column.2 stored)) ∧
      stored.nextExpectedDeliveryAt = values.nextExpectedDeliveryAt := by
  simp only [storedValues, except_bind_eq_ok, except_pure_eq_ok, forall_columns]
  constructor
  · rintro ⟨_, average, _, cover, _, last, _, trend, _, delay, rfl⟩
    exact ⟨⟨average, cover, last, trend, delay⟩, rfl⟩
  · rintro ⟨⟨average, cover, last, trend, delay⟩, next⟩
    refine ⟨_, average, _, cover, _, last, _, trend, _, delay, ?_⟩
    rw [← next]

theorem storedValues_returns (quiet : ∀ quantity ∈ values.quantities, quantity.Quiet) :
    (∃ stored, storedValues values = .ok stored) ↔ Fits values := by
  rw [Fits, forall_quantities]
  rw [forall_quantities] at quiet
  constructor
  · rintro ⟨stored, keeps⟩ column listed
    exact (storeQuantity_returns column.1 (quiet column listed)).mp ⟨_, (storedValues_eq_ok.mp keeps).1 column listed⟩
  · intro fits
    have keeps (column) (listed : column ∈ AggregateValues.columns) :=
      (storeQuantity_returns column.1 (quiet column listed)).mpr (fits column listed)
    obtain ⟨⟨average, averageKept⟩, ⟨cover, coverKept⟩, ⟨last, lastKept⟩, ⟨trend, trendKept⟩, delay, delayKept⟩ :=
      forall_columns.mp keeps
    exact ⟨⟨average, cover, values.nextExpectedDeliveryAt, last, trend, delay⟩,
      storedValues_eq_ok.mpr ⟨forall_columns.mpr ⟨averageKept, coverKept, lastKept, trendKept, delayKept⟩, rfl⟩⟩

/-- The stored aggregate has a cover if the values have, and is finite if they are. -/
theorem storedValues_spec (quiet : ∀ quantity ∈ values.quantities, quantity.Quiet)
    (keeps : storedValues values = .ok stored) :
    stored.daysOfCover.isSome = values.daysOfCover.isSome ∧
      (stored.Finite ↔ ∀ quantity ∈ values.quantities, quantity ≠ .nan) := by
  have stores := (storedValues_eq_ok.mp keeps).1
  rw [forall_quantities] at quiet
  have same (column) (listed : column ∈ AggregateValues.columns) :=
    storeQuantity_nan (quiet column listed) (stores column listed)
  have storedQuiet : ∀ quantity ∈ stored.quantities, quantity.Quiet :=
    forall_quantities.mpr fun column listed => (same column listed).2.1
  have finite : stored.Finite ↔ ∀ quantity ∈ stored.quantities, quantity ≠ .nan := by
    refine forall₂_congr fun quantity member => ⟨?_, (storedQuiet quantity member).finite⟩
    rintro ⟨value, rfl⟩
    simp
  refine ⟨(same ("days_of_cover", (·.daysOfCover)) (by simp [AggregateValues.columns])).1, ?_⟩
  rw [finite, forall_quantities, forall_quantities]
  exact forall₂_congr fun column listed => (same column listed).2.2

end Aggregate

end SmartProcurement.Observation
