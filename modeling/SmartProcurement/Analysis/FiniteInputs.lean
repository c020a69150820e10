import SmartProcurement.Analysis.PriceTrends
import SmartProcurement.Numeric.Monotone
import SmartProcurement.Observation.Derivations

namespace SmartProcurement.Analysis

open Relational Transaction Numeric Observation

/-! # Aggregates of finite numbers

Where the columns that an aggregate is made of hold the numbers that they admit,
no derivation raises, and each value is a formula in these numbers.
-/

/-- The points in time that a timestamp column holds, every `datetime` among them. -/
def InCalendar (moment : Timestamp) : Prop :=
  Text.dayNumber (-4712) 11 24 * Text.microsecondsPerDay ≤ moment ∧
    moment < (Text.dayNumber 294276 12 31 + 1) * Text.microsecondsPerDay

/-- The column holds a finite number as `Numeric(18, 4)` keeps it. -/
def HoldsNumber (name : String) (row : Row) : Prop :=
  ∃ value, row.col name = .decimal (.finite value) ∧ StoredQuantity value

/-- Finite values that the columns of the item's rows admit. -/
structure Admitted (db : DB) (itemId : Uuid) : Prop where
  stock : ∀ row ∈ trustedRows db .stockLevel itemId, HoldsNumber "quantity" row
  consumption : ∀ row ∈ trustedRows db .consumption itemId, HoldsNumber "quantity" row
  prices : ∀ row ∈ trustedRows db .price itemId, HoldsNumber "unit_price" row
  orders : ∀ row ∈ trustedRows db .purchaseOrder itemId, ∀ name ∈ ["expected_at", "received_at"],
    ∀ moment ∈ row.timestamp? name, InCalendar moment

/-! ## The formulas -/

/-- The number in a column. -/
def number (name : String) (row : Row) : ℚ :=
  match row.col name with
  | .decimal (.finite value) => value
  | _ => 0

/-- The quantities that are computed with are finite. -/
structure Definite (db : DB) (itemId : Uuid) : Prop where
  stock : ∀ row ∈ trustedRows db .stockLevel itemId, HoldsQuantity "quantity" row
  covered : ∀ newest ∈ latestConsumption db itemId, 0 < number "quantity" newest →
    ∀ row ∈ trustedRows db .stockLevel itemId, HoldsNumber "quantity" row
  consumption : ∀ row ∈ latestConsumption db itemId, HoldsNumber "quantity" row
  prices : ∀ row ∈ latestPrices db itemId, HoldsNumber "unit_price" row

/-- The days that the quantity of a consumption is divided by. -/
def consumptionDays (row : Row) : ℤ := (spanDays row).getD 30

def dailyRate (row : Row) : ℚ := roundContext (number "quantity" row / consumptionDays row)

def stockTotal (db : DB) (itemId : Uuid) : ℚ := decimalSum ((trustedRows db .stockLevel itemId).map (number "quantity"))

def coverOf (total : ℚ) : Option ℚ → Option ℚ
  | none => none
  | some rate => if 0 < rate then some (roundContext (total / rate)) else none

/-- `(newest - older) / older`. -/
def relativeChange (newest older : ℚ) : Option ℚ :=
  if older = 0 then none else some (roundContext ((newest - older) / older))

def changeOf : List Row → Option ℚ
  | newest :: older :: _ => relativeChange (number "unit_price" newest) (number "unit_price" older)
  | _ => none

def deliveryDelays (db : DB) (itemId : Uuid) : List ℤ :=
  ((trustedRows db .purchaseOrder itemId).filter (withStatus "received")).filterMap lateDays

def meanOf : List ℤ → Option ℚ
  | [] => none
  | delays => some (roundContext (decimalSum (delays.map fun days : ℤ => (days : ℚ)) / delays.length))

def finiteValues (db : DB) (itemId : Uuid) : AggregateValues where
  avgDailyConsumption := ((latestConsumption db itemId).map dailyRate).map .finite
  daysOfCover := (coverOf (stockTotal db itemId) ((latestConsumption db itemId).map dailyRate)).map .finite
  nextExpectedDeliveryAt := nextExpectedDelivery db itemId
  lastPrice := ((latestPrices db itemId).head?.map (number "unit_price")).map .finite
  priceTrend := (changeOf (latestPrices db itemId)).map .finite
  avgSupplierDelayDays := (meanOf (deliveryDelays db itemId)).map .finite

section Evaluation

variable {db : DB} {itemId : Uuid} {row : Row} {name : String} {rows : List Row} {values : List ℚ}

theorem HoldsNumber.read (holds : HoldsNumber name row) : toDecimal (row.col name) = .ok (.finite (number name row)) := by
  obtain ⟨value, column, _⟩ := holds
  rw [number, column]
  rfl

theorem HoldsNumber.stored (holds : HoldsNumber name row) : StoredQuantity (number name row) := by
  obtain ⟨value, column, stored⟩ := holds
  rw [number, column]
  exact stored

theorem mem_latestPrices (member : row ∈ latestPrices db itemId) : row ∈ trustedRows db .price itemId :=
  (List.mem_insertionSort _).mp (List.mem_of_mem_take member)

theorem mem_latestConsumption (member : row ∈ latestConsumption db itemId) : row ∈ trustedRows db .consumption itemId :=
  (List.mem_insertionSort _).mp (List.mem_of_mem_head? member)

theorem consumptionDays_pos (row : Row) : 0 < consumptionDays row := divisor_pos row

theorem mapM_read (holds : ∀ row ∈ rows, HoldsNumber name row) :
    (rows.mapM fun row => toDecimal (row.col name)) = .ok ((rows.map (number name)).map .finite) := by
  induction rows with
  | nil => rfl
  | cons row rest ih =>
      rw [List.mapM_cons, (holds row List.mem_cons_self).read, ih fun other member => holds other (List.mem_cons_of_mem _ member)]
      rfl

theorem avgDailyConsumption_eq (newest : ∀ row ∈ latestConsumption db itemId, HoldsNumber "quantity" row) :
    avgDailyConsumption db itemId = .ok (((latestConsumption db itemId).map dailyRate).map .finite) := by
  unfold latestConsumption at newest ⊢
  cases sorted : sortNewestFirst (·.date? "period_end") (trustedRows db .consumption itemId) with
  | nil =>
      rw [avgDailyConsumption, sorted]
      rfl
  | cons row rest =>
      rw [sorted] at newest
      have days := consumptionDays_pos row
      have divided : trap ((Decimal.finite (number "quantity" row)).div (.finite (consumptionDays row))) =
          .ok (.finite (dailyRate row)) := trap_div _ (by exact_mod_cast days.ne')
      rw [avgDailyConsumption_of_newest sorted (newest row rfl).read]
      exact congrArg (Except.map some) divided

/-- Without a positive rate a stock has no cover, whatever it comes to. -/
theorem daysOfCover_of_unconsumed {rate : Option ℚ} (total : Decimal) (unconsumed : ∀ value ∈ rate, ¬ 0 < value) :
    daysOfCover total (rate.map .finite) = .ok none := by
  cases rate with
  | none => rfl
  | some value =>
      have compared : trap (Decimal.zero.lt (.finite value)) = .ok (decide (0 < value)) := rfl
      simp only [Option.map_some, daysOfCover, compared, decide_eq_false (unconsumed value rfl), bind, Except.bind,
        Bool.false_eq_true, if_false]
      split
      · rfl
      · rfl

theorem daysOfCover_eq (total : ℚ) (rate : Option ℚ) :
    daysOfCover (.finite total) (rate.map .finite) = .ok ((coverOf total rate).map .finite) := by
  cases rate with
  | none => rfl
  | some rate =>
      by_cases positive : 0 < rate
      · have compared : trap (Decimal.zero.lt (.finite rate)) = .ok (decide (0 < rate)) := rfl
        simp only [Option.map_some, daysOfCover, Decimal.truthy, positive.ne', compared, trap_div total positive.ne',
          decide_eq_true positive, bind, Except.bind, ne_eq, not_false_eq_true, decide_true, Bool.not_true,
          Bool.false_eq_true, if_false, if_true, coverOf, if_pos positive]
        rfl
      · have unconsumed : ∀ value ∈ some rate, ¬ 0 < value := by simpa using positive
        rw [daysOfCover_of_unconsumed _ unconsumed, coverOf, if_neg positive]
        rfl

theorem trendOf_eq {newest older : ℚ} (newestStored : StoredQuantity newest) (olderStored : StoredQuantity older) :
    trendOf (.finite newest) (.finite older) = .ok ((relativeChange newest older).map .finite) := by
  simp only [trendOf, trap_eq_zero, trap_sub, newestStored.sub_exact olderStored, bind, Except.bind, decide_eq_true_eq,
    relativeChange]
  by_cases zero : older = 0
  · rw [if_pos zero, if_pos zero]
    rfl
  · rw [if_neg zero, if_neg zero, trap_div _ zero]
    rfl

theorem priceTrend_eq (newest : ∀ row ∈ latestPrices db itemId, HoldsNumber "unit_price" row) :
    priceTrend db itemId = .ok (((latestPrices db itemId).head?.map (number "unit_price")).map .finite,
      (changeOf (latestPrices db itemId)).map .finite) := by
  unfold latestPrices at newest ⊢
  match sorted : sortNewestFirst (·.date? "valid_from") (trustedRows db .price itemId) with
  | [] =>
      rw [priceTrend, sorted]
      rfl
  | [row] =>
      rw [sorted] at newest
      simp only [priceTrend, sorted, (newest row (by simp)).read, bind, Except.bind]
      rfl
  | row :: previous :: rest =>
      rw [sorted] at newest
      have first := newest row (by simp)
      have second := newest previous (by simp)
      simp only [priceTrend_of_two sorted, first.read, second.read, trendOf_eq first.stored second.stored, bind, Except.bind]
      rfl

theorem avgSupplierDelay_eq (db : DB) (itemId : Uuid) :
    avgSupplierDelay db itemId = .ok ((meanOf (deliveryDelays db itemId)).map .finite) := by
  unfold avgSupplierDelay deliveryDelays
  cases ((trustedRows db .purchaseOrder itemId).filter (withStatus "received")).filterMap lateDays with
  | nil => rfl
  | cons first rest =>
      have several : ((first :: rest).length : ℚ) ≠ 0 := by
        exact_mod_cast (Nat.succ_ne_zero rest.length)
      have total : trap (Decimal.sum ((first :: rest).map fun days : Int => Decimal.finite days)) =
          .ok (.finite (decimalSum ((first :: rest).map fun days : ℤ => (days : ℚ)))) := by
        rw [← trap_sum, List.map_map]
        rfl
      simp only [total, bind, Except.bind, trap_div _ several, meanOf]
      rfl

theorem dailyRate_pos_iff {row : Row} : 0 < dailyRate row ↔ 0 < number "quantity" row := by
  have days : (0 : ℚ) < consumptionDays row := by exact_mod_cast consumptionDays_pos row
  exact roundContext_pos_iff.trans (div_pos_iff_of_pos_right days)

/-- The values of an item with stock. -/
theorem aggregateValues_definite (definite : Definite db itemId) (stock : trustedRows db .stockLevel itemId ≠ []) :
    aggregateValues db itemId = .ok (some (finiteValues db itemId)) := by
  obtain ⟨numbers, reads, quiets, _⟩ := read_quantities definite.stock
  obtain ⟨total, sums⟩ := Decimal.quiet_sum quiets
  have covers : daysOfCover total (((latestConsumption db itemId).map dailyRate).map .finite) =
      .ok ((coverOf (stockTotal db itemId) ((latestConsumption db itemId).map dailyRate)).map .finite) := by
    by_cases consumed : ∃ row ∈ latestConsumption db itemId, 0 < number "quantity" row
    · obtain ⟨row, newest, positive⟩ := consumed
      have rows := definite.covered row newest positive
      rw [mapM_read rows] at reads
      cases reads
      have same : total = .finite (stockTotal db itemId) :=
        Except.ok.inj ((trap_passes sums).symm.trans (trap_sum _))
      rw [same, daysOfCover_eq]
    · have unconsumed : ∀ value ∈ (latestConsumption db itemId).map dailyRate, ¬ 0 < value := by
        simp only [Option.mem_def, Option.map_eq_some_iff, forall_exists_index, and_imp, forall_apply_eq_imp_iff₂,
          dailyRate_pos_iff]
        exact fun row newest positive => consumed ⟨row, newest, positive⟩
      rw [daysOfCover_of_unconsumed total unconsumed]
      unfold coverOf
      split
      · rfl
      · next value is => rw [if_neg (unconsumed value is), Option.map_none]
  unfold aggregateValues
  split
  · next none => exact absurd none stock
  · simp only [reads, trap_passes sums, avgDailyConsumption_eq definite.consumption, covers, priceTrend_eq definite.prices,
      avgSupplierDelay_eq, bind, Except.bind]
    rfl

theorem HoldsNumber.quantity (holds : HoldsNumber name row) : HoldsQuantity name row := by
  obtain ⟨value, column, _⟩ := holds
  exact ⟨_, column, .number value⟩

theorem Admitted.definite (admitted : Admitted db itemId) : Definite db itemId where
  stock row trusted := (admitted.stock row trusted).quantity
  covered _ _ _ := admitted.stock
  consumption row newest := admitted.consumption row (mem_latestConsumption newest)
  prices row newest := admitted.prices row (mem_latestPrices newest)

theorem aggregateValues_finite (admitted : Admitted db itemId) (stock : trustedRows db .stockLevel itemId ≠ []) :
    aggregateValues db itemId = .ok (some (finiteValues db itemId)) :=
  aggregateValues_definite admitted.definite stock

end Evaluation

end SmartProcurement.Analysis
