import SmartProcurement.Observation.Aggregates

namespace SmartProcurement.Observation

open Relational Transaction Numeric

/-! # What an aggregate is derived from

The values of an item depend on a few columns of its trusted rows, and on the
order of these rows, only.
-/

def aggregateEntities : List Entity := [.stockLevel, .consumption, .price, .purchaseOrder]

/-- The columns of an entity that the derivation reads. -/
def aggregateColumns : Entity → List String
  | .stockLevel => ["quantity"]
  | .consumption => ["quantity", "period_start", "period_end"]
  | .price => ["unit_price", "valid_from"]
  | .purchaseOrder => ["status", "expected_at", "received_at"]
  | _ => []

def reduced (columns : List String) (row : Row) : Row where
  id := 0
  enterpriseId := 0
  createdAt := row.createdAt
  sourceProvenance := none
  observability := .fresh
  col name := if name ∈ columns then row.col name else .null

/-- The rows of the entity read the same, column by column. -/
def SameReading (entity : Entity) (itemId : Uuid) (before after : DB) : Prop :=
  (trustedRows after entity itemId).map (reduced (aggregateColumns entity)) =
    (trustedRows before entity itemId).map (reduced (aggregateColumns entity))

section Readings

variable {itemId : Uuid} {before after : DB}

theorem reduced_col {columns : List String} {name : String} (listed : name ∈ columns) (row : Row) :
    (reduced columns row).col name = row.col name := if_pos listed

theorem reduced_date {columns : List String} {name : String} (listed : name ∈ columns) (row : Row) :
    (reduced columns row).date? name = row.date? name := by
  rw [Row.date?, reduced_col listed, Row.date?]

theorem reduced_timestamp {columns : List String} {name : String} (listed : name ∈ columns) (row : Row) :
    (reduced columns row).timestamp? name = row.timestamp? name := by
  rw [Row.timestamp?, reduced_col listed, Row.timestamp?]

theorem sortNewestFirst_reduced {columns : List String} {field : Row → Option Int}
    (reads : ∀ row, field (reduced columns row) = field row) (rows : List Row) :
    (sortNewestFirst field rows).map (reduced columns) = sortNewestFirst field (rows.map (reduced columns)) := by
  refine List.map_insertionSort _ _ _ _ fun first _ second _ => ?_
  simp only [newestFirst, reads]
  rfl

theorem avgDailyConsumption_congr (same : SameReading .consumption itemId before after) :
    avgDailyConsumption after itemId = avgDailyConsumption before itemId := by
  have reads (row : Row) : (reduced (aggregateColumns .consumption) row).date? "period_end" =
      row.date? "period_end" := reduced_date (by decide) row
  have sorted : (sortNewestFirst (·.date? "period_end") (trustedRows after .consumption itemId)).map
      (reduced (aggregateColumns .consumption)) =
      (sortNewestFirst (·.date? "period_end") (trustedRows before .consumption itemId)).map
        (reduced (aggregateColumns .consumption)) := by
    rw [sortNewestFirst_reduced reads, same, sortNewestFirst_reduced reads]
  unfold avgDailyConsumption
  generalize sortNewestFirst _ (trustedRows after .consumption itemId) = latest at sorted ⊢
  generalize sortNewestFirst _ (trustedRows before .consumption itemId) = earlier at sorted ⊢
  match latest, earlier, sorted with
  | [], [], _ => rfl
  | row :: _, other :: _, sorted =>
      have equal := (List.cons.inj sorted).1
      have quantity : row.col "quantity" = other.col "quantity" := by
        rw [← reduced_col (by decide : "quantity" ∈ aggregateColumns .consumption) row, equal, reduced_col (by decide)]
      have span : spanDays row = spanDays other := by
        unfold spanDays
        rw [← reduced_date (by decide : "period_start" ∈ aggregateColumns .consumption) row,
          ← reduced_date (by decide : "period_end" ∈ aggregateColumns .consumption) row, equal,
          reduced_date (by decide), reduced_date (by decide)]
      simp only [quantity, span]

theorem priceTrend_congr (same : SameReading .price itemId before after) :
    priceTrend after itemId = priceTrend before itemId := by
  have reads (row : Row) : (reduced (aggregateColumns .price) row).date? "valid_from" =
      row.date? "valid_from" := reduced_date (by decide) row
  have sorted : (sortNewestFirst (·.date? "valid_from") (trustedRows after .price itemId)).map
      (reduced (aggregateColumns .price)) =
      (sortNewestFirst (·.date? "valid_from") (trustedRows before .price itemId)).map
        (reduced (aggregateColumns .price)) := by
    rw [sortNewestFirst_reduced reads, same, sortNewestFirst_reduced reads]
  have price {row other : Row} (equal : reduced (aggregateColumns .price) row =
      reduced (aggregateColumns .price) other) : row.col "unit_price" = other.col "unit_price" := by
    rw [← reduced_col (by decide : "unit_price" ∈ aggregateColumns .price) row, equal, reduced_col (by decide)]
  unfold priceTrend
  generalize sortNewestFirst _ (trustedRows after .price itemId) = latest at sorted ⊢
  generalize sortNewestFirst _ (trustedRows before .price itemId) = earlier at sorted ⊢
  match latest, earlier, sorted with
  | [], [], _ => rfl
  | [row], [other], sorted => simp only [price (List.cons.inj sorted).1]
  | [_], _ :: _ :: _, sorted => simp at sorted
  | _ :: _ :: _, [_], sorted => simp at sorted
  | row :: next :: _, other :: following :: _, sorted =>
      simp only [List.map_cons, List.cons.injEq] at sorted
      simp only [price sorted.1, price sorted.2.1]

/-- A query over the rows of an item whose condition and result read listed columns. -/
theorem query_congr {α : Type} {entity : Entity} (select : Row → Bool) (field : Row → Option α)
    (selects : ∀ row, select (reduced (aggregateColumns entity) row) = select row)
    (reads : ∀ row, field (reduced (aggregateColumns entity) row) = field row)
    (same : SameReading entity itemId before after) :
    ((trustedRows after entity itemId).filter select).filterMap field =
      ((trustedRows before entity itemId).filter select).filterMap field := by
  have through (rows : List Row) : (rows.filter select).filterMap field =
      ((rows.map (reduced (aggregateColumns entity))).filter select).filterMap field := by
    rw [List.filter_map, List.filterMap_map]
    have selectsAll : select ∘ reduced (aggregateColumns entity) = select := funext selects
    have readsAll : field ∘ reduced (aggregateColumns entity) = field := funext reads
    rw [selectsAll, readsAll]
  rw [through, same, ← through]

theorem withStatus_reduced (status : String) (row : Row) :
    withStatus status (reduced (aggregateColumns .purchaseOrder) row) = withStatus status row := by
  rw [withStatus, reduced_col (by decide), withStatus]

theorem nextExpectedDelivery_congr (same : SameReading .purchaseOrder itemId before after) :
    nextExpectedDelivery after itemId = nextExpectedDelivery before itemId := by
  have expected := query_congr (withStatus "open") (·.timestamp? "expected_at")
    (withStatus_reduced "open") (reduced_timestamp (by decide)) same
  simp only [nextExpectedDelivery, expected]

theorem avgSupplierDelay_congr (same : SameReading .purchaseOrder itemId before after) :
    avgSupplierDelay after itemId = avgSupplierDelay before itemId := by
  have reads (row : Row) : lateDays (reduced (aggregateColumns .purchaseOrder) row) = lateDays row := by
    unfold lateDays
    rw [reduced_timestamp (by decide), reduced_timestamp (by decide)]
  simp only [avgSupplierDelay, query_congr _ _ (withStatus_reduced "received") reads same]

theorem stockQuantities_congr (same : SameReading .stockLevel itemId before after) :
    (trustedRows after .stockLevel itemId).map (·.col "quantity") =
      (trustedRows before .stockLevel itemId).map (·.col "quantity") := by
  have through (rows : List Row) : rows.map (·.col "quantity") =
      (rows.map (reduced (aggregateColumns .stockLevel))).map (·.col "quantity") := by
    rw [List.map_map]
    exact List.map_congr_left fun row _ => (reduced_col (by decide) row).symm
  rw [through, same, ← through]

/-- Rows that read the same give the same values. -/
theorem aggregateValues_congr (same : ∀ entity ∈ aggregateEntities, SameReading entity itemId before after) :
    aggregateValues after itemId = aggregateValues before itemId := by
  have quantities := stockQuantities_congr (same .stockLevel (by decide))
  have decimals (rows : List Row) : (rows.mapM fun row => toDecimal (row.col "quantity")) =
      (rows.map (·.col "quantity")).mapM toDecimal := by
    rw [List.mapM_map]
    rfl
  unfold aggregateValues
  rw [avgDailyConsumption_congr (same .consumption (by decide)), priceTrend_congr (same .price (by decide)),
    nextExpectedDelivery_congr (same .purchaseOrder (by decide)),
    avgSupplierDelay_congr (same .purchaseOrder (by decide))]
  generalize trustedRows after .stockLevel itemId = latest at quantities ⊢
  generalize trustedRows before .stockLevel itemId = earlier at quantities ⊢
  match latest, earlier, quantities with
  | [], [], _ => rfl
  | row :: rest, other :: others, quantities => simp only [decimals, quantities]

theorem aggregateValues_of_canonical (same : after.canonical = before.canonical) :
    aggregateValues after itemId = aggregateValues before itemId := by
  refine aggregateValues_congr fun entity _ => ?_
  rw [SameReading, trustedRows, same, ← trustedRows]

end Readings

end SmartProcurement.Observation
