import SmartProcurement.Jobs.Queue

namespace SmartProcurement.Observation

open Relational Transaction Numeric

/-! # Aggregate recomputation

For each item in scope the values of its `sku_aggregate` row are derived again
from the canonical rows that are not lost.  The derivation only reads; the one
write is the upsert of the item's row.
-/

/-! ## Reading the canonical rows of an item -/

/-- The rows of an entity that concern the item and may be trusted. -/
def trustedRows (db : DB) (entity : Entity) (itemId : Uuid) : List Row :=
  (db.canonical entity).rows.filter fun row => row.uuid? "item_id" = some itemId ∧ row.trusted

/-- `ORDER BY field DESC NULLS LAST, created_at DESC`. -/
def newestFirst (field : Row → Option Int) (first second : Row) : Bool :=
  match field first, field second with
  | some a, some b => b < a ∨ (a = b ∧ second.createdAt ≤ first.createdAt)
  | some _, none => true
  | none, some _ => false
  | none, none => second.createdAt ≤ first.createdAt

def sortNewestFirst (field : Row → Option Int) (rows : List Row) : List Row :=
  rows.insertionSort fun first second => newestFirst field first second

def daysInMonth : Decimal := .finite 30

/-- `(end - start).days` of two dates. -/
def spanDays (row : Row) : Option Int :=
  match row.date? "period_start", row.date? "period_end" with
  | some start, some stop => if 0 < stop - start then some (stop - start) else none
  | _, _ => none

def avgDailyConsumption (db : DB) (itemId : Uuid) : Except Error (Option Decimal) :=
  match sortNewestFirst (·.date? "period_end") (trustedRows db .consumption itemId) with
  | [] => .ok none
  | row :: _ => do
      let quantity ← toDecimal (row.col "quantity")
      match spanDays row with
      | some span => return some (← trap (quantity.div (.finite span)))
      -- without a usable period the quantity counts as a monthly figure
      | none => return some (← trap (quantity.div daysInMonth))

def withStatus (status : String) (order : Row) : Bool := order.col "status" = .text status

def nextExpectedDelivery (db : DB) (itemId : Uuid) : Option Timestamp :=
  let expected := ((trustedRows db .purchaseOrder itemId).filter (withStatus "open")).filterMap
    (·.timestamp? "expected_at")
  (expected.insertionSort (· ≤ ·)).head?

/-- The latest price and its relative change against the one before it. -/
def priceTrend (db : DB) (itemId : Uuid) : Except Error (Option Decimal × Option Decimal) :=
  match sortNewestFirst (·.date? "valid_from") (trustedRows db .price itemId) with
  | [] => .ok (none, none)
  | [row] => do
      return (some (← toDecimal (row.col "unit_price")), none)
  | row :: previous :: _ => do
      let newest ← toDecimal (row.col "unit_price")
      let older ← toDecimal (previous.col "unit_price")
      if ← trap (older.eq .zero) then return (some newest, none)
      let change ← trap (newest.sub older)
      return (some newest, some (← trap (change.div older)))

/-- `(received_at - expected_at).days` of a purchase order that has both. -/
def lateDays (row : Row) : Option Int :=
  match row.timestamp? "expected_at", row.timestamp? "received_at" with
  | some expected, some received => some ((received - expected) / Text.microsecondsPerDay)
  | _, _ => none

def avgSupplierDelay (db : DB) (itemId : Uuid) : Except Error (Option Decimal) :=
  match ((trustedRows db .purchaseOrder itemId).filter (withStatus "received")).filterMap lateDays with
  | [] => .ok none
  | delays => do
      let total ← trap (Decimal.sum (delays.map fun days : Int => Decimal.finite days))
      return some (← trap (total.div (.finite delays.length)))

/-- `total_quantity / avg_daily_consumption if avg_daily_consumption and ... > 0`. -/
def daysOfCover (total : Decimal) : Option Decimal → Except Error (Option Decimal)
  | none => .ok none
  | some average => do
      if !average.truthy then return none
      if ← trap (Decimal.zero.lt average) then return some (← trap (total.div average))
      else return none

/-- The values of the item's row, `none` without trustworthy stock data. -/
def aggregateValues (db : DB) (itemId : Uuid) : Except Error (Option AggregateValues) :=
  match trustedRows db .stockLevel itemId with
  | [] => .ok none
  | stockRows => do
      let quantities ← stockRows.mapM fun row => toDecimal (row.col "quantity")
      let total ← trap (Decimal.sum quantities)
      let avgDailyConsumption ← avgDailyConsumption db itemId
      let daysOfCover ← daysOfCover total avgDailyConsumption
      let nextExpectedDeliveryAt := nextExpectedDelivery db itemId
      let (lastPrice, priceTrend) ← priceTrend db itemId
      let avgSupplierDelayDays ← avgSupplierDelay db itemId
      return some {
        avgDailyConsumption, daysOfCover, nextExpectedDeliveryAt, lastPrice, priceTrend,
        avgSupplierDelayDays }

/-! ## Writing the row -/

def storeQuantity (column : String) : Option Decimal → Except Error (Option Decimal)
  | none => .ok none
  | some value =>
      match quantityColumn.store value with
      | some stored => .ok (some stored)
      | none => .error (.database (.numericOverflow column))

/-- The values as the columns of the table keep them. -/
def storedValues (values : AggregateValues) : Except Error AggregateValues := do
  return {
    avgDailyConsumption := ← storeQuantity "avg_daily_consumption" values.avgDailyConsumption
    daysOfCover := ← storeQuantity "days_of_cover" values.daysOfCover
    nextExpectedDeliveryAt := values.nextExpectedDeliveryAt
    lastPrice := ← storeQuantity "last_price" values.lastPrice
    priceTrend := ← storeQuantity "price_trend" values.priceTrend
    avgSupplierDelayDays := ← storeQuantity "avg_supplier_delay_days" values.avgSupplierDelayDays }

/-- The item-level row of the item: the one without a warehouse. -/
def itemLevel (itemId : Uuid) (row : SkuAggregate) : Bool :=
  row.itemId = itemId ∧ row.warehouseId = none

def itemRows (db : DB) (itemId : Uuid) : List SkuAggregate :=
  db.skuAggregate.rows.filter (itemLevel itemId)

def refreshed (now : Timestamp) (values : AggregateValues) (row : SkuAggregate) : SkuAggregate :=
  { row with values, computedAt := now }

def upsertAggregate (now : Timestamp) (enterpriseId itemId : Uuid) (values : AggregateValues) :
    Session SkuAggregate := do
  let existing ← scalarOrNone fun db => itemRows db itemId
  let stored ← lift (storedValues values)
  match existing with
  | none => do
      let row : SkuAggregate :=
        { id := 0, enterpriseId, itemId, warehouseId := none, values := stored, computedAt := now }
      let added ← read fun db => db.skuAggregate.newRow row
      write fun db => { db with skuAggregate := db.skuAggregate.insert row }
      return added
  | some row => do
      write fun db => { db with
        skuAggregate := db.skuAggregate.update row.id (refreshed now stored) }
      return refreshed now stored row

/-! ## The sweep -/

def recomputeOne (now : Timestamp) (enterpriseId itemId : Uuid) : Session (Option SkuAggregate) := do
  match ← lift (← read fun db => aggregateValues db itemId) with
  | none => return none
  | some values => return some (← upsertAggregate now enterpriseId itemId values)

/-- The items in scope; an empty scope means the whole enterprise. -/
def itemsInScope (enterpriseId : Uuid) (itemIds : Option (List Uuid)) (db : DB) : List Uuid :=
  let owned := ((db.canonical .item).rows.filter (·.enterpriseId = enterpriseId)).map (·.id)
  match itemIds with
  | none | some [] => owned
  | some scope => owned.filter (· ∈ scope)

def sweep (now : Timestamp) (enterpriseId : Uuid) (results : List SkuAggregate) (itemId : Uuid) :
    Session (List SkuAggregate) := do
  return results ++ (← recomputeOne now enterpriseId itemId).toList

def recomputeAggregates (now : Timestamp) (enterpriseId : Uuid) (itemIds : Option (List Uuid)) :
    Session (List SkuAggregate) := do
  let ids ← read (itemsInScope enterpriseId itemIds)
  ids.foldlM (sweep now enterpriseId) []

/-! ## What a recomputation leaves behind -/

/-- Nothing but the aggregate table may change. -/
def aggregatesOnly : Frame DB where
  rel before after := ∃ table, after = { before with skuAggregate := table }
  refl db := ⟨db.skuAggregate, rfl⟩
  trans := by
    rintro _ _ _ ⟨_, rfl⟩ ⟨table, rfl⟩
    exact ⟨table, rfl⟩

def leaves (itemId : Uuid) (before after : DB) : Prop :=
  ∀ select : SkuAggregate → Bool, (∀ row, select row = true → row.itemId = itemId) →
    after.skuAggregate.rows.filter select = before.skuAggregate.rows.filter select

def leavesOthers (itemId : Uuid) (before after : DB) : Prop :=
  ∀ select : SkuAggregate → Bool, (∀ row, select row = true → row.itemId ≠ itemId) →
    after.skuAggregate.rows.filter select = before.skuAggregate.rows.filter select

structure Upserted (now : Timestamp) (itemId : Uuid) (stored : AggregateValues) (before after : DB) :
    Prop where
  current : ∃ row, itemRows after itemId = [row] ∧ row.values = stored ∧ row.computedAt = now
  inPlace : ∀ row ∈ itemRows before itemId, itemRows after itemId = [refreshed now stored row]

/-- What one recomputation does about one item. -/
inductive Recomputed (now : Timestamp) (itemId : Uuid) (before after : DB) : Prop where
  | untrusted (none : aggregateValues before itemId = .ok none) (same : leaves itemId before after)
  | upserted {values stored : AggregateValues} (computed : aggregateValues before itemId = .ok (some values))
      (kept : storedValues values = .ok stored) (row : Upserted now itemId stored before after)

section Results

variable {now : Timestamp} {enterpriseId itemId : Uuid} {before after : DB}

theorem mem_trustedRows {db : DB} {entity : Entity} {row : Row} :
    row ∈ trustedRows db entity itemId ↔
      row ∈ (db.canonical entity).rows ∧ row.uuid? "item_id" = some itemId ∧ row.trusted = true := by
  simp [trustedRows]

/-- Nothing is derived exactly when there is no trustworthy stock row. -/
theorem aggregateValues_eq_none {db : DB} :
    aggregateValues db itemId = .ok none ↔ trustedRows db .stockLevel itemId = [] := by
  unfold aggregateValues
  cases stock : trustedRows db .stockLevel itemId with
  | nil => simp
  | cons row rest =>
      simp only [reduceCtorEq, iff_false]
      intro computed
      simp only [bind, Except.bind, pure, Except.pure] at computed
      repeat' split at computed
      all_goals cases computed

theorem mem_itemRows {db : DB} {row : SkuAggregate} :
    row ∈ itemRows db itemId ↔
      row ∈ db.skuAggregate.rows ∧ row.itemId = itemId ∧ row.warehouseId = none := by
  simp [itemRows, itemLevel]

theorem upsertAggregate_ok {values : AggregateValues} {row : SkuAggregate}
    (ran : upsertAggregate now enterpriseId itemId values before = .ok row after) :
    ∃ stored, storedValues values = .ok stored ∧ aggregatesOnly.rel before after ∧
      leavesOthers itemId before after ∧ Upserted now itemId stored before after := by
  simp only [upsertAggregate, bind_eq_ok, scalarOrNone_eq_ok, lift_eq_ok] at ran
  obtain ⟨existing, _, ⟨single, rfl⟩, stored, _, ⟨kept, rfl⟩, ran⟩ := ran
  have rows := scalarOneOrNone_ok single
  refine ⟨stored, kept, ?_⟩
  cases existing with
  | none =>
      have missing : itemRows before itemId = [] := by simpa using rows
      simp only [bind_eq_ok, read_eq_ok, write_eq_ok, pure_eq_ok] at ran
      obtain ⟨_, _, ⟨rfl, rfl⟩, _, _, rfl, rfl, rfl⟩ := ran
      refine ⟨⟨_, rfl⟩, ?_, ?_⟩
      · intro select others
        rw [Table.filter_insert, if_neg fun selected => others _ selected rfl, List.append_nil]
      · have added : itemLevel itemId (before.skuAggregate.newRow
            ⟨0, enterpriseId, itemId, none, stored, now⟩) = true := by
          simp [itemLevel, Table.newRow, Keyed.withKey]
        refine ⟨⟨before.skuAggregate.newRow ⟨0, enterpriseId, itemId, none, stored, now⟩, ?_, rfl, rfl⟩,
          by simp [missing]⟩
        refine (Table.filter_insert ..).trans ?_
        rw [if_pos added]
        exact congrArg (· ++ [before.skuAggregate.newRow ⟨0, enterpriseId, itemId, none, stored, now⟩]) missing
  | some old =>
      have found : itemRows before itemId = [old] := by simpa using rows
      obtain ⟨member, isItem, noWarehouse⟩ := mem_itemRows.mp (found ▸ List.mem_singleton_self old)
      simp only [bind_eq_ok, write_eq_ok, pure_eq_ok] at ran
      obtain ⟨_, _, rfl, _, rfl⟩ := ran
      have updated : itemRows { before with
          skuAggregate := before.skuAggregate.update old.id (refreshed now stored) } itemId =
            [refreshed now stored old] := by
        refine (Table.filter_updateWhere fun row _ _ => rfl).trans ?_
        change (itemRows before itemId).map _ = _
        rw [found, List.map_singleton, if_pos (by simp [Keyed.key])]
        rfl
      refine ⟨⟨_, rfl⟩, ?_, ⟨⟨_, updated, rfl, rfl⟩, ?_⟩⟩
      · intro select others
        refine Table.filter_updateWhere_of_not fun row rowMember hit => ?_
        have same : row = old := Table.eq_of_key_eq rowMember member (beq_iff_eq.mp hit)
        subst same
        have skipped (row : SkuAggregate) (item : row.itemId = itemId) : select row = false :=
          Bool.eq_false_iff.mpr fun selected => others row selected item
        exact ⟨skipped _ isItem, skipped _ isItem⟩
      · intro row rowMember
        rw [found, List.mem_singleton] at rowMember
        rw [updated, rowMember]

theorem recomputeOne_ok {result : Option SkuAggregate}
    (ran : recomputeOne now enterpriseId itemId before = .ok result after) :
    aggregatesOnly.rel before after ∧ leavesOthers itemId before after ∧
      Recomputed now itemId before after := by
  simp only [recomputeOne, bind_eq_ok, read_eq_ok, lift_eq_ok] at ran
  obtain ⟨_, _, ⟨rfl, rfl⟩, values, _, ⟨computed, rfl⟩, ran⟩ := ran
  cases values with
  | none =>
      obtain ⟨_, rfl⟩ := pure_eq_ok.mp ran
      exact ⟨aggregatesOnly.refl _, fun _ _ => rfl, .untrusted computed fun _ _ => rfl⟩
  | some values =>
      simp only [bind_eq_ok, pure_eq_ok] at ran
      obtain ⟨row, _, ran, _, rfl⟩ := ran
      obtain ⟨stored, kept, only, others, upserted⟩ := upsertAggregate_ok ran
      exact ⟨only, others, .upserted computed kept upserted⟩

theorem aggregateValues_of_aggregatesOnly (only : aggregatesOnly.rel before after) (itemId : Uuid) :
    aggregateValues after itemId = aggregateValues before itemId := by
  obtain ⟨_, rfl⟩ := only
  rfl

theorem leaves.itemRows (same : leaves itemId before after) : itemRows after itemId = itemRows before itemId :=
  same (itemLevel itemId) (by simp +contextual [itemLevel])

theorem leaves.trans {middle : DB} (first : leaves itemId before middle) (second : leaves itemId middle after) :
    leaves itemId before after :=
  fun select selects => (second select selects).trans (first select selects)

theorem Recomputed.trans_left {middle : DB} (recomputed : Recomputed now itemId middle after)
    (only : aggregatesOnly.rel before middle) (same : leaves itemId before middle) :
    Recomputed now itemId before after := by
  cases recomputed with
  | untrusted none kept =>
      rw [aggregateValues_of_aggregatesOnly only] at none
      exact .untrusted none (same.trans kept)
  | upserted computed kept upserted =>
      rw [aggregateValues_of_aggregatesOnly only] at computed
      refine .upserted computed kept ⟨upserted.current, fun row member => upserted.inPlace row ?_⟩
      rwa [same.itemRows]

theorem Recomputed.trans_right {middle : DB} (recomputed : Recomputed now itemId before middle)
    (same : leaves itemId middle after) : Recomputed now itemId before after := by
  cases recomputed with
  | untrusted none kept =>
      exact .untrusted none (kept.trans same)
  | upserted computed kept upserted =>
      refine .upserted computed kept ⟨?_, ?_⟩
      · rw [same.itemRows]
        exact upserted.current
      · rw [same.itemRows]
        exact upserted.inPlace

theorem leavesOthers.leaves {other : Uuid} (others : leavesOthers itemId before after)
    (different : other ≠ itemId) : leaves other before after := by
  intro select selects
  refine others select fun row selected => ?_
  rw [selects row selected]
  exact different

theorem sweep_ok {ids : List Uuid} {results final : List SkuAggregate} (distinct : ids.Nodup)
    (ran : ids.foldlM (sweep now enterpriseId) results before = .ok final after) :
    aggregatesOnly.rel before after ∧
      (∀ itemId ∈ ids, Recomputed now itemId before after) ∧
      ∀ itemId ∉ ids, leaves itemId before after := by
  induction ids generalizing results before with
  | nil =>
      obtain ⟨_, rfl⟩ := pure_eq_ok.mp ran
      exact ⟨aggregatesOnly.refl _, by simp, fun _ _ _ _ => rfl⟩
  | cons first rest ih =>
      simp only [List.foldlM_cons, sweep, bind_eq_ok, pure_eq_ok] at ran
      obtain ⟨_, middle, ⟨_, _, one, _, rfl⟩, ran⟩ := ran
      obtain ⟨fresh, distinct⟩ := List.nodup_cons.mp distinct
      obtain ⟨only, others, recomputed⟩ := recomputeOne_ok one
      obtain ⟨restOnly, restRecomputed, restLeaves⟩ := ih distinct ran
      refine ⟨aggregatesOnly.trans only restOnly, ?_, ?_⟩
      · intro itemId member
        rcases List.mem_cons.mp member with rfl | member
        · exact recomputed.trans_right (restLeaves _ fresh)
        · have different : itemId ≠ first := fun same => fresh (same ▸ member)
          exact (restRecomputed _ member).trans_left only (others.leaves different)
      · intro itemId outside
        rw [List.mem_cons, not_or] at outside
        exact (others.leaves outside.1).trans (restLeaves _ outside.2)

theorem itemsInScope_nodup (enterpriseId : Uuid) (itemIds : Option (List Uuid)) (db : DB) :
    (itemsInScope enterpriseId itemIds db).Nodup := by
  have owned : (((db.canonical .item).rows.filter (·.enterpriseId = enterpriseId)).map (·.id)).Nodup :=
    (db.canonical .item).distinct.sublist (List.filter_sublist.map _)
  unfold itemsInScope
  split
  · exact owned
  · exact owned
  · exact owned.filter _

theorem mem_itemsInScope_none {db : DB} :
    itemId ∈ itemsInScope enterpriseId none db ↔
      ∃ row, (db.canonical .item).find? itemId = some row ∧ row.enterpriseId = enterpriseId := by
  simp only [itemsInScope, List.mem_map, List.mem_filter, decide_eq_true_eq]
  constructor
  · rintro ⟨row, ⟨member, owner⟩, rfl⟩
    exact ⟨row, Table.find?_of_mem member, owner⟩
  · rintro ⟨row, found, owner⟩
    obtain ⟨member, rfl⟩ := Table.find?_some found
    exact ⟨row, ⟨member, owner⟩, rfl⟩

/-- A recomputation that returns: every item in scope is recomputed from the
state it met, and every other item keeps its rows. -/
theorem recomputeAggregates_ok {itemIds : Option (List Uuid)} {results : List SkuAggregate}
    (ran : recomputeAggregates now enterpriseId itemIds before = .ok results after) :
    aggregatesOnly.rel before after ∧
      (∀ itemId ∈ itemsInScope enterpriseId itemIds before, Recomputed now itemId before after) ∧
      ∀ itemId ∉ itemsInScope enterpriseId itemIds before, leaves itemId before after := by
  simp only [recomputeAggregates, bind_eq_ok, read_eq_ok] at ran
  obtain ⟨_, _, ⟨rfl, rfl⟩, ran⟩ := ran
  exact sweep_ok (itemsInScope_nodup ..) ran

/-- A recomputation only adds item-level rows and refreshes rows. -/
theorem recomputeAggregates_frame {frame : Frame DB}
    (insert : ∀ db (row : SkuAggregate), row.enterpriseId = enterpriseId → row.warehouseId = none →
      frame.rel db { db with skuAggregate := db.skuAggregate.insert row })
    (refresh : ∀ db id now values,
      frame.rel db { db with skuAggregate := db.skuAggregate.update id (refreshed now values) })
    (itemIds : Option (List Uuid)) : Follows frame (recomputeAggregates now enterpriseId itemIds) := by
  refine (follows_read _).bind fun ids => Follows.foldlM (fun results itemId => ?_) ids []
  refine Follows.bind ?_ fun _ => follows_pure _
  refine (follows_read _).bind fun values => (follows_lift values).bind fun values => ?_
  cases values with
  | none => exact follows_pure _
  | some values =>
      refine Follows.bind ?_ fun _ => follows_pure _
      refine Follows.bind ((follows_read _).bind fun _ => follows_lift _) fun existing => ?_
      refine (follows_lift _).bind fun stored => ?_
      cases existing with
      | none =>
          refine (follows_read _).bind fun _ => Follows.bind (follows_write fun db => ?_) fun _ => follows_pure _
          exact insert db ⟨0, enterpriseId, itemId, none, stored, now⟩ rfl rfl
      | some row =>
          exact (follows_write fun db => refresh db row.id now stored).bind fun _ => follows_pure _

theorem recomputeAggregates_follows (itemIds : Option (List Uuid)) :
    Follows aggregatesOnly (recomputeAggregates now enterpriseId itemIds) := by
  refine recomputeAggregates_frame ?_ ?_ itemIds
  · exact fun _ _ _ _ => ⟨_, rfl⟩
  · exact fun _ _ _ _ => ⟨_, rfl⟩

end Results

end SmartProcurement.Observation
