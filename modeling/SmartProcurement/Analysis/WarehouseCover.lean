import SmartProcurement.Analysis.FiniteInputs
import SmartProcurement.Analysis.TrustedStock
import Mathlib.Algebra.BigOperators.Ring.List

namespace SmartProcurement.Analysis

open Relational Transaction Numeric Observation

/-! # The cover of an item in several warehouses

The stock of all warehouses is added up, but the daily consumption is the one of
a single row.
-/

/-- Rows of the warehouses of an item: one of each kind per warehouse, over the same period. -/
structure Distributed (db : DB) (itemId : Uuid) : Prop where
  stock : ((trustedRows db .stockLevel itemId).map (·.col "warehouse_id")).Nodup
  consumption : ((trustedRows db .consumption itemId).map (·.col "warehouse_id")).Nodup
  period : ∀ row ∈ trustedRows db .consumption itemId, ∀ other ∈ trustedRows db .consumption itemId,
    row.date? "period_start" = other.date? "period_start" ∧ row.date? "period_end" = other.date? "period_end"
  consumed : 0 < ((trustedRows db .consumption itemId).map (number "quantity")).sum

/-- What all warehouses together consume in a day. -/
def totalRate (db : DB) (itemId : Uuid) : ℚ :=
  ((trustedRows db .consumption itemId).map fun row => number "quantity" row / consumptionDays row).sum

/-- The cover is the stock of all warehouses divided by what all of them consume. -/
def CoverConsistent (db : DB) (itemId : Uuid) : Prop :=
  ∀ values, aggregateValues db itemId = .ok (some values) →
    values.daysOfCover = some (.finite (roundContext (stockTotal db itemId / roundContext (totalRate db itemId))))

/-- The consumption that is sorted first makes up the total, or there is nothing to be
used up and the first consumption is positive; without stock rows there is no cover. -/
def FirstCarriesAll (db : DB) (itemId : Uuid) : Prop :=
  hasTrustedStock db itemId → ∀ row ∈ latestConsumption db itemId,
    number "quantity" row = ((trustedRows db .consumption itemId).map (number "quantity")).sum ∨
      stockTotal db itemId = 0 ∧ 0 < number "quantity" row

section Warehouses

variable {db : DB} {itemId : Uuid} {row : Row} {values : List ℚ} {span part whole total : ℚ}

theorem sum_units (units : ∀ value ∈ values, ∃ n : ℤ, value * 10 ^ 4 = n) : ∃ n : ℤ, values.sum * 10 ^ 4 = n := by
  induction values with
  | nil => exact ⟨0, by simp⟩
  | cons value rest ih =>
      obtain ⟨n, isValue⟩ := units value List.mem_cons_self
      obtain ⟨m, isRest⟩ := ih fun other member => units other (List.mem_cons_of_mem _ member)
      exact ⟨n + m, by rw [List.sum_cons, add_mul, isValue, isRest, Int.cast_add]⟩

theorem Distributed.days (distributed : Distributed db itemId) {other : Row} (member : row ∈ trustedRows db .consumption itemId)
    (otherMember : other ∈ trustedRows db .consumption itemId) : consumptionDays row = consumptionDays other := by
  obtain ⟨start, stop⟩ := distributed.period row member other otherMember
  rw [consumptionDays, consumptionDays, spanDays, spanDays, start, stop]

theorem Distributed.totalRate (distributed : Distributed db itemId) (member : row ∈ trustedRows db .consumption itemId) :
    totalRate db itemId = ((trustedRows db .consumption itemId).map (number "quantity")).sum / consumptionDays row := by
  have same : (trustedRows db .consumption itemId).map (fun other => number "quantity" other / consumptionDays other) =
      (trustedRows db .consumption itemId).map fun other => number "quantity" other * (consumptionDays row : ℚ)⁻¹ :=
    List.map_congr_left fun other otherMember => by rw [distributed.days otherMember member, div_eq_mul_inv]
  rw [Analysis.totalRate, same, List.sum_map_mul_right, div_eq_mul_inv]

/-- Two rates of the same stock come to the same cover only if their quantities agree: the
roundings are too small to hide a unit of the column. -/
theorem quantity_eq_of_cover_eq (stored : StoredQuantity part) (units : ∃ n : ℤ, whole * 10 ^ 4 = n) (partPositive : 0 < part)
    (wholePositive : 0 < whole) (spanPositive : 0 < span) (nonzero : total ≠ 0)
    (same : roundContext (total / roundContext (part / span)) = roundContext (total / roundContext (whole / span))) :
    part = whole := by
  obtain ⟨n, isPart⟩ := stored.units
  obtain ⟨m, isWhole⟩ := units
  have partRate : 0 < part / span := div_pos partPositive spanPositive
  have wholeRate : 0 < whole / span := div_pos wholePositive spanPositive
  have near := abs_sub_le_of_roundContext_div_eq nonzero (roundContext_pos_iff.mpr partRate)
    (roundContext_pos_iff.mpr wholeRate) same
  have partRounded := abs_roundContext_sub_le (part / span)
  have wholeRounded := abs_roundContext_sub_le (whole / span)
  rw [abs_of_pos partRate, abs_le] at partRounded
  rw [abs_of_pos wholeRate, abs_le] at wholeRounded
  rw [abs_le] at near
  have rates : |part / span - whole / span| ≤ 3 / 10 ^ 27 * (part / span + whole / span) := by
    rw [abs_le]
    constructor <;> linarith
  have quantities : |part - whole| ≤ 3 / 10 ^ 27 * (part + whole) := by
    rw [← sub_div, ← add_div, abs_div, abs_of_pos spanPositive, ← mul_div_assoc, div_le_div_iff_of_pos_right spanPositive] at rates
    exact rates
  have digits : |((n - m : ℤ) : ℚ)| ≤ 3 / 10 ^ 27 * ((n : ℚ) + m) := by
    have scaled := mul_le_mul_of_nonneg_right quantities (by norm_num : (0 : ℚ) ≤ 10 ^ 4)
    rw [← abs_of_pos (by norm_num : (0 : ℚ) < 10 ^ 4), ← abs_mul, sub_mul, abs_of_pos (by norm_num : (0 : ℚ) < 10 ^ 4),
      isPart, isWhole, mul_assoc, add_mul, isPart, isWhole] at scaled
    exact_mod_cast scaled
  have bounded : (n : ℚ) < 10 ^ 18 := by
    have size := (abs_lt.mp stored.bounded).2
    rw [← isPart]
    linarith
  have equal : n - m = 0 := by
    by_contra different
    have apart : (1 : ℚ) ≤ |((n - m : ℤ) : ℚ)| := by exact_mod_cast Int.one_le_abs different
    rw [Int.cast_sub] at digits apart
    have upper := neg_abs_le ((n : ℚ) - m)
    linarith
  have unit : (10 : ℚ) ^ 4 ≠ 0 := by norm_num
  refine mul_right_cancel₀ unit ?_
  rw [isPart, isWhole, sub_eq_zero.mp equal]

theorem Distributed.exists_latest (distributed : Distributed db itemId) : ∃ row, latestConsumption db itemId = some row := by
  unfold latestConsumption
  cases sorted : sortNewestFirst (·.date? "period_end") (trustedRows db .consumption itemId) with
  | cons row rest => exact ⟨row, rfl⟩
  | nil =>
      have consumed := distributed.consumed
      have none : trustedRows db .consumption itemId = [] :=
        List.length_eq_zero_iff.mp ((List.length_insertionSort _ _).symm.trans (congrArg List.length sorted))
      rw [none] at consumed
      exact absurd consumed (lt_irrefl 0)

/-- The cover of one row's rate is the one of all rates exactly if the row has the whole quantity. -/
theorem coverOf_eq_iff (stored : StoredQuantity part) (units : ∃ n : ℤ, whole * 10 ^ 4 = n) (wholePositive : 0 < whole)
    (spanPositive : 0 < span) :
    coverOf total (some (roundContext (part / span))) = some (roundContext (total / roundContext (whole / span))) ↔
      part = whole ∨ total = 0 ∧ 0 < part := by
  have positive : 0 < roundContext (part / span) ↔ 0 < part := roundContext_pos_iff.trans (div_pos_iff_of_pos_right spanPositive)
  by_cases consumed : 0 < part
  · rw [coverOf, if_pos (positive.mpr consumed), Option.some.injEq]
    constructor
    · intro same
      by_cases zero : total = 0
      · exact .inr ⟨zero, consumed⟩
      · exact .inl (quantity_eq_of_cover_eq stored units consumed wholePositive spanPositive zero same)
    · rintro (rfl | ⟨rfl, _⟩)
      · rfl
      · rw [zero_div, zero_div]
  · rw [coverOf, if_neg (positive.not.mpr consumed)]
    refine iff_of_false (Option.some_ne_none _).symm ?_
    rintro (rfl | ⟨_, more⟩)
    · exact consumed wholePositive
    · exact consumed more

/-- The cover of several warehouses is consistent exactly if one row carries the consumption. -/
theorem coverConsistent_iff (admitted : Admitted db itemId) (distributed : Distributed db itemId) :
    CoverConsistent db itemId ↔ FirstCarriesAll db itemId := by
  unfold CoverConsistent FirstCarriesAll
  by_cases stock : trustedRows db .stockLevel itemId = []
  · rw [aggregateValues_eq_none.mpr stock, hasTrustedStock_iff]
    exact iff_of_true (by simp) fun trusted => absurd stock trusted
  · obtain ⟨row, latest⟩ := distributed.exists_latest
    have member := mem_latestConsumption (Option.mem_def.mpr latest)
    have quantity := (admitted.consumption row member).stored
    have units : ∀ value ∈ (trustedRows db .consumption itemId).map (number "quantity"), ∃ n : ℤ, value * 10 ^ 4 = n := by
      intro value listed
      obtain ⟨other, otherMember, rfl⟩ := List.mem_map.mp listed
      exact (admitted.consumption other otherMember).stored.units
    have span : (0 : ℚ) < consumptionDays row := by exact_mod_cast consumptionDays_pos row
    have cover : _ ↔ number "quantity" row = _ ∨ stockTotal db itemId = 0 ∧ _ :=
      coverOf_eq_iff quantity (sum_units units) distributed.consumed span
    rw [aggregateValues_finite admitted stock, hasTrustedStock_iff, distributed.totalRate member]
    simp only [Except.ok.injEq, Option.some.injEq, forall_eq', finiteValues, latest, Option.map_some, ne_eq, stock,
      not_false_eq_true, true_imp_iff, Option.mem_some_iff]
    rw [← cover, dailyRate]
    cases coverOf (stockTotal db itemId) (some (roundContext (number "quantity" row / consumptionDays row))) with
    | none => simp
    | some value => simp

end Warehouses

def held (id : Uuid) (quantity : ℚ) : Row :=
  { Row.ofColumns 1 .fresh none
      [("item_id", .uuid 1), ("warehouse_id", .uuid id), ("quantity", .decimal (.finite quantity))] with id }

def oneWarehouse (stock used : ℚ) : DB :=
  { (default : DB) with
    canonical := fun
      | .stockLevel => ⟨[held 1 stock], by simp⟩
      | .consumption => ⟨[held 1 used], by simp⟩
      | _ => .empty }

def twoWarehouses (stock used other : ℚ) : DB :=
  { (default : DB) with
    canonical := fun
      | .stockLevel => ⟨[held 1 stock, held 2 stock], by simp [Keyed.key, held]⟩
      | .consumption => ⟨[held 1 used, held 2 other], by simp [Keyed.key, held]⟩
      | _ => .empty }

section TwoWarehouses

variable {stock used other : ℚ}

theorem twoWarehouses_trusted {entity : Entity} {row : Row}
    (trusted : row ∈ trustedRows (twoWarehouses stock used other) entity 1) :
    entity = .stockLevel ∧ (row = held 1 stock ∨ row = held 2 stock) ∨
      entity = .consumption ∧ (row = held 1 used ∨ row = held 2 other) := by
  have member := (mem_trustedRows.mp trusted).1
  cases entity with
  | stockLevel => exact .inl ⟨rfl, List.mem_pair.mp member⟩
  | consumption => exact .inr ⟨rfl, List.mem_pair.mp member⟩
  | _ => cases member

theorem held_holds {id : Uuid} {quantity : ℚ} (stored : StoredQuantity quantity) : HoldsNumber "quantity" (held id quantity) :=
  ⟨quantity, rfl, stored⟩

theorem twoWarehouses_admitted (stockStored : StoredQuantity stock) (usedStored : StoredQuantity used)
    (otherStored : StoredQuantity other) : Admitted (twoWarehouses stock used other) 1 where
  stock row trusted := by
    rcases twoWarehouses_trusted trusted with ⟨_, rfl | rfl⟩ | ⟨⟨⟩, _⟩
    · exact held_holds stockStored
    · exact held_holds stockStored
  consumption row trusted := by
    rcases twoWarehouses_trusted trusted with ⟨⟨⟩, _⟩ | ⟨_, rfl | rfl⟩
    · exact held_holds usedStored
    · exact held_holds otherStored
  prices row trusted := by
    rcases twoWarehouses_trusted trusted with ⟨⟨⟩, _⟩ | ⟨⟨⟩, _⟩
  orders row trusted := by
    rcases twoWarehouses_trusted trusted with ⟨⟨⟩, _⟩ | ⟨⟨⟩, _⟩

theorem twoWarehouses_distributed (consumed : 0 < used + other) : Distributed (twoWarehouses stock used other) 1 where
  stock := by
    have places : (trustedRows (twoWarehouses stock used other) .stockLevel 1).map (·.col "warehouse_id") =
        [.uuid 1, .uuid 2] := rfl
    rw [places]
    decide
  consumption := by
    have places : (trustedRows (twoWarehouses stock used other) .consumption 1).map (·.col "warehouse_id") =
        [.uuid 1, .uuid 2] := rfl
    rw [places]
    decide
  period row trusted other otherTrusted := by
    rcases twoWarehouses_trusted trusted with ⟨⟨⟩, _⟩ | ⟨_, rfl | rfl⟩ <;>
      rcases twoWarehouses_trusted otherTrusted with ⟨⟨⟩, _⟩ | ⟨_, rfl | rfl⟩ <;> exact ⟨rfl, rfl⟩
  consumed := by
    have rows : (trustedRows (twoWarehouses stock used other) .consumption 1).map (number "quantity") = [used, other] := rfl
    rw [rows]
    simpa using consumed

end TwoWarehouses

theorem coverConsistent_oneUser : CoverConsistent (twoWarehouses 50 60 0) 1 :=
  (coverConsistent_iff (twoWarehouses_admitted ⟨by decide +kernel, by norm_num⟩ ⟨by decide +kernel, by norm_num⟩
    ⟨by decide +kernel, by norm_num⟩) (twoWarehouses_distributed (by norm_num))).mpr fun _ => by decide +kernel

def shortage (db : DB) (leadTime : Decimal) : Bool :=
  match aggregateValues db 1 with
  | .ok (some values) =>
      match evaluateLikelyShortage ⟨1, none, values, 0⟩ leadTime with
      | .ok (some _) => true
      | _ => false
  | _ => false

/-- Half of the stock and of the consumption in a second warehouse: the cover doubles, and
a shortage is no longer found. -/
theorem second_warehouse_hides_shortage :
    Admitted (twoWarehouses 50 30 30) 1 ∧ Distributed (twoWarehouses 50 30 30) 1 ∧ ¬ CoverConsistent (twoWarehouses 50 30 30) 1 ∧
      shortage (oneWarehouse 100 60) (.finite 60) = true ∧ shortage (twoWarehouses 50 30 30) (.finite 60) = false := by
  have admitted : Admitted (twoWarehouses 50 30 30) 1 := twoWarehouses_admitted ⟨by decide +kernel, by norm_num⟩
    ⟨by decide +kernel, by norm_num⟩ ⟨by decide +kernel, by norm_num⟩
  refine ⟨admitted, twoWarehouses_distributed (by norm_num), fun consistent => ?_, by decide +kernel, by decide +kernel⟩
  exact absurd (consistent _ (aggregateValues_finite admitted (by decide +kernel))) (by decide +kernel)

end SmartProcurement.Analysis
