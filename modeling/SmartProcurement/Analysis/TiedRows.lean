import SmartProcurement.Analysis.FiniteInputs
import SmartProcurement.Analysis.TrustedStock
import SmartProcurement.Relational.Ties
import Mathlib.Data.Int.ConditionallyCompleteOrder
import Mathlib.Data.Prod.Lex
import Mathlib.Order.WithBot

namespace SmartProcurement.Analysis

open Relational Transaction Numeric Observation

/-! # Aggregates and the order of the rows

The rows of one sync share `created_at`, and often the date they are sorted by.
Which of them a derivation reads is then up to the order in which the database
enumerates them.
-/

/-- The same rows, in another order where a derivation sorts them by a date. -/
structure Reenumerates (db other : DB) : Prop where
  rows : ∀ entity, ((other.canonical entity).rows).Perm (db.canonical entity).rows
  fixed : ∀ entity ∉ [Entity.consumption, .price, .leadTime], other.canonical entity = db.canonical entity
  rest : other = { db with canonical := other.canonical }

/-- What the aggregate of an item and its lead time are does not depend on the order. -/
def SetDetermined (db : DB) (itemId : Uuid) : Prop :=
  ∀ left right, Reenumerates db left → Reenumerates db right →
    aggregateValues left itemId = aggregateValues right itemId ∧ latestLeadTimeDays left itemId = latestLeadTimeDays right itemId

def newer (field : Row → Option Int) (first second : Row) : Prop := newestFirst field first second = true

instance (field : Row → Option Int) : DecidableRel (newer field) := fun first second =>
  inferInstanceAs (Decidable (newestFirst field first second = true))

/-- No trusted row of the item comes before this one. -/
def Newest (entity : Entity) (field : Row → Option Int) (db : DB) (itemId : Uuid) (row : Row) : Prop :=
  Leads (newer field) row (trustedRows db entity itemId)

abbrev NewestConsumption : DB → Uuid → Row → Prop := Newest .consumption (·.date? "period_end")
abbrev NewestPrice : DB → Uuid → Row → Prop := Newest .price (·.date? "valid_from")
abbrev NewestLeadTime : DB → Uuid → Row → Prop := Newest .leadTime (·.timestamp? "as_of")

def without (row : Row) (rows : List Row) : List Row := rows.filter (·.id ≠ row.id)

/-- Only the newest price comes before this one. -/
def SecondPrice (db : DB) (itemId : Uuid) (newest row : Row) : Prop :=
  Leads (newer (·.date? "valid_from")) row (without newest (trustedRows db .price itemId))

def ratedRow (row : Row) : Except Error Decimal := do
  let quantity ← toDecimal (row.col "quantity")
  trap (quantity.div (.finite (consumptionDays row)))

/-- The change from the one price to the other. -/
def changeBetween (newest older : Row) : Except Error (Option Decimal) := do
  let latest ← toDecimal (newest.col "unit_price")
  trendOf latest (← toDecimal (older.col "unit_price"))

/-- A NaN among the newest consumptions raises before a price is read. -/
def ReadsPrices (db : DB) (itemId : Uuid) : Prop :=
  hasTrustedStock db itemId ∧ ∀ row, NewestConsumption db itemId row → IsNumber "quantity" row

/-- The rows that tie for a place agree on what is read of them. -/
structure TiesAgree (db : DB) (itemId : Uuid) : Prop where
  rate : hasTrustedStock db itemId → ∀ row other, NewestConsumption db itemId row → NewestConsumption db itemId other →
    ratedRow row = ratedRow other
  price : ReadsPrices db itemId → ∀ row other, NewestPrice db itemId row → NewestPrice db itemId other →
    row.col "unit_price" = other.col "unit_price"
  change : ReadsPrices db itemId → ∀ newest, (∀ row, NewestPrice db itemId row ↔ row = newest) →
    ∀ row other, SecondPrice db itemId newest row → SecondPrice db itemId newest other →
      changeBetween newest row = changeBetween newest other
  leadTime : ∀ row other, NewestLeadTime db itemId row → NewestLeadTime db itemId other → row.col "days" = other.col "days"

/-! ## Enumerations -/

section Enumerations

variable {field : Row → Option Int} {db left : DB} {entity other : Entity} {itemId : Uuid} {row : Row}
  {rows others picked : List Row}
variable {count : Nat}

/-- `NULLS LAST`. -/
def dateKey : Option Int → WithBot Int
  | none => ⊥
  | some date => date

def sortKey (field : Row → Option Int) (row : Row) : WithBot Int ×ₗ Int := toLex (dateKey (field row), row.createdAt)

theorem newer_iff {first second : Row} : newer field first second ↔ sortKey field second ≤ sortKey field first := by
  simp only [newer, newestFirst, sortKey, Prod.Lex.toLex_le_toLex]
  cases field first with
  | none => cases field second <;> simp [dateKey]
  | some date =>
      cases field second with
      | none => simp [dateKey]
      | some other =>
          simp only [dateKey, WithBot.coe_lt_coe, WithBot.coe_inj, decide_eq_true_eq]
          exact or_congr_right (and_congr_left' eq_comm)

instance : Std.Total (newer field) where
  total first second := by
    rw [newer_iff, newer_iff]
    exact le_total _ _

instance : IsTrans Row (newer field) where
  trans first second third := by
    rw [newer_iff, newer_iff, newer_iff]
    exact fun later latest => latest.trans later

theorem Reenumerates.trusted (reenumerates : Reenumerates db left) (entity : Entity) (itemId : Uuid) :
    (trustedRows left entity itemId).Perm (trustedRows db entity itemId) :=
  (reenumerates.rows entity).filter _

theorem Reenumerates.trusted_fixed (reenumerates : Reenumerates db left)
    (fixed : entity ∉ [Entity.consumption, .price, .leadTime]) :
    trustedRows left entity itemId = trustedRows db entity itemId := by
  rw [trustedRows, trustedRows, reenumerates.fixed entity fixed]

theorem Reenumerates.refl (db : DB) : Reenumerates db db := ⟨fun _ => .refl _, fun _ _ => rfl, rfl⟩

/-- What a sorted query returns in some enumeration. -/
theorem Reenumerates.limit (reenumerates : Reenumerates db left) (count : Nat) :
    Limit (newer field) count (trustedRows db entity itemId)
      ((sortNewestFirst field (trustedRows left entity itemId)).take count) :=
  limit_iff.mpr ⟨_, reenumerates.trusted entity itemId, rfl⟩

/-- Whatever a sorted query may return, it returns in some enumeration. -/
theorem exists_reenumeration (listed : entity ∈ [Entity.consumption, .price, .leadTime])
    (limit : Limit (newer field) count (trustedRows db entity itemId) picked) :
    ∃ left, Reenumerates db left ∧ (sortNewestFirst field (trustedRows left entity itemId)).take count = picked ∧
      ∀ other ≠ entity, left.canonical other = db.canonical other := by
  obtain ⟨enumerated, perm, taken⟩ := limit_iff.mp limit
  let selects : Row → Bool := fun row => row.uuid? "item_id" = some itemId ∧ row.trusted
  have rows : (enumerated ++ (db.canonical entity).rows.filter (!selects ·)).Perm (db.canonical entity).rows :=
    (perm.append_right _).trans (List.filter_append_perm selects _)
  have distinct : ((enumerated ++ (db.canonical entity).rows.filter (!selects ·)).map Keyed.key).Nodup :=
    ((rows.map Keyed.key).nodup_iff).mpr (db.canonical entity).distinct
  have trusted : (enumerated ++ (db.canonical entity).rows.filter (!selects ·)).filter selects = enumerated := by
    have kept : enumerated.filter selects = enumerated := List.filter_eq_self.mpr fun row member =>
      (List.mem_filter.mp (perm.subset member)).2
    rw [List.filter_append, kept, List.filter_filter]
    simp
  refine ⟨db.setCanonical entity ⟨_, distinct⟩, ⟨fun other => ?_, fun other fixed => ?_, rfl⟩, ?_, fun other different => ?_⟩
  · by_cases same : other = entity
    · rw [same, DB.setCanonical_self]
      exact rows
    · rw [DB.setCanonical_other _ _ same]
  · exact DB.setCanonical_other _ _ fun same => fixed (same ▸ listed)
  · have enumerates : trustedRows (db.setCanonical entity ⟨_, distinct⟩) entity itemId = enumerated := by
      rw [trustedRows, DB.setCanonical_self]
      exact trusted
    rw [enumerates]
    exact taken
  · exact DB.setCanonical_other _ _ different

end Enumerations

/-! ## What the picked rows determine -/

section Picked

variable {db left right : DB} {itemId : Uuid} {row other : Row} {rows : List Row} {values : AggregateValues}
variable {last trend : Option Decimal}

theorem avgDailyConsumption_rated (db : DB) (itemId : Uuid) : avgDailyConsumption db itemId =
    match latestConsumption db itemId with
    | none => .ok none
    | some row => (ratedRow row).map some := by
  unfold avgDailyConsumption latestConsumption
  cases sortNewestFirst (·.date? "period_end") (trustedRows db .consumption itemId) with
  | nil => rfl
  | cons row rest =>
      simp only [List.head?_cons, ratedRow, consumptionDays]
      cases toDecimal (row.col "quantity") with
      | error reason => rfl
      | ok quantity =>
          cases spanDays row with
          | none =>
              change (trap (quantity.div daysInMonth) >>= fun rate => pure (some rate)) = (trap (quantity.div daysInMonth)).map some
              cases trap (quantity.div daysInMonth) <;> rfl
          | some span =>
              change (trap (quantity.div (.finite span)) >>= fun rate => pure (some rate)) =
                (trap (quantity.div (.finite span))).map some
              cases trap (quantity.div (.finite span)) <;> rfl

/-- The prices that the trend is made of. -/
def trendOfRows : List Row → Except Error (Option Decimal × Option Decimal)
  | [] => .ok (none, none)
  | [row] => do return (some (← toDecimal (row.col "unit_price")), none)
  | newest :: older :: _ => do return (some (← toDecimal (newest.col "unit_price")), ← changeBetween newest older)

theorem priceTrend_eq_trendOfRows (db : DB) (itemId : Uuid) : priceTrend db itemId = trendOfRows (latestPrices db itemId) := by
  unfold latestPrices
  match sorted : sortNewestFirst (·.date? "valid_from") (trustedRows db .price itemId) with
  | [] =>
      rw [priceTrend, sorted]
      rfl
  | [row] =>
      rw [priceTrend, sorted]
      rfl
  | row :: previous :: rest =>
      rw [priceTrend_of_two sorted]
      simp only [List.take_succ_cons, List.take_zero, trendOfRows, changeBetween]
      cases toDecimal (row.col "unit_price") with
      | error reason => rfl
      | ok newest => cases toDecimal (previous.col "unit_price") <;> rfl

theorem trendOfRows_head (computed : trendOfRows (row :: rows) = .ok (last, trend)) :
    ∃ price, row.col "unit_price" = .decimal price ∧ last = some price := by
  cases rows with
  | nil =>
      simp only [trendOfRows, except_bind_eq_ok, except_pure_eq_ok, Prod.mk.injEq] at computed
      obtain ⟨price, read, rfl, _⟩ := computed
      exact ⟨price, toDecimal_eq_ok read, rfl⟩
  | cons other rest =>
      simp only [trendOfRows, except_bind_eq_ok, except_pure_eq_ok, Prod.mk.injEq] at computed
      obtain ⟨price, read, _, _, rfl, _⟩ := computed
      exact ⟨price, toDecimal_eq_ok read, rfl⟩

theorem trendOfRows_pair (computed : trendOfRows [row, other] = .ok (last, trend)) : changeBetween row other = .ok trend := by
  simp only [trendOfRows, except_bind_eq_ok, except_pure_eq_ok, Prod.mk.injEq] at computed
  obtain ⟨_, _, _, changed, _, rfl⟩ := computed
  exact changed

theorem aggregateValues_parts (computed : aggregateValues db itemId = .ok (some values)) :
    avgDailyConsumption db itemId = .ok values.avgDailyConsumption ∧
      priceTrend db itemId = .ok (values.lastPrice, values.priceTrend) := by
  unfold aggregateValues at computed
  split at computed
  · cases computed
  · simp only [except_bind_eq_ok, except_pure_eq_ok] at computed
    obtain ⟨_, _, _, _, average, averaged, _, _, ⟨last, trend⟩, trended, _, _, computed⟩ := computed
    cases computed
    exact ⟨averaged, trended⟩

/-- An item's values depend on the average, the prices and rows that are not sorted. -/
theorem aggregateValues_of_parts (reenumerates : Reenumerates db left) (other : Reenumerates db right)
    (average : avgDailyConsumption left itemId = avgDailyConsumption right itemId)
    (prices : priceTrend left itemId = priceTrend right itemId) :
    aggregateValues left itemId = aggregateValues right itemId := by
  have rows (entity : Entity) (fixed : entity ∉ [Entity.consumption, .price, .leadTime]) :
      trustedRows left entity itemId = trustedRows right entity itemId :=
    (reenumerates.trusted_fixed fixed).trans (other.trusted_fixed fixed).symm
  simp only [aggregateValues, rows .stockLevel (by decide), average, prices, nextExpectedDelivery, avgSupplierDelay,
    rows .purchaseOrder (by decide)]

theorem Reenumerates.holds (reenumerates : Reenumerates db left) (holds : HoldsQuantities db) : HoldsQuantities left :=
  fun source listed row member => holds source listed row ((reenumerates.rows source.1).subset member)

theorem Reenumerates.stock (reenumerates : Reenumerates db left) :
    trustedRows left .stockLevel itemId = trustedRows db .stockLevel itemId :=
  reenumerates.trusted_fixed (by decide)

theorem ratedRow_nan (nan : ¬ IsNumber "quantity" row) : ratedRow row = .ok .nan := by
  rw [ratedRow, not_not.mp nan]
  rfl

theorem ratedRow_number (holds : HoldsQuantity "quantity" row) (number : IsNumber "quantity" row) :
    ratedRow row ≠ .ok .nan := by
  obtain ⟨quantity, column, quiet⟩ := holds
  cases quiet with
  | nan => exact absurd column number
  | number value =>
      have days : (consumptionDays row : ℚ) ≠ 0 := by exact_mod_cast (consumptionDays_pos row).ne'
      have divided : ratedRow row = trap ((Decimal.finite value).div (.finite (consumptionDays row))) := by
        rw [ratedRow, column]
        rfl
      rw [divided, trap_div _ days]
      simp

end Picked

/-! ## Ties -/

section Ties

variable {field : Row → Option Int} {db left right : DB} {entity : Entity} {itemId : Uuid} {row other : Row}
  {rows picked chosen : List Row}

theorem Reenumerates.newest (reenumerates : Reenumerates db left)
    (head : (sortNewestFirst field (trustedRows left entity itemId)).head? = some row) : Newest entity field db itemId row := by
  obtain ⟨rest, sorted⟩ := List.head?_eq_some_iff.mp head
  have limit : Limit (newer field) 1 (trustedRows db entity itemId)
      ((sortNewestFirst field (trustedRows left entity itemId)).take 1) :=
    reenumerates.limit 1
  rw [sorted, List.take_succ_cons] at limit
  exact limit.leads

theorem exists_newest (listed : entity ∈ [Entity.consumption, .price, .leadTime]) (newest : Newest entity field db itemId row) :
    ∃ left, Reenumerates db left ∧ (sortNewestFirst field (trustedRows left entity itemId)).head? = some row := by
  obtain ⟨left, reenumerates, taken, _⟩ := exists_reenumeration listed newest.limit
  exact ⟨left, reenumerates, by simpa [List.head?_take] using congrArg List.head? taken⟩

/-- Two enumerations begin with newest rows, if with any. -/
theorem heads (reenumerates : Reenumerates db left) (others : Reenumerates db right) :
    ((sortNewestFirst field (trustedRows left entity itemId)).head? = none ∧
        (sortNewestFirst field (trustedRows right entity itemId)).head? = none) ∨
      ∃ row other, (sortNewestFirst field (trustedRows left entity itemId)).head? = some row ∧
        (sortNewestFirst field (trustedRows right entity itemId)).head? = some other ∧
        Newest entity field db itemId row ∧ Newest entity field db itemId other := by
  have same : (sortNewestFirst field (trustedRows left entity itemId)).Perm
      (sortNewestFirst field (trustedRows right entity itemId)) :=
    (List.perm_insertionSort _ _).trans (((reenumerates.trusted entity itemId).trans (others.trusted entity itemId).symm).trans
      (List.perm_insertionSort _ _).symm)
  cases first : (sortNewestFirst field (trustedRows left entity itemId)).head? with
  | none =>
      rw [List.head?_eq_none_iff] at first
      rw [first] at same
      exact .inl ⟨rfl, List.head?_eq_none_iff.mpr same.nil_eq.symm⟩
  | some row =>
      cases second : (sortNewestFirst field (trustedRows right entity itemId)).head? with
      | none =>
          rw [List.head?_eq_none_iff] at second
          rw [second] at same
          rw [same.eq_nil] at first
          cases first
      | some other => exact .inr ⟨row, other, rfl, rfl, reenumerates.newest first, others.newest second⟩

theorem aggregateValues_of_number (holds : HoldsQuantities db) (stock : trustedRows db .stockLevel itemId ≠ [])
    (reenumerates : Reenumerates db left)
    (numbers : ∀ row, Newest .consumption (·.date? "period_end") db itemId row → IsNumber "quantity" row) :
    ∃ values, aggregateValues left itemId = .ok (some values) := by
  rw [← reenumerates.stock] at stock
  obtain ⟨values, derived⟩ := (aggregateValues_spec (reenumerates.holds holds) stock).1 fun row latest =>
    numbers row (reenumerates.newest latest)
  exact ⟨values, derived.computed⟩

theorem perm_without (distinct : (rows.map (·.id)).Nodup) (member : row ∈ rows) : rows.Perm (row :: without row rows) := by
  obtain ⟨front, back, rfl⟩ := List.append_of_mem member
  rw [List.map_append, List.map_cons, List.nodup_append] at distinct
  obtain ⟨_, backDistinct, apart⟩ := distinct
  have frontKept : without row front = front := List.filter_eq_self.mpr fun other member => by
    simpa using apart other.id (List.mem_map_of_mem member) row.id List.mem_cons_self
  have backKept : without row back = back := List.filter_eq_self.mpr fun other member => by
    simpa using fun same : other.id = row.id => (List.nodup_cons.mp backDistinct).1 (same ▸ List.mem_map_of_mem member)
  rw [without, List.filter_append, List.filter_cons_of_neg (by simp), ← without, ← without, frontKept, backKept]
  exact List.perm_middle

theorem trusted_distinct (db : DB) (entity : Entity) (itemId : Uuid) : ((trustedRows db entity itemId).map (·.id)).Nodup :=
  (db.canonical entity).distinct.sublist (List.filter_sublist.map _)

theorem changeBetween_congr {newest older : Row} (first : row.col "unit_price" = newest.col "unit_price")
    (second : other.col "unit_price" = older.col "unit_price") : changeBetween row other = changeBetween newest older := by
  rw [changeBetween, changeBetween, first, second]

section Prices

variable {second third : Row} {remaining others : List Row} (distinct : (rows.map (·.id)).Nodup)
  (prices : ∀ row other, Leads (newer field) row rows → Leads (newer field) other rows →
    row.col "unit_price" = other.col "unit_price")
  (changes : ∀ newest, (∀ row, Leads (newer field) row rows ↔ row = newest) →
    ∀ row other, Leads (newer field) row (without newest rows) → Leads (newer field) other (without newest rows) →
      changeBetween newest row = changeBetween newest other)

include distinct prices changes

theorem changeBetween_of_splits (split : rows.Perm (row :: remaining)) (first : ∀ later ∈ remaining, newer field row later)
    (leads : Leads (newer field) second remaining) (splitOther : rows.Perm (other :: others))
    (firstOther : ∀ later ∈ others, newer field other later) (leadsOther : Leads (newer field) third others) :
    changeBetween row second = changeBetween other third := by
  have rowLeads := leads_of_split split first
  have otherLeads := leads_of_split splitOther firstOther
  by_cases only : ∀ tied, Leads (newer field) tied rows ↔ tied = row
  · obtain rfl := (only other).mp otherLeads
    have rest := perm_without distinct rowLeads.member
    exact changes other only second third (leads.perm ((List.perm_cons other).mp (split.symm.trans rest)))
      (leadsOther.perm ((List.perm_cons other).mp (splitOther.symm.trans rest)))
  · obtain ⟨tied, tiedLeads, different⟩ : ∃ tied, Leads (newer field) tied rows ∧ tied ≠ row := by
      by_contra none
      push Not at none
      exact only fun tied => ⟨none tied, fun same => same ▸ rowLeads⟩
    -- rows that tie for the first place also tie for the second one
    have ties {first next : Row} {later : List Row} (split : rows.Perm (first :: later)) (leads : Leads (newer field) next later) :
        Leads (newer field) next rows := by
      refine Leads.of_rest split leads ?_
      by_cases same : tied = first
      · subst same
        exact ⟨row, (List.mem_cons.mp (split.subset rowLeads.member)).resolve_left different.symm, rowLeads⟩
      · exact ⟨tied, (List.mem_cons.mp (split.subset tiedLeads.member)).resolve_left same, tiedLeads⟩
    exact changeBetween_congr (prices row other rowLeads otherLeads)
      (prices second third (ties split leads) (ties splitOther leadsOther))

/-- Whatever the sorted prices begin with, the trend is the same. -/
theorem trendOfRows_of_limit (limit : Limit (newer field) 2 rows picked) (limitChosen : Limit (newer field) 2 rows chosen) :
    trendOfRows picked = trendOfRows chosen := by
  cases limit with
  | empty =>
      cases limitChosen with
      | empty => rfl
      | next split => cases split.nil_eq
  | @next _ _ remaining picked row split first rest =>
      cases limitChosen with
      | empty => cases split.symm.eq_nil
      | @next _ _ others chosen other splitOther firstOther restOther =>
          have same := prices row other (leads_of_split split first) (leads_of_split splitOther firstOther)
          have length := (split.symm.trans splitOther).length_eq
          cases picked with
          | nil =>
              cases chosen with
              | nil => rw [trendOfRows, trendOfRows, same]
              | cons third tail =>
                  rw [rest.nil] at length
                  have none : others = [] := List.length_eq_zero_iff.mp (by simpa using length.symm)
                  subst none
                  cases restOther.leads.member
          | cons second tail =>
              cases chosen with
              | nil =>
                  rw [restOther.nil] at length
                  have none : remaining = [] := List.length_eq_zero_iff.mp (by simpa using length)
                  subst none
                  cases rest.leads.member
              | cons third tail =>
                  rw [trendOfRows, trendOfRows, same, changeBetween_of_splits distinct prices changes split first rest.leads
                    splitOther firstOther restOther.leads]

end Prices

end Ties

/-! ## What the order decides -/

section Orders

variable {db left right : DB} {itemId : Uuid} {row other : Row} {values : AggregateValues}

/-- Where prices are read, both enumerations come to the same trend. -/
theorem exists_prices (reads : ReadsPrices db itemId) (holds : HoldsQuantities db) (determined : SetDetermined db itemId)
    (left right : DB) (reenumerates : Reenumerates db left) (others : Reenumerates db right) :
    ∃ last trend, trendOfRows (latestPrices left itemId) = .ok (last, trend) ∧
      trendOfRows (latestPrices right itemId) = .ok (last, trend) := by
  obtain ⟨values, computed⟩ := aggregateValues_of_number holds (hasTrustedStock_iff.mp reads.1) reenumerates reads.2
  have computedOther := (determined left right reenumerates others).1.symm.trans computed
  rw [← priceTrend_eq_trendOfRows, ← priceTrend_eq_trendOfRows]
  exact ⟨_, _, (aggregateValues_parts computed).2, (aggregateValues_parts computedOther).2⟩

theorem SetDetermined.rate (determined : SetDetermined db itemId) (holds : HoldsQuantities db)
    (trusted : hasTrustedStock db itemId) (newest : NewestConsumption db itemId row)
    (newestOther : NewestConsumption db itemId other) :
    ratedRow row = ratedRow other := by
  obtain ⟨left, reenumerates, head⟩ := exists_newest (by decide) newest
  obtain ⟨right, others, headOther⟩ := exists_newest (by decide) newestOther
  have same := (determined left right reenumerates others).1
  rw [hasTrustedStock_iff] at trusted
  have stock : trustedRows left .stockLevel itemId ≠ [] := by rwa [reenumerates.stock]
  have stockOther : trustedRows right .stockLevel itemId ≠ [] := by rwa [others.stock]
  have spec := aggregateValues_spec (reenumerates.holds holds) stock
  have specOther := aggregateValues_spec (others.holds holds) stockOther
  simp only [latestConsumption, head, headOther, Option.mem_some_iff, forall_eq'] at spec specOther
  by_cases number : IsNumber "quantity" row
  · obtain ⟨values, derived⟩ := spec.1 number
    have average := (aggregateValues_parts derived.computed).1
    have averageOther := (aggregateValues_parts (same.symm.trans derived.computed)).1
    rw [avgDailyConsumption_rated, latestConsumption, head] at average
    rw [avgDailyConsumption_rated, latestConsumption, headOther] at averageOther
    obtain ⟨rate, rated, isRate⟩ := except_map_eq_ok.mp average
    obtain ⟨rateOther, ratedOther, isRateOther⟩ := except_map_eq_ok.mp averageOther
    rw [rated, ratedOther, Option.some.inj (isRate.trans isRateOther.symm)]
  · have nanOther : ¬ IsNumber "quantity" other := by
      intro number
      obtain ⟨values, derived⟩ := specOther.1 number
      rw [spec.2 ‹_›, derived.computed] at same
      cases same
    rw [ratedRow_nan number, ratedRow_nan nanOther]

theorem SetDetermined.price (determined : SetDetermined db itemId) (holds : HoldsQuantities db) (reads : ReadsPrices db itemId)
    (newest : NewestPrice db itemId row) (newestOther : NewestPrice db itemId other) :
    row.col "unit_price" = other.col "unit_price" := by
  obtain ⟨left, reenumerates, head⟩ := exists_newest (by decide) newest
  obtain ⟨right, others, headOther⟩ := exists_newest (by decide) newestOther
  obtain ⟨last, trend, computed, computedOther⟩ := exists_prices reads holds determined left right reenumerates others
  obtain ⟨rest, sorted⟩ := List.head?_eq_some_iff.mp head
  obtain ⟨restOther, sortedOther⟩ := List.head?_eq_some_iff.mp headOther
  rw [latestPrices, sorted, List.take_succ_cons] at computed
  rw [latestPrices, sortedOther, List.take_succ_cons] at computedOther
  obtain ⟨price, column, rfl⟩ := trendOfRows_head computed
  obtain ⟨_, columnOther, ⟨⟩⟩ := trendOfRows_head computedOther
  rw [column, columnOther]

theorem SetDetermined.change (determined : SetDetermined db itemId) (holds : HoldsQuantities db) (reads : ReadsPrices db itemId)
    {newest : Row} (isNewest : NewestPrice db itemId newest) (second : SecondPrice db itemId newest row)
    (secondOther : SecondPrice db itemId newest other) : changeBetween newest row = changeBetween newest other := by
  have split := perm_without (trusted_distinct db .price itemId) isNewest.member
  have first (later : Row) (member : later ∈ without newest (trustedRows db .price itemId)) :
      newer (·.date? "valid_from") newest later :=
    isNewest.first later (List.mem_of_mem_filter member)
  obtain ⟨left, reenumerates, taken, _⟩ := exists_reenumeration (by decide) (.next split first second.limit)
  obtain ⟨right, others, takenOther, _⟩ := exists_reenumeration (by decide) (.next split first secondOther.limit)
  obtain ⟨last, trend, computed, computedOther⟩ := exists_prices reads holds determined left right reenumerates others
  rw [latestPrices, taken] at computed
  rw [latestPrices, takenOther] at computedOther
  rw [trendOfRows_pair computed, trendOfRows_pair computedOther]

theorem SetDetermined.leadTime (determined : SetDetermined db itemId) (newest : NewestLeadTime db itemId row)
    (newestOther : NewestLeadTime db itemId other) : row.col "days" = other.col "days" := by
  obtain ⟨left, reenumerates, head⟩ := exists_newest (by decide) newest
  obtain ⟨right, others, headOther⟩ := exists_newest (by decide) newestOther
  have same := (determined left right reenumerates others).2
  rw [latestLeadTimeDays, latestLeadTimeDays, head, headOther] at same
  exact Option.some.inj same

theorem TiesAgree.average (agree : TiesAgree db itemId) (trusted : hasTrustedStock db itemId)
    (reenumerates : Reenumerates db left)
    (others : Reenumerates db right) : avgDailyConsumption left itemId = avgDailyConsumption right itemId := by
  rw [avgDailyConsumption_rated, avgDailyConsumption_rated, latestConsumption, latestConsumption]
  rcases heads reenumerates others with ⟨none, noneOther⟩ | ⟨row, other, head, headOther, newest, newestOther⟩
  · rw [none, noneOther]
  · simp only [head, headOther, agree.rate trusted row other newest newestOther]

theorem TiesAgree.prices (agree : TiesAgree db itemId) (reads : ReadsPrices db itemId) (reenumerates : Reenumerates db left)
    (others : Reenumerates db right) : priceTrend left itemId = priceTrend right itemId := by
  rw [priceTrend_eq_trendOfRows, priceTrend_eq_trendOfRows]
  exact trendOfRows_of_limit (trusted_distinct db .price itemId) (agree.price reads) (agree.change reads) (reenumerates.limit 2)
    (others.limit 2)

/-- A newest consumption that is no number makes every enumeration raise. -/
theorem TiesAgree.raises (agree : TiesAgree db itemId) (holds : HoldsQuantities db) (trusted : hasTrustedStock db itemId)
    (newest : NewestConsumption db itemId row) (nan : ¬ IsNumber "quantity" row) (reenumerates : Reenumerates db left) :
    aggregateValues left itemId = .error (.decimal .invalidOperation) := by
  have stock := hasTrustedStock_iff.mp trusted
  rw [← reenumerates.stock] at stock
  refine (aggregateValues_spec (reenumerates.holds holds) stock).2 fun numbers => ?_
  cases head : (sortNewestFirst (·.date? "period_end") (trustedRows left .consumption itemId)).head? with
  | none =>
      have member : row ∈ sortNewestFirst (·.date? "period_end") (trustedRows left .consumption itemId) :=
        (List.mem_insertionSort _).mpr ((reenumerates.trusted .consumption itemId).symm.subset newest.member)
      rw [List.head?_eq_none_iff.mp head] at member
      cases member
  | some latest =>
      have isNewest : NewestConsumption db itemId latest := reenumerates.newest head
      have rated := (agree.rate trusted latest row isNewest newest).trans (ratedRow_nan nan)
      exact ratedRow_number (trusted_holds (.consumption, "quantity") holds (by decide) isNewest.member) (numbers latest head) rated

/-- The values of an item are determined by its rows exactly if the rows that tie agree. -/
theorem setDetermined_iff (holds : HoldsQuantities db) : SetDetermined db itemId ↔ TiesAgree db itemId := by
  constructor
  · intro determined
    refine ⟨fun trusted _ _ newest newestOther => determined.rate holds trusted newest newestOther,
      fun reads _ _ newest newestOther => determined.price holds reads newest newestOther,
      fun reads newest only _ _ second secondOther => determined.change holds reads ((only newest).mpr rfl) second secondOther,
      fun _ _ newest newestOther => determined.leadTime newest newestOther⟩
  · intro agree left right reenumerates others
    constructor
    · by_cases trusted : hasTrustedStock db itemId
      · by_cases numbers : ∀ row, NewestConsumption db itemId row → IsNumber "quantity" row
        · exact aggregateValues_of_parts reenumerates others (agree.average trusted reenumerates others)
            (agree.prices ⟨trusted, numbers⟩ reenumerates others)
        · push Not at numbers
          obtain ⟨row, newest, nan⟩ := numbers
          rw [agree.raises holds trusted newest nan reenumerates, agree.raises holds trusted newest nan others]
      · have none (state : DB) (reenumerates : Reenumerates db state) : aggregateValues state itemId = .ok none := by
          rw [aggregateValues_eq_none, reenumerates.stock]
          exact not_not.mp (hasTrustedStock_iff.not.mp trusted)
        rw [none left reenumerates, none right others]
    · rw [latestLeadTimeDays, latestLeadTimeDays]
      rcases heads reenumerates others with ⟨none, noneOther⟩ | ⟨row, other, head, headOther, newest, newestOther⟩
      · rw [none, noneOther]
      · rw [head, headOther, Option.map_some, Option.map_some, agree.leadTime row other newest newestOther]

end Orders

def usage (id : Uuid) (quantity : ℚ) : Row :=
  { Row.ofColumns 1 .fresh none [("item_id", .uuid 1), ("quantity", .decimal (.finite quantity))] with id }

/-- An item with two consumptions of one sync, neither of which has a period. -/
def usedTwice (first second : ℚ) : DB :=
  { (default : DB) with
    enterprise := [1]
    canonical := fun
      | .item => Table.empty.insert (.ofColumns 1 .fresh none [("sku", .text "bolt")])
      | .stockLevel => Table.empty.insert (.ofColumns 1 .fresh none
          [("item_id", .uuid 1), ("quantity", .decimal (.finite 100))])
      | .consumption => ⟨[usage 1 first, usage 2 second], by simp [Keyed.key, usage]⟩
      | _ => .empty }

section UsedTwice

variable (first second : ℚ)

theorem usedTwice_holds : HoldsQuantities (usedTwice first second) := by
  intro source listed row member
  simp only [quantityColumns, List.mem_cons, List.not_mem_nil, or_false] at listed
  rcases listed with rfl | rfl | rfl | rfl
  · obtain rfl := List.mem_singleton.mp member
    exact ⟨_, rfl, .number _⟩
  · rcases List.mem_pair.mp member with rfl | rfl
    · exact ⟨_, rfl, .number _⟩
    · exact ⟨_, rfl, .number _⟩
  · cases member
  · cases member

theorem mem_usedTwice {row : Row} : row ∈ trustedRows (usedTwice first second) .consumption 1 ↔
    row = usage 1 first ∨ row = usage 2 second := by
  rw [mem_trustedRows]
  constructor
  · exact fun member => List.mem_pair.mp member.1
  · rintro (rfl | rfl)
    · exact ⟨by simp [usedTwice], rfl, rfl⟩
    · exact ⟨by simp [usedTwice], rfl, rfl⟩

theorem usedTwice_newest {row : Row} : NewestConsumption (usedTwice first second) 1 row ↔
    row = usage 1 first ∨ row = usage 2 second := by
  constructor
  · exact fun newest => (mem_usedTwice first second).mp newest.member
  · intro is
    refine ⟨(mem_usedTwice first second).mpr is, fun other member => ?_⟩
    rcases is with rfl | rfl <;> rcases (mem_usedTwice first second).mp member with rfl | rfl <;> rfl

end UsedTwice

theorem setDetermined_usedTwice : SetDetermined (usedTwice 30 30) 1 := by
  refine (setDetermined_iff (usedTwice_holds 30 30)).mpr ⟨fun _ row other newest newestOther => ?_, ?_, ?_, ?_⟩
  · rcases (usedTwice_newest 30 30).mp newest with rfl | rfl <;>
      rcases (usedTwice_newest 30 30).mp newestOther with rfl | rfl <;> rfl
  · exact fun _ row _ newest => absurd (mem_trustedRows.mp newest.member).1 List.not_mem_nil
  · exact fun _ newest only => absurd (mem_trustedRows.mp ((only newest).mpr rfl).member).1 List.not_mem_nil
  · exact fun row _ newest => absurd (mem_trustedRows.mp newest.member).1 List.not_mem_nil

/-- A stock of 100 lasts for 100 or for 50 days, whichever consumption comes first. -/
theorem order_decides_cover : HoldsQuantities (usedTwice 30 60) ∧ ¬ SetDetermined (usedTwice 30 60) 1 := by
  refine ⟨usedTwice_holds 30 60, fun determined => ?_⟩
  have same := determined.rate (usedTwice_holds 30 60) ⟨_, List.mem_singleton_self _, rfl, rfl⟩
    ((usedTwice_newest 30 60).mpr (.inl rfl)) ((usedTwice_newest 30 60).mpr (.inr rfl))
  exact absurd same (by decide +kernel)

end SmartProcurement.Analysis
