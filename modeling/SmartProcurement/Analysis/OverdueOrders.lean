import SmartProcurement.Analysis.Detection
import SmartProcurement.Analysis.PastDemands

namespace SmartProcurement.Analysis

open Relational Numeric Transaction Observation

/-! # Orders that are overdue

An open order stays open when its day passes.  The next delivery is the soonest of
all open orders, overdue ones as well, and the rule asks only afterwards whether it
is still to come.
-/

/-- When the trusted open orders of the item are expected. -/
def openDeliveries (db : DB) (itemId : Uuid) : List Timestamp :=
  ((trustedRows db .purchaseOrder itemId).filter (withStatus "open")).filterMap (·.timestamp? "expected_at")

/-- `(delivery - now).days`. -/
def daysUntil (now delivery : Timestamp) : ℤ := (delivery - now) / Text.microsecondsPerDay

/-- The aggregate with the next delivery that the orders give. -/
def expecting (aggregate : AggregateSnapshot) (db : DB) : AggregateSnapshot :=
  { aggregate with values := { aggregate.values with nextExpectedDeliveryAt := nextExpectedDelivery db aggregate.itemId } }

/-- `insufficient_until_next_delivery` fires over the orders. -/
def FiresOver (aggregate : AggregateSnapshot) (now : Timestamp) (db : DB) : Prop :=
  ∃ candidate, evaluateInsufficientUntilNextDelivery (expecting aggregate db) now = .ok (some candidate)

def withOrder (db : DB) (order : Row) : DB :=
  db.setCanonical .purchaseOrder ((db.canonical .purchaseOrder).insert order)

/-- An open order of the item that is expected no later than now. -/
structure Overdue (itemId : Uuid) (now : Timestamp) (order : Row) : Prop where
  item : order.uuid? "item_id" = some itemId
  trusted : order.trusted = true
  isOpen : withStatus "open" order = true
  due : ∃ expected ≤ now, order.timestamp? "expected_at" = some expected

section Orders

variable {aggregate : AggregateSnapshot} {db : DB} {itemId : Uuid} {now expected : Timestamp} {order : Row} {cover : Decimal}

theorem nextExpectedDelivery_eq_some :
    nextExpectedDelivery db itemId = some expected ↔
      expected ∈ openDeliveries db itemId ∧ ∀ other ∈ openDeliveries db itemId, expected ≤ other := by
  change ((openDeliveries db itemId).insertionSort (· ≤ ·)).head? = some expected ↔ _
  generalize openDeliveries db itemId = deliveries
  have sorted := List.pairwise_insertionSort (· ≤ ·) deliveries
  have members (other : Timestamp) : other ∈ deliveries.insertionSort (· ≤ ·) ↔ other ∈ deliveries := List.mem_insertionSort _
  cases ordered : deliveries.insertionSort (· ≤ ·) with
  | nil =>
      rw [ordered] at members
      simp [← members]
  | cons first rest =>
      rw [ordered] at members sorted
      rw [List.head?_cons, Option.some.injEq]
      have least := (List.pairwise_cons.mp sorted).1
      constructor
      · rintro rfl
        refine ⟨(members first).mp List.mem_cons_self, fun other member => ?_⟩
        rcases List.mem_cons.mp ((members other).mpr member) with rfl | later
        · exact le_rfl
        · exact least other later
      · rintro ⟨member, minimal⟩
        have below := minimal first ((members first).mp List.mem_cons_self)
        rcases List.mem_cons.mp ((members expected).mpr member) with rfl | later
        · rfl
        · exact le_antisymm (least expected later) below

theorem daysUntil_mono {other : Timestamp} (sooner : expected ≤ other) : daysUntil now expected ≤ daysUntil now other :=
  Int.ediv_le_ediv (by decide) (Int.sub_le_sub_right sooner now)

/-- A cover that does not last some days does not last more of them. -/
theorem lt_true_mono {days more : ℤ} (short : cover.lt (.finite days) = .ok true) (longer : days ≤ more) :
    cover.lt (.finite more) = .ok true := by
  cases cover with
  | finite value =>
      simp only [Decimal.lt, Decimal.nanOperand, Except.ok.injEq, decide_eq_true_eq] at short ⊢
      exact short.trans_le (Int.cast_le.mpr longer)
  | nan => cases short
  | snan => cases short
  | infinity negative => exact short

theorem evaluateInsufficientUntilNextDelivery_fires (known : aggregate.values.daysOfCover = some cover)
    (next : aggregate.values.nextExpectedDeliveryAt = some expected) :
    (∃ candidate, evaluateInsufficientUntilNextDelivery aggregate now = .ok (some candidate)) ↔
      0 < daysUntil now expected ∧ cover.lt (.finite (daysUntil now expected)) = .ok true := by
  unfold evaluateInsufficientUntilNextDelivery
  rw [known, next]
  change (∃ candidate, (if daysUntil now expected ≤ 0 then pure none else do
    if ← atLeast cover (.finite (daysUntil now expected)) then return none
    return some (itemCandidate .insufficientUntilNextDelivery aggregate.itemId
      (← shortfallSeverity cover (.finite (daysUntil now expected)))) : Except Error (Option RiskCandidate)) = _) ↔ _
  by_cases due : daysUntil now expected ≤ 0
  · simp [due, due.not_gt, pure, Except.pure]
  · rw [if_neg due, and_iff_right (not_le.mp due)]
    cases below : cover.lt (.finite (daysUntil now expected)) with
    | error signal => simp [atLeast, Decimal.le, below, trap, bind, Except.bind]
    | ok short =>
        cases short with
        | false => simp [atLeast, Decimal.le, below, trap, bind, Except.bind, pure, Except.pure]
        | true =>
            obtain ⟨severity, returns⟩ := shortfallSeverity_of_lt (not_le.mp due) below
            simp [atLeast, Decimal.le, below, trap, bind, Except.bind, pure, Except.pure, returns]

theorem firesOver_iff : FiresOver aggregate now db ↔
    ∃ cover ∈ aggregate.values.daysOfCover, ∃ expected, nextExpectedDelivery db aggregate.itemId = some expected ∧
      0 < daysUntil now expected ∧ cover.lt (.finite (daysUntil now expected)) = .ok true := by
  cases known : aggregate.values.daysOfCover with
  | none => simp [FiresOver, evaluateInsufficientUntilNextDelivery, expecting, known]
  | some cover =>
      cases next : nextExpectedDelivery db aggregate.itemId with
      | none => simp [FiresOver, evaluateInsufficientUntilNextDelivery, expecting, known, next]
      | some expected =>
          have isKnown : (expecting aggregate db).values.daysOfCover = some cover := known
          have isNext : (expecting aggregate db).values.nextExpectedDeliveryAt = some expected := next
          refine (evaluateInsufficientUntilNextDelivery_fires isKnown isNext).trans ?_
          simp

/-- An overdue order takes the place of every delivery to come. -/
theorem withOrder_silent (overdue : Overdue aggregate.itemId now order) : ¬ FiresOver aggregate now (withOrder db order) := by
  obtain ⟨due, isDue, expectedAt⟩ := overdue.due
  rw [firesOver_iff]
  rintro ⟨cover, _, expected, next, later, _⟩
  have listed : due ∈ openDeliveries (withOrder db order) aggregate.itemId := by
    have stored : (db.canonical .purchaseOrder).newRow order ∈ trustedRows (withOrder db order) .purchaseOrder aggregate.itemId :=
      mem_trustedRows.mpr ⟨by rw [withOrder, DB.setCanonical_self]; simp, overdue.item, overdue.trusted⟩
    exact List.mem_filterMap.mpr ⟨_, List.mem_filter.mpr ⟨stored, overdue.isOpen⟩, expectedAt⟩
  have soonest := (nextExpectedDelivery_eq_some.mp next).2 due listed
  have past : daysUntil now expected ≤ 0 :=
    Int.ediv_nonpos_of_nonpos_of_neg (Int.sub_nonpos_of_le (soonest.trans isDue)) (by decide)
  exact absurd later past.not_gt

/-- What fires without the order fires with it. -/
def HidesNothing (aggregate : AggregateSnapshot) (now : Timestamp) (db : DB) (order : Row) : Prop :=
  FiresOver aggregate now db → FiresOver aggregate now (withOrder db order)

/-- Nothing fires to begin with: no cover or no delivery is known, or some delivery is
less than a day away or comes before the stock is used up. -/
def Quenched (aggregate : AggregateSnapshot) (now : Timestamp) (db : DB) : Prop :=
  aggregate.values.daysOfCover = none ∨ openDeliveries db aggregate.itemId = [] ∨
    ∃ cover ∈ aggregate.values.daysOfCover, ∃ expected ∈ openDeliveries db aggregate.itemId,
      daysUntil now expected ≤ 0 ∨ cover.lt (.finite (daysUntil now expected)) ≠ .ok true

/-- An overdue order hides nothing exactly if there is nothing to hide. -/
theorem overdue_hides_nothing_iff (overdue : Overdue aggregate.itemId now order) :
    HidesNothing aggregate now db order ↔ Quenched aggregate now db := by
  rw [HidesNothing, imp_iff_not (withOrder_silent overdue), firesOver_iff]
  unfold Quenched
  cases known : aggregate.values.daysOfCover with
  | none => simp
  | some cover =>
      rw [or_iff_right nofun]
      cases next : nextExpectedDelivery db aggregate.itemId with
      | none =>
          refine iff_of_true (by simp) (.inl ?_)
          have empty : (openDeliveries db aggregate.itemId).insertionSort (· ≤ ·) = [] := List.head?_eq_none_iff.mp next
          exact (empty ▸ List.perm_insertionSort (· ≤ ·) (openDeliveries db aggregate.itemId)).symm.eq_nil
      | some soonest =>
          obtain ⟨listed, least⟩ := nextExpectedDelivery_eq_some.mp next
          rw [or_iff_right (List.ne_nil_of_mem listed)]
          constructor
          · intro silent
            refine ⟨cover, rfl, soonest, listed, ?_⟩
            by_contra fires
            push Not at fires
            exact silent ⟨cover, rfl, soonest, rfl, fires⟩
          · rintro ⟨_, ⟨⟩, expected, member, quenched⟩ ⟨_, ⟨⟩, _, ⟨⟩, later, short⟩
            have fewer : daysUntil now soonest ≤ daysUntil now expected := daysUntil_mono (least expected member)
            rcases quenched with due | enough
            · exact absurd later (fewer.trans due).not_gt
            · exact enough (lt_true_mono short fewer)

end Orders

def openOrder (expected : Timestamp) : Row where
  id := 0
  enterpriseId := 1
  createdAt := 0
  sourceProvenance := none
  observability := .fresh
  col := fun name =>
    if name = "item_id" then .uuid 1
    else if name = "status" then .text "open"
    else if name = "expected_at" then .timestamp expected
    else .null

theorem openOrder_overdue : Overdue 1 (10 * Text.microsecondsPerDay) (openOrder (3 * Text.microsecondsPerDay)) :=
  ⟨rfl, rfl, by decide +kernel, 3 * Text.microsecondsPerDay, by decide, rfl⟩

theorem overdue_hides_nothing_comfortable :
    HidesNothing coveredItem (10 * Text.microsecondsPerDay) (withOrder default (openOrder (12 * Text.microsecondsPerDay)))
      (openOrder (3 * Text.microsecondsPerDay)) :=
  (overdue_hides_nothing_iff openOrder_overdue).mpr
    (.inr (.inr ⟨.finite 5, rfl, 12 * Text.microsecondsPerDay, by decide +kernel, .inr (by decide +kernel)⟩))

/-- A delivery in twenty days that the stock does not reach, and one that never came. -/
theorem overdue_order_hides_delivery :
    Overdue 1 (10 * Text.microsecondsPerDay) (openOrder (3 * Text.microsecondsPerDay)) ∧
      FiresOver coveredItem (10 * Text.microsecondsPerDay) (withOrder default (openOrder (30 * Text.microsecondsPerDay))) ∧
      ¬ FiresOver coveredItem (10 * Text.microsecondsPerDay)
        (withOrder (withOrder default (openOrder (30 * Text.microsecondsPerDay))) (openOrder (3 * Text.microsecondsPerDay))) := by
  have overdue := openOrder_overdue
  refine ⟨overdue, ?_, withOrder_silent overdue⟩
  exact firesOver_iff.mpr ⟨.finite 5, rfl, 30 * Text.microsecondsPerDay, by decide +kernel, by decide, by decide +kernel⟩

end SmartProcurement.Analysis
