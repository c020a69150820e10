import SmartProcurement.Analysis.PriceAnomalies
import SmartProcurement.Observation.Derivations
import SmartProcurement.Transaction.Raises

namespace SmartProcurement.Analysis

open Relational Transaction Numeric Observation

/-! # When a recomputation returns

It raises at the first item whose values cannot be derived, or do not fit the
columns that they are written to.
-/

section Recomputation

variable {now : Timestamp} {enterpriseId itemId : Uuid} {itemIds : Option (List Uuid)} {before after db : DB}
variable {reason : Error} {results : List SkuAggregate}

/-- No item has two rows. -/
def SingleRows (db : DB) : Prop := ∀ itemId, (itemRows db itemId).length ≤ 1

/-- What keeps the values of an item from being written. -/
def Unwritable (db : DB) (itemId : Uuid) (reason : Error) : Prop :=
  aggregateValues db itemId = .error reason ∨
    ∃ values, aggregateValues db itemId = .ok (some values) ∧ storedValues values = .error reason

section Exceptions

variable {allowed : Error → Prop}

theorem upsertAggregate_raises {values : AggregateValues}
    (looked : Raises allowed (scalarOrNone fun db => itemRows db itemId) before) (stores : Refuses allowed (storedValues values)) :
    Raises allowed (upsertAggregate now enterpriseId itemId values) before := by
  refine looked.bind fun existing _ _ => (raises_lift stores _).bind fun stored _ _ => ?_
  cases existing with
  | none => exact (raises_read _ _).bind fun _ _ _ => (raises_write _ _).bind fun _ _ _ => raises_pure _ _
  | some row => exact (raises_write _ _).bind fun _ _ _ => raises_pure _ _

theorem recomputeOne_raises (looked : Raises allowed (scalarOrNone fun db => itemRows db itemId) before)
    (computes : Refuses allowed (aggregateValues before itemId))
    (stores : ∀ values, aggregateValues before itemId = .ok (some values) → Refuses allowed (storedValues values)) :
    Raises allowed (recomputeOne now enterpriseId itemId) before := by
  refine (raises_read _ _).bind fun _ _ ran => ?_
  obtain ⟨rfl, rfl⟩ := read_eq_ok.mp ran
  refine (raises_lift computes _).bind fun values _ ran => ?_
  obtain ⟨computed, rfl⟩ := lift_eq_ok.mp ran
  cases values with
  | none => exact raises_pure _ _
  | some values => exact (upsertAggregate_raises looked (stores values computed)).bind fun _ _ _ => raises_pure _ _

end Exceptions

theorem recomputeOne_error (single : SingleRows before)
    (raised : recomputeOne now enterpriseId itemId before = .error reason after) : Unwritable before itemId reason := by
  have looked : Raises (Unwritable before itemId) (scalarOrNone fun db => itemRows db itemId) before :=
    raises_of_ok (scalarOrNone_eq_ok.mpr ⟨scalarOneOrNone_of_length_le _ (single itemId), rfl⟩)
  exact recomputeOne_raises looked (fun _ refused => .inl refused)
    (fun values computed _ refused => .inr ⟨values, computed, refused⟩) reason after raised

theorem recomputeOne_single {result : Option SkuAggregate} (single : SingleRows before)
    (ran : recomputeOne now enterpriseId itemId before = .ok result after) : SingleRows after := by
  obtain ⟨_, others, recomputed⟩ := recomputeOne_ok ran
  intro other
  by_cases same : other = itemId
  · subst same
    cases recomputed with
    | untrusted _ kept =>
        rw [kept.itemRows]
        exact single other
    | upserted _ _ upserted =>
        obtain ⟨row, only, _⟩ := upserted.current
        simp [only]
  · rw [(others.leaves same).itemRows]
    exact single other

/-- A recomputation raises at an item whose values cannot be written. -/
theorem recomputeAggregates_error (single : SingleRows before)
    (raised : recomputeAggregates now enterpriseId itemIds before = .error reason after) :
    ∃ itemId ∈ itemsInScope enterpriseId itemIds before, Unwritable before itemId reason := by
  have guarded : Guarded (fun db => SingleRows db ∧ aggregatesOnly.rel before db)
      (fun reason => ∃ itemId ∈ itemsInScope enterpriseId itemIds before, Unwritable before itemId reason)
      ((itemsInScope enterpriseId itemIds before).foldlM (sweep now enterpriseId) []) := by
    refine Guarded.foldlM (fun itemId member results db holds => ?_) []
    cases ran : sweep now enterpriseId results itemId db with
    | ok next later =>
        obtain ⟨result, _, one, _, rfl⟩ : ∃ result middle, recomputeOne now enterpriseId itemId db = .ok result middle ∧
            results ++ result.toList = next ∧ middle = later := by simpa [sweep] using ran
        exact ⟨recomputeOne_single holds.1 one, aggregatesOnly.trans holds.2 (recomputeOne_ok one).1⟩
    | error reason later =>
        rcases bind_eq_error.mp ran with one | ⟨_, _, _, done⟩
        · have unwritable := recomputeOne_error holds.1 one
          rw [Unwritable, aggregateValues_of_aggregatesOnly holds.2] at unwritable
          exact ⟨itemId, member, unwritable⟩
        · cases done
  exact guarded.error ⟨single, aggregatesOnly.refl before⟩ raised

/-- The values of the item can be derived and stored. -/
def Writable (db : DB) (itemId : Uuid) : Prop :=
  ∃ values stored, aggregateValues db itemId = .ok (some values) ∧ storedValues values = .ok stored

theorem Writable.not_unwritable (writable : Writable db itemId) (reason : Error) : ¬ Unwritable db itemId reason := by
  obtain ⟨values, stored, computed, kept⟩ := writable
  rintro (raised | ⟨other, otherComputed, refused⟩)
  · cases computed.symm.trans raised
  · obtain rfl : other = values := by simpa [computed] using otherComputed.symm
    cases kept.symm.trans refused

theorem untrusted_not_unwritable (untrusted : ¬ hasTrustedStock db itemId) (reason : Error) : ¬ Unwritable db itemId reason := by
  rw [hasTrustedStock_iff, not_not] at untrusted
  unfold Unwritable
  rw [aggregateValues_eq_none.mpr untrusted]
  simp

/-- A recomputation returns exactly if it can write every item with stock. -/
theorem exists_recomputation_iff (single : SingleRows db) :
    (∃ results after, recomputeAggregates now enterpriseId itemIds db = .ok results after) ↔
      ∀ itemId ∈ itemsInScope enterpriseId itemIds db, hasTrustedStock db itemId → Writable db itemId := by
  constructor
  · rintro ⟨results, after, ran⟩ itemId inScope trusted
    cases (recomputeAggregates_ok ran).2.1 itemId inScope with
    | untrusted none => exact absurd (aggregateValues_eq_none.mp none) (hasTrustedStock_iff.mp trusted)
    | upserted computed kept => exact ⟨_, _, computed, kept⟩
  · intro writable
    cases ran : recomputeAggregates now enterpriseId itemIds db with
    | ok results after => exact ⟨results, after, rfl⟩
    | error reason after =>
        obtain ⟨itemId, inScope, unwritable⟩ := recomputeAggregates_error single ran
        by_cases trusted : hasTrustedStock db itemId
        · exact absurd unwritable ((writable itemId inScope trusted).not_unwritable reason)
        · exact absurd unwritable (untrusted_not_unwritable trusted reason)

/-- From no aggregates, a recomputation of the items in scope returns and leaves
numbers exactly if the items with stock are derivable and their values fit. -/
theorem recomputeAggregates_returns (holds : HoldsQuantities db) (fresh : db.skuAggregate.rows = []) :
    (∃ results after, recomputeAggregates now enterpriseId itemIds db = .ok results after ∧
        ∀ aggregate ∈ after.skuAggregate.rows, aggregate.values.Finite) ↔
      ∀ itemId ∈ itemsInScope enterpriseId itemIds db, hasTrustedStock db itemId →
        Derivable db itemId ∧ ∀ values, aggregateValues db itemId = .ok (some values) → Fits values := by
  have level : ItemLevel db := fun row member => absurd (fresh ▸ member) List.not_mem_nil
  constructor
  · rintro ⟨results, after, ran, finite⟩ itemId inScope trusted
    obtain ⟨derives, raises⟩ := aggregateValues_spec holds (hasTrustedStock_iff.mp trusted)
    cases (recomputeAggregates_ok ran).2.1 itemId inScope with
    | untrusted none _ => exact absurd (aggregateValues_eq_none.mp none) (hasTrustedStock_iff.mp trusted)
    | @upserted values stored computed kept upserted =>
        have number : ∀ row ∈ latestConsumption db itemId, IsNumber "quantity" row := by
          by_contra nan
          rw [raises nan] at computed
          cases computed
        obtain ⟨derivedValues, derived⟩ := derives number
        obtain rfl : values = derivedValues := by simpa [computed] using derived.computed
        obtain ⟨row, only, same, _⟩ := upserted.current
        have rowFinite := finite row (mem_itemRows.mp (only ▸ List.mem_singleton_self row)).1
        rw [same, (storedValues_spec derived.quiet kept).2, derived.number] at rowFinite
        refine ⟨rowFinite, fun other otherComputed => ?_⟩
        obtain rfl : other = values := by simpa [computed] using otherComputed.symm
        exact (storedValues_returns derived.quiet).mp ⟨stored, kept⟩
  · intro items
    have derived (itemId) (inScope : itemId ∈ itemsInScope enterpriseId itemIds db) (trusted : hasTrustedStock db itemId) :
        ∃ values, Derived db itemId values :=
      (aggregateValues_spec holds (hasTrustedStock_iff.mp trusted)).1 (items itemId inScope trusted).1.consumption
    have single : SingleRows db := fun itemId => by simp [itemRows, fresh]
    obtain ⟨results, after, ran⟩ : ∃ results after, recomputeAggregates now enterpriseId itemIds db = .ok results after := by
      refine (exists_recomputation_iff single).mpr fun itemId inScope trusted => ?_
      obtain ⟨values, derived⟩ := derived itemId inScope trusted
      obtain ⟨stored, kept⟩ :=
        (storedValues_returns derived.quiet).mpr ((items itemId inScope trusted).2 values derived.computed)
      exact ⟨values, stored, derived.computed, kept⟩
    refine ⟨results, after, ran, fun aggregate member => ?_⟩
    rcases recomputeAggregates_row ran level member with ⟨old, _⟩ | ⟨inScope, values, computed, kept⟩
    · exact absurd (fresh ▸ old) List.not_mem_nil
    · have trusted : hasTrustedStock db aggregate.itemId := by
        refine hasTrustedStock_iff.mpr fun none => ?_
        rw [aggregateValues_eq_none.mpr none] at computed
        cases computed
      obtain ⟨other, derived⟩ := derived aggregate.itemId inScope trusted
      obtain rfl : values = other := by simpa [computed] using derived.computed
      rw [(storedValues_spec derived.quiet kept).2, derived.number]
      exact (items aggregate.itemId inScope trusted).1

end Recomputation

end SmartProcurement.Analysis
