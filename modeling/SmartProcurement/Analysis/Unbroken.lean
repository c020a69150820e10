import SmartProcurement.Analysis.FittingAggregates
import SmartProcurement.Analysis.Returns
import SmartProcurement.Integration.FiniteMap
import SmartProcurement.Integration.StoredRows

namespace SmartProcurement.Analysis

open Relational Transaction Numeric Observation Integration

/-! # Values that break the pipeline

A cell that reads `NaN` is stored as one.  It stops the recomputation or the
detection of the whole enterprise, or ends in an aggregate, where it is compared
or kept; everywhere else it does no harm.
-/

/-- Recomputations of any scope and detections return, and leave numbers. -/
structure Unbroken (enterpriseId : Uuid) (db : DB) : Prop where
  detects : ∀ now, returned (detectRisks now enterpriseId db) = true
  recomputes : ∀ now itemIds, ∃ results after,
    recomputeAggregates now enterpriseId itemIds db = .ok results after ∧
      (∀ aggregate ∈ after.skuAggregate.rows, aggregate.values.Finite) ∧
      ∀ later, returned (detectRisks later enterpriseId after) = true

/-- No NaN is where the pipeline compares or keeps it, and no divisor is too small
for what it divides. -/
structure Reckonable (enterpriseId : Uuid) (db : DB) : Prop where
  derivable : ∀ itemId, ownsItem enterpriseId db itemId → hasTrustedStock db itemId → Derivable db itemId
  moderate : ∀ itemId, ownsItem enterpriseId db itemId → hasTrustedStock db itemId → Moderate db itemId
  punctual : ∀ itemId, ownsItem enterpriseId db itemId → hasTrustedStock db itemId → Punctual db itemId
  leadTimes : ∀ itemId, ownsItem enterpriseId db itemId → hasTrustedStock db itemId → Consumed db itemId →
    ∀ days ∈ latestLeadTimeDays db itemId, days ≠ .decimal .nan
  defectRates : ∀ row ∈ trustedOf db .qualityRecord enterpriseId, sampled row = true → IsNumber "defect_rate" row

/-! ## States that sync reaches -/

section Reached

variable {enterpriseId : Uuid} {db : DB} {row : Row}

theorem quantity_of_bound {name : String} {value : Value} (bound : ColumnType.numeric.bind name value = .ok value) :
    value = .null ∨ value = .decimal .nan ∨ ∃ number, value = .decimal (.finite number) ∧ StoredQuantity number := by
  cases value with
  | null => exact .inl rfl
  | decimal number =>
      simp only [ColumnType.bind, if_true] at bound
      split at bound
      · next stored kept =>
        cases bound
        rcases storedQuantity_of_store kept with rfl | ⟨value, rfl, admitted⟩
        · exact .inr (.inl rfl)
        · exact .inr (.inr ⟨value, rfl, admitted⟩)
      · cases bound
  | _ => cases bound

theorem quantityColumn_filled {source : Entity × String} (listed : source ∈ quantityColumns) :
    ∃ column ∈ ownColumns source.1, column.name = source.2 ∧ column.type = .numeric ∧ column.nullable = false := by
  have facts : ∀ source ∈ quantityColumns,
      ∃ column ∈ ownColumns source.1, column.name = source.2 ∧ column.type = .numeric ∧ column.nullable = false := by
    decide
  exact facts source listed

theorem holdsQuantities_of_stored (stored : RowsStored db) : HoldsQuantities db := by
  intro source listed row member
  obtain ⟨column, own, named, type, required⟩ := quantityColumn_filled listed
  obtain ⟨bound, filled⟩ := stored source.1 row member column own
  rw [type, named] at bound
  rw [required, named] at filled
  rcases quantity_of_bound bound with null | nan | ⟨value, finite, _⟩
  · rw [null] at filled
    cases filled rfl
  · exact ⟨.nan, nan, .nan⟩
  · exact ⟨.finite value, finite, .number value⟩

theorem holdsRates_of_stored (stored : RowsStored db) : HoldsRates db := by
  intro row member rate given
  have bound := (stored .qualityRecord row member { name := "defect_rate", type := .numeric } (by simp [ownColumns])).bound
  rcases quantity_of_bound bound with null | nan | ⟨number, finite, _⟩
  · rw [null] at given
    cases given
  · rw [nan, Value.decimal?, Option.mem_some_iff] at given
    exact given ▸ .nan
  · rw [finite, Value.decimal?, Option.mem_some_iff] at given
    exact given ▸ .number number

/-- A database that has been set up, but into which nothing has been read yet. -/
structure Fresh (db : DB) : Prop where
  rows : ∀ entity, (db.canonical entity).rows = []
  aggregates : db.skuAggregate.rows = []
  findings : db.riskFinding.rows = []

/-- What syncs leave of a fresh database: stored rows, and nothing derived from them. -/
structure OnlySynced (db : DB) : Prop where
  stored : RowsStored db
  aggregates : db.skuAggregate.rows = []
  findings : db.riskFinding.rows = []

theorem Fresh.onlySynced (fresh : Fresh db) : OnlySynced db where
  stored entity _ member := absurd (fresh.rows entity ▸ member) List.not_mem_nil
  aggregates := fresh.aggregates
  findings := fresh.findings

theorem OnlySynced.commit (synced : OnlySynced db) (call : SyncCall) : OnlySynced (call.commit db) :=
  transact_preserves synced fun _ after ran => by
    have aggregates : after.skuAggregate = db.skuAggregate := syncSource_frame (syncFrame_aggregates call.dataSourceId) ran
    have findings : after.riskFinding = db.riskFinding := (syncSource_frame (findingsFrame_sync call.dataSourceId) ran).1
    refine ⟨syncSource_rowsStored synced.stored ran, ?_, ?_⟩
    · rw [aggregates]
      exact synced.aggregates
    · rw [findings]
      exact synced.findings

theorem OnlySynced.calls (synced : OnlySynced db) (calls : List SyncCall) :
    OnlySynced (calls.foldl (fun db call => call.commit db) db) := by
  induction calls generalizing db with
  | nil => exact synced
  | cons call rest ih => exact ih (synced.commit call)

end Reached

/-! ## The pipeline in such a state -/

section Pipeline

variable {now : Timestamp} {enterpriseId : Uuid} {itemIds : Option (List Uuid)} {before after db : DB}
variable {results : List SkuAggregate}

theorem OnlySynced.unique (synced : OnlySynced db) : Unique ongoingKey db.riskFinding :=
  fun _ member => absurd (synced.findings ▸ member) List.not_mem_nil

/-- After a recomputation that leaves numbers a detection stops at a lead time or a
defect rate only. -/
theorem OnlySynced.detects (synced : OnlySynced db)
    (ran : recomputeAggregates now enterpriseId itemIds db = .ok results after)
    (finite : ∀ aggregate ∈ after.skuAggregate.rows, aggregate.values.Finite) (later : Timestamp) :
    returned (detectRisks later enterpriseId after) = true ↔
      (∀ itemId ∈ itemsInScope enterpriseId itemIds db, hasTrustedStock db itemId → Consumed db itemId →
        ∀ days ∈ latestLeadTimeDays db itemId, days ≠ .decimal .nan) ∧
      ∀ row ∈ trustedOf db .qualityRecord enterpriseId, sampled row = true → IsNumber "defect_rate" row := by
  obtain ⟨only, recomputed, _⟩ := recomputeAggregates_ok ran
  have holds := holdsQuantities_of_stored synced.stored
  have level : ItemLevel db := fun row member => absurd (synced.aggregates ▸ member) List.not_mem_nil
  have covered {itemId : Uuid} {values stored : AggregateValues} (computed : aggregateValues db itemId = .ok (some values))
      (kept : storedValues values = .ok stored) : stored.daysOfCover.isSome = true ↔ Consumed db itemId := by
    have trusted : trustedRows db .stockLevel itemId ≠ [] := fun none => by
      rw [aggregateValues_eq_none.mpr none] at computed
      cases computed
    obtain ⟨derives, raises⟩ := aggregateValues_spec holds trusted
    have number : ∀ row ∈ latestConsumption db itemId, IsNumber "quantity" row := by
      by_contra nan
      rw [raises nan] at computed
      cases computed
    obtain ⟨other, derived⟩ := derives number
    obtain rfl : values = other := by simpa [computed] using derived.computed
    rw [(storedValues_spec derived.quiet kept).1, derived.covered]
  have unique : Unique ongoingKey after.riskFinding := by
    obtain ⟨_, rfl⟩ := only
    exact synced.unique
  have sameHolds : HoldsQuantities after ∧ HoldsRates after := by
    obtain ⟨_, rfl⟩ := only
    exact ⟨holds, holdsRates_of_stored synced.stored⟩
  have sameRows : (∀ itemId, latestLeadTimeDays after itemId = latestLeadTimeDays db itemId) ∧
      trustedOf after .qualityRecord enterpriseId = trustedOf db .qualityRecord enterpriseId := by
    obtain ⟨_, rfl⟩ := only
    exact ⟨fun _ => rfl, rfl⟩
  rw [detectRisks_returned_iff unique, probes_return sameHolds.1 sameHolds.2 fun aggregate member =>
    finite aggregate (List.mem_filter.mp member).1, sameRows.2]
  simp only [sameRows.1]
  refine and_congr_left fun _ => ⟨fun aggregates itemId inScope trusted consumed => ?_, fun items aggregate member hasCover => ?_⟩
  · cases recomputed itemId inScope with
    | untrusted none _ => exact absurd (aggregateValues_eq_none.mp none) (hasTrustedStock_iff.mp trusted)
    | @upserted values stored computed kept upserted =>
        obtain ⟨aggregate, single, same, _⟩ := upserted.current
        obtain ⟨member, rfl, _⟩ := mem_itemRows.mp (single ▸ List.mem_singleton_self aggregate)
        have own : aggregate.enterpriseId = enterpriseId := by
          rcases recomputeAggregates_enterprise ran member with own | ⟨old, oldMember, _⟩
          · exact own
          · exact absurd (synced.aggregates ▸ oldMember) List.not_mem_nil
        refine aggregates aggregate (List.mem_filter.mpr ⟨member, decide_eq_true own⟩) ?_
        rw [same]
        exact (covered computed kept).mpr consumed
  · rcases recomputeAggregates_row ran level (List.mem_filter.mp member).1 with ⟨old, _⟩ | ⟨inScope, values, computed, kept⟩
    · exact absurd (synced.aggregates ▸ old) List.not_mem_nil
    · refine items aggregate.itemId inScope (hasTrustedStock_iff.mpr fun none => ?_) ((covered computed kept).mp hasCover)
      rw [aggregateValues_eq_none.mpr none] at computed
      cases computed

theorem itemsInScope_owned {itemId : Uuid} (inScope : itemId ∈ itemsInScope enterpriseId itemIds db) :
    ownsItem enterpriseId db itemId := by
  refine mem_itemsInScope_none.mp ?_
  unfold itemsInScope at inScope ⊢
  split at inScope
  · exact inScope
  · exact inScope
  · exact (List.mem_filter.mp inScope).1

theorem positive_eq_decide {name : String} {row : Row} (holds : HoldsNumber name row) :
    positive name row = decide (0 < number name row) := by
  obtain ⟨value, column, _⟩ := holds
  rw [positive, number, column]

/-- A stored quantity is a NaN, or a number that its column admits. -/
theorem OnlySynced.holdsNumber (synced : OnlySynced db) (source : Entity × String) (listed : source ∈ quantityColumns)
    {row : Row} {itemId : Uuid} (trusted : row ∈ trustedRows db source.1 itemId) (number : IsNumber source.2 row) :
    HoldsNumber source.2 row := by
  obtain ⟨column, own, named, type, required⟩ := quantityColumn_filled listed
  obtain ⟨bound, filled⟩ := synced.stored source.1 row (mem_trustedRows.mp trusted).1 column own
  rw [type, named] at bound
  rw [required, named] at filled
  rcases quantity_of_bound bound with null | nan | finite
  · rw [null] at filled
    cases filled rfl
  · exact absurd nan number
  · exact finite

/-- Where nothing that is computed with is a NaN, the stored quantities are finite. -/
theorem OnlySynced.definite {itemId : Uuid} (synced : OnlySynced db) (derivable : Derivable db itemId) : Definite db itemId := by
  have consumption (row : Row) (newest : row ∈ latestConsumption db itemId) : HoldsNumber "quantity" row :=
    synced.holdsNumber (.consumption, "quantity") (by decide) (mem_latestConsumption newest) (derivable.consumption row newest)
  refine ⟨fun row trusted => ?_, fun newest isNewest more row trusted => ?_, consumption, fun row newest => ?_⟩
  · exact trusted_holds (.stockLevel, "quantity") (holdsQuantities_of_stored synced.stored) (by decide) trusted
  · have consumed : positive "quantity" newest = true :=
      (positive_eq_decide (consumption newest isNewest)).trans (decide_eq_true more)
    exact synced.holdsNumber (.stockLevel, "quantity") (by decide) trusted
      (derivable.stock ⟨newest, isNewest, consumed⟩ row trusted)
  · exact synced.holdsNumber (.price, "unit_price") (by decide) (mem_latestPrices newest) (derivable.prices row newest)

/-- The values of a derivable item fit exactly if no divisor is too small. -/
theorem OnlySynced.fits_iff {itemId : Uuid} (synced : OnlySynced db) (derivable : Derivable db itemId)
    (trusted : hasTrustedStock db itemId) :
    (∀ values, aggregateValues db itemId = .ok (some values) → Fits values) ↔ Moderate db itemId ∧ Punctual db itemId := by
  have definite := synced.definite derivable
  rw [aggregateValues_definite definite (hasTrustedStock_iff.mp trusted), ← fits_definite_iff definite]
  simp

theorem OnlySynced.unbroken_iff (synced : OnlySynced db) : Unbroken enterpriseId db ↔ Reckonable enterpriseId db := by
  have returns (itemIds : Option (List Uuid)) (now : Timestamp) :
      (∃ results after, recomputeAggregates now enterpriseId itemIds db = .ok results after ∧
          ∀ aggregate ∈ after.skuAggregate.rows, aggregate.values.Finite) ↔
        ∀ itemId ∈ itemsInScope enterpriseId itemIds db, hasTrustedStock db itemId →
          Derivable db itemId ∧ Moderate db itemId ∧ Punctual db itemId :=
    (recomputeAggregates_returns (holdsQuantities_of_stored synced.stored) synced.aggregates).trans
      (forall₃_congr fun itemId _ trusted => and_congr_right fun derivable => synced.fits_iff derivable trusted)
  constructor
  · intro unbroken
    obtain ⟨results, after, ran, finite, detects⟩ := unbroken.recomputes 0 none
    have items := (returns none 0).mp ⟨results, after, ran, finite⟩
    obtain ⟨leadTimes, rates⟩ := (synced.detects ran finite 0).mp (detects 0)
    exact ⟨fun itemId owned trusted => (items itemId (mem_itemsInScope_none.mpr owned) trusted).1,
      fun itemId owned trusted => (items itemId (mem_itemsInScope_none.mpr owned) trusted).2.1,
      fun itemId owned trusted => (items itemId (mem_itemsInScope_none.mpr owned) trusted).2.2,
      fun itemId owned => leadTimes itemId (mem_itemsInScope_none.mpr owned), rates⟩
  · intro reckonable
    refine ⟨fun now => ?_, fun now itemIds => ?_⟩
    · have none : aggregatesOf enterpriseId db = [] := by simp [aggregatesOf, synced.aggregates]
      rw [detectRisks_returned_iff synced.unique,
        probes_return (holdsQuantities_of_stored synced.stored) (holdsRates_of_stored synced.stored)
        (by simp [none])]
      exact ⟨by simp [none], reckonable.defectRates⟩
    · obtain ⟨results, after, ran, finite⟩ := (returns itemIds now).mpr fun itemId inScope trusted =>
        ⟨reckonable.derivable itemId (itemsInScope_owned inScope) trusted,
          reckonable.moderate itemId (itemsInScope_owned inScope) trusted,
          reckonable.punctual itemId (itemsInScope_owned inScope) trusted⟩
      refine ⟨results, after, ran, finite, fun later => (synced.detects ran finite later).mpr ⟨?_, reckonable.defectRates⟩⟩
      exact fun itemId inScope => reckonable.leadTimes itemId (itemsInScope_owned inScope)

end Pipeline

/-- In every state that syncs reach from a fresh database the pipeline goes through
exactly if its quantities can be reckoned with. -/
theorem unbroken_iff_reckonable {initial : DB} (fresh : Fresh initial) (calls : List SyncCall) (enterpriseId : Uuid) :
    Unbroken enterpriseId (calls.foldl (fun db call => call.commit db) initial) ↔
      Reckonable enterpriseId (calls.foldl (fun db call => call.commit db) initial) :=
  (fresh.onlySynced.calls calls).unbroken_iff

/-- The sheet says how much of an item was used as well. -/
def usageSheet : DB :=
  { sheetWithSource with
    fieldMapping := (sheetWithSource.fieldMapping.insert (confirmedMapping "sku" .consumption "item_sku")).insert
      (confirmedMapping "used" .consumption "quantity") }

def usageCall (used : String) : SyncCall where
  now := 1
  connectors := delivering {
    records := [Dict.ofList [("sku", .text "bolt"), ("qty", .text "10"), ("used", .text used)]]
    fetchedAt := 0 }
  enterpriseId := 1
  dataSourceId := 1

theorem usageSheet_fresh : Fresh usageSheet := ⟨fun _ => rfl, rfl, rfl⟩

theorem unbroken_usage : Unbroken 1 ([usageCall "3"].foldl (fun db call => call.commit db) usageSheet) := by
  have items : itemsInScope 1 none ([usageCall "3"].foldl (fun db call => call.commit db) usageSheet) = [1] := by
    decide +kernel
  have only {itemId : Uuid}
      (owned : ownsItem 1 ([usageCall "3"].foldl (fun db call => call.commit db) usageSheet) itemId) : itemId = 1 := by
    have inScope := mem_itemsInScope_none.mpr owned
    rw [items] at inScope
    exact List.mem_singleton.mp inScope
  refine (unbroken_iff_reckonable usageSheet_fresh [usageCall "3"] 1).mpr ⟨?_, ?_, ?_, ?_, ?_⟩
  · rintro itemId owned _
    obtain rfl := only owned
    exact ⟨by decide +kernel, by decide +kernel, by decide +kernel⟩
  · rintro itemId owned _
    obtain rfl := only owned
    have prices : latestPrices ([usageCall "3"].foldl (fun db call => call.commit db) usageSheet) 1 = [] := by decide +kernel
    refine ⟨by decide +kernel, fun newest older two => ?_⟩
    rw [prices] at two
    cases two
  · rintro itemId owned _ delayed
    obtain rfl := only owned
    exact absurd (by decide +kernel) delayed
  · rintro itemId owned _ _
    obtain rfl := only owned
    decide +kernel
  · decide +kernel

/-- One consumption that reads `NaN`, and no item of the enterprise is recomputed. -/
theorem nan_consumption_breaks :
    Fresh usageSheet ∧ ¬ Unbroken 1 ([usageCall "NaN"].foldl (fun db call => call.commit db) usageSheet) ∧
      outcome (recomputeAggregates 2 1 none ([usageCall "NaN"].foldl (fun db call => call.commit db) usageSheet)) =
        .error (.decimal .invalidOperation) := by
  have raises : outcome (recomputeAggregates 2 1 none
      ([usageCall "NaN"].foldl (fun db call => call.commit db) usageSheet)) = .error (.decimal .invalidOperation) := by
    decide +kernel
  refine ⟨⟨fun _ => rfl, rfl, rfl⟩, fun unbroken => ?_, raises⟩
  obtain ⟨results, after, ran, _⟩ := unbroken.recomputes 2 none
  rw [ran] at raises
  cases raises

end SmartProcurement.Analysis
