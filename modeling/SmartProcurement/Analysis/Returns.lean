import SmartProcurement.Analysis.DetectionSound
import SmartProcurement.Observation.Derivations

namespace SmartProcurement.Analysis

open Relational Transaction Numeric Observation

/-! # When a detection returns

A rule compares what it is given with a threshold before anything else, and so
raises on every NaN it comes to.
-/

/-! ## Rules -/

section Rules

variable {ratio high med cover needed magnitude threshold : ℚ} {aggregate : AggregateSnapshot}

theorem severityFromRatio_returns (ratio high med : ℚ) :
    ∃ severity, severityFromRatio (.finite ratio) (.finite high) (.finite med) = .ok severity := by
  simp only [severityFromRatio, atLeast, trap_le, bind, Except.bind]
  split
  · exact ⟨_, rfl⟩
  · split
    · exact ⟨_, rfl⟩
    · exact ⟨_, rfl⟩

theorem shortfallSeverity_returns (cover : ℚ) (nonzero : needed ≠ 0) :
    ∃ severity, shortfallSeverity (.finite cover) (.finite needed) = .ok severity := by
  obtain ⟨severity, returns⟩ := severityFromRatio_returns (roundContext (1 + -roundContext (cover / needed))) (3 / 4) (1 / 4)
  refine ⟨severity, ?_⟩
  simp only [shortfallSeverity, trap_div cover nonzero, bind, Except.bind]
  exact returns

theorem excessSeverity_returns (magnitude threshold : ℚ) (nonzero : threshold ≠ 0) :
    ∃ severity, excessSeverity (.finite magnitude) (.finite threshold) = .ok severity := by
  obtain ⟨severity, returns⟩ := severityFromRatio_returns (roundContext (magnitude / threshold)) 2 (3 / 2)
  refine ⟨severity, ?_⟩
  simp only [excessSeverity, trap_div magnitude nonzero, bind, Except.bind]
  exact returns

theorem finite_cover {cover : Decimal} (finite : aggregate.values.Finite)
    (covered : aggregate.values.daysOfCover = some cover) : ∃ value, cover = .finite value :=
  forall_quantities.mp finite ("days_of_cover", (·.daysOfCover)) (by simp [AggregateValues.columns]) cover covered

theorem evaluateLikelyShortage_returns {leadTime : Decimal} (finite : aggregate.values.Finite) (quiet : leadTime.Quiet) :
    (∃ found, evaluateLikelyShortage aggregate leadTime = .ok found) ↔
      (aggregate.values.daysOfCover.isSome = true → leadTime ≠ .nan) := by
  unfold evaluateLikelyShortage
  match covered : aggregate.values.daysOfCover with
  | none => simp
  | some cover =>
      obtain ⟨cover, rfl⟩ := finite_cover finite covered
      cases quiet with
      | nan => simp [atMost, trap_nan_le, bind, Except.bind]
      | number days =>
          simp only [Option.isSome_some, forall_const, ne_eq, reduceCtorEq, not_false_eq_true, iff_true]
          simp only [atMost, atLeast, Decimal.zero, trap_le, bind, Except.bind]
          split
          · exact ⟨_, rfl⟩
          · next long =>
            split
            · exact ⟨_, rfl⟩
            · have nonzero : days ≠ 0 := by
                rintro rfl
                simp at long
              obtain ⟨severity, returns⟩ := shortfallSeverity_returns cover nonzero
              rw [returns]
              exact ⟨_, rfl⟩

/-- A finite cover is compared with a number of days. -/
theorem needed_returns (riskType : RiskType) (itemId : Uuid) (cover : ℚ) (days : ℤ) :
    ∃ found, (if days ≤ 0 then .ok none else do
      if ← atLeast (.finite cover) (.finite days) then return none
      return some (itemCandidate riskType itemId (← shortfallSeverity (.finite cover) (.finite days))) :
        Except Error (Option RiskCandidate)) = .ok found := by
  split
  · exact ⟨_, rfl⟩
  · next later =>
    simp only [atLeast, trap_le, bind, Except.bind]
    split
    · exact ⟨_, rfl⟩
    · have nonzero : (days : ℚ) ≠ 0 := by exact_mod_cast (not_le.mp later).ne'
      obtain ⟨severity, returns⟩ := shortfallSeverity_returns cover nonzero
      rw [returns]
      exact ⟨_, rfl⟩

theorem evaluateInsufficientUntilNextDelivery_returns (finite : aggregate.values.Finite) (now : Timestamp) :
    ∃ found, evaluateInsufficientUntilNextDelivery aggregate now = .ok found := by
  unfold evaluateInsufficientUntilNextDelivery
  split
  · next cover delivery covered _ =>
    obtain ⟨cover, rfl⟩ := finite_cover finite covered
    exact needed_returns .insufficientUntilNextDelivery aggregate.itemId cover _
  · exact ⟨_, rfl⟩

theorem evaluateProductionStopRisk_returns (finite : aggregate.values.Finite) (demands : List ProductionDemandSnapshot)
    (now : Timestamp) : ∃ found, evaluateProductionStopRisk aggregate demands now = .ok found := by
  unfold evaluateProductionStopRisk
  split
  · exact ⟨_, rfl⟩
  · exact ⟨_, rfl⟩
  · next cover covered =>
    obtain ⟨cover, rfl⟩ := finite_cover finite covered
    split
    · exact ⟨_, rfl⟩
    · exact needed_returns .productionStopRisk aggregate.itemId cover _

theorem evaluatePriceAnomaly_returns (finite : aggregate.values.Finite) :
    ∃ found, evaluatePriceAnomaly aggregate = .ok found := by
  unfold evaluatePriceAnomaly
  split
  · exact ⟨_, rfl⟩
  · next trend trended =>
    obtain ⟨trend, rfl⟩ := forall_quantities.mp finite ("price_trend", (·.priceTrend))
      (by simp [AggregateValues.columns]) trend trended
    obtain ⟨severity, returns⟩ := excessSeverity_returns (roundContext |trend|) (1 / 10) (by norm_num)
    have magnitude : trap (Decimal.finite trend).abs = .ok (.finite (roundContext |trend|)) := rfl
    have compared : trap ((Decimal.finite (roundContext |trend|)).lt priceAnomalyThresholdPct) =
        .ok (decide (roundContext |trend| < 1 / 10)) := rfl
    simp only [magnitude, compared, bind, Except.bind]
    split
    · exact ⟨_, rfl⟩
    · rw [priceAnomalyThresholdPct, returns]
      exact ⟨_, rfl⟩

/-- An average over a threshold raises exactly if a NaN is among the samples. -/
theorem average_returns {samples : List Decimal} (quiet : ∀ sample ∈ samples, sample.Quiet) (filled : samples ≠ [])
    (threshold : ℚ) (nonzero : threshold ≠ 0) (candidate : Severity → RiskCandidate) :
    (∃ found, (average samples >>= fun mean => do
      if ← atMost mean (.finite threshold) then return none
      return some (candidate (← excessSeverity mean (.finite threshold))) :
        Except Error (Option RiskCandidate)) = .ok found) ↔ ∀ sample ∈ samples, sample ≠ .nan := by
  obtain ⟨total, sums⟩ := Decimal.quiet_sum quiet
  have several : (samples.length : ℚ) ≠ 0 := by exact_mod_cast (List.length_pos_of_ne_nil filled).ne'
  obtain ⟨mean, divides⟩ := sums.quiet.div several
  have averages : average samples = .ok mean := by
    simp only [average, trap_passes sums, bind, Except.bind]
    exact trap_passes divides
  rw [← sums.number, ← divides.number, averages]
  cases divides.quiet with
  | nan => simp [atMost, trap_nan_le, bind, Except.bind]
  | number value =>
      simp only [ne_eq, reduceCtorEq, not_false_eq_true, iff_true, atMost, trap_le, bind, Except.bind]
      split
      · exact ⟨_, rfl⟩
      · obtain ⟨severity, returns⟩ := excessSeverity_returns value _ nonzero
        rw [returns]
        exact ⟨_, rfl⟩

theorem evaluateSystematicSupplierDelay_returns {samples : List Decimal} (supplierId : Uuid)
    (finite : ∀ sample ∈ samples, ∃ days, sample = .finite days) :
    ∃ found, evaluateSystematicSupplierDelay supplierId samples = .ok found := by
  have quiet : ∀ sample ∈ samples, sample.Quiet ∧ sample ≠ .nan := by
    intro sample member
    obtain ⟨days, rfl⟩ := finite sample member
    exact ⟨.number days, by simp⟩
  unfold evaluateSystematicSupplierDelay
  split
  · exact ⟨_, rfl⟩
  · split
    · exact ⟨_, rfl⟩
    · next filled =>
      exact (average_returns (fun sample member => (quiet sample member).1) (by simpa using filled) 3 (by norm_num) _).mpr
        fun sample member => (quiet sample member).2

theorem evaluateQualityDegradation_returns {samples : List Decimal} (itemId supplierId : Uuid)
    (quiet : ∀ sample ∈ samples, sample.Quiet) :
    (∃ found, evaluateQualityDegradation itemId supplierId samples = .ok found) ↔ ∀ sample ∈ samples, sample ≠ .nan := by
  unfold evaluateQualityDegradation
  cases samples with
  | nil => simp
  | cons first rest => exact average_returns quiet (by simp) (1 / 20) (by norm_num) _

end Rules

/-! ## Samples -/

section Samples

variable {κ α : Type} [DecidableEq κ] {property : α → Prop}

theorem forall_appendTo (groups : List (κ × List α)) (entry : κ × α) :
    (∀ group ∈ appendTo groups entry, ∀ value ∈ group.2, property value) ↔
      (∀ group ∈ groups, ∀ value ∈ group.2, property value) ∧ property entry.2 := by
  unfold appendTo
  split
  · next known =>
    obtain ⟨group, member, same⟩ := List.any_eq_true.mp known
    have same := of_decide_eq_true same
    simp only [List.forall_mem_map]
    constructor
    · intro all
      refine ⟨fun other otherMember value valueMember => ?_, ?_⟩
      · have values := all other otherMember
        split at values
        · exact values value (List.mem_append_left _ valueMember)
        · exact values value valueMember
      · have values := all group member
        rw [if_pos same] at values
        exact values entry.2 (List.mem_append_right _ (List.mem_singleton_self _))
    · rintro ⟨all, added⟩ other otherMember value valueMember
      split at valueMember
      · rcases List.mem_append.mp valueMember with old | new
        · exact all other otherMember value old
        · rwa [List.mem_singleton.mp new]
      · exact all other otherMember value valueMember
  · rw [List.forall_mem_append]
    simp

/-- Grouping loses no sample and adds none. -/
theorem forall_grouped (entries : List (κ × α)) :
    (∀ group ∈ grouped entries, ∀ value ∈ group.2, property value) ↔ ∀ entry ∈ entries, property entry.2 := by
  have folds (groups : List (κ × List α)) :
      (∀ group ∈ entries.foldl appendTo groups, ∀ value ∈ group.2, property value) ↔
        (∀ group ∈ groups, ∀ value ∈ group.2, property value) ∧ ∀ entry ∈ entries, property entry.2 := by
    induction entries generalizing groups with
    | nil => simp
    | cons entry rest ih => rw [List.foldl_cons, ih, forall_appendTo, List.forall_mem_cons, and_assoc]
  exact (folds []).trans (by simp)

end Samples

/-! ## Detections -/

section Detection

variable {now : Timestamp} {enterpriseId : Uuid} {db : DB} {row : Row}

theorem detectRisks_returned_iff (unique : Unique ongoingKey db.riskFinding) :
    returned (detectRisks now enterpriseId db) = true ↔
      ∀ probe ∈ probes now enterpriseId db, ∃ found, probe.evaluate db = .ok found := by
  cases ran : detectRisks now enterpriseId db with
  | ok results after =>
      refine iff_of_true rfl fun probe member => ?_
      exact (detectRisks_ok ran).computes member (probes_sound now enterpriseId db probe member)
  | error reason after =>
      refine iff_of_false (by simp [returned]) fun all => ?_
      obtain ⟨probe, member, raised⟩ := detectRisks_error unique ran
      obtain ⟨found, returns⟩ := all probe member
      rw [raised] at returns
      cases returns

/-- The row is a sample of the quality of an item from a supplier. -/
def sampled (row : Row) : Bool := (row.uuid? "item_id").isSome && (row.uuid? "supplier_id").isSome

/-- Defect rates are quantities where they are given. -/
def HoldsRates (db : DB) : Prop :=
  ∀ row ∈ (db.canonical .qualityRecord).rows, ∀ rate ∈ (row.col "defect_rate").decimal?, rate.Quiet

theorem isNumber_iff_decimal {name : String} :
    IsNumber name row ↔ ∀ number ∈ (row.col name).decimal?, number ≠ .nan := by
  unfold IsNumber
  cases row.col name <;> simp [Value.decimal?]

theorem qualitySamples_iff {property : Decimal → Prop} :
    (∀ sample ∈ qualitySamples enterpriseId db, ∀ rate ∈ sample.2, property rate) ↔
      ∀ row ∈ trustedOf db .qualityRecord enterpriseId, sampled row = true →
        ∀ rate ∈ (row.col "defect_rate").decimal?, property rate := by
  unfold qualitySamples
  rw [forall_grouped]
  simp only [List.mem_filterMap, forall_exists_index, and_imp]
  constructor
  · intro all row member isSample rate given
    obtain ⟨item, supplier⟩ := Bool.and_eq_true_iff.mp isSample
    obtain ⟨itemId, item⟩ := Option.isSome_iff_exists.mp item
    obtain ⟨supplierId, supplier⟩ := Option.isSome_iff_exists.mp supplier
    refine all ((itemId, supplierId), rate) row member ?_
    rw [item, supplier, Option.mem_def.mp given]
  · intro all entry row member sample
    split at sample
    · next itemId supplierId rate item supplier given =>
      cases sample
      exact all row member (by simp [sampled, item, supplier]) rate given
    · cases sample

theorem delaySamples_finite (enterpriseId : Uuid) (db : DB) :
    ∀ sample ∈ supplierDelaySamples enterpriseId db, ∀ delay ∈ sample.2, ∃ days, delay = .finite days := by
  unfold supplierDelaySamples
  rw [forall_grouped]
  intro entry member
  obtain ⟨row, _, sample⟩ := List.mem_filterMap.mp member
  split at sample
  · cases sample
    exact ⟨_, rfl⟩
  · cases sample

/-- With finite aggregates a detection stops at a lead time or a defect rate at most. -/
theorem probes_return (holds : HoldsQuantities db) (rates : HoldsRates db)
    (finite : ∀ aggregate ∈ aggregatesOf enterpriseId db, aggregate.values.Finite) :
    (∀ probe ∈ probes now enterpriseId db, ∃ found, probe.evaluate db = .ok found) ↔
      (∀ aggregate ∈ aggregatesOf enterpriseId db, aggregate.values.daysOfCover.isSome = true →
        ∀ days ∈ latestLeadTimeDays db aggregate.itemId, days ≠ .decimal .nan) ∧
      ∀ row ∈ trustedOf db .qualityRecord enterpriseId, sampled row = true → IsNumber "defect_rate" row := by
  have shortage (aggregate : SkuAggregate) (member : aggregate ∈ aggregatesOf enterpriseId db) :
      (∀ probe ∈ aggregateProbes now aggregate, ∃ found, probe.evaluate db = .ok found) ↔
        (aggregate.values.daysOfCover.isSome = true →
          ∀ days ∈ latestLeadTimeDays db aggregate.itemId, days ≠ .decimal .nan) := by
    have aggregateFinite : (snapshot aggregate).values.Finite := finite aggregate member
    simp only [aggregateProbes, List.forall_mem_cons, List.not_mem_nil, false_implies, implies_true, and_true,
      evaluateInsufficientUntilNextDelivery_returns aggregateFinite, evaluatePriceAnomaly_returns aggregateFinite,
      evaluateProductionStopRisk_returns aggregateFinite]
    cases latest : latestLeadTimeDays db aggregate.itemId with
    | none => simp
    | some days =>
        obtain ⟨lead, leadMember, rfl⟩ := Option.map_eq_some_iff.mp latest
        have leadTime := List.mem_of_mem_head? leadMember
        have held := trusted_holds (.leadTime, "days") holds (by decide) ((List.mem_insertionSort _).mp leadTime)
        obtain ⟨number, column, quiet⟩ := held
        simp only [column, toDecimal, bind, Except.bind, Option.mem_some_iff, forall_eq', ne_eq, Value.decimal.injEq]
        exact evaluateLikelyShortage_returns aggregateFinite quiet
  have quality : (∀ sample ∈ qualitySamples enterpriseId db,
        ∃ found, (qualityProbe sample).evaluate db = .ok found) ↔
      ∀ row ∈ trustedOf db .qualityRecord enterpriseId, sampled row = true → IsNumber "defect_rate" row := by
    have quiet : ∀ sample ∈ qualitySamples enterpriseId db, ∀ rate ∈ sample.2, rate.Quiet :=
      qualitySamples_iff.mpr fun row member _ rate given => rates row (List.mem_filter.mp member).1 rate given
    simp only [isNumber_iff_decimal, ← qualitySamples_iff]
    exact forall₂_congr fun sample member => evaluateQualityDegradation_returns _ _ (quiet sample member)
  have delays : ∀ sample ∈ supplierDelaySamples enterpriseId db, ∃ found, (delayProbe sample).evaluate db = .ok found :=
    fun sample member => evaluateSystematicSupplierDelay_returns _ (delaySamples_finite enterpriseId db sample member)
  simp only [probes, List.forall_mem_append, List.forall_mem_map, List.mem_flatMap, forall_exists_index, and_imp]
  rw [quality]
  constructor
  · rintro ⟨aggregates, _, qualities⟩
    exact ⟨fun aggregate member => (shortage aggregate member).mp fun probe listed => aggregates probe aggregate member listed,
      qualities⟩
  · rintro ⟨aggregates, qualities⟩
    exact ⟨fun probe aggregate member => (shortage aggregate member).mpr (aggregates aggregate member) probe, delays,
      qualities⟩

end Detection

end SmartProcurement.Analysis
