import SmartProcurement.Analysis.DetectionSound

namespace SmartProcurement.Analysis

open Relational Transaction Observation

/-! # Aggregates and risks of items without trustworthy stock

A recomputation derives nothing for an item whose stock rows are all lost, but
it does not touch the row that an earlier one left, and a detection trusts every
row it finds.
-/

def itemLevelRisk : RiskType → Bool
  | .likelyShortage | .insufficientUntilNextDelivery | .productionStopRisk | .priceAnomaly => true
  | .systematicSupplierDelay | .qualityDegradation => false

def ownsItem (enterpriseId : Uuid) (db : DB) (itemId : Uuid) : Prop :=
  ∃ row, (db.canonical .item).find? itemId = some row ∧ row.enterpriseId = enterpriseId

def hasTrustedStock (db : DB) (itemId : Uuid) : Prop :=
  ∃ row ∈ (db.canonical .stockLevel).rows, row.uuid? "item_id" = some itemId ∧ row.trusted = true

instance (db : DB) (itemId : Uuid) : Decidable (hasTrustedStock db itemId) :=
  inferInstanceAs (Decidable (∃ row ∈ _, _ ∧ _))

def hasAggregate (db : DB) (itemId : Uuid) : Prop :=
  ∃ row ∈ db.skuAggregate.rows, row.itemId = itemId

/-- What untrustworthy data must not lead to in the state after a recomputation. -/
structure Trustworthy (enterpriseId : Uuid) (db : DB) : Prop where
  aggregates : ∀ itemId, ownsItem enterpriseId db itemId →
    (hasAggregate db itemId ↔ hasTrustedStock db itemId)
  risks : ∀ now findings after, detectRisks now enterpriseId db = .ok findings after →
    ∀ finding ∈ findings, itemLevelRisk finding.riskType = true → ∀ itemId,
      finding.itemId = some itemId → ownsItem enterpriseId db itemId → hasTrustedStock db itemId

section Recomputation

variable {now : Timestamp} {enterpriseId itemId : Uuid} {before after : DB}

theorem hasTrustedStock_iff {db : DB} :
    hasTrustedStock db itemId ↔ trustedRows db .stockLevel itemId ≠ [] := by
  rw [Ne, List.eq_nil_iff_forall_not_mem, not_forall]
  simp only [mem_trustedRows, not_not, hasTrustedStock]

theorem hasAggregate_of_trusted (step : Recomputed now itemId before after)
    (trusted : hasTrustedStock before itemId) : hasAggregate after itemId := by
  cases step with
  | untrusted none _ => exact absurd (aggregateValues_eq_none.mp none) (hasTrustedStock_iff.mp trusted)
  | upserted _ _ upserted =>
      obtain ⟨row, only, _, _⟩ := upserted.current
      obtain ⟨member, sameItem, _⟩ := mem_itemRows.mp (only ▸ List.mem_singleton_self row)
      exact ⟨row, member, sameItem⟩

theorem hasAggregate_iff_of_untrusted (step : Recomputed now itemId before after)
    (untrusted : ¬ hasTrustedStock before itemId) :
    hasAggregate after itemId ↔ hasAggregate before itemId := by
  cases step with
  | untrusted _ same =>
      have rows := same (fun row => row.itemId = itemId) (by simp)
      have member (db : DB) (row : SkuAggregate) :
          row ∈ db.skuAggregate.rows.filter (fun row => row.itemId = itemId) ↔
            row ∈ db.skuAggregate.rows ∧ row.itemId = itemId := by
        simp
      simp only [hasAggregate, ← member, rows]
  | upserted computed _ _ =>
      rw [hasTrustedStock_iff, not_not] at untrusted
      rw [aggregateValues_eq_none.mpr untrusted] at computed
      cases computed

end Recomputation

section Detection

variable {now : Timestamp} {enterpriseId : Uuid} {before after : DB}

theorem runProbes_findings {list : List Probe} {findings results : List RiskFinding}
    (sounds : ∀ probe ∈ list, probe.Sound)
    (ran : list.foldlM (runProbe now enterpriseId) findings before = .ok results after) :
    ∀ finding ∈ results, finding ∈ findings ∨ ∃ probe ∈ list, ∃ candidate,
      probe.evaluate before = .ok (some candidate) ∧ finding.riskType = candidate.riskType ∧
        finding.itemId = candidate.itemId := by
  induction list generalizing findings before with
  | nil =>
      obtain ⟨rfl, _⟩ := pure_eq_ok.mp ran
      exact fun finding member => .inl member
  | cons probe rest ih =>
      rw [List.foldlM_cons] at ran
      obtain ⟨next, middle, first, ran⟩ := bind_eq_ok.mp ran
      have only := (runProbe_ok first).risksOnly
      have restSounds : ∀ probe ∈ rest, probe.Sound := fun probe member =>
        sounds probe (List.mem_cons_of_mem _ member)
      intro finding member
      rcases ih restSounds ran finding member with early | ⟨later, laterMember, candidate, found, same⟩
      · simp only [runProbe, bind_eq_ok, read_eq_ok, lift_eq_ok] at first
        obtain ⟨_, _, ⟨rfl, rfl⟩, found, _, ⟨evaluated, rfl⟩, first⟩ := first
        cases found with
        | none =>
            obtain ⟨rfl, rfl⟩ := pure_eq_ok.mp first
            exact .inl early
        | some candidate =>
            simp only [bind_eq_ok, pure_eq_ok] at first
            obtain ⟨added, _, applied, rfl, rfl⟩ := first
            rcases List.mem_append.mp early with early | new
            · exact .inl early
            · obtain rfl := List.mem_singleton.mp new
              obtain ⟨_, step, _⟩ := (applyCandidate_ok applied).steps
              obtain ⟨_, type, _, item, _⟩ := matchesCandidate_iff.mp step.matched
              exact .inr ⟨probe, by simp, candidate, evaluated, type, item⟩
      · rw [(restSounds later laterMember).reads only] at found
        exact .inr ⟨later, List.mem_cons_of_mem _ laterMember, candidate, found, same⟩

theorem probes_item {probe : Probe} {candidate : RiskCandidate}
    (member : probe ∈ probes now enterpriseId before) (found : probe.evaluate before = .ok (some candidate))
    (itemLevel : itemLevelRisk candidate.riskType = true) :
    ∃ row ∈ before.skuAggregate.rows, candidate.itemId = some row.itemId := by
  have suits := (probes_sound now enterpriseId before probe member).suits found
  rcases List.mem_append.mp member with aggregate | rest
  · obtain ⟨row, rowMember, member⟩ := List.mem_flatMap.mp aggregate
    refine ⟨row, (List.mem_filter.mp rowMember).1, ?_⟩
    simp only [aggregateProbes, List.mem_cons, List.not_mem_nil, or_false] at member
    rcases member with rfl | rfl | rfl | rfl
    all_goals exact suits.item
  · rcases List.mem_append.mp rest with delay | quality
    · obtain ⟨sample, _, rfl⟩ := List.mem_map.mp delay
      have type := ((evaluateSystematicSupplierDelay_judges ..).ok found candidate rfl).1
      rw [type] at itemLevel
      cases itemLevel
    · obtain ⟨sample, _, rfl⟩ := List.mem_map.mp quality
      have type := ((evaluateQualityDegradation_judges ..).ok found candidate rfl).1
      rw [type] at itemLevel
      cases itemLevel

theorem detectRisks_item {findings : List RiskFinding} {finding : RiskFinding} {itemId : Uuid}
    (ran : detectRisks now enterpriseId before = .ok findings after) (member : finding ∈ findings)
    (itemLevel : itemLevelRisk finding.riskType = true) (item : finding.itemId = some itemId) :
    hasAggregate before itemId := by
  rw [detectRisks_eq] at ran
  rcases runProbes_findings (probes_sound now enterpriseId before) ran finding member with
    none | ⟨probe, probeMember, candidate, found, type, sameItem⟩
  · cases none
  · rw [type] at itemLevel
    obtain ⟨row, rowMember, rowItem⟩ := probes_item probeMember found itemLevel
    rw [sameItem, rowItem, Option.some.injEq] at item
    exact ⟨row, rowMember, item⟩

end Detection

/-- A recomputation leaves a trustworthy state exactly when no item of the
enterprise without trustworthy stock had an aggregate before it. -/
theorem recomputeAggregates_trustworthy_iff {now : Timestamp} {enterpriseId : Uuid} {before after : DB}
    {results : List SkuAggregate}
    (ran : recomputeAggregates now enterpriseId none before = .ok results after) :
    Trustworthy enterpriseId after ↔
      ∀ itemId, ownsItem enterpriseId before itemId → ¬ hasTrustedStock before itemId →
        ¬ hasAggregate before itemId := by
  obtain ⟨only, recomputed, _⟩ := recomputeAggregates_ok ran
  have canonical : after.canonical = before.canonical := by
    obtain ⟨_, rfl⟩ := only
    rfl
  have owns (itemId : Uuid) : ownsItem enterpriseId after itemId ↔ ownsItem enterpriseId before itemId := by
    rw [ownsItem, ownsItem, canonical]
  have stock (itemId : Uuid) : hasTrustedStock after itemId ↔ hasTrustedStock before itemId := by
    rw [hasTrustedStock, hasTrustedStock, canonical]
  have step (itemId : Uuid) (owned : ownsItem enterpriseId before itemId) :
      Recomputed now itemId before after :=
    recomputed itemId (mem_itemsInScope_none.mpr owned)
  constructor
  · intro trustworthy itemId owned untrusted aggregate
    have kept := (hasAggregate_iff_of_untrusted (step itemId owned) untrusted).mpr aggregate
    have trusted := (trustworthy.aggregates itemId ((owns itemId).mpr owned)).mp kept
    exact untrusted ((stock itemId).mp trusted)
  · intro condition
    have aggregates : ∀ itemId, ownsItem enterpriseId after itemId →
        (hasAggregate after itemId ↔ hasTrustedStock after itemId) := by
      intro itemId owned
      rw [owns] at owned
      rw [stock]
      by_cases trusted : hasTrustedStock before itemId
      · exact iff_of_true (hasAggregate_of_trusted (step itemId owned) trusted) trusted
      · have gone := hasAggregate_iff_of_untrusted (step itemId owned) trusted
        exact iff_of_false (fun aggregate => condition itemId owned trusted (gone.mp aggregate)) trusted
    refine ⟨aggregates, fun now findings final detected finding member itemLevel itemId item owned => ?_⟩
    exact (aggregates itemId owned).mp (detectRisks_item detected member itemLevel item)

/-- One item with ten pieces in stock, whose price went from 10 to 20. -/
def stockedItem : DB :=
  { (default : DB) with
    enterprise := [1]
    canonical := fun
      | .item => Table.empty.insert (.ofColumns 1 .fresh none [("sku", .text "bolt")])
      | .stockLevel => Table.empty.insert (.ofColumns 1 .fresh none
          [("item_id", .uuid 1), ("quantity", .decimal (.finite 10))])
      | .price => (Table.empty.insert (.ofColumns 1 .fresh none
          [("item_id", .uuid 1), ("unit_price", .decimal (.finite 20)), ("valid_from", .date 2)])).insert
            (.ofColumns 1 .fresh none
              [("item_id", .uuid 1), ("unit_price", .decimal (.finite 10)), ("valid_from", .date 1)])
      | _ => .empty }

def loseStock (db : DB) : DB :=
  db.setCanonical .stockLevel ((db.canonical .stockLevel).updateWhere (fun _ => true) fun row =>
    { row with observability := .lost })

theorem recomputeAggregates_trustworthy_stockedItem :
    ∃ results after, recomputeAggregates 0 1 none stockedItem = .ok results after ∧
      Trustworthy 1 after := by
  cases ran : recomputeAggregates 0 1 none stockedItem with
  | error reason after =>
      have returned : (transact (recomputeAggregates 0 1 none) stockedItem).1.isOk = true := by
        decide +kernel
      rw [transact_of_error ran] at returned
      cases returned
  | ok results after =>
      refine ⟨results, after, rfl, (recomputeAggregates_trustworthy_iff ran).mpr fun itemId _ _ aggregate => ?_⟩
      obtain ⟨row, member, _⟩ := aggregate
      cases member

/-- Recomputed once with its stock fresh, and again after the stock was lost. -/
def recomputedTwice : Except Error (List SkuAggregate) × DB :=
  transact (recomputeAggregates 1 1 none) (loseStock (transact (recomputeAggregates 0 1 none) stockedItem).2)

/-- The aggregate of an item outlives its last trustworthy stock row, and the
next detection still finds a risk of the item. -/
theorem lostStock_keeps_aggregate :
    recomputedTwice.1.isOk = true ∧ ¬ Trustworthy 1 recomputedTwice.2 ∧
      ((transact (detectRisks 2 1) recomputedTwice.2).2.riskFinding.rows.map fun finding =>
        (finding.riskType, finding.itemId)) = [(.priceAnomaly, some 1)] := by
  refine ⟨by decide +kernel, fun trustworthy => ?_, by decide +kernel⟩
  have owned : ownsItem 1 recomputedTwice.2 1 := mem_itemsInScope_none.mp (by decide +kernel)
  have aggregate : hasAggregate recomputedTwice.2 1 := by
    unfold hasAggregate
    decide +kernel
  have lost : ∀ row ∈ (recomputedTwice.2.canonical .stockLevel).rows, row.trusted = false := by
    decide +kernel
  obtain ⟨row, member, _, trusted⟩ := (trustworthy.aggregates 1 owned).mp aggregate
  rw [lost row member] at trusted
  cases trusted

end SmartProcurement.Analysis
