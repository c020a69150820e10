import SmartProcurement.Analysis.Dismissal
import SmartProcurement.Analysis.PriceTrends
import SmartProcurement.Analysis.TrustedStock
import SmartProcurement.Integration.Resync

namespace SmartProcurement.Analysis

open Relational Transaction Transition Numeric Observation Integration Api

/-! # Price anomalies over whole runs

A price anomaly is raised from the trend that the last recomputation of the item
has left, and that trend compares the two newest trusted price rows.
-/

def isPriceAnomaly (itemId : Uuid) (finding : RiskFinding) : Bool :=
  finding.riskType = .priceAnomaly ∧ finding.itemId = some itemId

/-! ## The trend that a recomputation leaves -/

section Recomputation

variable {now : Timestamp} {enterpriseId itemId : Uuid} {itemIds : Option (List Uuid)} {before after : DB}
variable {results : List SkuAggregate} {row : SkuAggregate} {values stored : AggregateValues}

theorem aggregateValues_priceTrend (computed : aggregateValues before itemId = .ok (some values)) :
    ∃ last, priceTrend before itemId = .ok (last, values.priceTrend) := by
  unfold aggregateValues at computed
  split at computed
  · cases computed
  · simp only [except_bind_eq_ok, except_pure_eq_ok] at computed
    obtain ⟨_, _, _, _, _, _, _, _, ⟨last, trend⟩, trended, _, _, computed⟩ := computed
    cases computed
    exact ⟨last, trended⟩

theorem storedValues_priceTrend (kept : storedValues values = .ok stored) :
    storeQuantity "price_trend" values.priceTrend = .ok stored.priceTrend := by
  simp only [storedValues, except_bind_eq_ok, except_pure_eq_ok] at kept
  obtain ⟨_, _, _, _, _, _, trend, trended, _, _, rfl⟩ := kept
  exact trended

/-- Every aggregate stands for its whole item. -/
def ItemLevel (db : DB) : Prop := ∀ row ∈ db.skuAggregate.rows, row.warehouseId = none

theorem recomputeAggregates_itemLevel (ran : recomputeAggregates now enterpriseId itemIds before = .ok results after)
    (level : ItemLevel before) : ItemLevel after := by
  have follows : Follows (Frame.keeps ItemLevel) (recomputeAggregates now enterpriseId itemIds) := by
    refine recomputeAggregates_frame ?_ ?_ itemIds
    · intro db row _ noWarehouse level other member
      rcases List.mem_append.mp member with old | new
      · exact level other old
      · rw [List.mem_singleton.mp new]
        exact noWarehouse
    · intro db id now values level other member
      obtain ⟨old, oldMember, same⟩ := Table.mem_updateWhere.mp member
      have oldLevel := level old oldMember
      subst same
      split
      · exact oldLevel
      · exact oldLevel
  exact follows.ok ran level

/-- A row that is new is one of the enterprise, and any other keeps its own. -/
theorem recomputeAggregates_enterprise
    (ran : recomputeAggregates now enterpriseId itemIds before = .ok results after)
    (member : row ∈ after.skuAggregate.rows) : row.enterpriseId = enterpriseId ∨
      ∃ old ∈ before.skuAggregate.rows, old.itemId = row.itemId ∧ old.enterpriseId = row.enterpriseId := by
  let frame : Frame DB := {
    rel := fun before after => ∀ row ∈ after.skuAggregate.rows, row.enterpriseId = enterpriseId ∨
      ∃ old ∈ before.skuAggregate.rows, old.itemId = row.itemId ∧ old.enterpriseId = row.enterpriseId
    refl := fun _ row member => .inr ⟨row, member, rfl, rfl⟩
    trans := by
      intro first middle last early late row member
      rcases late row member with own | ⟨between, member, item, enterprise⟩
      · exact .inl own
      · rw [← item, ← enterprise]
        exact early between member }
  have follows : Follows frame (recomputeAggregates now enterpriseId itemIds) := by
    refine recomputeAggregates_frame ?_ ?_ itemIds
    · intro db row own _ other member
      rcases List.mem_append.mp member with old | new
      · exact .inr ⟨other, old, rfl, rfl⟩
      · rw [List.mem_singleton.mp new]
        exact .inl own
    · intro db id now values other member
      obtain ⟨old, oldMember, same⟩ := Table.mem_updateWhere.mp member
      refine .inr ⟨old, oldMember, ?_⟩
      subst same
      split
      · exact ⟨rfl, rfl⟩
      · exact ⟨rfl, rfl⟩
  exact follows.ok ran row member

/-- A row after a recomputation was there before or is what its item now derives. -/
theorem recomputeAggregates_row (ran : recomputeAggregates now enterpriseId itemIds before = .ok results after)
    (level : ItemLevel before) (member : row ∈ after.skuAggregate.rows) :
    (row ∈ before.skuAggregate.rows ∧
        (row.itemId ∉ itemsInScope enterpriseId itemIds before ∨ ¬ hasTrustedStock before row.itemId)) ∨
      row.itemId ∈ itemsInScope enterpriseId itemIds before ∧ ∃ values,
        aggregateValues before row.itemId = .ok (some values) ∧ storedValues values = .ok row.values := by
  obtain ⟨_, recomputed, others⟩ := recomputeAggregates_ok ran
  have kept (same : leaves row.itemId before after) : row ∈ before.skuAggregate.rows := by
    have selected : row ∈ after.skuAggregate.rows.filter fun other => other.itemId = row.itemId := by
      simpa using member
    rw [same (fun other => other.itemId = row.itemId) (by simp)] at selected
    exact (List.mem_filter.mp selected).1
  by_cases inScope : row.itemId ∈ itemsInScope enterpriseId itemIds before
  · cases recomputed row.itemId inScope with
    | untrusted none same =>
        refine .inl ⟨kept same, .inr fun trusted => ?_⟩
        exact hasTrustedStock_iff.mp trusted (aggregateValues_eq_none.mp none)
    | @upserted values stored computed keeps upserted =>
        obtain ⟨current, only, same, _⟩ := upserted.current
        have selected := mem_itemRows.mpr ⟨member, rfl, recomputeAggregates_itemLevel ran level row member⟩
        rw [only, List.mem_singleton] at selected
        subst selected
        exact .inr ⟨inScope, values, computed, same ▸ keeps⟩
  · exact .inl ⟨kept (others row.itemId inScope), .inl inScope⟩

end Recomputation

/-! ## What holds in every state -/

/-- Trends and prices are as their columns keep them. -/
structure TrendsStored (db : DB) : Prop where
  level : ItemLevel db
  trends : ∀ row ∈ db.skuAggregate.rows, StoredTrend row.values.priceTrend
  prices : ∀ row ∈ (db.canonical .price).rows, StoredNumber "unit_price" row

section Invariant

variable {now : Timestamp} {enterpriseId itemId : Uuid} {itemIds : Option (List Uuid)} {before after : DB}
variable {results : List SkuAggregate} {row : SkuAggregate}

/-- The trend that a recomputation leaves is calm exactly if the prices agree. -/
theorem TrendsStored.derived {values : AggregateValues} (stored : TrendsStored before)
    (computed : aggregateValues before row.itemId = .ok (some values)) (kept : storedValues values = .ok row.values) :
    StoredTrend row.values.priceTrend ∧ (Calm row.values.priceTrend ↔ PricesAgree before row.itemId) := by
  obtain ⟨last, trended⟩ := aggregateValues_priceTrend computed
  exact calm_iff_pricesAgree stored.prices trended (storedValues_priceTrend kept)

theorem TrendsStored.recomputed (stored : TrendsStored before)
    (ran : recomputeAggregates now enterpriseId itemIds before = .ok results after) : TrendsStored after := by
  refine ⟨recomputeAggregates_itemLevel ran stored.level, fun row member => ?_, ?_⟩
  · rcases recomputeAggregates_row ran stored.level member with ⟨old, _⟩ | ⟨_, values, computed, kept⟩
    · exact stored.trends row old
    · exact (stored.derived computed kept).1
  · obtain ⟨_, rfl⟩ := (recomputeAggregates_ok ran).1
    exact stored.prices

theorem syncSource_prices {connectors : Connectors} {dataSourceId : Uuid} {result : SyncResult}
    (prices : ∀ row ∈ (before.canonical .price).rows, StoredNumber "unit_price" row)
    (ran : syncSource now connectors enterpriseId dataSourceId before = .ok result after) :
    ∀ row ∈ (after.canonical .price).rows, StoredNumber "unit_price" row := by
  obtain ⟨synced⟩ := syncSource_ok ran
  have watched : signalWatch .price = some ("unit_price", .priceChange) := rfl
  have tracked := syncBatch_tracked watched prices synced.ran
  rw [synced.canonical]
  exact tracked.numbers

/-- A sync leaves the aggregates alone. -/
theorem syncFrame_aggregates (dataSourceId : Uuid) : SyncFrame dataSourceId (.fixes DB.skuAggregate) where
  signal _ _ := rfl
  insert _ _ _ _ := rfl
  update _ _ _ _ _ := rfl
  source _ _ _ := rfl
  gaps _ _ := rfl
  job _ _ _ _ := rfl

theorem TrendsStored.synced {connectors : Connectors} {dataSourceId : Uuid} {result : SyncResult}
    (stored : TrendsStored before)
    (ran : syncSource now connectors enterpriseId dataSourceId before = .ok result after) :
    after.skuAggregate = before.skuAggregate ∧ TrendsStored after := by
  have same : after.skuAggregate = before.skuAggregate := syncSource_frame (syncFrame_aggregates dataSourceId) ran
  refine ⟨same, ?_, ?_, syncSource_prices stored.prices ran⟩
  · rw [ItemLevel, same]
    exact stored.level
  · rw [same]
    exact stored.trends

theorem TrendsStored.detected {findings : List RiskFinding} (stored : TrendsStored before)
    (ran : detectRisks now enterpriseId before = .ok findings after) : TrendsStored after := by
  obtain ⟨_, _, _, rfl⟩ := (detectRisks_ok ran).only
  exact ⟨stored.level, stored.trends, stored.prices⟩

theorem TrendsStored.dismissed {user : CurrentUser} {riskId : Uuid} {body : DismissIn} {finding : RiskFinding}
    (stored : TrendsStored before) (ran : Api.dismissRisk now user riskId body before = .ok finding after) :
    TrendsStored after := by
  obtain ⟨_, _, rfl⟩ := dismissRisk_ok ran
  exact ⟨stored.level, stored.trends, stored.prices⟩

theorem RiskCall.trendsStored (call : RiskCall) (stored : TrendsStored before) : TrendsStored (call.commit before) := by
  cases call with
  | syncSource now connectors enterpriseId dataSourceId =>
      exact transact_preserves stored fun _ _ ran => (stored.synced ran).2
  | recomputeAggregates now enterpriseId itemIds =>
      exact transact_preserves stored fun _ _ ran => stored.recomputed ran
  | detectRisks now enterpriseId => exact transact_preserves stored fun _ _ ran => stored.detected ran
  | dismissRisk now user riskId body => exact transact_preserves stored fun _ _ ran => stored.dismissed ran

end Invariant

/-! ## Detections -/

section Detection

variable {now : Timestamp} {enterpriseId itemId : Uuid} {before after : DB} {findings results : List RiskFinding}

/-- A price anomaly comes from an aggregate of its item. -/
theorem probes_anomaly {probe : Probe} {candidate : RiskCandidate} (member : probe ∈ probes now enterpriseId before)
    (found : probe.evaluate before = .ok (some candidate)) (type : candidate.riskType = .priceAnomaly)
    (item : candidate.itemId = some itemId) :
    ∃ row ∈ aggregatesOf enterpriseId before, row.itemId = itemId ∧
      evaluatePriceAnomaly (snapshot row) = .ok (some candidate) := by
  have suits := (probes_sound now enterpriseId before probe member).suits found
  rcases List.mem_append.mp member with aggregate | rest
  · obtain ⟨row, rowMember, member⟩ := List.mem_flatMap.mp aggregate
    have other (riskType : RiskType) (judged : Judges riskType (some row.itemId) none (probe.evaluate before)) :
        riskType = .priceAnomaly := (judged.ok found candidate rfl).1.symm.trans type
    simp only [aggregateProbes, List.mem_cons, List.not_mem_nil, or_false] at member
    rcases member with rfl | rfl | rfl | rfl
    · have shortage : RiskType.likelyShortage = .priceAnomaly := by
        refine other _ ?_
        dsimp only
        split
        · exact judges_none
        · exact Ends.bind (toDecimal_computes _) fun days _ => evaluateLikelyShortage_judges ..
      cases shortage
    · cases other _ (evaluateInsufficientUntilNextDelivery_judges ..)
    · cases other _ (evaluateProductionStopRisk_judges ..)
    · exact ⟨row, rowMember, Option.some.inj (suits.item.symm.trans item), found⟩
  · rcases List.mem_append.mp rest with delay | quality
    · obtain ⟨sample, _, rfl⟩ := List.mem_map.mp delay
      have other := ((evaluateSystematicSupplierDelay_judges ..).ok found candidate rfl).1
      cases type.symm.trans other
    · obtain ⟨sample, _, rfl⟩ := List.mem_map.mp quality
      have other := ((evaluateQualityDegradation_judges ..).ok found candidate rfl).1
      cases type.symm.trans other

/-- Where all aggregates of the item are calm, no probe finds an anomaly of it. -/
theorem TrendsStored.quiet (stored : TrendsStored before)
    (calm : ∀ row ∈ aggregatesOf enterpriseId before, row.itemId = itemId → Calm row.values.priceTrend)
    {probe : Probe} {candidate : RiskCandidate} (member : probe ∈ probes now enterpriseId before)
    (found : probe.evaluate before = .ok (some candidate)) (type : candidate.riskType = .priceAnomaly) :
    candidate.itemId ≠ some itemId := by
  intro item
  obtain ⟨row, rowMember, same, evaluated⟩ := probes_anomaly member found type item
  exact Calm.quiet (calm row rowMember same) (stored.trends row (List.mem_filter.mp rowMember).1) candidate evaluated

/-- What is found is among the results. -/
theorem runProbes_finds {list : List Probe} (sounds : ∀ probe ∈ list, probe.Sound)
    (ran : list.foldlM (runProbe now enterpriseId) findings before = .ok results after) :
    (∀ finding ∈ findings, finding ∈ results) ∧ ∀ probe ∈ list, ∀ candidate,
      probe.evaluate before = .ok (some candidate) →
        ∃ finding ∈ results, matchesCandidate enterpriseId candidate finding = true := by
  induction list generalizing findings before with
  | nil =>
      obtain ⟨rfl, _⟩ := pure_eq_ok.mp ran
      exact ⟨fun _ member => member, by simp⟩
  | cons probe rest ih =>
      rw [List.foldlM_cons] at ran
      obtain ⟨next, middle, first, ran⟩ := bind_eq_ok.mp ran
      have only := (runProbe_ok first).risksOnly
      have restSounds : ∀ probe ∈ rest, probe.Sound := fun probe member =>
        sounds probe (List.mem_cons_of_mem _ member)
      obtain ⟨kept, finds⟩ := ih restSounds ran
      simp only [runProbe, bind_eq_ok, read_eq_ok, lift_eq_ok] at first
      obtain ⟨_, _, ⟨rfl, rfl⟩, found, _, ⟨evaluated, rfl⟩, first⟩ := first
      have later : ∀ other ∈ rest, ∀ candidate, other.evaluate before = .ok (some candidate) →
          ∃ finding ∈ results, matchesCandidate enterpriseId candidate finding = true := by
        intro other member candidate isFound
        rw [← (restSounds other member).reads only] at isFound
        exact finds other member candidate isFound
      cases found with
      | none =>
          obtain ⟨rfl, rfl⟩ := pure_eq_ok.mp first
          refine ⟨kept, fun other member candidate isFound => ?_⟩
          rcases List.mem_cons.mp member with rfl | member
          · cases evaluated.symm.trans isFound
          · exact later other member candidate isFound
      | some known =>
          simp only [bind_eq_ok, pure_eq_ok] at first
          obtain ⟨added, _, applied, rfl, rfl⟩ := first
          refine ⟨fun finding member => kept finding (List.mem_append_left _ member), ?_⟩
          intro other member candidate isFound
          rcases List.mem_cons.mp member with rfl | member
          · obtain rfl : known = candidate := Option.some.inj (Except.ok.inj (evaluated.symm.trans isFound))
            exact ⟨added, kept added (by simp), (applyCandidate_ok applied).matched⟩
          · exact later other member candidate isFound

end Detection

/-! ## A recomputation and the detection after it -/

/-- Both return, and the item is in scope with trustworthy stock. -/
structure AnomalyCheck (itemId : Uuid) (db : DB) where
  enterpriseId : Uuid
  itemIds : Option (List Uuid)
  now : Timestamp
  later : Timestamp
  aggregates : List SkuAggregate
  middle : DB
  findings : List RiskFinding
  after : DB
  recomputed : recomputeAggregates now enterpriseId itemIds db = .ok aggregates middle
  detected : detectRisks later enterpriseId middle = .ok findings after
  inScope : itemId ∈ itemsInScope enterpriseId itemIds db
  stocked : hasTrustedStock db itemId

namespace AnomalyCheck

variable {itemId : Uuid} {db : DB}

def raises (check : AnomalyCheck itemId db) : Prop := ∃ finding ∈ check.findings, isPriceAnomaly itemId finding = true

/-- The aggregate of the item is one of the enterprise that is checked. -/
def owns (check : AnomalyCheck itemId db) : Prop :=
  ∀ row ∈ db.skuAggregate.rows, row.itemId = itemId → row.enterpriseId = check.enterpriseId

theorem aggregate (check : AnomalyCheck itemId db) (level : ItemLevel db) :
    ∃ row ∈ check.middle.skuAggregate.rows, row.itemId = itemId ∧
      (∀ other ∈ check.middle.skuAggregate.rows, other.itemId = itemId → other = row) ∧
      (∃ values, aggregateValues db itemId = .ok (some values) ∧ storedValues values = .ok row.values) ∧
      (row.enterpriseId = check.enterpriseId ↔ check.owns) := by
  have step := (recomputeAggregates_ok check.recomputed).2.1 itemId check.inScope
  have levelAfter := recomputeAggregates_itemLevel check.recomputed level
  cases step with
  | untrusted none _ => exact absurd (aggregateValues_eq_none.mp none) (hasTrustedStock_iff.mp check.stocked)
  | @upserted values stored computed kept upserted =>
      obtain ⟨row, only, rfl, _⟩ := upserted.current
      obtain ⟨member, item, _⟩ := mem_itemRows.mp (only ▸ List.mem_singleton_self row)
      refine ⟨row, member, item, fun other otherMember same => ?_, ⟨values, computed, kept⟩, ?_⟩
      · have selected := mem_itemRows.mpr ⟨otherMember, same, levelAfter other otherMember⟩
        rw [only] at selected
        exact List.mem_singleton.mp selected
      · constructor
        · intro own old oldMember same
          have refreshes := upserted.inPlace old (mem_itemRows.mpr ⟨oldMember, same, level old oldMember⟩)
          rw [only, List.cons.injEq] at refreshes
          rw [← own, refreshes.1]
          rfl
        · intro owns
          rcases recomputeAggregates_enterprise check.recomputed member with own | ⟨old, oldMember, sameItem, same⟩
          · exact own
          · rw [← same]
            exact owns old oldMember (sameItem.trans item)

/-- The check raises an anomaly exactly if the two newest prices do not agree. -/
theorem raises_iff (check : AnomalyCheck itemId db) (stored : TrendsStored db) :
    check.raises ↔ ¬ PricesAgree db itemId ∧ check.owns := by
  obtain ⟨row, member, item, only, ⟨values, computed, kept⟩, owned⟩ := check.aggregate stored.level
  rw [← item] at computed
  obtain ⟨storedTrend, calm⟩ := stored.derived computed kept
  rw [item] at calm
  have storedAfter := stored.recomputed check.recomputed
  have sounds := probes_sound check.later check.enterpriseId check.middle
  have detected := detectRisks_ok check.detected
  have ran := check.detected
  rw [detectRisks_eq] at ran
  rw [← calm, ← owned]
  constructor
  · rintro ⟨finding, isFinding, anomaly⟩
    obtain ⟨type, itemOf⟩ := of_decide_eq_true anomaly
    rcases runProbes_findings sounds ran finding isFinding with
      none | ⟨probe, probeMember, candidate, found, sameType, sameItem⟩
    · cases none
    · obtain ⟨other, otherMember, otherItem, evaluated⟩ :=
        probes_anomaly probeMember found (sameType.symm.trans type) (sameItem.symm.trans itemOf)
      obtain ⟨otherMember, own⟩ := List.mem_filter.mp otherMember
      obtain rfl := only other otherMember otherItem
      exact ⟨fun isCalm => Calm.quiet isCalm storedTrend candidate evaluated, of_decide_eq_true own⟩
  · rintro ⟨jump, own⟩
    let probe : Probe := ⟨fun _ => evaluatePriceAnomaly (snapshot row), some row.itemId, none⟩
    have probeMember : probe ∈ probes check.later check.enterpriseId check.middle := by
      refine List.mem_append_left _ (List.mem_flatMap.mpr ⟨row, ?_, ?_⟩)
      · exact List.mem_filter.mpr ⟨member, decide_eq_true own⟩
      · simp [aggregateProbes, probe]
    obtain ⟨found, evaluated⟩ : ∃ found, evaluatePriceAnomaly (snapshot row) = .ok found := by
      rcases detected.settled probe probeMember with none | ⟨candidate, found, _⟩
      · exact ⟨_, none⟩
      · exact ⟨_, found⟩
    obtain ⟨candidate, rfl⟩ := candidate_of_not_calm jump storedTrend evaluated
    obtain ⟨finding, isFinding, matched⟩ := (runProbes_finds sounds ran).2 probe probeMember candidate evaluated
    obtain ⟨type, isItem, _⟩ := (evaluatePriceAnomaly_judges (snapshot row)).ok evaluated candidate rfl
    obtain ⟨_, sameType, _, sameItem, _⟩ := matchesCandidate_iff.mp matched
    refine ⟨finding, isFinding, decide_eq_true ⟨sameType.trans type, sameItem.trans (isItem.trans ?_)⟩⟩
    exact congrArg some item

end AnomalyCheck

/-! ## Whole runs -/

/-- A recomputation that derives an aggregate of the item meets prices that agree. -/
def AgreesAt (itemId : Uuid) (db : DB) : RiskCall → Prop
  | .recomputeAggregates _ enterpriseId itemIds =>
      itemId ∈ itemsInScope enterpriseId itemIds db → hasTrustedStock db itemId → PricesAgree db itemId
  | .syncSource .. | .detectRisks .. | .dismissRisk .. => True

instance (itemId : Uuid) (db : DB) : (call : RiskCall) → Decidable (AgreesAt itemId db call)
  | .recomputeAggregates _ _ _ => inferInstanceAs (Decidable (_ → _ → _))
  | .syncSource .. | .detectRisks .. | .dismissRisk .. => .isTrue trivial

/-- No aggregate of the item has a trend to report, and nothing is reported. -/
structure Unalarmed (itemId : Uuid) (db : DB) : Prop where
  stored : TrendsStored db
  calm : ∀ row ∈ db.skuAggregate.rows, row.itemId = itemId → Calm row.values.priceTrend
  findings : ∀ finding ∈ db.riskFinding.rows, isPriceAnomaly itemId finding = false

section Unalarmed

variable {itemId enterpriseId : Uuid} {before after : DB} {now : Timestamp}

theorem Unalarmed.recomputed {itemIds : Option (List Uuid)} {results : List SkuAggregate}
    (unalarmed : Unalarmed itemId before)
    (agrees : itemId ∈ itemsInScope enterpriseId itemIds before → hasTrustedStock before itemId → PricesAgree before itemId)
    (ran : recomputeAggregates now enterpriseId itemIds before = .ok results after) : Unalarmed itemId after := by
  have stored := unalarmed.stored
  refine ⟨stored.recomputed ran, fun row member item => ?_, ?_⟩
  · rcases recomputeAggregates_row ran stored.level member with ⟨old, _⟩ | ⟨inScope, values, computed, kept⟩
    · exact unalarmed.calm row old item
    · refine (stored.derived computed kept).2.mpr ?_
      have stocked : hasTrustedStock before row.itemId := by
        refine hasTrustedStock_iff.mpr fun untrusted => ?_
        rw [aggregateValues_eq_none.mpr untrusted] at computed
        cases computed
      rw [item] at inScope stocked ⊢
      exact agrees inScope stocked
  · obtain ⟨_, rfl⟩ := (recomputeAggregates_ok ran).1
    exact unalarmed.findings

theorem Unalarmed.detected {results : List RiskFinding} (unalarmed : Unalarmed itemId before)
    (ran : detectRisks now enterpriseId before = .ok results after) : Unalarmed itemId after := by
  refine ⟨unalarmed.stored.detected ran, ?_, fun finding member => ?_⟩
  · obtain ⟨_, _, _, rfl⟩ := (detectRisks_ok ran).only
    exact unalarmed.calm
  · rw [detectRisks_eq] at ran
    have added := runProbes_added (probes_sound now enterpriseId before) ran
    rcases added.found finding member with old | ⟨probe, probeMember, candidate, found, matched⟩
    · exact unalarmed.findings finding old
    · refine decide_eq_false fun ⟨type, item⟩ => ?_
      obtain ⟨_, sameType, _, sameItem, _⟩ := matchesCandidate_iff.mp matched
      refine unalarmed.stored.quiet (fun row rowMember => ?_) probeMember found (sameType.symm.trans type)
        (sameItem.symm.trans item)
      exact unalarmed.calm row (List.mem_filter.mp rowMember).1

theorem Unalarmed.dismissed {user : CurrentUser} {riskId : Uuid} {body : DismissIn} {finding : RiskFinding}
    (unalarmed : Unalarmed itemId before) (ran : Api.dismissRisk now user riskId body before = .ok finding after) :
    Unalarmed itemId after := by
  have stored := unalarmed.stored.dismissed ran
  obtain ⟨_, _, rfl⟩ := dismissRisk_ok ran
  refine ⟨stored, unalarmed.calm, fun finding member => ?_⟩
  obtain ⟨old, oldMember, same⟩ := Table.mem_updateWhere.mp member
  have quiet := unalarmed.findings old oldMember
  subst same
  split
  · exact quiet
  · exact quiet

theorem Unalarmed.commit (unalarmed : Unalarmed itemId before) (call : RiskCall)
    (agrees : AgreesAt itemId before call) : Unalarmed itemId (call.commit before) := by
  cases call with
  | syncSource now connectors enterpriseId dataSourceId =>
      refine transact_preserves unalarmed fun _ after ran => ?_
      obtain ⟨same, stored⟩ := unalarmed.stored.synced ran
      refine ⟨stored, ?_, ?_⟩
      · rw [same]
        exact unalarmed.calm
      · rw [(syncSource_frame (findingsFrame_sync dataSourceId) ran).1]
        exact unalarmed.findings
  | recomputeAggregates now enterpriseId itemIds =>
      exact transact_preserves unalarmed fun _ _ ran => unalarmed.recomputed agrees ran
  | detectRisks now enterpriseId =>
      exact transact_preserves unalarmed fun _ _ ran => unalarmed.detected ran
  | dismissRisk now user riskId body =>
      exact transact_preserves unalarmed fun _ _ ran => unalarmed.dismissed ran

end Unalarmed

theorem trendsStored_of_fresh {initial : DB} (noAggregate : initial.skuAggregate.rows = [])
    (prices : ∀ row ∈ (initial.canonical .price).rows, StoredNumber "unit_price" row) : TrendsStored initial := by
  refine ⟨?_, ?_, prices⟩
  · simp [ItemLevel, noAggregate]
  · simp [noAggregate]

theorem trendsStored_of_calls {initial : DB} (noAggregate : initial.skuAggregate.rows = [])
    (prices : ∀ row ∈ (initial.canonical .price).rows, StoredNumber "unit_price" row) (calls : List RiskCall) :
    TrendsStored (calls.foldl RiskCall.commit initial) := by
  refine (run_foldl RiskCall.commit initial calls).invariant TrendsStored (trendsStored_of_fresh noAggregate prices) ?_
  rintro before call _ stored rfl
  exact call.trendsStored stored

/-- No anomaly is ever reported of an item while the prices agree that its
recomputations meet; and in every state, a recomputation and the detection after
it report one exactly if they do not. -/
theorem priceAnomaly_iff_pricesDisagree (itemId : Uuid) (initial : DB) (noAggregate : initial.skuAggregate.rows = [])
    (noAnomaly : ∀ finding ∈ initial.riskFinding.rows, isPriceAnomaly itemId finding = false)
    (prices : ∀ row ∈ (initial.canonical .price).rows, StoredNumber "unit_price" row) (calls : List RiskCall) :
    (Along RiskCall.commit (AgreesAt itemId) initial calls →
      ∀ finding ∈ (calls.foldl RiskCall.commit initial).riskFinding.rows, isPriceAnomaly itemId finding = false) ∧
    ∀ check : AnomalyCheck itemId (calls.foldl RiskCall.commit initial),
      check.raises ↔ ¬ PricesAgree (calls.foldl RiskCall.commit initial) itemId ∧ check.owns := by
  constructor
  · intro along
    have start : Unalarmed itemId initial := ⟨trendsStored_of_fresh noAggregate prices, by simp [noAggregate], noAnomaly⟩
    exact (along.invariant start fun _ call unalarmed agrees => unalarmed.commit call agrees).findings
  · exact fun check => check.raises_iff (trendsStored_of_calls noAggregate prices calls)

/-! ## Two suppliers with steady quotes -/

/-- The sheet also has suppliers and their prices. -/
def quoteSheet : DB :=
  { sheetWithSource with fieldMapping := [
      confirmedMapping "sku" .item "sku", confirmedMapping "supplier" .supplier "code",
      confirmedMapping "sku" .stockLevel "item_sku", confirmedMapping "qty" .stockLevel "quantity",
      confirmedMapping "sku" .price "item_sku", confirmedMapping "supplier" .price "supplier_code",
      confirmedMapping "price" .price "unit_price"].foldl Table.insert .empty }

def quotes (prices : List (String × String)) : FetchBatch where
  records := prices.map fun (supplier, price) =>
    Dict.ofList [("sku", .text "bolt"), ("qty", .text "10"), ("supplier", .text supplier), ("price", .text price)]
  fetchedAt := 0

def quoteCall (now : Timestamp) (prices : List (String × String)) : SyncCall := ⟨now, delivering (quotes prices), 1, 1⟩

def syncQuotes (now : Timestamp) (prices : List (String × String)) : RiskCall :=
  .syncSource now (delivering (quotes prices)) 1 1

/-- The sheet is read, and read again, then recomputed and searched for risks. -/
def steadyQuotes (prices : List (String × String)) : List RiskCall :=
  [syncQuotes 0 prices, syncQuotes 1 prices, .recomputeAggregates 2 1 none, .detectRisks 3 1]

/-- What is quoted for one item by one supplier never changes. -/
def SteadyQuotes (accepted : List Accepted) : Prop :=
  ∀ first ∈ accepted, ∀ second ∈ accepted, first.entity = .price → second.entity = .price →
    first.identity = second.identity → first.attrs.lookup "unit_price" = second.attrs.lookup "unit_price" ∧
      first.attrs.lookup "currency" = second.attrs.lookup "currency"

instance (accepted : List Accepted) : Decidable (SteadyQuotes accepted) := by
  unfold SteadyQuotes
  infer_instance

theorem priceAnomaly_of_closeQuotes :
    ((steadyQuotes [("acme", "10"), ("zeta", "10.9")]).foldl RiskCall.commit quoteSheet).riskFinding.rows.filter
      (isPriceAnomaly 1) = [] :=
  have quiet := (priceAnomaly_iff_pricesDisagree 1 quoteSheet rfl (by decide)
    (fun _ member => absurd member List.not_mem_nil) (steadyQuotes [("acme", "10"), ("zeta", "10.9")])).1
      (by decide +kernel)
  List.filter_eq_nil_iff.mpr fun finding member => Bool.eq_false_iff.mp (quiet finding member)

/-- Neither supplier ever changes its price, but one is twice as expensive as the
other. -/
theorem steadyQuotes_raise_priceAnomaly :
    let prices := [("acme", "10"), ("zeta", "20")]
    SteadyQuotes (acceptedBy [quoteCall 0 prices, quoteCall 1 prices] quoteSheet) ∧
      (((steadyQuotes prices).foldl RiskCall.commit quoteSheet).riskFinding.rows.map fun finding =>
        (finding.riskType, finding.itemId)) = [(.priceAnomaly, some 1)] := by
  decide +kernel

end SmartProcurement.Analysis
