import SmartProcurement.Database

namespace SmartProcurement.Analysis

open Numeric Transaction

/-! # Deterministic risk rules

Each rule is a function of quantities that are already computed.  A rule raises
only where decimal arithmetic signals, which a stored NaN can bring about.
-/

def systematicDelayThresholdDays : Decimal := .finite 3

def systematicDelayMinSamples : Nat := 3

def priceAnomalyThresholdPct : Decimal := .finite (1 / 10)

def qualityDegradationThresholdRate : Decimal := .finite (1 / 20)

/-- `left >= right`. -/
def atLeast (left right : Decimal) : Except Error Bool := trap (right.le left)

/-- `left <= right`. -/
def atMost (left right : Decimal) : Except Error Bool := trap (left.le right)

def severityFromRatio (ratio high med : Decimal) : Except Error Severity := do
  if ← atLeast ratio high then return .high
  if ← atLeast ratio med then return .med
  return .low

/-- The severity of a shortfall: how much of the needed days is not covered. -/
def shortfallSeverity (cover needed : Decimal) : Except Error Severity := do
  let ratio ← trap (cover.div needed)
  let missing ← trap ((Decimal.finite 1).sub ratio)
  severityFromRatio missing (.finite (3 / 4)) (.finite (1 / 4))

/-- The severity of a magnitude above its threshold. -/
def excessSeverity (magnitude threshold : Decimal) : Except Error Severity := do
  let ratio ← trap (magnitude.div threshold)
  severityFromRatio ratio (.finite 2) (.finite (3 / 2))

structure AggregateSnapshot where
  itemId : Uuid
  warehouseId : Option Uuid
  values : AggregateValues
  computedAt : Timestamp

structure ProductionDemandSnapshot where
  itemId : Uuid
  needBy : Date

structure RiskCandidate where
  riskType : RiskType
  itemId : Option Uuid
  supplierId : Option Uuid
  severity : Severity

def itemCandidate (riskType : RiskType) (itemId : Uuid) (severity : Severity) : RiskCandidate where
  riskType
  itemId := some itemId
  supplierId := none
  severity

def evaluateLikelyShortage (aggregate : AggregateSnapshot) (leadTime : Decimal) :
    Except Error (Option RiskCandidate) :=
  match aggregate.values.daysOfCover with
  | none => .ok none
  | some cover => do
      if ← atMost leadTime .zero then return none
      if ← atLeast cover leadTime then return none
      return some (itemCandidate .likelyShortage aggregate.itemId (← shortfallSeverity cover leadTime))

def evaluateInsufficientUntilNextDelivery (aggregate : AggregateSnapshot) (now : Timestamp) :
    Except Error (Option RiskCandidate) :=
  match aggregate.values.daysOfCover, aggregate.values.nextExpectedDeliveryAt with
  | some cover, some delivery => do
      let days : Int := (delivery - now) / Text.microsecondsPerDay
      if days ≤ 0 then return none
      if ← atLeast cover (.finite days) then return none
      return some (itemCandidate .insufficientUntilNextDelivery aggregate.itemId
        (← shortfallSeverity cover (.finite days)))
  | _, _ => .ok none

/-- The soonest need among the demands for the item, in days from `today`. -/
def soonestNeed (itemId : Uuid) (today : Date) (demands : List ProductionDemandSnapshot) : Option Int :=
  demands.foldl (fun soonest demand =>
    if demand.itemId ≠ itemId then soonest
    else
      let days := demand.needBy - today
      match soonest with
      | none => some days
      | some least => if days < least then some days else some least) none

def evaluateProductionStopRisk (aggregate : AggregateSnapshot) (demands : List ProductionDemandSnapshot)
    (now : Timestamp) : Except Error (Option RiskCandidate) :=
  match demands, aggregate.values.daysOfCover with
  | [], _ | _, none => .ok none
  | demands, some cover =>
      match soonestNeed aggregate.itemId (now / Text.microsecondsPerDay) demands with
      | none => .ok none
      | some days => do
          if days ≤ 0 then return none
          if ← atLeast cover (.finite days) then return none
          return some (itemCandidate .productionStopRisk aggregate.itemId
            (← shortfallSeverity cover (.finite days)))

def average (samples : List Decimal) : Except Error Decimal := do
  let total ← trap (Decimal.sum samples)
  trap (total.div (.finite samples.length))

def evaluateSystematicSupplierDelay (supplierId : Uuid) (delaySamples : List Decimal) :
    Except Error (Option RiskCandidate) := do
  if delaySamples.length < systematicDelayMinSamples then return none
  if delaySamples.isEmpty then return none
  let delay ← average delaySamples
  if ← atMost delay systematicDelayThresholdDays then return none
  return some {
    riskType := .systematicSupplierDelay
    itemId := none
    supplierId := some supplierId
    severity := ← excessSeverity delay systematicDelayThresholdDays }

def evaluatePriceAnomaly (aggregate : AggregateSnapshot) : Except Error (Option RiskCandidate) :=
  match aggregate.values.priceTrend with
  | none => .ok none
  | some trend => do
      let magnitude ← trap trend.abs
      if ← trap (magnitude.lt priceAnomalyThresholdPct) then return none
      return some (itemCandidate .priceAnomaly aggregate.itemId
        (← excessSeverity magnitude priceAnomalyThresholdPct))

def evaluateQualityDegradation (itemId supplierId : Uuid) (defectSamples : List Decimal) :
    Except Error (Option RiskCandidate) := do
  if defectSamples.isEmpty then return none
  let rate ← average defectSamples
  if ← atMost rate qualityDegradationThresholdRate then return none
  return some {
    riskType := .qualityDegradation
    itemId := some itemId
    supplierId := some supplierId
    severity := ← excessSeverity rate qualityDegradationThresholdRate }

/-! ## What a rule can return -/

/-- The only exceptions of the rules are the signals of decimal arithmetic. -/
def arithmetic (reason : Error) : Prop := ∃ signal, reason = .decimal signal

def Computes {α : Type} (computed : Except Error α) : Prop := Ends (fun _ => True) arithmetic computed

/-- A rule that raises at most an arithmetic exception and whose candidate, if
there is one, concerns the given risk, item and supplier. -/
def Judges (riskType : RiskType) (itemId supplierId : Option Uuid)
    (computed : Except Error (Option RiskCandidate)) : Prop :=
  Ends (fun found => ∀ candidate ∈ found, candidate.riskType = riskType ∧ candidate.itemId = itemId ∧
    candidate.supplierId = supplierId) arithmetic computed

section Judgements

variable {riskType : RiskType} {itemId supplierId : Option Uuid}

theorem trap_computes {α : Type} (computed : Except Signal α) : Computes (trap computed) := by
  cases computed with
  | ok value => trivial
  | error signal => exact ⟨signal, rfl⟩

theorem toDecimal_computes (value : Value) : Computes (toDecimal value) := by
  cases value <;> first | trivial | exact ⟨_, rfl⟩

theorem Computes.bind {α β : Type} {first : Except Error α} {next : α → Except Error β}
    (firstComputes : Computes first) (nextComputes : ∀ value, Computes (next value)) :
    Computes (first >>= next) :=
  Ends.bind firstComputes fun value _ => nextComputes value

theorem severityFromRatio_computes (ratio high med : Decimal) :
    Computes (severityFromRatio ratio high med) :=
  (trap_computes _).bind fun _ => Ends.branch trivial
    ((trap_computes _).bind fun _ => Ends.branch trivial trivial)

theorem shortfallSeverity_computes (cover needed : Decimal) : Computes (shortfallSeverity cover needed) :=
  (trap_computes _).bind fun _ => (trap_computes _).bind fun _ => severityFromRatio_computes ..

theorem excessSeverity_computes (magnitude threshold : Decimal) :
    Computes (excessSeverity magnitude threshold) :=
  (trap_computes _).bind fun _ => severityFromRatio_computes ..

theorem average_computes (samples : List Decimal) : Computes (average samples) :=
  (trap_computes _).bind fun _ => trap_computes _

theorem judges_none : Judges riskType itemId supplierId (.ok none) := by
  simp [Judges, Ends]

/-- A guard of a rule: it rejects the condition or goes on. -/
theorem Judges.unless {guard : Except Error Bool} {next : Except Error (Option RiskCandidate)}
    (guardComputes : Computes guard) (nextJudges : Judges riskType itemId supplierId next) :
    Judges riskType itemId supplierId (guard >>= fun rejected => if rejected then .ok none else next) :=
  Ends.bind guardComputes fun _ _ => Ends.branch judges_none nextJudges

theorem judges_severity {severity : Except Error Severity} {candidate : Severity → RiskCandidate}
    (severityComputes : Computes severity)
    (fields : ∀ found, (candidate found).riskType = riskType ∧ (candidate found).itemId = itemId ∧
      (candidate found).supplierId = supplierId) :
    Judges riskType itemId supplierId (severity >>= fun found => .ok (some (candidate found))) := by
  refine Ends.bind severityComputes fun found _ => ?_
  intro candidate member
  cases member
  exact fields found

theorem evaluateLikelyShortage_judges (aggregate : AggregateSnapshot) (leadTime : Decimal) :
    Judges .likelyShortage (some aggregate.itemId) none (evaluateLikelyShortage aggregate leadTime) := by
  unfold evaluateLikelyShortage
  split
  · exact judges_none
  · exact Judges.unless (trap_computes _) (Judges.unless (trap_computes _)
      (judges_severity (shortfallSeverity_computes ..) fun _ => ⟨rfl, rfl, rfl⟩))

theorem evaluateInsufficientUntilNextDelivery_judges (aggregate : AggregateSnapshot) (now : Timestamp) :
    Judges .insufficientUntilNextDelivery (some aggregate.itemId) none
      (evaluateInsufficientUntilNextDelivery aggregate now) := by
  unfold evaluateInsufficientUntilNextDelivery
  split
  · refine Ends.branch judges_none ?_
    exact Judges.unless (trap_computes _)
      (judges_severity (shortfallSeverity_computes ..) fun _ => ⟨rfl, rfl, rfl⟩)
  · exact judges_none

theorem evaluateProductionStopRisk_judges (aggregate : AggregateSnapshot)
    (demands : List ProductionDemandSnapshot) (now : Timestamp) :
    Judges .productionStopRisk (some aggregate.itemId) none
      (evaluateProductionStopRisk aggregate demands now) := by
  unfold evaluateProductionStopRisk
  split
  · exact judges_none
  · exact judges_none
  · split
    · exact judges_none
    · refine Ends.branch judges_none ?_
      exact Judges.unless (trap_computes _)
        (judges_severity (shortfallSeverity_computes ..) fun _ => ⟨rfl, rfl, rfl⟩)

theorem evaluateSystematicSupplierDelay_judges (supplier : Uuid) (delaySamples : List Decimal) :
    Judges .systematicSupplierDelay none (some supplier)
      (evaluateSystematicSupplierDelay supplier delaySamples) := by
  refine Ends.branch judges_none (Ends.branch judges_none ?_)
  refine Ends.bind (average_computes _) fun delay _ => ?_
  exact Judges.unless (trap_computes _)
    (judges_severity (excessSeverity_computes ..) fun _ => ⟨rfl, rfl, rfl⟩)

theorem evaluatePriceAnomaly_judges (aggregate : AggregateSnapshot) :
    Judges .priceAnomaly (some aggregate.itemId) none (evaluatePriceAnomaly aggregate) := by
  unfold evaluatePriceAnomaly
  split
  · exact judges_none
  · refine Ends.bind (trap_computes _) fun magnitude _ => ?_
    exact Judges.unless (trap_computes _)
      (judges_severity (excessSeverity_computes ..) fun _ => ⟨rfl, rfl, rfl⟩)

theorem evaluateQualityDegradation_judges (item supplier : Uuid) (defectSamples : List Decimal) :
    Judges .qualityDegradation (some item) (some supplier)
      (evaluateQualityDegradation item supplier defectSamples) := by
  refine Ends.branch judges_none ?_
  refine Ends.bind (average_computes _) fun rate _ => ?_
  exact Judges.unless (trap_computes _)
    (judges_severity (excessSeverity_computes ..) fun _ => ⟨rfl, rfl, rfl⟩)

end Judgements

end SmartProcurement.Analysis
