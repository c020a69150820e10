import SmartProcurement.Analysis.Rules
import SmartProcurement.Observation.Aggregates

namespace SmartProcurement.Analysis

open Relational Transaction Numeric Observation

/-! # Risk detection

`detect_risks` assembles the inputs of the six rules and applies each candidate
they return: an open condition that is already known gets new evidence linked,
any other becomes a new finding.
-/

/-- The signal types that count as evidence for a risk. -/
def evidenceSignalTypes : RiskType → List SignalType
  | .likelyShortage => [.stockChange]
  | .insufficientUntilNextDelivery => [.stockChange]
  | .productionStopRisk => [.stockChange, .demandChange]
  | .priceAnomaly => [.priceChange]
  | .qualityDegradation => [.qualityIssue]
  | .systematicSupplierDelay => []

/-! ## Inputs of the rules -/

def latestLeadTimeDays (db : DB) (itemId : Uuid) : Option Value :=
  ((sortNewestFirst (·.timestamp? "as_of") (trustedRows db .leadTime itemId)).head?).map (·.col "days")

def productionDemands (db : DB) (itemId : Uuid) : List ProductionDemandSnapshot :=
  (trustedRows db .productionDemand itemId).filterMap fun row =>
    (row.date? "need_by").map fun needBy => { itemId, needBy }

/-- `groups.setdefault(key, []).append(value)`. -/
def appendTo {κ α : Type} [DecidableEq κ] (groups : List (κ × List α)) (entry : κ × α) :
    List (κ × List α) :=
  if groups.any (·.1 = entry.1) then
    groups.map fun group => if group.1 = entry.1 then (group.1, group.2 ++ [entry.2]) else group
  else groups ++ [(entry.1, [entry.2])]

def grouped {κ α : Type} [DecidableEq κ] (entries : List (κ × α)) : List (κ × List α) :=
  entries.foldl appendTo []

def trustedOf (db : DB) (entity : Entity) (enterpriseId : Uuid) : List Row :=
  (db.canonical entity).rows.filter fun row => row.enterpriseId = enterpriseId ∧ row.trusted

def supplierDelaySamples (enterpriseId : Uuid) (db : DB) : List (Uuid × List Decimal) :=
  let received := (trustedOf db .purchaseOrder enterpriseId).filter (withStatus "received")
  grouped (received.filterMap fun row =>
    match row.uuid? "supplier_id", lateDays row with
    | some supplierId, some days => some (supplierId, .finite days)
    | _, _ => none)

def qualitySamples (enterpriseId : Uuid) (db : DB) : List ((Uuid × Uuid) × List Decimal) :=
  grouped ((trustedOf db .qualityRecord enterpriseId).filterMap fun row =>
    match row.uuid? "item_id", row.uuid? "supplier_id", (row.col "defect_rate").decimal? with
    | some itemId, some supplierId, some rate => some ((itemId, supplierId), rate)
    | _, _, _ => none)

def snapshot (row : SkuAggregate) : AggregateSnapshot where
  itemId := row.itemId
  warehouseId := row.warehouseId
  values := row.values
  computedAt := row.computedAt

/-! ## Applying a candidate -/

/-- The query of `_find_non_terminal`. -/
def matchesCandidate (enterpriseId : Uuid) (candidate : RiskCandidate) (finding : RiskFinding) : Bool :=
  finding.enterpriseId = enterpriseId ∧ finding.riskType = candidate.riskType ∧
    finding.status.terminal = false ∧ finding.itemId = candidate.itemId ∧
    finding.supplierId = candidate.supplierId

def findNonTerminal (enterpriseId : Uuid) (candidate : RiskCandidate) : Session (Option RiskFinding) :=
  scalarOrNone fun db => db.riskFinding.rows.filter (matchesCandidate enterpriseId candidate)

def newFinding (now : Timestamp) (enterpriseId : Uuid) (candidate : RiskCandidate) : RiskFinding where
  id := 0
  enterpriseId
  riskType := candidate.riskType
  itemId := candidate.itemId
  supplierId := candidate.supplierId
  severity := candidate.severity
  status := .open
  aiStatus := .pending
  detectedAt := now
  resolvedAt := none
  dismissedReason := none
  dismissedAt := none
  dismissedBy := none
  updatedAt := now

def linkOf (finding : RiskFinding) (signalId : Uuid) : RiskSignalLink where
  id := 0
  riskFindingId := finding.id
  observationSignalId := signalId

def linked (finding : RiskFinding) (db : DB) (signalId : Uuid) : Bool :=
  db.riskSignalLink.rows.any fun link =>
    link.riskFindingId = finding.id ∧ link.observationSignalId = signalId

/-- The signal counts as evidence for the finding. -/
def supports (finding : RiskFinding) (itemId supplierId : Option Uuid) (signal : ObservationSignal) : Bool :=
  signal.enterpriseId = finding.enterpriseId ∧
    signal.signalType ∈ evidenceSignalTypes finding.riskType ∧
    (itemId = none ∨ signal.itemId = itemId) ∧ (supplierId = none ∨ signal.supplierId = supplierId)

def newEvidence (finding : RiskFinding) (itemId supplierId : Option Uuid) (db : DB) : List Uuid :=
  ((db.observationSignal.rows.filter (supports finding itemId supplierId)).map (·.id)).filter
    fun signalId => !linked finding db signalId

def addLinks (finding : RiskFinding) (signalIds : List Uuid) (db : DB) : DB :=
  { db with riskSignalLink := signalIds.foldl (fun links id => links.insert (linkOf finding id)) db.riskSignalLink }

def linkNewEvidence (finding : RiskFinding) (itemId supplierId : Option Uuid) : Session PUnit := do
  let signalIds ← read (newEvidence finding itemId supplierId)
  write (addLinks finding signalIds)

/-- `if signal_types: await _link_new_evidence(...)`. -/
def linkEvidenceOf (riskType : RiskType) (finding : RiskFinding) (itemId supplierId : Option Uuid) :
    Session PUnit :=
  if evidenceSignalTypes riskType = [] then return ⟨⟩ else linkNewEvidence finding itemId supplierId

/-- A pending or running job already explains the finding. -/
def explanationQueued (finding : RiskFinding) (db : DB) : Bool :=
  db.job.rows.any fun job =>
    job.kind = "generate_explanation" ∧ job.payload.riskFindingId = some finding.id ∧
      (job.status = .pending ∨ job.status = .running)

def maybeEnqueueExplanation (now : Timestamp) (finding : RiskFinding) : Session PUnit := do
  if finding.aiStatus = .ready then return ⟨⟩
  if ← read (explanationQueued finding) then return ⟨⟩
  Jobs.enqueue now "generate_explanation"
    { enterpriseId := some finding.enterpriseId, riskFindingId := some finding.id }
    none (some finding.enterpriseId) Jobs.defaultMaxAttempts

def findOrCreate (now : Timestamp) (enterpriseId : Uuid) (candidate : RiskCandidate) :
    Session RiskFinding := do
  match ← findNonTerminal enterpriseId candidate with
  | some finding => return finding
  | none => do
      let finding ← read fun db => db.riskFinding.newRow (newFinding now enterpriseId candidate)
      write fun db => { db with
        riskFinding := db.riskFinding.insert (newFinding now enterpriseId candidate) }
      return finding

/-- `_apply`. -/
def applyCandidate (now : Timestamp) (enterpriseId : Uuid) (candidate : RiskCandidate)
    (itemId supplierId : Option Uuid) : Session RiskFinding := do
  let finding ← findOrCreate now enterpriseId candidate
  linkEvidenceOf candidate.riskType finding itemId supplierId
  maybeEnqueueExplanation now finding
  return finding

/-! ## The orchestrator -/

/-- One rule with the identifiers its candidate is applied under. -/
structure Probe where
  evaluate : DB → Except Error (Option RiskCandidate)
  itemId : Option Uuid
  supplierId : Option Uuid

/-- The four rules that read an aggregate. -/
def aggregateProbes (now : Timestamp) (row : SkuAggregate) : List Probe :=
  let item (evaluate : DB → Except Error (Option RiskCandidate)) : Probe := ⟨evaluate, some row.itemId, none⟩
  [item fun db =>
      match latestLeadTimeDays db row.itemId with
      | none => .ok none
      | some days => do evaluateLikelyShortage (snapshot row) (← toDecimal days),
    item fun _ => evaluateInsufficientUntilNextDelivery (snapshot row) now,
    item fun db => evaluateProductionStopRisk (snapshot row) (productionDemands db row.itemId) now,
    item fun _ => evaluatePriceAnomaly (snapshot row)]

def delayProbe (sample : Uuid × List Decimal) : Probe where
  evaluate := fun _ => evaluateSystematicSupplierDelay sample.1 sample.2
  itemId := none
  supplierId := some sample.1

def qualityProbe (sample : (Uuid × Uuid) × List Decimal) : Probe where
  evaluate := fun _ => evaluateQualityDegradation sample.1.1 sample.1.2 sample.2
  itemId := some sample.1.1
  supplierId := some sample.1.2

def runProbe (now : Timestamp) (enterpriseId : Uuid) (findings : List RiskFinding) (probe : Probe) :
    Session (List RiskFinding) := do
  match ← lift (← read probe.evaluate) with
  | none => return findings
  | some candidate =>
      return findings ++ [← applyCandidate now enterpriseId candidate probe.itemId probe.supplierId]

def aggregatesOf (enterpriseId : Uuid) (db : DB) : List SkuAggregate :=
  db.skuAggregate.rows.filter (·.enterpriseId = enterpriseId)

def detectRisks (now : Timestamp) (enterpriseId : Uuid) : Session (List RiskFinding) := do
  let aggregates ← read (aggregatesOf enterpriseId)
  let findings ← (aggregates.flatMap (aggregateProbes now)).foldlM (runProbe now enterpriseId) []
  let delays ← read (supplierDelaySamples enterpriseId)
  let findings ← (delays.map delayProbe).foldlM (runProbe now enterpriseId) findings
  let qualities ← read (qualitySamples enterpriseId)
  (qualities.map qualityProbe).foldlM (runProbe now enterpriseId) findings

/-! ## Frames of a detection -/

/-- A frame that the writes of a detection respect. -/
structure DetectionFrame (frame : Frame DB) : Prop where
  findings : ∀ db findings, frame.rel db { db with riskFinding := findings }
  links : ∀ db links, frame.rel db { db with riskSignalLink := links }
  asks : ∀ now payload enterpriseId, Follows frame
    (Jobs.enqueue now "generate_explanation" payload none (some enterpriseId) Jobs.defaultMaxAttempts)

theorem detectRisks_follows {frame : Frame DB} (allowed : DetectionFrame frame) (now : Timestamp)
    (enterpriseId : Uuid) : Follows frame (detectRisks now enterpriseId) := by
  have finds (candidate : RiskCandidate) : Follows frame (findOrCreate now enterpriseId candidate) := by
    refine ((follows_read _).bind fun _ => follows_lift _).bind fun found => ?_
    cases found with
    | some finding => exact follows_pure finding
    | none =>
        refine (follows_read _).bind fun _ => Follows.bind ?_ fun _ => follows_pure _
        exact follows_write fun db => allowed.findings db _
  have links (riskType : RiskType) (finding : RiskFinding) (itemId supplierId : Option Uuid) :
      Follows frame (linkEvidenceOf riskType finding itemId supplierId) := by
    unfold linkEvidenceOf
    split
    · exact follows_pure _
    · exact (follows_read _).bind fun _ => follows_write fun db => allowed.links db _
  have asks (finding : RiskFinding) : Follows frame (maybeEnqueueExplanation now finding) := by
    unfold maybeEnqueueExplanation
    split
    · exact follows_pure _
    · refine (follows_read _).bind fun queued => ?_
      split
      · exact follows_pure _
      · exact allowed.asks _ _ _
  have probes (findings : List RiskFinding) (probe : Probe) :
      Follows frame (runProbe now enterpriseId findings probe) := by
    refine (follows_read _).bind fun computed => (follows_lift computed).bind fun candidate => ?_
    cases candidate with
    | none => exact follows_pure findings
    | some candidate =>
        refine Follows.bind ?_ fun _ => follows_pure _
        exact (finds candidate).bind fun finding => (links _ _ _ _).bind fun _ =>
          (asks finding).bind fun _ => follows_pure finding
  exact (follows_read _).bind fun _ => (Follows.foldlM probes _ _).bind fun _ =>
    (follows_read _).bind fun _ => (Follows.foldlM probes _ _).bind fun _ =>
      (follows_read _).bind fun _ => Follows.foldlM probes _ _

end SmartProcurement.Analysis
