import SmartProcurement.Domain.Models
import SmartProcurement.Relational.Dict
import SmartProcurement.Transaction.Session

namespace SmartProcurement

open Relational Transaction Numeric

/-! # The database

One record per mapped class, with the columns that the modelled services read
or write, and the database as the record of all tables.
-/

/-! ## `integration/` -/

inductive SourceHealth where
  | available
  | unavailable
  | stale
deriving DecidableEq, Repr

structure DataSource where
  id : Uuid
  enterpriseId : Uuid
  name : String
  kind : String
  connectorType : String
  config : Dict Json
  credentialRef : Option Uuid
  observationIntervalSeconds : Int
  health : SourceHealth
  lastSuccessAt : Option Timestamp
  lastCheckAt : Option Timestamp
  lastError : Option String

structure SourceField where
  id : Uuid
  dataSourceId : Uuid
  path : String
deriving DecidableEq

/-- A `field_mapping.transform`: the object as the column stores it, and its keys as sync
reads them, `bool(...)` of the first three and `str(...)` of the last. -/
structure Transform where
  json : List (String × Json)
  trim : Bool := false
  upper : Bool := false
  lower : Bool := false
  multiply : Option String := none
deriving DecidableEq

/-- The JSONB column takes the transform; null is always taken. -/
def storableTransform (transform : Option Transform) : Bool :=
  transform.all fun transform => (Json.object transform.json).storable

def bindTransform (transform : Option Transform) : Except Error Unit :=
  if storableTransform transform then .ok ⟨⟩ else .error (.database (.invalidInput "transform"))

theorem bindTransform_ok {transform : Option Transform} (storable : storableTransform transform = true) :
    bindTransform transform = .ok ⟨⟩ := if_pos storable

theorem bindTransform_error {transform : Option Transform} (unstorable : storableTransform transform = false) :
    bindTransform transform = .error (.database (.invalidInput "transform")) :=
  if_neg (Bool.eq_false_iff.mp unstorable)

inductive MappingStatus where
  | suggested
  | confirmed
  | rejected
  | retired
deriving DecidableEq, Repr

structure FieldMapping where
  id : Uuid
  dataSourceId : Uuid
  sourceFieldPath : String
  canonicalEntity : Entity
  canonicalAttribute : String
  transform : Option Transform
  status : MappingStatus
  aiConfidence : Option ℚ
  confirmedBy : Option Uuid
  confirmedAt : Option Timestamp
deriving DecidableEq

inductive MappingAction where
  | suggested
  | confirmed
  | edited
  | rejected
  | retired
deriving DecidableEq, Repr

/-- What `_snapshot` keeps of a mapping. -/
structure MappingSnapshot where
  sourceFieldPath : String
  canonicalEntity : Entity
  canonicalAttribute : String
  transform : Option Transform
  status : MappingStatus
  aiConfidence : Option ℚ
deriving DecidableEq

structure MappingChangeEvent where
  id : Uuid
  fieldMappingId : Uuid
  action : MappingAction
  actorId : Option Uuid
  before : Option MappingSnapshot
  after : Option MappingSnapshot
  at_ : Timestamp
deriving DecidableEq

structure Secret where
  id : Uuid
  enterpriseId : Uuid
  purpose : String
  ciphertext : String
  createdBy : Option Uuid
deriving DecidableEq

/-! ## `observation/` -/

inductive GapScope where
  | source
  | entity
  | capability
deriving DecidableEq, Repr

inductive GapReason where
  | sourceUnavailable
  | staleData
  | aiUnavailable
deriving DecidableEq, Repr

/-- The text of `scope_ref`: `str(id)` of a row, or a capability key. -/
inductive ScopeRef where
  | id (id : Uuid)
  | key (name : String)
deriving DecidableEq, Repr

structure ObservabilityGap where
  id : Uuid
  enterpriseId : Uuid
  scope : GapScope
  scopeRef : ScopeRef
  reason : GapReason
  openedAt : Timestamp
  closedAt : Option Timestamp
deriving DecidableEq, Repr

inductive SignalType where
  | stockChange
  | priceChange
  | leadTimeChange
  | qualityIssue
  | demandChange
deriving DecidableEq, Repr

/-- The payload of a signal; the decimals are stored as their text. -/
structure SignalPayload where
  entity : Entity
  attr : String
  old : Option Decimal
  new : Option Decimal
deriving DecidableEq

structure ObservationSignal where
  id : Uuid
  enterpriseId : Uuid
  dataSourceId : Uuid
  signalType : SignalType
  itemId : Option Uuid
  supplierId : Option Uuid
  payload : SignalPayload
  observedAt : Timestamp
  ingestedAt : Timestamp
deriving DecidableEq

/-- The computed columns of a `sku_aggregate` row. -/
structure AggregateValues where
  avgDailyConsumption : Option Decimal
  daysOfCover : Option Decimal
  nextExpectedDeliveryAt : Option Timestamp
  lastPrice : Option Decimal
  priceTrend : Option Decimal
  avgSupplierDelayDays : Option Decimal
deriving DecidableEq

structure SkuAggregate where
  id : Uuid
  enterpriseId : Uuid
  itemId : Uuid
  warehouseId : Option Uuid
  values : AggregateValues
  computedAt : Timestamp
deriving DecidableEq

/-! ## `analysis/` -/

inductive RiskType where
  | likelyShortage
  | insufficientUntilNextDelivery
  | productionStopRisk
  | systematicSupplierDelay
  | qualityDegradation
  | priceAnomaly
deriving DecidableEq, Repr

inductive Severity where
  | low
  | med
  | high
deriving DecidableEq, Repr

inductive RiskStatus where
  | open
  | recommended
  | actioned
  | resolved
  | dismissed
deriving DecidableEq, Repr

/-- `TERMINAL_RISK_STATUSES`. -/
def RiskStatus.terminal : RiskStatus → Bool
  | .resolved | .dismissed => true
  | _ => false

inductive AiStatus where
  | pending
  | ready
  | unavailable
deriving DecidableEq, Repr

structure RiskFinding where
  id : Uuid
  enterpriseId : Uuid
  riskType : RiskType
  itemId : Option Uuid
  supplierId : Option Uuid
  severity : Severity
  status : RiskStatus
  aiStatus : AiStatus
  detectedAt : Timestamp
  resolvedAt : Option Timestamp
  dismissedReason : Option String
  dismissedAt : Option Timestamp
  dismissedBy : Option Uuid
  /-- Set by every `UPDATE` of the row. -/
  updatedAt : Timestamp
deriving DecidableEq, Repr

structure RiskSignalLink where
  id : Uuid
  riskFindingId : Uuid
  observationSignalId : Uuid
deriving DecidableEq, Repr

inductive EvidenceKind where
  | observationSignal
  | skuAggregate
  | domainRow
deriving DecidableEq, Repr

/-- A reference the LLM cites: the text of a row's id, or any other text. -/
inductive Ref where
  | id (id : Uuid)
  | other (text : String)
deriving DecidableEq, Repr

structure EvidenceRef where
  kind : EvidenceKind
  ref : Ref
deriving DecidableEq, Repr

structure RiskFactor where
  name : String
  effect : String
  weight : Severity
deriving DecidableEq, Repr

/-- `subject_type` is always `risk_finding` in this version. -/
structure Explanation where
  id : Uuid
  enterpriseId : Uuid
  subjectId : Uuid
  what : String
  why : String
  dataUsed : List EvidenceRef
  factors : List RiskFactor
  confidence : ℚ
deriving DecidableEq

/-! ## `audit/` -/

structure AuditRecord where
  id : Uuid
  enterpriseId : Uuid
  at_ : Timestamp
  eventType : String
  capabilityKey : Option String
  lormLevel : Option String
  evidenceRef : List (String × String)
  authorizer : List (String × String)
  action : Option String
  params : List (String × String)
  outcome : List (String × String)
deriving DecidableEq, Repr

/-! ## `jobs/` -/

inductive JobStatus where
  | pending
  | running
  | done
  | failed
deriving DecidableEq, Repr

structure Payload where
  enterpriseId : Option Uuid := none
  dataSourceId : Option Uuid := none
  itemIds : Option (List Uuid) := none
  riskFindingId : Option Uuid := none
deriving DecidableEq, Repr

structure Job where
  id : Uuid
  enterpriseId : Option Uuid
  kind : String
  payload : Payload
  runAt : Timestamp
  status : JobStatus
  attempts : Nat
  maxAttempts : Int
  lockedBy : Option String
  lockedAt : Option Timestamp
  lastError : Option String
deriving DecidableEq, Repr

/-! ## All tables -/

instance : Keyed DataSource := ⟨(·.id), fun id row => { row with id }, fun _ _ => rfl, fun _ => rfl⟩
instance : Keyed SourceField := ⟨(·.id), fun id row => { row with id }, fun _ _ => rfl, fun _ => rfl⟩
instance : Keyed FieldMapping := ⟨(·.id), fun id row => { row with id }, fun _ _ => rfl, fun _ => rfl⟩
instance : Keyed MappingChangeEvent :=
  ⟨(·.id), fun id row => { row with id }, fun _ _ => rfl, fun _ => rfl⟩
instance : Keyed Secret := ⟨(·.id), fun id row => { row with id }, fun _ _ => rfl, fun _ => rfl⟩
instance : Keyed ObservabilityGap := ⟨(·.id), fun id row => { row with id }, fun _ _ => rfl, fun _ => rfl⟩
instance : Keyed ObservationSignal := ⟨(·.id), fun id row => { row with id }, fun _ _ => rfl, fun _ => rfl⟩
instance : Keyed SkuAggregate := ⟨(·.id), fun id row => { row with id }, fun _ _ => rfl, fun _ => rfl⟩
instance : Keyed RiskFinding := ⟨(·.id), fun id row => { row with id }, fun _ _ => rfl, fun _ => rfl⟩
instance : Keyed RiskSignalLink := ⟨(·.id), fun id row => { row with id }, fun _ _ => rfl, fun _ => rfl⟩
instance : Keyed Explanation := ⟨(·.id), fun id row => { row with id }, fun _ _ => rfl, fun _ => rfl⟩
instance : Keyed AuditRecord := ⟨(·.id), fun id row => { row with id }, fun _ _ => rfl, fun _ => rfl⟩
instance : Keyed Job := ⟨(·.id), fun id row => { row with id }, fun _ _ => rfl, fun _ => rfl⟩

structure DB where
  enterprise : List Uuid
  canonical : Entity → Table Row
  dataSource : Table DataSource
  sourceField : Table SourceField
  fieldMapping : Table FieldMapping
  mappingChangeEvent : Table MappingChangeEvent
  secret : Table Secret
  observabilityGap : Table ObservabilityGap
  observationSignal : Table ObservationSignal
  skuAggregate : Table SkuAggregate
  riskFinding : Table RiskFinding
  riskSignalLink : Table RiskSignalLink
  explanation : Table Explanation
  auditRecord : Table AuditRecord
  job : Table Job

instance : Inhabited DB := ⟨{
  enterprise := []
  canonical := fun _ => .empty
  dataSource := .empty
  sourceField := .empty
  fieldMapping := .empty
  mappingChangeEvent := .empty
  secret := .empty
  observabilityGap := .empty
  observationSignal := .empty
  skuAggregate := .empty
  riskFinding := .empty
  riskSignalLink := .empty
  explanation := .empty
  auditRecord := .empty
  job := .empty }⟩

/-- An `AsyncSession`: what a service computes inside one transaction. -/
abbrev Session := EStateM Error DB

/-- `scalar_one_or_none()` on the rows of a query. -/
def scalarOrNone {α : Type} (query : DB → List α) : Session (Option α) := do
  lift (scalarOneOrNone .multipleResultsFound (← read query))

theorem scalarOrNone_eq_ok {α : Type} {query : DB → List α} {before after : DB} {found : Option α} :
    scalarOrNone query before = .ok found after ↔
      scalarOneOrNone Error.multipleResultsFound (query before) = .ok found ∧ before = after := by
  simp only [scalarOrNone, bind_eq_ok, read_eq_ok, lift_eq_ok]
  constructor
  · rintro ⟨_, _, ⟨rfl, rfl⟩, single, rfl⟩
    exact ⟨single, rfl⟩
  · rintro ⟨single, rfl⟩
    exact ⟨_, _, ⟨rfl, rfl⟩, single, rfl⟩

theorem scalarOrNone_error {α : Type} {query : DB → List α} {before after : DB} {reason : Error}
    (raised : scalarOrNone query before = .error reason after) : reason = .multipleResultsFound := by
  simp only [scalarOrNone, bind_eq_error, read_eq_error, lift_eq_error, false_or] at raised
  obtain ⟨_, _, _, ambiguous, _⟩ := raised
  exact scalarOneOrNone_error ambiguous

namespace DB

def setCanonical (db : DB) (entity : Entity) (table : Table Row) : DB :=
  { db with canonical := Function.update db.canonical entity table }

@[simp] theorem setCanonical_self (db : DB) (entity : Entity) (table : Table Row) :
    (db.setCanonical entity table).canonical entity = table := by
  simp [setCanonical]

theorem setCanonical_other (db : DB) (table : Table Row) {entity other : Entity}
    (different : other ≠ entity) : (db.setCanonical entity table).canonical other = db.canonical other := by
  simp [setCanonical, different]

end DB

end SmartProcurement
