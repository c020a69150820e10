import SmartProcurement.Jobs.Queue
import SmartProcurement.Observation.Observability

namespace SmartProcurement.Integration

open Relational Transaction Text Numeric Observation

/-! # Source synchronisation

A batch of raw records is mapped through the confirmed field mappings of the
data source and upserted into the canonical tables, entity by entity, masters
first.  An update that changes a watched attribute emits a signal.
-/

/-- The watched attribute of an entity and the signal it emits on an update. -/
def signalWatch : Entity → Option (String × SignalType)
  | .stockLevel => some ("quantity", .stockChange)
  | .price => some ("unit_price", .priceChange)
  | .leadTime => some ("days", .leadTimeChange)
  | .qualityRecord => some ("defect_rate", .qualityIssue)
  | .productionDemand => some ("quantity", .demandChange)
  | _ => none

structure Reference where
  attr : String
  target : Entity
  naturalKey : String
deriving DecidableEq

structure EntitySpec where
  identity : List String
  refs : List Reference

def entityOrder : List Entity := [
  .item, .warehouse, .supplier, .itemSupplier, .stockLevel, .price, .leadTime, .consumption,
  .productionDemand, .qualityRecord, .purchaseOrder]

def itemRef : Reference := ⟨"item_sku", .item, "sku"⟩

def supplierRef : Reference := ⟨"supplier_code", .supplier, "code"⟩

def warehouseRef : Reference := ⟨"warehouse_code", .warehouse, "code"⟩

def specs : Entity → EntitySpec
  | .item => ⟨["sku"], []⟩
  | .warehouse => ⟨["code"], []⟩
  | .supplier => ⟨["code"], []⟩
  | .itemSupplier => ⟨["item_id", "supplier_id"], [itemRef, supplierRef]⟩
  | .stockLevel => ⟨["item_id", "warehouse_id"], [itemRef, warehouseRef]⟩
  | .price => ⟨["item_id", "supplier_id"], [itemRef, supplierRef]⟩
  | .leadTime => ⟨["item_id", "supplier_id"], [itemRef, supplierRef]⟩
  | .consumption => ⟨["item_id", "warehouse_id"], [itemRef, warehouseRef]⟩
  | .productionDemand => ⟨["item_id", "need_by"], [itemRef]⟩
  | .qualityRecord => ⟨["item_id", "supplier_id", "as_of"], [itemRef, supplierRef]⟩
  | .purchaseOrder => ⟨["external_ref"], [itemRef, supplierRef]⟩

def managedColumns : List String :=
  ["id", "created_at", "updated_at", "enterprise_id", "source_provenance", "observability"]

/-- `_column_types(spec.model).get(name)`. -/
def columnType? (entity : Entity) (name : String) : Option ColumnType :=
  if name ∈ managedColumns then none
  else ((columns entity).find? fun column => column.name == name).map (·.type)

/-- `_required_identity`: a warehouse may be missing. -/
def requiredIdentity (entity : Entity) : List String :=
  (specs entity).identity.filter (· ≠ "warehouse_id")

/-! ## Normalisation -/

def applyTransform (value : Raw) (transform : Transform) : Except Error Raw :=
  match value with
  | .null => .ok .null
  | value =>
      let text := value.str
      let text := if transform.trim then strip text else text
      let text := if transform.upper then upper text else text
      let text := if transform.lower then lower text else text
      match transform.multiply with
      | none => .ok (.text text)
      | some factor =>
          match decimal? text, decimal? factor with
          | some left, some right =>
              match left.mul right with
              | .ok product => .ok (.other product.str)
              | .error .invalidOperation => .ok (.text text)
              | .error signal => .error (.decimal signal)
          | _, _ => .ok (.text text)

abbrev Record := Dict Raw

/-- The attribute one mapping contributes; blank values are as good as absent. -/
def extractOne (record : Record) (out : Dict Raw) (mapping : FieldMapping) : Except Error (Dict Raw) :=
  match record.lookup mapping.sourceFieldPath with
  | none => .ok out
  | some value => do
      let value ←
        match mapping.transform with
        | some transform => applyTransform value transform
        | none => .ok value
      return if value.blank then out else out.insert mapping.canonicalAttribute value

def extract (record : Record) (mappings : List FieldMapping) : Except Error (Dict Raw) :=
  mappings.foldlM (extractOne record) ∅

def parseDate (text : String) : Option Date :=
  let chars := text.toList
  yearFirst? '-' chars <|> dayFirst? '.' chars <|> yearFirst? '/' chars <|>
    (isoDatetime? text).map fun (wall, _) => wall / microsecondsPerDay

def parseDatetime (text : String) : Option Timestamp :=
  let zulu := text.toList.flatMap fun char => if char = 'Z' then "+00:00".toList else [char]
  match isoDatetime? (.ofList zulu) with
  | some (wall, offset) => some (wall - offset.getD 0)
  | none => (parseDate text).map (· * microsecondsPerDay)

/-- `_coerce`: `null` for a value that cannot be read as the column's type. -/
def coerce (raw : Raw) (type : ColumnType) : Value :=
  let text := raw.str
  match type with
  | .numeric => ((decimal? text).map fun read => Value.decimal read.value).getD .null
  | .boolean => .bool (lower (strip text) ∈ ["1", "true", "yes", "y", "t"])
  | .date => ((parseDate text).map Value.date).getD .null
  | .datetime => ((parseDatetime text).map Value.timestamp).getD .null
  | _ => .text text

/-! ## References -/

/-- `natural_cache`. -/
abbrev Cache := List ((Entity × String) × Uuid)

def foreignKey (target : Entity) : String := target.name ++ "_id"

def lookupReference (enterpriseId : Uuid) (reference : Reference) (key : String) :
    Session (Option Uuid) := do
  let _ ← lift ((ColumnType.string none).bind reference.naturalKey (.text key))
  let found ← scalarOrNone fun db => (db.canonical reference.target).rows.filter fun row =>
    row.enterpriseId = enterpriseId ∧ row.col reference.naturalKey = .text key
  return found.map (·.id)

/-- The attributes with their references resolved, `none` when the record is
skipped; the cache is shared by all records of the run. -/
structure Resolution where
  resolved : Option (Dict Raw)
  cache : Cache

def resolveOne (enterpriseId : Uuid) (entity : Entity) (attrs : Dict Raw) (acc : Resolution)
    (reference : Reference) : Session Resolution :=
  match acc.resolved with
  | none => return acc
  | some resolved =>
      match attrs.lookup reference.attr with
      | none => return acc
      | some raw => do
          if raw.blank then return acc
          let key := (reference.target, raw.str)
          let fk := foreignKey reference.target
          match acc.cache.lookup key with
          | some id => return { acc with resolved := some (resolved.insert fk (.uuid id)) }
          | none =>
              match ← lookupReference enterpriseId reference raw.str with
              | some id =>
                  return { resolved := some (resolved.insert fk (.uuid id)), cache := (key, id) :: acc.cache }
              | none =>
                  -- an unknown master: skip the record if the reference is required
                  if fk ∈ requiredIdentity entity then return { acc with resolved := none }
                  else return acc

def resolveRefs (enterpriseId : Uuid) (entity : Entity) (attrs : Dict Raw) (cache : Cache) :
    Session Resolution :=
  let refs := (specs entity).refs
  let plain := attrs.restrict fun key => !(refs.any fun reference => reference.attr == key)
  refs.foldlM (resolveOne enterpriseId entity attrs) { resolved := some plain, cache }

/-! ## Writing rows -/

def checkAllowed (column : Column) (value : Value) : Except Error PUnit :=
  match column.allowed, value with
  | some allowed, .text text => if text ∈ allowed then .ok ⟨⟩ else .error (.database (.check column.name))
  | _, _ => .ok ⟨⟩

def checkReference (db : DB) (column : Column) (value : Value) : Except Error PUnit :=
  match column.references, value with
  | some target, .uuid id =>
      if ((db.canonical target).find? id).isSome then .ok ⟨⟩
      else .error (.database (.foreignKey column.name))
  | _, _ => .ok ⟨⟩

def storeColumn (db : DB) (row : Row) (column : Column) : Except Error Row := do
  let value ← column.type.bind column.name (row.col column.name)
  if value.isNull ∧ !column.nullable then throw (.database (.notNull column.name))
  else do
    checkAllowed column value
    checkReference db column value
    return row.set column.name value

/-- Another row of the table already has the enterprise and unique value of `row`. -/
def duplicates (db : DB) (entity : Entity) (row : Row) : Bool :=
  match uniqueColumn entity with
  | none => false
  | some name => (db.canonical entity).rows.any fun other =>
      other.id ≠ row.id ∧ other.enterpriseId = row.enterpriseId ∧ other.col name = row.col name

def storeRow (db : DB) (entity : Entity) (row : Row) : Except Error Row :=
  if row.enterpriseId ∉ db.enterprise then throw (.database (.foreignKey "enterprise_id"))
  else do
    let stored ← (ownColumns entity).foldlM (storeColumn db) row
    if duplicates db entity stored then throw (.database (.unique entity.name)) else return stored

def endsWithId (key : String) : Bool := "_id".toList.isSuffixOf key.toList

/-- The value under which an incoming attribute reaches the row, if it does. -/
def coerceAttr (entity : Entity) (key : String) (raw : Raw) : Option Value :=
  if endsWithId key then some (.ofRaw raw)
  else (columnType? entity key).map (coerce raw)

def coerced (entity : Entity) (resolved : Dict Raw) : Dict Value :=
  (specs entity).identity.foldl (fun attrs name => attrs.setDefault name .null)
    (resolved.filterMap (coerceAttr entity))

def identityValues (entity : Entity) (attrs : Dict Value) : Except Error (List (String × Value)) :=
  (specs entity).identity.mapM fun name => do
    let type := (columnType? entity name).getD .uuid
    return (name, ← type.bind name ((attrs.lookup name).getD .null))

def hasIdentity (enterpriseId : Uuid) (identity : List (String × Value)) (row : Row) : Bool :=
  row.enterpriseId = enterpriseId && identity.all fun (name, value) => row.col name = value

/-- `spec.model(enterprise_id=..., **coerced)`: an explicit `None` leaves a
column to its default. -/
def construct (entity : Entity) (now : Timestamp) (enterpriseId : Uuid) (provenance : Provenance)
    (attrs : Dict Value) : Except Error Row :=
  if (attrs.lookup "enterprise_id").isSome then
    .error (.typeError "got multiple values for keyword argument 'enterprise_id'")
  else if attrs.keys.any fun key => (ownColumn? entity key).isNone then
    .error (.typeError "invalid keyword argument")
  else
    .ok {
      id := 0
      enterpriseId
      createdAt := now
      sourceProvenance := some provenance
      observability := .fresh
      col := fun name =>
        match ownColumn? entity name with
        | none => .null
        | some column =>
            match attrs.lookup name with
            | none | some .null => column.default.getD .null
            | some value => value }

/-- `setattr(existing, key, value)`.  A name that is no mapped column becomes a
plain attribute of the object, which no flush writes. -/
def setAttr (entity : Entity) (row : Row) (key : String) (value : Value) : Except Error Row :=
  if key = "enterprise_id" then do
    match ← bindUuid key value with
    | some enterpriseId => return { row with enterpriseId }
    | none => throw (.database (.notNull key))
  else if (ownColumn? entity key).isSome then return row.set key value
  else return row

def assignAttrs (entity : Entity) (row : Row) (attrs : Dict Value) : Except Error Row :=
  attrs.entries.foldlM (fun row entry =>
    if entry.1 ∈ (specs entity).identity then return row else setAttr entity row entry.1 entry.2) row

structure SyncContext where
  now : Timestamp
  enterpriseId : Uuid
  dataSourceId : Uuid
  fetchedAt : Timestamp

/-- `old_value == new_value` on watched attributes, which are numeric. -/
def sameValue : Value → Value → Except Error Bool
  | .decimal old, .decimal new => trap (old.eq new)
  | old, new => .ok (old = new)

/-- A foreign key of a signal: bound to a UUID and checked for existence. -/
def signalKey (db : DB) (target : Entity) (resolved : Dict Raw) : Except Error (Option Uuid) :=
  match resolved.lookup (foreignKey target) with
  | none => .ok none
  | some raw => do
      let bound ← bindUuid (foreignKey target) (.ofRaw raw)
      match bound with
      | none => return none
      | some id =>
          if ((db.canonical target).find? id).isNone then
            throw (.database (.foreignKey (foreignKey target)))
          return some id

def diffSignal (context : SyncContext) (entity : Entity) (existing : Row) (attrs : Dict Value)
    (resolved : Dict Raw) : Session (Option ObservationSignal) :=
  match signalWatch entity with
  | none => return none
  | some (attr, signalType) =>
      match attrs.lookup attr with
      | none => return none
      | some new => do
          if ← lift (sameValue (existing.col attr) new) then return none
          let itemId ← lift (← read fun db => signalKey db .item resolved)
          let supplierId ← lift (← read fun db => signalKey db .supplier resolved)
          let signal : ObservationSignal := {
            id := 0
            enterpriseId := context.enterpriseId
            dataSourceId := context.dataSourceId
            signalType
            itemId
            supplierId
            payload := { entity, attr, old := (existing.col attr).decimal?, new := new.decimal? }
            observedAt := context.fetchedAt
            ingestedAt := context.now }
          write fun db => { db with observationSignal := db.observationSignal.insert signal }
          return some signal

/-- `_upsert`; the first component is the source's `created`, which is always true. -/
def upsert (context : SyncContext) (entity : Entity) (resolved : Dict Raw) (provenance : Provenance) :
    Session (Bool × Option ObservationSignal) := do
  let attrs := coerced entity resolved
  let identity ← lift (identityValues entity attrs)
  let existing ← scalarOrNone fun db =>
    (db.canonical entity).rows.filter (hasIdentity context.enterpriseId identity)
  match existing with
  | none =>
      let row ← lift (construct entity context.now context.enterpriseId provenance attrs)
      let stored ← lift (← read fun db => storeRow db entity ((db.canonical entity).newRow row))
      write fun db => db.setCanonical entity ((db.canonical entity).insert stored)
      return (true, none)
  | some existing =>
      let signal ← diffSignal context entity existing attrs resolved
      let changed ← lift (assignAttrs entity existing attrs)
      let changed := { changed with sourceProvenance := some provenance, observability := .fresh }
      let stored ← lift (← read fun db => storeRow db entity changed)
      write fun db => db.setCanonical entity ((db.canonical entity).update existing.id fun _ => stored)
      return (true, signal)

/-! ## The run -/

structure FetchBatch where
  records : List Record
  fetchedAt : Timestamp

structure ConnectionCheck where
  health : String
  detail : String
  checkedAt : Timestamp

/-- The outside of the process as one call meets it: the secret store, the
connector built for a data source and what it answers. -/
structure Connectors where
  loadCredential : DataSource → Except Error PUnit
  build : DataSource → Except Error PUnit
  testConnection : DataSource → Except Error ConnectionCheck
  fetch : DataSource → Except Error FetchBatch

structure Progress where
  upserts : Entity → Nat
  signalsCreated : Nat
  touchedItemIds : List Uuid
  cache : Cache

structure SyncResult where
  fetchedAt : Timestamp
  recordsSeen : Nat
  upserts : Entity → Nat
  signalsCreated : Nat

def provenanceOf (context : SyncContext) (mappings : List FieldMapping) : Provenance where
  dataSourceId := context.dataSourceId
  sourceFieldPath := String.intercalate ","
    ((mappings.map (·.sourceFieldPath)).dedup.insertionSort fun first second => ¬ second < first)
  fetchedAt := context.fetchedAt

/-- Count an upsert and remember the item of its signal. -/
def Progress.record (progress : Progress) (entity : Entity) (created : Bool)
    (signal : Option ObservationSignal) : Progress :=
  let upserts := Function.update progress.upserts entity
    (progress.upserts entity + (if created then 1 else 0))
  match signal with
  | none => { progress with upserts }
  | some signal =>
      { progress with
        upserts
        signalsCreated := progress.signalsCreated + 1
        touchedItemIds :=
          match signal.itemId with
          | none => progress.touchedItemIds
          | some itemId => progress.touchedItemIds.insert itemId }

/-- Some required identity column is missing or blank. -/
def lacksIdentity (entity : Entity) (resolved : Dict Raw) : Bool :=
  (requiredIdentity entity).any fun name =>
    match resolved.lookup name with
    | none => true
    | some raw => raw.blank

def syncRecord (context : SyncContext) (entity : Entity) (mappings : List FieldMapping)
    (progress : Progress) (record : Record) : Session Progress := do
  let attrs ← lift (extract record mappings)
  if attrs.entries.isEmpty then return progress
  let resolution ← resolveRefs context.enterpriseId entity attrs progress.cache
  let progress := { progress with cache := resolution.cache }
  match resolution.resolved with
  | none => return progress
  | some resolved =>
      if lacksIdentity entity resolved then return progress
      let (created, signal) ← upsert context entity resolved (provenanceOf context mappings)
      return progress.record entity created signal

def syncEntity (context : SyncContext) (mappings : List FieldMapping) (records : List Record)
    (progress : Progress) (entity : Entity) : Session Progress :=
  match mappings.filter fun mapping => mapping.canonicalEntity = entity with
  | [] => return progress
  | grouped => records.foldlM (syncRecord context entity grouped) progress

def syncBatch (context : SyncContext) (mappings : List FieldMapping) (records : List Record) :
    Session Progress :=
  entityOrder.foldlM (syncEntity context mappings records)
    { upserts := fun _ => 0, signalsCreated := 0, touchedItemIds := [], cache := [] }

def confirmedMappings (dataSourceId : Uuid) (db : DB) : List FieldMapping :=
  db.fieldMapping.rows.filter fun mapping =>
    mapping.dataSourceId = dataSourceId ∧ mapping.status = .confirmed

def recordOutage (now : Timestamp) (enterpriseId : Uuid) (source : DataSource) (detail : String) :
    Session PUnit := do
  write fun db => { db with
    dataSource := db.dataSource.update source.id fun row =>
      { row with health := .unavailable, lastError := some detail, lastCheckAt := some now } }
  openGap now (sourceUnavailable enterpriseId source.id)

def recordSuccess (now : Timestamp) (enterpriseId : Uuid) (source : DataSource) (fetchedAt : Timestamp) :
    Session PUnit := do
  write fun db => { db with
    dataSource := db.dataSource.update source.id fun row =>
      { row with
        health := .available, lastError := none, lastSuccessAt := some fetchedAt,
        lastCheckAt := some now } }
  closeGap now (sourceUnavailable enterpriseId source.id)

def ownedSource (enterpriseId dataSourceId : Uuid) : Session (Option DataSource) :=
  scalarOrNone fun db => db.dataSource.rows.filter fun source =>
    source.id = dataSourceId ∧ source.enterpriseId = enterpriseId

def enqueueRecompute (now : Timestamp) (enterpriseId : Uuid) (progress : Progress) : Session PUnit :=
  if progress.signalsCreated = 0 then return ⟨⟩
  else
    Jobs.enqueue now "recompute_aggregates"
      { enterpriseId := some enterpriseId, itemIds := some progress.touchedItemIds }
      none (some enterpriseId) Jobs.defaultMaxAttempts

def syncSource (now : Timestamp) (connectors : Connectors) (enterpriseId dataSourceId : Uuid) :
    Session SyncResult := do
  match ← ownedSource enterpriseId dataSourceId with
  | none => raise (.upstream "data source not found")
  | some source =>
      lift (connectors.loadCredential source)
      match connectors.build source >>= fun _ => connectors.fetch source with
      | .error (.connector detail) =>
          recordOutage now enterpriseId source detail
          raise (.upstream ("sync failed for data source '" ++ source.name ++ "': " ++ detail))
      | .error reason => raise reason
      | .ok batch =>
          let context : SyncContext := { now, enterpriseId, dataSourceId, fetchedAt := batch.fetchedAt }
          let mappings ← read (confirmedMappings dataSourceId)
          let progress ← syncBatch context mappings batch.records
          recordSuccess now enterpriseId source batch.fetchedAt
          enqueueRecompute now enterpriseId progress
          return {
            fetchedAt := batch.fetchedAt
            recordsSeen := batch.records.length
            upserts := progress.upserts
            signalsCreated := progress.signalsCreated }

end SmartProcurement.Integration
