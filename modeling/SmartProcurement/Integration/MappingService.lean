import SmartProcurement.Integration.MappingAi

namespace SmartProcurement.Integration

open Relational Transaction

/-! # The lifecycle of a field mapping

Every transition and every edit appends an event with a snapshot of the mapping
before and after it.  Only confirmed mappings are visible to sync.
-/

/-- `CANONICAL_ENTITIES`. -/
def canonicalEntities : List Entity := [
  .item, .warehouse, .stockLevel, .supplier, .itemSupplier, .price, .leadTime, .purchaseOrder, .consumption,
  .productionDemand, .qualityRecord]

def checkEntity (name : String) : Except Error Entity :=
  match canonicalEntities.find? fun entity => entity.name == name with
  | some entity => .ok entity
  | none => .error (.domainRule ("canonical_entity must be one of " ++ tupleText (canonicalEntities.map (·.name))))

def shownStatus : MappingStatus → String
  | .suggested => "'suggested'"
  | .confirmed => "'confirmed'"
  | .rejected => "'rejected'"
  | .retired => "'retired'"

def Owns (db : DB) (enterpriseId : Uuid) (mapping : FieldMapping) : Prop :=
  ∃ source ∈ db.dataSource.rows, source.id = mapping.dataSourceId ∧ source.enterpriseId = enterpriseId

instance (db : DB) (enterpriseId : Uuid) (mapping : FieldMapping) : Decidable (Owns db enterpriseId mapping) :=
  inferInstanceAs (Decidable (∃ source ∈ db.dataSource.rows, _ ∧ _))

def getMapping (enterpriseId mappingId : Uuid) : Session FieldMapping := do
  match ← scalarOrNone fun db => db.fieldMapping.rows.filter fun mapping =>
      mapping.id = mappingId ∧ Owns db enterpriseId mapping with
  | some mapping => return mapping
  | none => raise (.notFound "mapping not found")

/-- `mapping_history`, the events in the order of their time. -/
def mappingHistory (db : DB) (mappingId : Uuid) : List MappingChangeEvent :=
  (db.mappingChangeEvent.rows.filter (·.fieldMappingId = mappingId)).insertionSort fun first second =>
    first.at_ ≤ second.at_

/-- `_event`. -/
def changeEvent (now : Timestamp) (mapping : FieldMapping) (action : MappingAction) (actorId : Option Uuid)
    (before : Option MappingSnapshot) : MappingChangeEvent where
  id := 0
  fieldMappingId := mapping.id
  action
  actorId
  before
  after := some (snapshot mapping)
  at_ := now

/-- Change a mapping and append the event of the change. -/
def changeMapping (now : Timestamp) (action : MappingAction) (actorId : Uuid)
    (change : FieldMapping → FieldMapping) (mapping : FieldMapping) : Session FieldMapping := do
  let before := snapshot mapping
  let mapping := Table.assign change mapping
  write fun db => { db with
    fieldMapping := db.fieldMapping.update mapping.id change
    mappingChangeEvent :=
      db.mappingChangeEvent.insert (changeEvent now mapping action (some actorId) (some before)) }
  return mapping

/-! ## Creation -/

structure NewMapping where
  sourceFieldPath : String
  canonicalEntity : String
  canonicalAttribute : String
  transform : Option Transform

def newMapping (dataSourceId : Uuid) (new : NewMapping) (entity : Entity) : FieldMapping where
  id := 0
  dataSourceId
  sourceFieldPath := new.sourceFieldPath
  canonicalEntity := entity
  canonicalAttribute := new.canonicalAttribute
  transform := new.transform
  status := .suggested
  aiConfidence := none
  confirmedBy := none
  confirmedAt := none

def createMapping (now : Timestamp) (enterpriseId dataSourceId : Uuid) (new : NewMapping)
    (actorId : Option Uuid) : Session FieldMapping := do
  let _ ← getDataSource enterpriseId dataSourceId
  let entity ← lift (checkEntity new.canonicalEntity)
  lift (bindText "source_field_path" new.sourceFieldPath)
  lift (bindText "canonical_attribute" new.canonicalAttribute)
  lift (bindTransform new.transform)
  let mapping ← read fun db => db.fieldMapping.newRow (newMapping dataSourceId new entity)
  write fun db => { db with
    fieldMapping := db.fieldMapping.insert (newMapping dataSourceId new entity)
    mappingChangeEvent := db.mappingChangeEvent.insert (changeEvent now mapping .suggested actorId none) }
  return mapping

/-! ## Transitions -/

def confirmed (now : Timestamp) (actorId : Uuid) (mapping : FieldMapping) : FieldMapping :=
  { mapping with status := .confirmed, confirmedBy := some actorId, confirmedAt := some now }

def rejected (mapping : FieldMapping) : FieldMapping :=
  { mapping with status := .rejected, confirmedBy := none, confirmedAt := none }

/-- Retiring keeps who had confirmed the mapping, and when. -/
def retired (mapping : FieldMapping) : FieldMapping := { mapping with status := .retired }

/-- `_apply_confirm`; the callers check what may be confirmed. -/
def applyConfirm (now : Timestamp) (actorId : Uuid) (mapping : FieldMapping) : Session FieldMapping :=
  changeMapping now .confirmed actorId (confirmed now actorId) mapping

def confirmMapping (now : Timestamp) (enterpriseId mappingId actorId : Uuid) : Session FieldMapping := do
  let mapping ← getMapping enterpriseId mappingId
  if mapping.status = .retired then raise (.conflict "a retired mapping cannot be confirmed")
  else applyConfirm now actorId mapping

structure BulkConfirmResult where
  dataSourceId : Uuid
  requested : List Uuid
  confirmed : List Uuid
  failed : List (Uuid × String)

def BulkConfirmResult.fail (result : BulkConfirmResult) (mappingId : Uuid) (reason : String) : BulkConfirmResult :=
  { result with failed := result.failed ++ [(mappingId, reason)] }

/-- One id of a bulk confirmation; the candidates are the mappings that the query has found. -/
def confirmOne (now : Timestamp) (actorId : Uuid) (candidates : List Uuid) (result : BulkConfirmResult)
    (mappingId : Uuid) : Session BulkConfirmResult := do
  match ← read fun db => if mappingId ∈ candidates then db.fieldMapping.find? mappingId else none with
  | none => return result.fail mappingId "not found for this data source"
  | some mapping =>
      if mapping.status ≠ .suggested then
        return result.fail mappingId ("status is " ++ shownStatus mapping.status ++ ", not 'suggested'")
      else do
        let _ ← applyConfirm now actorId mapping
        return { result with confirmed := result.confirmed ++ [mappingId] }

/-- The mappings of the source among the requested ones. -/
def bulkCandidates (enterpriseId dataSourceId : Uuid) (requested : List Uuid) (db : DB) : List Uuid :=
  (db.fieldMapping.rows.filter fun mapping =>
    mapping.id ∈ requested ∧ mapping.dataSourceId = dataSourceId ∧ Owns db enterpriseId mapping).map (·.id)

def confirmMappingsBulk (now : Timestamp) (enterpriseId dataSourceId : Uuid) (mappingIds : List Uuid)
    (actorId : Uuid) : Session BulkConfirmResult := do
  let _ ← getDataSource enterpriseId dataSourceId
  let requested := mappingIds.eraseDups
  let candidates ← read (bulkCandidates enterpriseId dataSourceId requested)
  requested.foldlM (confirmOne now actorId candidates) { dataSourceId, requested, confirmed := [], failed := [] }

def rejectMapping (now : Timestamp) (enterpriseId mappingId actorId : Uuid) : Session FieldMapping := do
  let mapping ← getMapping enterpriseId mappingId
  changeMapping now .rejected actorId rejected mapping

def retireMapping (now : Timestamp) (enterpriseId mappingId actorId : Uuid) : Session FieldMapping := do
  let mapping ← getMapping enterpriseId mappingId
  changeMapping now .retired actorId retired mapping

/-- What an edit sets; a transform that is not given is left, one that is given may be null. -/
structure MappingEdit where
  canonicalEntity : Option String
  canonicalAttribute : Option String
  transform : Option (Option Transform)

def edited (entity : Option Entity) (edit : MappingEdit) (mapping : FieldMapping) : FieldMapping :=
  { mapping with
    canonicalEntity := entity.getD mapping.canonicalEntity
    canonicalAttribute := edit.canonicalAttribute.getD mapping.canonicalAttribute
    transform := edit.transform.getD mapping.transform }

def editMapping (now : Timestamp) (enterpriseId mappingId actorId : Uuid) (edit : MappingEdit) :
    Session FieldMapping := do
  let mapping ← getMapping enterpriseId mappingId
  let entity ← lift (edit.canonicalEntity.mapM checkEntity)
  let _ ← lift (edit.canonicalAttribute.mapM (bindText "canonical_attribute"))
  let _ ← lift (edit.transform.mapM bindTransform)
  changeMapping now .edited actorId (edited entity edit) mapping

/-! ## Results -/

/-- The database with one event more, and the mappings it is about. -/
def recorded (db : DB) (mappings : Table FieldMapping) (event : MappingChangeEvent) : DB :=
  { db with fieldMapping := mappings, mappingChangeEvent := db.mappingChangeEvent.insert event }

section Results

variable {now : Timestamp} {enterpriseId dataSourceId mappingId actorId : Uuid} {before after : DB}
variable {mapping result : FieldMapping}

theorem getMapping_eq_ok : getMapping enterpriseId mappingId before = .ok mapping after ↔
    (before.fieldMapping.find? mappingId = some mapping ∧ Owns before enterpriseId mapping) ∧ after = before := by
  have query : (before.fieldMapping.rows.filter fun mapping =>
      mapping.id = mappingId ∧ Owns before enterpriseId mapping) =
      (before.fieldMapping.find? mappingId).toList.filter fun mapping => Owns before enterpriseId mapping := by
    rw [← Table.filter_key, List.filter_filter]
    refine List.filter_congr fun mapping _ => ?_
    rw [Bool.and_comm, Bool.decide_and]
    rfl
  simp only [getMapping, bind_eq_ok, scalarOrNone_eq_ok, query]
  cases before.fieldMapping.find? mappingId with
  | none =>
      refine iff_of_false ?_ ?_
      · rintro ⟨_, _, ⟨⟨⟩, rfl⟩, ran⟩
        simp at ran
      · rintro ⟨⟨missing, _⟩, _⟩
        cases missing
  | some row =>
      by_cases owned : Owns before enterpriseId row
      · constructor
        · rintro ⟨_, _, ⟨single, rfl⟩, ran⟩
          rw [Option.toList_some, List.filter_cons_of_pos (by simpa using owned)] at single
          cases single
          obtain ⟨rfl, rfl⟩ := pure_eq_ok.mp ran
          exact ⟨⟨rfl, owned⟩, rfl⟩
        · rintro ⟨⟨⟨⟩, _⟩, rfl⟩
          refine ⟨some _, _, ⟨?_, rfl⟩, rfl⟩
          rw [Option.toList_some, List.filter_cons_of_pos (by simpa using owned)]
          rfl
      · refine iff_of_false ?_ ?_
        · rintro ⟨_, _, ⟨single, rfl⟩, ran⟩
          rw [Option.toList_some, List.filter_cons_of_neg (by simpa using owned)] at single
          cases single
          simp at ran
        · rintro ⟨⟨⟨⟩, isOwned⟩, _⟩
          exact owned isOwned

theorem changeMapping_ok {action : MappingAction} {change : FieldMapping → FieldMapping}
    (ran : changeMapping now action actorId change mapping before = .ok result after) :
    after = recorded before (before.fieldMapping.update mapping.id change)
      (changeEvent now (Table.assign change mapping) action (some actorId) (some (snapshot mapping))) := by
  simp only [changeMapping, bind_eq_ok, write_eq_ok, pure_eq_ok] at ran
  obtain ⟨_, _, rfl, _, rfl⟩ := ran
  have key : (Table.assign change mapping).id = mapping.id := Table.key_assign change mapping
  rw [recorded, ← key]

theorem createMapping_ok {new : NewMapping} {actorId : Option Uuid}
    (ran : createMapping now enterpriseId dataSourceId new actorId before = .ok result after) :
    ∃ entity, after = recorded before (before.fieldMapping.insert (newMapping dataSourceId new entity))
      (changeEvent now (before.fieldMapping.newRow (newMapping dataSourceId new entity)) .suggested actorId none) := by
  simp only [createMapping, bind_eq_ok, lift_eq_ok, read_eq_ok, write_eq_ok, pure_eq_ok] at ran
  obtain ⟨_, _, owned, entity, _, ⟨_, rfl⟩, _, _, ⟨_, rfl⟩, _, _, ⟨_, rfl⟩, _, _, ⟨_, rfl⟩, _, _, ⟨rfl, rfl⟩, _, _, rfl,
    _, rfl⟩ := ran
  obtain ⟨rfl, _⟩ := getDataSource_ok owned
  exact ⟨entity, rfl⟩

theorem addSuggestion_ok {suggestion : Ai.MappingSuggestion}
    (ran : addSuggestion now dataSourceId suggestion before = .ok result after) :
    after = recorded before (before.fieldMapping.insert (suggestedMapping dataSourceId suggestion))
      (suggestedEvent now (before.fieldMapping.newRow (suggestedMapping dataSourceId suggestion))) := by
  simp only [addSuggestion, bind_eq_ok, lift_eq_ok, read_eq_ok, write_eq_ok, pure_eq_ok] at ran
  obtain ⟨_, _, ⟨_, rfl⟩, _, _, ⟨_, rfl⟩, _, _, ⟨rfl, rfl⟩, _, _, rfl, _, rfl⟩ := ran
  rfl

/-- The suggestions are added to tables that the provider's call has not touched. -/
theorem suggestMappingsForSource_ok {provider : Ai.Provider Ai.MappingSuggestionSet} {created : List FieldMapping}
    (ran : suggestMappingsForSource now provider enterpriseId dataSourceId before = .ok created after) :
    ∃ (suggestions : List Ai.MappingSuggestion) (source : Uuid) (known : List String) (init final : Suggesting) (middle : DB),
      (middle.fieldMapping = before.fieldMapping ∧ middle.mappingChangeEvent = before.mappingChangeEvent ∧
        middle.dataSource = before.dataSource) ∧
      suggestions.foldlM (suggestOne now source known) init middle = .ok final after := by
  simp only [suggestMappingsForSource, bind_eq_ok, read_eq_ok] at ran
  obtain ⟨source, _, owned, fields, _, ⟨rfl, rfl⟩, ran⟩ := ran
  obtain ⟨rfl, _⟩ := getDataSource_ok owned
  split at ran
  · simp at ran
  · simp only [bind_eq_ok, read_eq_ok, pure_eq_ok] at ran
    obtain ⟨result, middle, generated, seen, _, ⟨rfl, rfl⟩, final, _, looped, _, rfl⟩ := ran
    have untouched : (Frame.fixes fun db : DB => (db.fieldMapping, db.mappingChangeEvent, db.dataSource)).rel _ middle :=
      (Ai.generateStructured_follows now provider _ (fun _ _ => rfl) (fun _ _ => rfl)).ok generated
    have same := Prod.mk.inj untouched
    rw [Prod.mk.injEq] at same
    exact ⟨_, _, _, _, final, middle, same, looped⟩

theorem confirmOne_ok {candidates : List Uuid} {acc next : BulkConfirmResult}
    (ran : confirmOne now actorId candidates acc mappingId before = .ok next after) :
    after = before ∨ ∃ mapping result, before.fieldMapping.find? mapping.id = some mapping ∧
      mapping.status = .suggested ∧ applyConfirm now actorId mapping before = .ok result after := by
  simp only [confirmOne, bind_eq_ok, read_eq_ok] at ran
  obtain ⟨found, _, ⟨looked, rfl⟩, ran⟩ := ran
  cases found with
  | none => exact .inl (pure_eq_ok.mp ran).2.symm
  | some mapping =>
      dsimp only at ran
      split at ran
      · exact .inl (pure_eq_ok.mp ran).2.symm
      · next suggested =>
        simp only [bind_eq_ok, pure_eq_ok] at ran
        obtain ⟨result, _, applied, _, rfl⟩ := ran
        split at looked
        · have key : mapping.id = mappingId := (Table.find?_some looked).2
          exact .inr ⟨mapping, result, key ▸ looked, not_not.mp suggested, applied⟩
        · cases looked

end Results

end SmartProcurement.Integration
