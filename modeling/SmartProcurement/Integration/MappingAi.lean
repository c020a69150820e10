import SmartProcurement.Integration.Service
import SmartProcurement.Ai.Structured

namespace SmartProcurement.Integration

open Relational Transaction

/-! # AI-assisted field-mapping suggestions

A suggestion whose field was not introspected, or that repeats a mapping of the
source, is dropped; any other becomes a mapping that waits for a human.
-/

def mappingCapabilityKey : String := "proc.inventory.observe"

/-- `_snapshot`. -/
def snapshot (mapping : FieldMapping) : MappingSnapshot where
  sourceFieldPath := mapping.sourceFieldPath
  canonicalEntity := mapping.canonicalEntity
  canonicalAttribute := mapping.canonicalAttribute
  transform := mapping.transform
  status := mapping.status
  aiConfidence := mapping.aiConfidence

abbrev MappingKey := String × Entity × String

instance : LawfulBEq MappingKey := inferInstance

def mappingKey (mapping : FieldMapping) : MappingKey :=
  (mapping.sourceFieldPath, mapping.canonicalEntity, mapping.canonicalAttribute)

def suggestionKey (suggestion : Ai.MappingSuggestion) : MappingKey :=
  (suggestion.sourceFieldPath, suggestion.canonicalEntity, suggestion.canonicalAttribute)

/-- `round(confidence, 3)`. -/
def roundedConfidence (confidence : ℚ) : ℚ :=
  Numeric.roundHalfEven (confidence * 1000) / 1000

def suggestedMapping (dataSourceId : Uuid) (suggestion : Ai.MappingSuggestion) : FieldMapping where
  id := 0
  dataSourceId
  sourceFieldPath := suggestion.sourceFieldPath
  canonicalEntity := suggestion.canonicalEntity
  canonicalAttribute := suggestion.canonicalAttribute
  transform := suggestion.transform
  status := .suggested
  aiConfidence := some (roundedConfidence suggestion.confidence)
  confirmedBy := none
  confirmedAt := none

/-- The `suggested` event of a new mapping. -/
def suggestedEvent (now : Timestamp) (mapping : FieldMapping) : MappingChangeEvent where
  id := 0
  fieldMappingId := mapping.id
  action := .suggested
  actorId := none
  before := none
  after := some (snapshot mapping)
  at_ := now

/-- The mappings created so far and the keys already taken. -/
structure Suggesting where
  created : List FieldMapping
  seen : List MappingKey

def addSuggestion (now : Timestamp) (dataSourceId : Uuid) (suggestion : Ai.MappingSuggestion) :
    Session FieldMapping := do
  lift (bindText "canonical_attribute" suggestion.canonicalAttribute)
  lift (bindTransform suggestion.transform)
  let mapping ← read fun db => db.fieldMapping.newRow (suggestedMapping dataSourceId suggestion)
  write fun db => { db with
    fieldMapping := db.fieldMapping.insert (suggestedMapping dataSourceId suggestion)
    mappingChangeEvent := db.mappingChangeEvent.insert (suggestedEvent now mapping) }
  return mapping

def suggestOne (now : Timestamp) (dataSourceId : Uuid) (known : List String) (acc : Suggesting)
    (suggestion : Ai.MappingSuggestion) : Session Suggesting :=
  if suggestion.sourceFieldPath ∉ known then return acc
  else if suggestionKey suggestion ∈ acc.seen then return acc
  else do
    let mapping ← addSuggestion now dataSourceId suggestion
    return { created := acc.created ++ [mapping], seen := suggestionKey suggestion :: acc.seen }

def fieldsOf (dataSourceId : Uuid) (db : DB) : List SourceField :=
  db.sourceField.rows.filter (·.dataSourceId = dataSourceId)

def mappingKeysOf (dataSourceId : Uuid) (db : DB) : List MappingKey :=
  (db.fieldMapping.rows.filter (·.dataSourceId = dataSourceId)).map mappingKey

def suggestMappingsForSource (now : Timestamp) (provider : Ai.Provider Ai.MappingSuggestionSet)
    (enterpriseId dataSourceId : Uuid) : Session (List FieldMapping) := do
  let source ← getDataSource enterpriseId dataSourceId
  let fields ← read (fieldsOf source.id)
  if fields.isEmpty then
    raise (.domainRule "introspect the data source before requesting mapping suggestions")
  else do
    let result ← Ai.generateStructured now provider
      { enterpriseId, capabilityKey := mappingCapabilityKey, schema := "MappingSuggestionSet" }
    let seen ← read (mappingKeysOf source.id)
    let final ← result.suggestions.foldlM (suggestOne now source.id (fields.map (·.path)))
      { created := [], seen }
    return final.created

/-- A frame that the writes of a suggestion run respect. -/
structure SuggestionFrame (frame : Frame DB) : Prop where
  gaps : ∀ db gaps, frame.rel db { db with observabilityGap := gaps }
  records : ∀ db records, frame.rel db { db with auditRecord := records }
  mappings : ∀ db mappings events,
    frame.rel db { db with fieldMapping := mappings, mappingChangeEvent := events }

theorem suggestMappingsForSource_follows {frame : Frame DB} (allowed : SuggestionFrame frame)
    (now : Timestamp) (provider : Ai.Provider Ai.MappingSuggestionSet) (enterpriseId dataSourceId : Uuid) :
    Follows frame (suggestMappingsForSource now provider enterpriseId dataSourceId) := by
  have adds (source : Uuid) (known : List String) (acc : Suggesting) (suggestion : Ai.MappingSuggestion) :
      Follows frame (suggestOne now source known acc suggestion) := by
    unfold suggestOne
    split
    · exact follows_pure acc
    · split
      · exact follows_pure acc
      · refine ((follows_lift _).bind fun _ => (follows_lift _).bind fun _ => (follows_read _).bind fun _ => ?_).bind
          fun _ => follows_pure _
        exact (follows_write fun db => allowed.mappings db _ _).bind fun _ => follows_pure _
  have owned : Follows frame (getDataSource enterpriseId dataSourceId) := by
    refine ((follows_read _).bind fun _ => follows_lift _).bind fun found => ?_
    cases found with
    | none => exact follows_raise _
    | some source => exact follows_pure source
  refine owned.bind fun source => (follows_read _).bind fun fields => ?_
  split
  · exact follows_raise _
  · refine (Ai.generateStructured_follows now provider _ allowed.gaps allowed.records).bind fun result => ?_
    exact (follows_read _).bind fun seen =>
      (Follows.foldlM (adds source.id _) result.suggestions _).bind fun _ => follows_pure _

end SmartProcurement.Integration
