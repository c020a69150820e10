import SmartProcurement.Integration.References

namespace SmartProcurement.Integration

open Relational Transaction

/-! # The records of a run, one after the other

The loop over entities and the loop over records are one loop over the pairs of
both, so a run has a list of steps and every step a state before it.
-/

def Progress.start : Progress where
  upserts := fun _ => 0
  signalsCreated := 0
  touchedItemIds := []
  cache := []

/-- An entity without mappings is skipped. -/
def schedule (mappings : List FieldMapping) (records : List Record) : List (Entity × Record) :=
  entityOrder.flatMap fun entity =>
    if (mappingsOf mappings entity).isEmpty then [] else records.map fun record => (entity, record)

theorem record_of_schedule {mappings : List FieldMapping} {records : List Record} {next : Entity × Record}
    (listed : next ∈ schedule mappings records) : next.2 ∈ records := by
  obtain ⟨entity, _, inside⟩ := List.mem_flatMap.mp listed
  split at inside
  · cases inside
  · obtain ⟨record, member, rfl⟩ := List.mem_map.mp inside
    exact member

def syncNext (context : SyncContext) (mappings : List FieldMapping) (progress : Progress)
    (next : Entity × Record) : Session Progress :=
  syncRecord context next.1 (mappingsOf mappings next.1) progress next.2

theorem syncEntity_schedule (context : SyncContext) (mappings : List FieldMapping) (records : List Record)
    (progress : Progress) (entity : Entity) :
    syncEntity context mappings records progress entity =
      (if (mappingsOf mappings entity).isEmpty then [] else records.map fun record => (entity, record)).foldlM
        (syncNext context mappings) progress := by
  unfold syncEntity syncNext
  have own : (mappings.filter fun mapping => mapping.canonicalEntity = entity) = mappingsOf mappings entity := rfl
  rw [own]
  cases grouped : mappingsOf mappings entity with
  | nil => rfl
  | cons first rest => simp [List.foldlM_map, grouped]

theorem syncBatch_schedule (context : SyncContext) (mappings : List FieldMapping) (records : List Record) :
    syncBatch context mappings records =
      (schedule mappings records).foldlM (syncNext context mappings) .start := by
  unfold syncBatch schedule
  change entityOrder.foldlM (syncEntity context mappings records) .start = _
  generalize entityOrder = entities
  generalize Progress.start = progress
  induction entities generalizing progress with
  | nil => rfl
  | cons entity rest ih =>
      rw [List.foldlM_cons, List.flatMap_cons, List.foldlM_append, ← syncEntity_schedule]
      exact congrArg (syncEntity context mappings records progress entity >>= ·) (funext ih)

/-- One iteration of the loops, with what it finds. -/
structure RecordStep where
  context : SyncContext
  mappings : List FieldMapping
  entity : Entity
  record : Record
  progress : Progress
  db : DB

def RecordStep.run (step : RecordStep) : Session Progress :=
  syncRecord step.context step.entity step.mappings step.progress step.record

structure SyncCall where
  now : Timestamp
  connectors : Connectors
  enterpriseId : Uuid
  dataSourceId : Uuid

namespace SyncCall

def session (call : SyncCall) : Session SyncResult :=
  syncSource call.now call.connectors call.enterpriseId call.dataSourceId

def context (call : SyncCall) (batch : FetchBatch) : SyncContext where
  now := call.now
  enterpriseId := call.enterpriseId
  dataSourceId := call.dataSourceId
  fetchedAt := batch.fetchedAt

def Fetches (call : SyncCall) (before : DB) (batch : FetchBatch) : Prop :=
  ∃ source, before.dataSource.find? call.dataSourceId = some source ∧
    (call.connectors.build source >>= fun _ => call.connectors.fetch source) = .ok batch

/-- The loops of the call come to this step. -/
def Reaches (call : SyncCall) (before : DB) (step : RecordStep) : Prop :=
  ∃ batch, call.Fetches before batch ∧ step.context = call.context batch ∧
    step.mappings = mappingsOf (confirmedMappings call.dataSourceId before) step.entity ∧
    Transaction.Reaches (syncNext (call.context batch) (confirmedMappings call.dataSourceId before))
      (schedule (confirmedMappings call.dataSourceId before) batch.records) .start before
      (step.entity, step.record) step.progress step.db

variable {call : SyncCall} {before after : DB} {result : SyncResult}

/-- The batch of a call that returns, as one loop. -/
structure Loop (call : SyncCall) (before after : DB) where
  batch : FetchBatch
  progress : Progress
  batched : DB
  fetched : call.Fetches before batch
  ran : (schedule (confirmedMappings call.dataSourceId before) batch.records).foldlM
    (syncNext (call.context batch) (confirmedMappings call.dataSourceId before)) .start before =
      .ok progress batched
  final : after.canonical = batched.canonical

theorem loop (ran : call.session before = .ok result after) : Nonempty (Loop call before after) := by
  obtain ⟨synced⟩ := syncSource_ok ran
  refine ⟨⟨synced.batch, synced.progress, synced.batched, ⟨_, synced.found, synced.fetched⟩, ?_, synced.canonical⟩⟩
  rw [← syncBatch_schedule]
  exact synced.ran

def Loop.step (loop : Loop call before after) (next : Entity × Record) (progress : Progress) (db : DB) :
    RecordStep where
  context := call.context loop.batch
  mappings := mappingsOf (confirmedMappings call.dataSourceId before) next.1
  entity := next.1
  record := next.2
  progress
  db

abbrev Loop.Reaches (loop : Loop call before after) : Entity × Record → Progress → DB → Prop :=
  Transaction.Reaches (syncNext (call.context loop.batch) (confirmedMappings call.dataSourceId before))
    (schedule (confirmedMappings call.dataSourceId before) loop.batch.records) .start before

theorem Loop.reaches (loop : Loop call before after) {next : Entity × Record} {progress : Progress} {db : DB}
    (reached : loop.Reaches next progress db) : call.Reaches before (loop.step next progress db) :=
  ⟨loop.batch, loop.fetched, rfl, rfl, reached⟩

theorem Loop.of_reaches (loop : Loop call before after) {step : RecordStep} (reached : call.Reaches before step) :
    ∃ next progress db, loop.Reaches next progress db ∧ step = loop.step next progress db := by
  obtain ⟨batch, ⟨source, found, fetched⟩, contextEq, mappingsEq, reached⟩ := reached
  obtain ⟨other, otherFound, otherFetched⟩ := loop.fetched
  obtain rfl := Option.some.inj (found.symm.trans otherFound)
  obtain rfl := Except.ok.inj (fetched.symm.trans otherFetched)
  refine ⟨(step.entity, step.record), step.progress, step.db, reached, ?_⟩
  cases step with
  | mk context mappings entity record progress db =>
      obtain rfl : context = call.context loop.batch := contextEq
      obtain rfl : mappings = mappingsOf (confirmedMappings call.dataSourceId before) entity := mappingsEq
      rfl

end SyncCall

end SmartProcurement.Integration
