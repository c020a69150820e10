import SmartProcurement.Integration.RowWrites

namespace SmartProcurement.Integration

open Relational Transaction Text Numeric Observation

/-! # What a run of sync does

A run that returns is a sequence of records, each skipped or upserted, followed
by the success of its source and the recomputation it asks for.
-/

/-! ## References -/

theorem lookupReference_ok {enterpriseId : Uuid} {reference : Reference} {key : String} {before after : DB}
    {found : Option Uuid} (ran : lookupReference enterpriseId reference key before = .ok found after) :
    after = before ∧ ∀ id ∈ found, ∃ row ∈ (before.canonical reference.target).rows,
      row.id = id ∧ row.enterpriseId = enterpriseId ∧ row.col reference.naturalKey = .text key := by
  simp only [lookupReference, bind_eq_ok, lift_eq_ok, scalarOrNone_eq_ok, pure_eq_ok] at ran
  obtain ⟨_, _, ⟨_, rfl⟩, row, _, ⟨single, rfl⟩, rfl, rfl⟩ := ran
  refine ⟨rfl, fun id member => ?_⟩
  obtain ⟨row, rfl, rfl⟩ := Option.mem_map.mp member
  obtain ⟨stored, isKey⟩ := List.mem_filter.mp (mem_of_scalarOneOrNone single)
  simp only [decide_eq_true_eq] at isKey
  exact ⟨row, stored, rfl, isKey.1, isKey.2⟩

/-- The ways in which one reference is resolved. -/
inductive ResolvedOne (enterpriseId : Uuid) (entity : Entity) (attrs : Dict Raw) (acc : Resolution)
    (reference : Reference) (before : DB) : Resolution → Prop where
  | skipped (none : acc.resolved = none) :
      ResolvedOne enterpriseId entity attrs acc reference before acc
  | unnamed (unnamed : ∀ raw, attrs.lookup reference.attr = some raw → raw.blank = true) :
      ResolvedOne enterpriseId entity attrs acc reference before acc
  | cached {resolved : Dict Raw} {raw : Raw} {id : Uuid} (accepted : acc.resolved = some resolved)
      (given : attrs.lookup reference.attr = some raw) (filled : raw.blank = false)
      (hit : acc.cache.lookup (reference.target, raw.str) = some id) :
      ResolvedOne enterpriseId entity attrs acc reference before
        { acc with resolved := some (resolved.insert (foreignKey reference.target) (.uuid id)) }
  | found {resolved : Dict Raw} {raw : Raw} {id : Uuid} (accepted : acc.resolved = some resolved)
      (given : attrs.lookup reference.attr = some raw) (filled : raw.blank = false)
      (looked : lookupReference enterpriseId reference raw.str before = .ok (some id) before) :
      ResolvedOne enterpriseId entity attrs acc reference before
        { resolved := some (resolved.insert (foreignKey reference.target) (.uuid id))
          cache := ((reference.target, raw.str), id) :: acc.cache }
  | missing {raw : Raw} (given : attrs.lookup reference.attr = some raw) (filled : raw.blank = false)
      (looked : lookupReference enterpriseId reference raw.str before = .ok none before)
      (required : foreignKey reference.target ∈ requiredIdentity entity) :
      ResolvedOne enterpriseId entity attrs acc reference before { acc with resolved := none }
  | optional {raw : Raw} (given : attrs.lookup reference.attr = some raw) (filled : raw.blank = false)
      (looked : lookupReference enterpriseId reference raw.str before = .ok none before) :
      ResolvedOne enterpriseId entity attrs acc reference before acc

theorem resolveOne_state {enterpriseId : Uuid} {entity : Entity} {attrs : Dict Raw}
    {acc result : Resolution} {reference : Reference} {before after : DB}
    (ran : resolveOne enterpriseId entity attrs acc reference before = .ok result after) :
    after = before ∧ ResolvedOne enterpriseId entity attrs acc reference before result := by
  unfold resolveOne at ran
  cases resolved : acc.resolved with
  | none =>
      rw [resolved] at ran
      obtain ⟨rfl, rfl⟩ := pure_eq_ok.mp ran
      exact ⟨rfl, .skipped resolved⟩
  | some attributes =>
      cases named : attrs.lookup reference.attr with
      | none =>
          simp only [resolved, named] at ran
          obtain ⟨rfl, rfl⟩ := pure_eq_ok.mp ran
          exact ⟨rfl, .unnamed (by simp [named])⟩
      | some raw =>
          simp only [resolved, named] at ran
          cases blank : raw.blank with
          | true =>
              rw [if_pos blank] at ran
              obtain ⟨rfl, rfl⟩ := pure_eq_ok.mp ran
              exact ⟨rfl, .unnamed (by simp [named, blank])⟩
          | false =>
              rw [if_neg (by simp [blank])] at ran
              cases cached : acc.cache.lookup (reference.target, raw.str) with
              | some id =>
                  simp only [cached] at ran
                  obtain ⟨rfl, rfl⟩ := pure_eq_ok.mp ran
                  exact ⟨rfl, .cached resolved named blank cached⟩
              | none =>
                  simp only [cached, bind_eq_ok] at ran
                  obtain ⟨found, middle, looked, ran⟩ := ran
                  obtain rfl := (lookupReference_ok looked).1
                  cases found with
                  | some id =>
                      obtain ⟨rfl, rfl⟩ := pure_eq_ok.mp ran
                      exact ⟨rfl, .found resolved named blank looked⟩
                  | none =>
                      simp only at ran
                      split at ran
                      · next required =>
                        obtain ⟨rfl, rfl⟩ := pure_eq_ok.mp ran
                        exact ⟨rfl, .missing named blank looked required⟩
                      · obtain ⟨rfl, rfl⟩ := pure_eq_ok.mp ran
                        exact ⟨rfl, .optional named blank looked⟩

theorem resolveOne_ok {enterpriseId : Uuid} {entity : Entity} {attrs : Dict Raw}
    {acc result : Resolution} {reference : Reference} {before after : DB}
    (ran : resolveOne enterpriseId entity attrs acc reference before = .ok result after) :
    ResolvedOne enterpriseId entity attrs acc reference before result := (resolveOne_state ran).2

theorem resolveRefs_state {enterpriseId : Uuid} {entity : Entity} {attrs : Dict Raw} {cache : Cache}
    {result : Resolution} {before after : DB}
    (ran : resolveRefs enterpriseId entity attrs cache before = .ok result after) : after = before := by
  refine foldlM_ok_invariant (fun _ db => db = before) ?_ rfl ran
  rintro acc _ reference next state rfl stepped
  exact (resolveOne_state stepped).1

/-! ## Upserts -/

/-- The signal of an update: silent when the watched attribute is not given or
compares equal to its old value. -/
inductive Diffed (context : SyncContext) (entity : Entity) (existing : Row) (attrs : Dict Value)
    (resolved : Dict Raw) (before : DB) : Option ObservationSignal → DB → Prop where
  | silent (compared : ∀ watch ∈ signalWatch entity, ∀ new ∈ attrs.lookup watch.1,
        sameValue (existing.col watch.1) new = .ok true) :
      Diffed context entity existing attrs resolved before none before
  | emitted {signal : ObservationSignal}
      (compared : ∃ watch ∈ signalWatch entity, ∃ new ∈ attrs.lookup watch.1,
        sameValue (existing.col watch.1) new = .ok false)
      (enterprise : signal.enterpriseId = context.enterpriseId)
      (item : signalKey before .item resolved = .ok signal.itemId)
      (supplier : signalKey before .supplier resolved = .ok signal.supplierId)
      (payload : ∀ watch ∈ signalWatch entity, ∀ new ∈ attrs.lookup watch.1,
        signal.payload = ⟨entity, watch.1, (existing.col watch.1).decimal?, new.decimal?⟩) :
      Diffed context entity existing attrs resolved before (some signal)
        { before with observationSignal := before.observationSignal.insert signal }

theorem sameValue_true {old new : Value} (same : sameValue old new = .ok true) : old = new := by
  unfold sameValue at same
  split at same
  · next old new =>
    have equal : old.eq new = .ok true := by
      cases compared : old.eq new with
      | ok value => simpa [compared, trap] using same
      | error signal => simp [compared, trap] at same
    unfold Decimal.eq at equal
    split at equal
    · cases equal
    · cases equal
    · rw [of_decide_eq_true (Except.ok.inj equal)]
  · exact of_decide_eq_true (Except.ok.inj same)

theorem diffSignal_ok {context : SyncContext} {entity : Entity} {existing : Row} {attrs : Dict Value}
    {resolved : Dict Raw} {before after : DB} {signal : Option ObservationSignal}
    (ran : diffSignal context entity existing attrs resolved before = .ok signal after) :
    Diffed context entity existing attrs resolved before signal after := by
  unfold diffSignal at ran
  cases watched : signalWatch entity with
  | none =>
      simp only [watched] at ran
      obtain ⟨rfl, rfl⟩ := pure_eq_ok.mp ran
      exact .silent (by simp [watched])
  | some watch =>
      cases named : attrs.lookup watch.1 with
      | none =>
          simp only [watched, named] at ran
          obtain ⟨rfl, rfl⟩ := pure_eq_ok.mp ran
          exact .silent (by simp [watched, named])
      | some new =>
          simp only [watched, named, bind_eq_ok, lift_eq_ok] at ran
          obtain ⟨same, _, ⟨compared, rfl⟩, ran⟩ := ran
          cases same with
          | true =>
              rw [if_pos rfl] at ran
              obtain ⟨rfl, rfl⟩ := pure_eq_ok.mp ran
              exact .silent (by simpa [watched, named] using compared)
          | false =>
              simp only [Bool.false_eq_true, if_false, bind_eq_ok, read_eq_ok, lift_eq_ok, write_eq_ok,
                pure_eq_ok] at ran
              obtain ⟨_, _, ⟨rfl, rfl⟩, _, _, ⟨item, rfl⟩, _, _, ⟨rfl, rfl⟩, _, _, ⟨supplier, rfl⟩, _, _, rfl,
                rfl, rfl⟩ := ran
              refine .emitted ⟨watch, watched, new, named, compared⟩ rfl item supplier fun other isWatch value isNew => ?_
              obtain rfl := Option.some.inj (watched.symm.trans isWatch)
              obtain rfl := Option.some.inj (named.symm.trans isNew)
              rfl

inductive Upserted (context : SyncContext) (entity : Entity) (resolved : Dict Raw) (provenance : Provenance)
    (before : DB) : Option ObservationSignal → DB → Prop where
  | inserted {identity : List (String × Value)} {row stored : Row}
      (identified : identityValues entity (coerced entity resolved) = .ok identity)
      (missing : (before.canonical entity).rows.filter (hasIdentity context.enterpriseId identity) = [])
      (constructed : construct entity context.now context.enterpriseId provenance
        (coerced entity resolved) = .ok row)
      (kept : storeRow before entity ((before.canonical entity).newRow row) = .ok stored) :
      Upserted context entity resolved provenance before none
        (before.setCanonical entity ((before.canonical entity).insert stored))
  | updated {identity : List (String × Value)} {existing changed stored : Row}
      {signal : Option ObservationSignal} {middle : DB}
      (identified : identityValues entity (coerced entity resolved) = .ok identity)
      (only : (before.canonical entity).rows.filter (hasIdentity context.enterpriseId identity) = [existing])
      (diffed : Diffed context entity existing (coerced entity resolved) resolved before signal middle)
      (assigned : assignAttrs entity existing (coerced entity resolved) = .ok changed)
      (kept : storeRow middle entity
        { changed with sourceProvenance := some provenance, observability := .fresh } = .ok stored) :
      Upserted context entity resolved provenance before signal
        (middle.setCanonical entity ((middle.canonical entity).update existing.id fun _ => stored))

theorem upsert_ok {context : SyncContext} {entity : Entity} {resolved : Dict Raw} {provenance : Provenance}
    {before after : DB} {created : Bool} {signal : Option ObservationSignal}
    (ran : upsert context entity resolved provenance before = .ok (created, signal) after) :
    created = true ∧ Upserted context entity resolved provenance before signal after := by
  simp only [upsert, bind_eq_ok, lift_eq_ok, scalarOrNone_eq_ok] at ran
  obtain ⟨identity, _, ⟨identified, rfl⟩, existing, _, ⟨single, rfl⟩, ran⟩ := ran
  have only := scalarOneOrNone_ok single
  cases existing with
  | none =>
      simp only [bind_eq_ok, read_eq_ok, lift_eq_ok, write_eq_ok, pure_eq_ok, Prod.mk.injEq] at ran
      obtain ⟨row, _, ⟨constructed, rfl⟩, _, _, ⟨rfl, rfl⟩, stored, _, ⟨kept, rfl⟩, _, _, rfl,
        ⟨rfl, rfl⟩, rfl⟩ := ran
      exact ⟨rfl, .inserted identified only constructed kept⟩
  | some existing =>
      simp only [bind_eq_ok, read_eq_ok, lift_eq_ok, write_eq_ok, pure_eq_ok, Prod.mk.injEq] at ran
      obtain ⟨signal, middle, diffed, changed, _, ⟨assigned, rfl⟩, _, _, ⟨rfl, rfl⟩, stored, _,
        ⟨kept, rfl⟩, _, _, rfl, ⟨rfl, rfl⟩, rfl⟩ := ran
      exact ⟨rfl, .updated identified only (diffSignal_ok diffed) assigned kept⟩

/-! ## Records, entities and batches -/

inductive RecordSynced (context : SyncContext) (entity : Entity) (mappings : List FieldMapping)
    (record : Record) (progress : Progress) (before : DB) : Progress → DB → Prop where
  | empty {attrs : Dict Raw} (extracted : extract record mappings = .ok attrs)
      (nothing : attrs.entries.isEmpty = true) :
      RecordSynced context entity mappings record progress before progress before
  | skipped {attrs : Dict Raw} {resolution : Resolution} (extracted : extract record mappings = .ok attrs)
      (resolving : resolveRefs context.enterpriseId entity attrs progress.cache before = .ok resolution before)
      (rejected : ∀ resolved, resolution.resolved = some resolved → lacksIdentity entity resolved = true) :
      RecordSynced context entity mappings record progress before
        { progress with cache := resolution.cache } before
  | upserted {attrs resolved : Dict Raw} {resolution : Resolution} {signal : Option ObservationSignal}
      {after : DB} (extracted : extract record mappings = .ok attrs) (filled : attrs.entries.isEmpty = false)
      (resolving : resolveRefs context.enterpriseId entity attrs progress.cache before = .ok resolution before)
      (accepted : resolution.resolved = some resolved) (identified : lacksIdentity entity resolved = false)
      (stored : Upserted context entity resolved (provenanceOf context mappings) before signal after) :
      RecordSynced context entity mappings record progress before
        (Progress.record { progress with cache := resolution.cache } entity true signal) after

theorem syncRecord_ok {context : SyncContext} {entity : Entity} {mappings : List FieldMapping}
    {progress next : Progress} {record : Record} {before after : DB}
    (ran : syncRecord context entity mappings progress record before = .ok next after) :
    RecordSynced context entity mappings record progress before next after := by
  simp only [syncRecord, bind_eq_ok, lift_eq_ok] at ran
  obtain ⟨attrs, _, ⟨extracted, rfl⟩, ran⟩ := ran
  split at ran
  · next nothing =>
    obtain ⟨rfl, rfl⟩ := pure_eq_ok.mp ran
    exact .empty extracted nothing
  · next filled =>
    have filled := Bool.eq_false_iff.mpr filled
    obtain ⟨resolution, middle, resolving, rest⟩ := bind_eq_ok.mp ran
    obtain rfl := resolveRefs_state resolving
    cases accepted : resolution.resolved with
    | none =>
        simp only [accepted] at rest
        obtain ⟨rfl, rfl⟩ := pure_eq_ok.mp rest
        exact .skipped extracted resolving (by simp [accepted])
    | some resolved =>
        simp only [accepted] at rest
        cases identified : lacksIdentity entity resolved with
        | true =>
            rw [if_pos identified] at rest
            obtain ⟨rfl, rfl⟩ := pure_eq_ok.mp rest
            exact .skipped extracted resolving (by simpa [accepted] using identified)
        | false =>
            simp only [identified, Bool.false_eq_true, if_false, bind_eq_ok, pure_eq_ok] at rest
            obtain ⟨⟨created, signal⟩, _, upserting, rfl, rfl⟩ := rest
            obtain ⟨rfl, stored⟩ := upsert_ok upserting
            exact .upserted extracted filled resolving accepted identified stored

/-- The mappings of one entity, as `grouped` holds them. -/
def mappingsOf (mappings : List FieldMapping) (entity : Entity) : List FieldMapping :=
  mappings.filter fun mapping => mapping.canonicalEntity = entity

/-- What every record preserves, the batch preserves. -/
theorem syncBatch_invariant {context : SyncContext} {mappings : List FieldMapping} {records : List Record}
    (holds : Progress → DB → Prop)
    (keeps : ∀ entity record progress before next after, holds progress before →
      RecordSynced context entity (mappingsOf mappings entity) record progress before next after →
      holds next after)
    {before after : DB} {progress : Progress}
    (start : holds { upserts := fun _ => 0, signalsCreated := 0, touchedItemIds := [], cache := [] } before)
    (ran : syncBatch context mappings records before = .ok progress after) : holds progress after := by
  refine foldlM_ok_invariant holds ?_ start ran
  intro progress entity before next after holding entityRan
  have folded (grouped : List FieldMapping) (same : grouped = mappingsOf mappings entity)
      (ran : records.foldlM (syncRecord context entity grouped) progress before = .ok next after) :
      holds next after := by
    subst same
    exact foldlM_ok_invariant holds (fun progress record before next after holding recordRan =>
      keeps entity record progress before next after holding (syncRecord_ok recordRan)) holding ran
  unfold syncEntity at entityRan
  cases grouped : mappings.filter fun mapping => mapping.canonicalEntity = entity with
  | nil =>
      rw [grouped] at entityRan
      obtain ⟨rfl, rfl⟩ := pure_eq_ok.mp entityRan
      exact holding
  | cons first rest =>
      rw [grouped] at entityRan
      exact folded (first :: rest) grouped.symm entityRan

/-! ## Whole runs -/

theorem ownedSource_ok {enterpriseId dataSourceId : Uuid} {before after : DB} {found : Option DataSource}
    (ran : ownedSource enterpriseId dataSourceId before = .ok found after) :
    after = before ∧ ∀ source ∈ found, before.dataSource.find? dataSourceId = some source ∧
      source.enterpriseId = enterpriseId := by
  simp only [ownedSource, scalarOrNone_eq_ok] at ran
  obtain ⟨single, rfl⟩ := ran
  refine ⟨rfl, fun source member => ?_⟩
  obtain rfl := Option.mem_def.mp member
  obtain ⟨stored, isOwned⟩ := List.mem_filter.mp (mem_of_scalarOneOrNone single)
  simp only [decide_eq_true_eq] at isOwned
  exact ⟨isOwned.1 ▸ Table.find?_of_mem stored, isOwned.2⟩

theorem ownedSource_of_found {enterpriseId dataSourceId : Uuid} {source : DataSource} {db : DB}
    (found : db.dataSource.find? dataSourceId = some source) (owned : source.enterpriseId = enterpriseId) :
    ownedSource enterpriseId dataSourceId db = .ok (some source) db := by
  have only : (db.dataSource.rows.filter fun source =>
      source.id = dataSourceId ∧ source.enterpriseId = enterpriseId) = [source] := by
    have byKey : db.dataSource.rows.filter (fun source => source.id == dataSourceId) = [source] := by
      have selected := db.dataSource.filter_key dataSourceId
      rwa [found] at selected
    have split : (db.dataSource.rows.filter fun source =>
        source.id = dataSourceId ∧ source.enterpriseId = enterpriseId) =
        (db.dataSource.rows.filter fun source => source.id == dataSourceId).filter fun source =>
          source.enterpriseId = enterpriseId := by
      rw [List.filter_filter]
      exact List.filter_congr fun source _ => by simp [Bool.beq_eq_decide_eq, Bool.and_comm]
    rw [split, byKey, List.filter_cons_of_pos (by simpa using owned)]
    rfl
  exact scalarOrNone_eq_ok.mpr ⟨by rw [only]; rfl, rfl⟩

theorem ownedSource_of_missing {enterpriseId dataSourceId : Uuid} {db : DB}
    (missing : ¬ ∃ source, db.dataSource.find? dataSourceId = some source ∧ source.enterpriseId = enterpriseId) :
    ownedSource enterpriseId dataSourceId db = .ok none db := by
  have nobody : (db.dataSource.rows.filter fun source =>
      source.id = dataSourceId ∧ source.enterpriseId = enterpriseId) = [] := by
    refine List.filter_eq_nil_iff.mpr fun source member hit => missing ?_
    obtain ⟨rfl, owned⟩ := of_decide_eq_true hit
    exact ⟨source, Table.find?_of_mem member, owned⟩
  exact scalarOrNone_eq_ok.mpr ⟨by rw [nobody]; rfl, rfl⟩

def recomputeJob (now : Timestamp) (enterpriseId : Uuid) (progress : Progress) : Job :=
  Jobs.newJob now "recompute_aggregates"
    { enterpriseId := some enterpriseId, itemIds := some progress.touchedItemIds }
    none (some enterpriseId) Jobs.defaultMaxAttempts

/-- A run that returns. -/
structure Synced (now : Timestamp) (connectors : Connectors) (enterpriseId dataSourceId : Uuid)
    (before after : DB) where
  source : DataSource
  batch : FetchBatch
  progress : Progress
  batched : DB
  gaps : Table ObservabilityGap
  found : before.dataSource.find? dataSourceId = some source
  owned : source.enterpriseId = enterpriseId
  fetched : (connectors.build source >>= fun _ => connectors.fetch source) = .ok batch
  ran : syncBatch { now, enterpriseId, dataSourceId, fetchedAt := batch.fetchedAt }
    (confirmedMappings dataSourceId before) batch.records before = .ok progress batched
  closed : (sourceUnavailable enterpriseId source.id).isOpen { batched with observabilityGap := gaps } = false
  opensNone : ∀ key : GapKey, key.isOpen { batched with observabilityGap := gaps } = true →
    key.isOpen batched = true
  final : after = { batched with
    dataSource := batched.dataSource.update source.id fun row =>
      { row with
        health := .available, lastError := none, lastSuccessAt := some batch.fetchedAt,
        lastCheckAt := some now }
    observabilityGap := gaps
    job := if progress.signalsCreated = 0 then batched.job
      else batched.job.insert (recomputeJob now enterpriseId progress) }

theorem Synced.canonical {now : Timestamp} {connectors : Connectors} {enterpriseId dataSourceId : Uuid} {before after : DB}
    (synced : Synced now connectors enterpriseId dataSourceId before after) :
    after.canonical = synced.batched.canonical := by
  have canonical := congrArg DB.canonical synced.final
  exact canonical

theorem Synced.signals {now : Timestamp} {connectors : Connectors} {enterpriseId dataSourceId : Uuid} {before after : DB}
    (synced : Synced now connectors enterpriseId dataSourceId before after) :
    after.observationSignal = synced.batched.observationSignal := by
  have signals := congrArg DB.observationSignal synced.final
  exact signals

/-- The steps of a run that returns. -/
theorem syncSource_steps {now : Timestamp} {connectors : Connectors} {enterpriseId dataSourceId : Uuid}
    {before after : DB} {result : SyncResult}
    (ran : syncSource now connectors enterpriseId dataSourceId before = .ok result after) :
    ∃ (source : DataSource) (batch : FetchBatch) (progress : Progress) (batched closed : DB),
      (before.dataSource.find? dataSourceId = some source ∧ source.enterpriseId = enterpriseId) ∧
      (connectors.build source >>= fun _ => connectors.fetch source) = .ok batch ∧
      syncBatch { now, enterpriseId, dataSourceId, fetchedAt := batch.fetchedAt }
        (confirmedMappings dataSourceId before) batch.records before = .ok progress batched ∧
      closeGap now (sourceUnavailable enterpriseId source.id) { batched with
        dataSource := batched.dataSource.update source.id fun row =>
          { row with
            health := .available, lastError := none, lastSuccessAt := some batch.fetchedAt,
            lastCheckAt := some now } } = .ok ⟨⟩ closed ∧
      after = { closed with
        job := if progress.signalsCreated = 0 then closed.job
          else closed.job.insert (recomputeJob now enterpriseId progress) } := by
  simp only [syncSource, bind_eq_ok] at ran
  obtain ⟨found, _, looked, ran⟩ := ran
  obtain ⟨rfl, facts⟩ := ownedSource_ok looked
  cases found with
  | none => simp at ran
  | some source =>
      simp only [bind_eq_ok, lift_eq_ok] at ran
      obtain ⟨_, _, ⟨_, rfl⟩, ran⟩ := ran
      cases fetched : connectors.build source >>= fun _ => connectors.fetch source with
      | error reason =>
          rw [fetched] at ran
          cases reason <;> simp at ran
      | ok batch =>
          simp only [fetched, bind_eq_ok, read_eq_ok, recordSuccess, write_eq_ok, pure_eq_ok] at ran
          obtain ⟨_, _, ⟨rfl, rfl⟩, progress, batched, batchRan, _, closed, ⟨_, _, rfl, closing⟩, _, _,
            enqueued, _, rfl⟩ := ran
          refine ⟨source, batch, progress, batched, closed, facts source rfl, fetched, batchRan, closing, ?_⟩
          unfold enqueueRecompute at enqueued
          split at enqueued
          · next none =>
            obtain ⟨_, rfl⟩ := pure_eq_ok.mp enqueued
            rw [if_pos none]
          · next some =>
            rw [Jobs.enqueue, write_eq_ok] at enqueued
            rw [if_neg some, ← enqueued]
            rfl

theorem syncSource_ok {now : Timestamp} {connectors : Connectors} {enterpriseId dataSourceId : Uuid}
    {before after : DB} {result : SyncResult}
    (ran : syncSource now connectors enterpriseId dataSourceId before = .ok result after) :
    Nonempty (Synced now connectors enterpriseId dataSourceId before after) := by
  obtain ⟨source, batch, progress, batched, closedState, ⟨found, owned⟩, fetched, batchRan, closing, rfl⟩ :=
    syncSource_steps ran
  have opensNone : ∀ key : GapKey, key.isOpen closedState = true → _ := fun key isOpen =>
    closeGap_opens_none closing isOpen
  obtain ⟨closed, gaps, rfl⟩ := closeGap_ok closing
  exact ⟨⟨source, batch, progress, batched, gaps, found, owned, fetched, batchRan, closed, opensNone, rfl⟩⟩

/-! ## Frames of a run -/

theorem construct_ok {entity : Entity} {now : Timestamp} {enterpriseId : Uuid} {provenance : Provenance}
    {attrs : Dict Value} {row : Row} (constructed : construct entity now enterpriseId provenance attrs = .ok row) :
    row.enterpriseId = enterpriseId ∧ row.createdAt = now ∧ row.sourceProvenance = some provenance ∧
      row.observability = .fresh := by
  unfold construct at constructed
  split at constructed
  · cases constructed
  · split at constructed
    · cases constructed
    · cases constructed
      exact ⟨rfl, rfl, rfl, rfl⟩

structure StampedBy (dataSourceId : Uuid) (row : Row) : Prop where
  fresh : row.observability = .fresh
  source : ∃ provenance, row.sourceProvenance = some provenance ∧ provenance.dataSourceId = dataSourceId

/-- A frame that each single write of a batch respects. -/
structure BatchFrame (dataSourceId : Uuid) (frame : Frame DB) : Prop where
  signal : ∀ db signal, frame.rel db { db with observationSignal := db.observationSignal.insert signal }
  insert : ∀ (db : DB) entity row, StampedBy dataSourceId row →
    frame.rel db (db.setCanonical entity ((db.canonical entity).insert row))
  update : ∀ (db : DB) entity id row, StampedBy dataSourceId row →
    frame.rel db (db.setCanonical entity ((db.canonical entity).update id fun _ => row))

/-- A frame that the writes after the batch respect as well. -/
structure SyncFrame (dataSourceId : Uuid) (frame : Frame DB) : Prop extends BatchFrame dataSourceId frame where
  source : ∀ (db : DB) id change, frame.rel db { db with dataSource := db.dataSource.update id change }
  gaps : ∀ (db : DB) gaps, frame.rel db { db with observabilityGap := gaps }
  job : ∀ (db : DB) now enterpriseId progress,
    frame.rel db { db with job := db.job.insert (recomputeJob now enterpriseId progress) }

section Frames

variable {frame : Frame DB} {context : SyncContext} {entity : Entity} {before after : DB}

theorem Upserted.respects {resolved : Dict Raw} {mappings : List FieldMapping}
    {signal : Option ObservationSignal} (allowed : BatchFrame context.dataSourceId frame)
    (step : Upserted context entity resolved (provenanceOf context mappings) before signal after) :
    frame.rel before after := by
  cases step with
  | inserted _ _ constructed kept =>
      have stored := (storeRow_ok kept).2.1
      obtain ⟨_, _, provenance, fresh⟩ := construct_ok constructed
      exact allowed.insert before entity _
        ⟨stored.observability.trans fresh, _, stored.provenance.trans provenance, rfl⟩
  | updated _ _ diffed _ kept =>
      have stored := (storeRow_ok kept).2.1
      have stamped : StampedBy context.dataSourceId _ := ⟨stored.observability, _, stored.provenance, rfl⟩
      cases diffed with
      | silent _ => exact allowed.update before entity _ _ stamped
      | emitted _ _ _ _ _ => exact frame.trans (allowed.signal before _) (allowed.update _ entity _ _ stamped)

theorem syncBatch_frame {mappings : List FieldMapping} {records : List Record} {progress : Progress}
    (allowed : BatchFrame context.dataSourceId frame)
    (ran : syncBatch context mappings records before = .ok progress after) : frame.rel before after := by
  refine syncBatch_invariant (fun _ db => frame.rel before db) ?_ (frame.refl before) ran
  intro entity record progress middle next last holding step
  cases step with
  | empty _ _ => exact holding
  | skipped _ _ _ => exact holding
  | upserted _ _ _ _ _ stored => exact frame.trans holding (stored.respects allowed)

theorem syncSource_frame {now : Timestamp} {connectors : Connectors} {enterpriseId dataSourceId : Uuid}
    {result : SyncResult} (allowed : SyncFrame dataSourceId frame)
    (ran : syncSource now connectors enterpriseId dataSourceId before = .ok result after) :
    frame.rel before after := by
  obtain ⟨synced⟩ := syncSource_ok ran
  have succeeded := frame.trans (syncBatch_frame allowed.toBatchFrame synced.ran)
    (allowed.source synced.batched synced.source.id fun row =>
      { row with
        health := .available, lastError := none, lastSuccessAt := some synced.batch.fetchedAt,
        lastCheckAt := some now })
  have closed := frame.trans succeeded (allowed.gaps _ synced.gaps)
  rw [synced.final]
  split
  · exact closed
  · exact frame.trans closed (allowed.job _ now enterpriseId synced.progress)

end Frames

end SmartProcurement.Integration
