import SmartProcurement.Integration.Service
import SmartProcurement.Observation.Aggregates
import SmartProcurement.Transition.Runs

namespace SmartProcurement.Integration

open Relational Transaction Transition Observation

/-! # Stock data of dead sources

Source health, the open gap and the observability of a row are three records of
one fact.  Sync and the connection check keep the first two in step; nothing
carries them over to the rows that the source delivered.
-/

inductive SourceCall where
  | createDataSource (encrypt : Dict Json → Except Error String) (enterpriseId : Uuid) (new : NewSource)
  | syncSource (now : Timestamp) (connectors : Connectors) (enterpriseId dataSourceId : Uuid)
  | checkConnection (now : Timestamp) (connectors : Connectors) (enterpriseId dataSourceId : Uuid)
  | recomputeAggregates (now : Timestamp) (enterpriseId : Uuid) (itemIds : Option (List Uuid))

def SourceCall.commit (db : DB) : SourceCall → DB
  | .createDataSource encrypt enterpriseId new =>
      (transact (Integration.createDataSource encrypt enterpriseId new) db).2
  | .syncSource now connectors enterpriseId dataSourceId =>
      (transact (Integration.syncSource now connectors enterpriseId dataSourceId) db).2
  | .checkConnection now connectors enterpriseId dataSourceId =>
      (transact (Integration.checkConnection now connectors enterpriseId dataSourceId) db).2
  | .recomputeAggregates now enterpriseId itemIds =>
      (transact (Observation.recomputeAggregates now enterpriseId itemIds) db).2

def SourceStep (before : DB) (call : SourceCall) (after : DB) : Prop := call.commit before = after

/-! ## Dead sources -/

def dead (db : DB) (source : DataSource) : Prop :=
  source.health = .unavailable ∧ (sourceUnavailable source.enterpriseId source.id).isOpen db = true

def fromDeadSource (db : DB) (row : Row) : Prop :=
  ∃ provenance source, row.sourceProvenance = some provenance ∧
    db.dataSource.find? provenance.dataSourceId = some source ∧ dead db source

instance (db : DB) (source : DataSource) : Decidable (dead db source) :=
  inferInstanceAs (Decidable (_ ∧ _))

instance (db : DB) (row : Row) : Decidable (fromDeadSource db row) :=
  decidable_of_iff (∃ provenance ∈ row.sourceProvenance,
      ∃ source ∈ db.dataSource.find? provenance.dataSourceId, dead db source)
    ⟨fun ⟨provenance, stamped, source, found, isDead⟩ => ⟨provenance, source, stamped, found, isDead⟩,
      fun ⟨provenance, source, stamped, found, isDead⟩ => ⟨provenance, stamped, source, found, isDead⟩⟩

def stockRows (db : DB) : List Row := (db.canonical .stockLevel).rows

def stockOf (db : DB) (itemId : Uuid) : List Row :=
  (stockRows db).filter fun row => row.uuid? "item_id" = some itemId

/-- Stock rows that all come from dead sources give no aggregate values. -/
def DeadSourceIgnored (now : Timestamp) (enterpriseId itemId : Uuid) (db : DB) : Prop :=
  (∀ row ∈ stockOf db itemId, fromDeadSource db row) →
    recomputeOne now enterpriseId itemId db = .ok none db

section Recomputation

variable {now : Timestamp} {enterpriseId itemId : Uuid} {db : DB}

theorem recomputeOne_eq_none :
    recomputeOne now enterpriseId itemId db = .ok none db ↔ trustedRows db .stockLevel itemId = [] := by
  simp only [recomputeOne, bind_eq_ok, read_eq_ok, lift_eq_ok]
  constructor
  · rintro ⟨_, _, ⟨rfl, rfl⟩, values, _, ⟨computed, rfl⟩, ran⟩
    cases values with
    | none => exact aggregateValues_eq_none.mp computed
    | some values => simp at ran
  · intro none
    exact ⟨_, _, ⟨rfl, rfl⟩, _, _, ⟨aggregateValues_eq_none.mpr none, rfl⟩, rfl⟩

theorem recomputeOne_eq_none_of_fresh (fresh : ∀ row ∈ stockRows db, row.observability = .fresh) :
    recomputeOne now enterpriseId itemId db = .ok none db ↔ stockOf db itemId = [] := by
  rw [recomputeOne_eq_none]
  have same : trustedRows db .stockLevel itemId = stockOf db itemId := by
    refine List.filter_congr fun row member => ?_
    have trusted : row.trusted = true := by simp [Row.trusted, fresh row member]
    simp [trusted]
  rw [same]

end Recomputation

/-! ## No row is ever marked as lost -/

def stockFresh (db : DB) : Prop := ∀ row ∈ stockRows db, row.observability = .fresh

theorem stockRows_insert {db : DB} {entity : Entity} {added row : Row}
    (member : row ∈ stockRows (db.setCanonical entity ((db.canonical entity).insert added))) :
    row ∈ stockRows db ∨ ∃ id, row = { added with id } := by
  unfold stockRows at member ⊢
  by_cases same : Entity.stockLevel = entity
  · subst same
    rw [DB.setCanonical_self] at member
    rcases List.mem_append.mp member with old | new
    · exact .inl old
    · exact .inr ⟨_, List.mem_singleton.mp new⟩
  · rw [DB.setCanonical_other db _ same] at member
    exact .inl member

theorem stockRows_update {db : DB} {entity : Entity} {id : Uuid} {changed row : Row}
    (member : row ∈ stockRows (db.setCanonical entity ((db.canonical entity).update id fun _ => changed))) :
    row ∈ stockRows db ∨ ∃ id, row = { changed with id } := by
  unfold stockRows at member ⊢
  by_cases same : Entity.stockLevel = entity
  · subst same
    rw [DB.setCanonical_self] at member
    obtain ⟨old, oldMember, rfl⟩ := Table.mem_updateWhere.mp member
    split
    · exact .inr ⟨_, rfl⟩
    · exact .inl oldMember
  · rw [DB.setCanonical_other db _ same] at member
    exact .inl member

theorem stockFresh_sync (dataSourceId : Uuid) : SyncFrame dataSourceId (Frame.keeps stockFresh) where
  signal _ _ := id
  insert db entity added stamped := by
    intro fresh row member
    rcases stockRows_insert member with old | ⟨_, rfl⟩
    · exact fresh row old
    · exact stamped.fresh
  update db entity id changed stamped := by
    intro fresh row member
    rcases stockRows_update member with old | ⟨_, rfl⟩
    · exact fresh row old
    · exact stamped.fresh
  source _ _ _ := id
  gaps _ _ := id
  job _ _ _ _ := id

theorem SourceCall.stockFresh {before : DB} (call : SourceCall) (fresh : stockFresh before) :
    Integration.stockFresh (call.commit before) := by
  cases call with
  | createDataSource encrypt enterpriseId new =>
      refine transact_preserves fresh fun _ _ ran => ?_
      obtain ⟨_, _, rfl⟩ := createDataSource_ok ran
      exact fresh
  | syncSource now connectors enterpriseId dataSourceId =>
      exact transact_preserves fresh fun _ _ ran => syncSource_frame (stockFresh_sync dataSourceId) ran fresh
  | checkConnection now connectors enterpriseId dataSourceId =>
      refine transact_preserves fresh fun _ _ ran => ?_
      obtain ⟨_, _, _, _, _, rfl, _, _⟩ := checkConnection_ok ran
      exact fresh
  | recomputeAggregates now enterpriseId itemIds =>
      refine transact_preserves fresh fun _ _ ran => ?_
      obtain ⟨_, rfl⟩ := (recomputeAggregates_ok ran).1
      exact fresh

/-! ## Runs in which no check kills a source that has delivered stock -/

/-- The check reports the source as available, or no stock row came from it. -/
def sparesStock (before : DB) : SourceCall → Prop
  | .checkConnection now connectors _ dataSourceId =>
      (∀ source check, before.dataSource.find? dataSourceId = some source →
        checkResult now connectors source = .ok check → check.health = "available") ∨
      ∀ row ∈ stockRows before, ∀ provenance, row.sourceProvenance = some provenance →
        provenance.dataSourceId ≠ dataSourceId
  | _ => True

def stockAlive (db : DB) : Prop :=
  ∀ row ∈ stockRows db, ∃ provenance source, row.sourceProvenance = some provenance ∧
    db.dataSource.find? provenance.dataSourceId = some source ∧ ¬ dead db source

theorem stockAlive.notDead {db : DB} (alive : stockAlive db) :
    ∀ row ∈ stockRows db, ¬ fromDeadSource db row := by
  rintro row member ⟨provenance, source, stamped, found, isDead⟩
  obtain ⟨_, other, sameStamp, otherFound, notDead⟩ := alive row member
  rw [stamped, Option.some.injEq] at sameStamp
  subst sameStamp
  rw [found, Option.some.injEq] at otherFound
  exact notDead (otherFound ▸ isDead)

/-- During a batch the sources stand still and the rows it writes are stamped. -/
def stamping (dataSourceId : Uuid) : Frame DB where
  rel before after := after.dataSource = before.dataSource ∧
    after.observabilityGap = before.observabilityGap ∧
    ∀ row ∈ stockRows after, row ∈ stockRows before ∨ StampedBy dataSourceId row
  refl _ := ⟨rfl, rfl, fun _ member => .inl member⟩
  trans first second := ⟨second.1.trans first.1, second.2.1.trans first.2.1, fun row member =>
    (second.2.2 row member).elim (first.2.2 row) .inr⟩

theorem stamping_batch (dataSourceId : Uuid) : BatchFrame dataSourceId (stamping dataSourceId) where
  signal _ _ := ⟨rfl, rfl, fun _ member => .inl member⟩
  insert db entity added stamped := by
    refine ⟨rfl, rfl, fun row member => (stockRows_insert member).imp id ?_⟩
    rintro ⟨_, rfl⟩
    exact ⟨stamped.fresh, stamped.source⟩
  update db entity id changed stamped := by
    refine ⟨rfl, rfl, fun row member => (stockRows_update member).imp (fun old => old) ?_⟩
    rintro ⟨_, rfl⟩
    exact ⟨stamped.fresh, stamped.source⟩

theorem stockAlive.created {before after : DB} {encrypt : Dict Json → Except Error String}
    {enterpriseId id : Uuid} {new : NewSource} (alive : stockAlive before)
    (ran : Integration.createDataSource encrypt enterpriseId new before = .ok id after) :
    stockAlive after := by
  obtain ⟨_, _, rfl⟩ := createDataSource_ok ran
  intro row member
  obtain ⟨provenance, source, stamped, found, notDead⟩ := alive row member
  exact ⟨provenance, source, stamped, Table.find?_insert_of_find? found _, notDead⟩

theorem stockAlive.synced {before after : DB} {now : Timestamp} {connectors : Connectors}
    {enterpriseId dataSourceId : Uuid} {result : SyncResult} (alive : stockAlive before)
    (ran : Integration.syncSource now connectors enterpriseId dataSourceId before = .ok result after) :
    stockAlive after := by
  obtain ⟨synced⟩ := syncSource_ok ran
  obtain ⟨sources, gaps, rows⟩ := syncBatch_frame (stamping_batch dataSourceId) synced.ran
  have key : synced.source.id = dataSourceId := (Table.find?_some synced.found).2
  have opensNone := synced.opensNone
  have final := synced.final
  rw [sources, key] at final
  -- the source of the run is available now
  have available : ∃ source, after.dataSource.find? dataSourceId = some source ∧ ¬ dead after source := by
    refine ⟨_, by rw [final]; exact (Table.find?_update_self ..).trans (by rw [synced.found]; rfl), ?_⟩
    rintro ⟨unavailable, _⟩
    cases unavailable
  intro row member
  have origin : row ∈ stockRows before ∨ StampedBy dataSourceId row := rows row (by rw [final] at member; exact member)
  rcases origin with old | ⟨_, provenance, stamped, rfl⟩
  · obtain ⟨provenance, source, stamped, found, notDead⟩ := alive row old
    by_cases same : provenance.dataSourceId = dataSourceId
    · obtain ⟨current, currentFound, currentAlive⟩ := available
      exact ⟨provenance, current, stamped, same ▸ currentFound, currentAlive⟩
    · refine ⟨provenance, source, stamped, ?_, ?_⟩
      · rw [final]
        exact (Table.find?_update_other _ _ same).trans found
      · rintro ⟨unavailable, isOpen⟩
        refine notDead ⟨unavailable, ?_⟩
        rw [final] at isOpen
        have before := opensNone _ isOpen
        rwa [GapKey.isOpen, gaps] at before
  · obtain ⟨current, currentFound, currentAlive⟩ := available
    exact ⟨provenance, current, stamped, currentFound, currentAlive⟩

theorem stockAlive.checked {before after : DB} {now : Timestamp} {connectors : Connectors}
    {enterpriseId dataSourceId : Uuid} {check : ConnectionCheck} (alive : stockAlive before)
    (spares : sparesStock before (.checkConnection now connectors enterpriseId dataSourceId))
    (ran : Integration.checkConnection now connectors enterpriseId dataSourceId before = .ok check after) :
    stockAlive after := by
  obtain ⟨checkedSource, gaps, known, owned, answered, rfl, _, others⟩ := checkConnection_ok ran
  intro row member
  obtain ⟨provenance, source, stamped, found, notDead⟩ := alive row member
  by_cases same : provenance.dataSourceId = dataSourceId
  · rcases spares with available | foreign
    · refine ⟨provenance, Table.assign (Integration.checked check) checkedSource, stamped, ?_, ?_⟩
      · rw [same]
        exact (Table.find?_update_self ..).trans (by rw [known]; rfl)
      rintro ⟨unavailable, _⟩
      have health := available checkedSource check known answered
      simp [Table.assign, Keyed.withKey, Integration.checked, health] at unavailable
    · exact absurd same (foreign row member provenance stamped)
  · refine ⟨provenance, source, stamped, (Table.find?_update_other _ _ same).trans found, ?_⟩
    rintro ⟨unavailable, isOpen⟩
    refine notDead ⟨unavailable, others _ (fun equal => same ?_) isOpen⟩
    have named : ScopeRef.id source.id = .id dataSourceId := congrArg GapKey.scopeRef equal
    rw [ScopeRef.id.injEq] at named
    exact (Table.find?_some found).2.symm.trans named

theorem SourceCall.stockAlive {before : DB} (call : SourceCall) (alive : stockAlive before)
    (spares : sparesStock before call) : Integration.stockAlive (call.commit before) := by
  cases call with
  | createDataSource encrypt enterpriseId new =>
      exact transact_preserves alive fun _ _ ran => alive.created ran
  | syncSource now connectors enterpriseId dataSourceId =>
      exact transact_preserves alive fun _ _ ran => alive.synced ran
  | checkConnection now connectors enterpriseId dataSourceId =>
      exact transact_preserves alive fun _ _ ran => alive.checked spares ran
  | recomputeAggregates now enterpriseId itemIds =>
      refine transact_preserves alive fun _ _ ran => ?_
      obtain ⟨_, rfl⟩ := (recomputeAggregates_ok ran).1
      exact alive

/-- In a run whose checks spare the sources that delivered stock, dead sources
are ignored throughout.  In any reachable state they are ignored for an item
exactly when it has a stock row from a source that is not dead, or no stock row. -/
theorem deadSourceIgnored_iff {initial : DB} (empty : stockRows initial = []) :
    (∀ calls db, Run (fun before call after => SourceStep before call after ∧ sparesStock before call)
        initial calls db →
      ∀ now enterpriseId itemId, DeadSourceIgnored now enterpriseId itemId db) ∧
    ∀ calls db, Run SourceStep initial calls db → ∀ now enterpriseId itemId,
      (DeadSourceIgnored now enterpriseId itemId db ↔
        (∃ row ∈ stockOf db itemId, ¬ fromDeadSource db row) ∨ stockOf db itemId = []) := by
  have fresh : stockFresh initial := by simp [stockFresh, empty]
  have alive : stockAlive initial := by simp [stockAlive, empty]
  constructor
  · intro calls db run now enterpriseId itemId allDead
    have invariant : stockFresh db ∧ stockAlive db := by
      refine run.invariant (fun db => stockFresh db ∧ stockAlive db) ⟨fresh, alive⟩ ?_
      rintro before call _ ⟨fresh, alive⟩ ⟨rfl, spares⟩
      exact ⟨call.stockFresh fresh, call.stockAlive alive spares⟩
    refine (recomputeOne_eq_none_of_fresh invariant.1).mpr (List.eq_nil_iff_forall_not_mem.mpr ?_)
    intro row member
    exact invariant.2.notDead row (List.mem_filter.mp member).1 (allDead row member)
  · intro calls db run now enterpriseId itemId
    have freshNow : stockFresh db := by
      refine run.invariant stockFresh fresh ?_
      rintro before call _ fresh rfl
      exact call.stockFresh fresh
    unfold DeadSourceIgnored
    rw [recomputeOne_eq_none_of_fresh freshNow]
    constructor
    · intro ignored
      by_cases allDead : ∀ row ∈ stockOf db itemId, fromDeadSource db row
      · exact .inr (ignored allDead)
      · simp only [not_forall] at allDead
        obtain ⟨row, member, notDead⟩ := allDead
        exact .inl ⟨row, member, notDead⟩
    · rintro (⟨row, member, notDead⟩ | none) allDead
      · exact absurd (allDead row member) notDead
      · exact none

/-! ## A source that succeeds first and fails later -/

def flakyRun : List SourceCall := [
  .createDataSource (fun _ => .ok "") 1 stockSheet,
  .syncSource 1 (flaky "10") 1 1,
  .checkConnection 2 (flaky "10") 1 1]

/-- Up to the failing check nothing is wrong. -/
theorem deadSourceIgnored_before_check :
    DeadSourceIgnored 3 1 1 ((flakyRun.take 2).foldl SourceCall.commit mappedStockSheet) :=
  (deadSourceIgnored_iff rfl).1 (flakyRun.take 2) _
    ((Run.start.next ⟨rfl, trivial⟩).next ⟨rfl, trivial⟩) 3 1 1

theorem deadSource_feeds_aggregate :
    ∃ db, Run SourceStep mappedStockSheet flakyRun db ∧ ¬ DeadSourceIgnored 3 1 1 db := by
  refine ⟨flakyRun.foldl SourceCall.commit mappedStockSheet, ((Run.start.next rfl).next rfl).next rfl, ?_⟩
  intro ignored
  have allDead : ∀ row ∈ stockOf (flakyRun.foldl SourceCall.commit mappedStockSheet) 1,
      fromDeadSource (flakyRun.foldl SourceCall.commit mappedStockSheet) row := by
    decide +kernel
  have trusted : (trustedRows (flakyRun.foldl SourceCall.commit mappedStockSheet) .stockLevel 1).length = 1 := by
    decide +kernel
  rw [recomputeOne_eq_none.mp (ignored allDead)] at trusted
  cases trusted

end SmartProcurement.Integration
