import SmartProcurement.Integration.Service
import SmartProcurement.Transition.Runs

namespace SmartProcurement.Integration

open Relational Transaction Transition Observation

/-! # Source health and the gaps of a source

The service and sync write the health of a source and its gap side by side.  The
two agree in every state that their calls reach, because a call that fails on
the way is rolled back with both.
-/

inductive ServiceCall where
  | createDataSource (encrypt : Dict Json → Except Error String) (enterpriseId : Uuid) (new : NewSource)
  | updateDataSource (encrypt : Dict Json → Except Error String) (enterpriseId dataSourceId : Uuid)
      (update : SourceUpdate)
  | uploadFileContent (enterpriseId dataSourceId : Uuid) (content : String)
  | checkConnection (now : Timestamp) (connectors : Connectors) (enterpriseId dataSourceId : Uuid)
  | syncSource (now : Timestamp) (connectors : Connectors) (enterpriseId dataSourceId : Uuid)

def ServiceCall.commit (db : DB) : ServiceCall → DB
  | .createDataSource encrypt enterpriseId new =>
      (transact (Integration.createDataSource encrypt enterpriseId new) db).2
  | .updateDataSource encrypt enterpriseId dataSourceId update =>
      (transact (Integration.updateDataSource encrypt enterpriseId dataSourceId update) db).2
  | .uploadFileContent enterpriseId dataSourceId content =>
      (transact (Integration.uploadFileContent enterpriseId dataSourceId content) db).2
  | .checkConnection now connectors enterpriseId dataSourceId =>
      (transact (Integration.checkConnection now connectors enterpriseId dataSourceId) db).2
  | .syncSource now connectors enterpriseId dataSourceId =>
      (transact (Integration.syncSource now connectors enterpriseId dataSourceId) db).2

/-! ## The invariant -/

def gapKey (source : DataSource) : GapKey := sourceUnavailable source.enterpriseId source.id

structure Consistent (db : DB) : Prop where
  single : ∀ source ∈ db.dataSource.rows, ((gapKey source).openGaps db).length ≤ 1
  unavailable : ∀ source ∈ db.dataSource.rows, (gapKey source).openGaps db ≠ [] → source.health = .unavailable
  known : ∀ enterpriseId id, (sourceUnavailable enterpriseId id).openGaps db ≠ [] →
    ∃ source ∈ db.dataSource.rows, source.id = id ∧ source.enterpriseId = enterpriseId

/-- One source is written together with its gap. -/
structure Settles (source changed : DataSource) (before after : DB) : Prop where
  stored : source ∈ before.dataSource.rows
  sameId : changed.id = source.id
  sameEnterprise : changed.enterpriseId = source.enterpriseId
  written : after.dataSource = before.dataSource.update source.id fun _ => changed
  single : ((gapKey source).openGaps after).length ≤ 1
  unavailable : (gapKey source).openGaps after ≠ [] → changed.health = .unavailable
  others : ∀ key : GapKey, key ≠ gapKey source → key.openGaps after = key.openGaps before

section Steps

variable {now : Timestamp} {connectors : Connectors} {enterpriseId dataSourceId : Uuid} {before after : DB}
variable {source changed : DataSource}

theorem Settles.sources (settles : Settles source changed before after) {other : DataSource} :
    other ∈ after.dataSource.rows ↔ (other ∈ before.dataSource.rows ∧ other.id ≠ source.id) ∨ other = changed := by
  rw [settles.written]
  exact Table.mem_update_const settles.stored settles.sameId

theorem gapKey_congr (sameId : changed.id = source.id) (sameEnterprise : changed.enterpriseId = source.enterpriseId) :
    gapKey changed = gapKey source := by
  rw [gapKey, sameId, sameEnterprise, gapKey]

theorem sourceUnavailable_inj {otherEnterprise otherId : Uuid}
    (same : sourceUnavailable otherEnterprise otherId = sourceUnavailable enterpriseId dataSourceId) :
    otherEnterprise = enterpriseId ∧ otherId = dataSourceId := by
  simpa [sourceUnavailable] using same

theorem Consistent.settled (consistent : Consistent before) (settles : Settles source changed before after) :
    Consistent after := by
  have key := gapKey_congr settles.sameId settles.sameEnterprise
  have elsewhere {other : DataSource} (different : other.id ≠ source.id) :
      (gapKey other).openGaps after = (gapKey other).openGaps before :=
    settles.others _ fun same => different (sourceUnavailable_inj same).2
  constructor
  · intro other member
    rcases settles.sources.mp member with ⟨old, different⟩ | rfl
    · rw [elsewhere different]
      exact consistent.single other old
    · rw [key]
      exact settles.single
  · intro other member isOpen
    rcases settles.sources.mp member with ⟨old, different⟩ | rfl
    · rw [elsewhere different] at isOpen
      exact consistent.unavailable other old isOpen
    · rw [key] at isOpen
      exact settles.unavailable isOpen
  · intro enterpriseId id isOpen
    by_cases own : sourceUnavailable enterpriseId id = gapKey source
    · obtain ⟨rfl, rfl⟩ := sourceUnavailable_inj own
      exact ⟨changed, settles.sources.mpr (.inr rfl), settles.sameId, settles.sameEnterprise⟩
    · rw [settles.others _ own] at isOpen
      obtain ⟨other, member, rfl, rfl⟩ := consistent.known enterpriseId id isOpen
      by_cases same : other.id = source.id
      · obtain rfl : other = source := Table.eq_of_key_eq member settles.stored same
        exact absurd rfl own
      · exact ⟨other, settles.sources.mpr (.inl ⟨member, same⟩), rfl, rfl⟩

theorem Consistent.created {encrypt : Dict Json → Except Error String} {new : NewSource} {id : Uuid}
    (consistent : Consistent before) (ran : createDataSource encrypt enterpriseId new before = .ok id after) :
    Consistent after := by
  obtain ⟨secrets, credentialRef, rfl⟩ := createDataSource_ok ran
  -- no gap can refer to a source that did not exist
  have unheard : (gapKey (before.dataSource.newRow (newSource enterpriseId new credentialRef))).openGaps before = [] := by
    by_contra isOpen
    obtain ⟨other, member, same, _⟩ := consistent.known _ _ isOpen
    exact absurd same (Nat.ne_of_lt (Table.key_lt_freshKey member))
  have rows {other : DataSource}
      (member : other ∈ (before.dataSource.insert (newSource enterpriseId new credentialRef)).rows) :
      other ∈ before.dataSource.rows ∨ other = before.dataSource.newRow (newSource enterpriseId new credentialRef) := by
    simpa using member
  constructor
  · intro other member
    rcases rows member with old | rfl
    · exact consistent.single other old
    · exact (congrArg List.length unheard).le.trans (Nat.zero_le 1)
  · intro other member isOpen
    rcases rows member with old | rfl
    · exact consistent.unavailable other old isOpen
    · exact absurd unheard isOpen
  · intro enterpriseId id isOpen
    obtain ⟨other, member, facts⟩ := consistent.known enterpriseId id isOpen
    exact ⟨other, List.mem_append_left _ member, facts⟩

theorem Consistent.reconfigured (consistent : Consistent before) (moved : Reconfigured before after) :
    Consistent after := by
  obtain ⟨source, changed, stored, sameId, sameEnterprise, sameHealth, written⟩ := moved.source
  have gaps (key : GapKey) : key.openGaps after = key.openGaps before := by
    rw [GapKey.openGaps, moved.gaps, GapKey.openGaps]
  refine consistent.settled ⟨stored, sameId, sameEnterprise, written, ?_, ?_, fun key _ => gaps key⟩
  · rw [gaps]
    exact consistent.single source stored
  · rw [gaps, sameHealth]
    exact consistent.unavailable source stored

theorem settleGap_frame {key : GapKey} {check : ConnectionCheck} {done : PUnit}
    (ran : settleGap now key check before = .ok done after) :
    (key.openGaps after).length ≤ 1 ∧ (key.openGaps after ≠ [] → check.health ≠ "available") ∧
      ∀ other : GapKey, other ≠ key → other.openGaps after = other.openGaps before := by
  unfold settleGap at ran
  split at ran
  · have closed := closeGap_none ran
    exact ⟨by simp [closed], fun isOpen => absurd closed isOpen, fun _ => closeGap_frame ran⟩
  · next failed => exact ⟨(openGap_single ran).le, fun _ => failed, fun _ => openGap_frame ran⟩

theorem Consistent.checked {check : ConnectionCheck} (consistent : Consistent before)
    (ran : checkConnection now connectors enterpriseId dataSourceId before = .ok check after) : Consistent after := by
  obtain ⟨source, done, found, rfl, _, settled⟩ := checkConnection_settled ran
  obtain ⟨stored, rfl⟩ := Table.find?_some found
  obtain ⟨_, ⟨gaps, written⟩, _⟩ := settleGap_ok settled
  obtain ⟨single, failed, others⟩ := settleGap_frame settled
  have kept : (Integration.checked check source).id = source.id ∧
      (Integration.checked check source).enterpriseId = source.enterpriseId := by
    unfold Integration.checked
    split <;> exact ⟨rfl, rfl⟩
  have settles : Settles source (Integration.checked check source) before after := {
    stored
    sameId := kept.1
    sameEnterprise := kept.2
    written := by
      rw [written]
      exact Table.update_eq_const found
    single
    unavailable := fun isOpen => by rw [Integration.checked, if_neg (failed isOpen)]
    others }
  exact consistent.settled settles

/-! ### Sync -/

def succeeded (now fetchedAt : Timestamp) (source : DataSource) : DataSource :=
  { source with
    health := .available, lastError := none, lastSuccessAt := some fetchedAt, lastCheckAt := some now }

/-- A run that returns closes the gap of its source after the batch. -/
theorem syncSource_settled {result : SyncResult}
    (ran : syncSource now connectors enterpriseId dataSourceId before = .ok result after) :
    ∃ (source : DataSource) (batch : FetchBatch) (progress : Progress) (batched closed : DB),
      before.dataSource.find? dataSourceId = some source ∧
      source.enterpriseId = enterpriseId ∧
      syncBatch { now, enterpriseId, dataSourceId, fetchedAt := batch.fetchedAt }
        (confirmedMappings dataSourceId before) batch.records before = .ok progress batched ∧
      closeGap now (sourceUnavailable enterpriseId source.id)
        { batched with
          dataSource := batched.dataSource.update source.id (succeeded now batch.fetchedAt) } = .ok ⟨⟩ closed ∧
      after.dataSource = closed.dataSource ∧ after.observabilityGap = closed.observabilityGap := by
  obtain ⟨source, batch, progress, batched, closed, ⟨found, owned⟩, _, batchRan, closing, rfl⟩ := syncSource_steps ran
  exact ⟨source, batch, progress, batched, closed, found, owned, batchRan, closing, rfl, rfl⟩

theorem fixesHealth_batch (dataSourceId : Uuid) :
    BatchFrame dataSourceId (Frame.fixes fun db => (db.dataSource, db.observabilityGap)) where
  signal _ _ := rfl
  insert _ _ _ _ := rfl
  update _ _ _ _ _ := rfl

theorem Consistent.synced {result : SyncResult} (consistent : Consistent before)
    (ran : syncSource now connectors enterpriseId dataSourceId before = .ok result after) : Consistent after := by
  obtain ⟨source, batch, progress, batched, closed, found, rfl, batchRan, closing, sources, gaps⟩ :=
    syncSource_settled ran
  obtain ⟨stored, _⟩ := Table.find?_some found
  obtain ⟨sameSources, sameGaps⟩ := Prod.mk.inj (syncBatch_frame (fixesHealth_batch dataSourceId) batchRan)
  have closedSources : closed.dataSource = batched.dataSource.update source.id (succeeded now batch.fetchedAt) := by
    obtain ⟨_, _, rfl⟩ := closeGap_ok closing
    rfl
  have openGaps (key : GapKey) : key.openGaps after = key.openGaps closed := by
    rw [GapKey.openGaps, gaps, GapKey.openGaps]
  have nothing : (gapKey source).openGaps after = [] := (openGaps _).trans (closeGap_none closing)
  have settles : Settles source (succeeded now batch.fetchedAt source) before after := {
    stored
    sameId := rfl
    sameEnterprise := rfl
    written := by
      rw [sources, closedSources, sameSources]
      exact Table.update_eq_const (Table.find?_of_mem stored)
    single := by simp [nothing]
    unavailable := fun isOpen => absurd nothing isOpen
    others := by
      intro key different
      rw [openGaps, closeGap_frame closing different, GapKey.openGaps]
      exact congrArg (fun gaps : Table ObservabilityGap => gaps.rows.filter key.current) sameGaps }
  exact consistent.settled settles

theorem ServiceCall.consistent {db : DB} (call : ServiceCall) (consistent : Consistent db) :
    Consistent (call.commit db) := by
  cases call with
  | createDataSource encrypt enterpriseId new => exact transact_preserves consistent fun _ _ ran => consistent.created ran
  | updateDataSource encrypt enterpriseId dataSourceId update =>
      exact transact_preserves consistent fun _ _ ran => consistent.reconfigured (updateDataSource_ok ran)
  | uploadFileContent enterpriseId dataSourceId content =>
      exact transact_preserves consistent fun _ _ ran => consistent.reconfigured (uploadFileContent_ok ran)
  | checkConnection now connectors enterpriseId dataSourceId =>
      exact transact_preserves consistent fun _ _ ran => consistent.checked ran
  | syncSource now connectors enterpriseId dataSourceId =>
      exact transact_preserves consistent fun _ _ ran => consistent.synced ran

end Steps

/-! ## Runs -/

/-- An open gap that reports the source as unavailable, whoever has opened it. -/
def reportsUnavailable (dataSourceId : Uuid) (gap : ObservabilityGap) : Bool :=
  gap.scope = .source ∧ gap.scopeRef = .id dataSourceId ∧ gap.reason = .sourceUnavailable ∧ gap.closedAt = none

def unavailableGaps (db : DB) (dataSourceId : Uuid) : List ObservabilityGap :=
  db.observabilityGap.rows.filter (reportsUnavailable dataSourceId)

structure HealthAgrees (db : DB) (source : DataSource) : Prop where
  single : (unavailableGaps db source.id).length ≤ 1
  unavailable : unavailableGaps db source.id ≠ [] → source.health = .unavailable
  available : source.health = .available → unavailableGaps db source.id = []
  looked : ∃ found, current (sourceUnavailable source.enterpriseId source.id) db = .ok found db

theorem Consistent.agrees {db : DB} (consistent : Consistent db) {source : DataSource}
    (member : source ∈ db.dataSource.rows) : HealthAgrees db source := by
  have own : unavailableGaps db source.id = (gapKey source).openGaps db := by
    refine List.filter_congr fun gap gapMember => decide_eq_decide.mpr ?_
    refine ⟨fun reports => ⟨?_, reports⟩, fun isCurrent => isCurrent.2⟩
    have opened : (sourceUnavailable gap.enterpriseId source.id).openGaps db ≠ [] :=
      List.ne_nil_of_mem (mem_openGaps.mpr ⟨gapMember, decide_eq_true ⟨rfl, reports⟩⟩)
    obtain ⟨other, otherMember, same, enterprise⟩ := consistent.known _ _ opened
    obtain rfl : other = source := Table.eq_of_key_eq otherMember member same
    exact enterprise.symm
  have single := consistent.single source member
  have unavailable := consistent.unavailable source member
  constructor
  · rwa [own]
  · rwa [own]
  · intro available
    by_contra isOpen
    rw [own] at isOpen
    exact nomatch available.symm.trans (unavailable isOpen)
  · exact current_returns single

/-- From a state without sources and without open source gaps, health and gaps
agree in every state that the calls reach. -/
theorem health_agrees_with_gaps (initial : DB) (noSource : initial.dataSource.rows = [])
    (noGap : ∀ gap ∈ initial.observabilityGap.rows, gap.scope = .source → gap.reason = .sourceUnavailable →
      gap.closedAt ≠ none) (calls : List ServiceCall) :
    ∀ source ∈ (calls.foldl ServiceCall.commit initial).dataSource.rows,
      HealthAgrees (calls.foldl ServiceCall.commit initial) source := by
  have start : Consistent initial := by
    refine ⟨by simp [noSource], by simp [noSource], fun enterpriseId id isOpen => ?_⟩
    obtain ⟨gap, member⟩ := List.exists_mem_of_ne_nil _ isOpen
    obtain ⟨stored, isCurrent⟩ := mem_openGaps.mp member
    obtain ⟨_, scope, _, reason, isOpen⟩ := of_decide_eq_true isCurrent
    exact absurd isOpen (noGap gap stored scope reason)
  have consistent : Consistent (calls.foldl ServiceCall.commit initial) := by
    induction calls using List.reverseRecOn with
    | nil => exact start
    | append_singleton calls call ih =>
        rw [List.foldl_append]
        exact call.consistent ih
  exact fun source member => consistent.agrees member

theorem health_agrees_for_flaky_source :
    let calls : List ServiceCall := [
      .createDataSource (fun _ => .ok "") 1 stockSheet,
      .checkConnection 1 (flaky "5") 1 1,
      .uploadFileContent 1 1 "sku,qty",
      .syncSource 2 (flaky "5") 1 1,
      .checkConnection 3 (flaky "5") 1 1]
    ∀ source ∈ (calls.foldl ServiceCall.commit mappedStockSheet).dataSource.rows,
      HealthAgrees (calls.foldl ServiceCall.commit mappedStockSheet) source :=
  health_agrees_with_gaps mappedStockSheet rfl (fun _ member => absurd member List.not_mem_nil) _

end SmartProcurement.Integration
