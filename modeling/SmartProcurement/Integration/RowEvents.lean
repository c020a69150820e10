import SmartProcurement.Integration.FiniteMap
import SmartProcurement.Integration.Resync

namespace SmartProcurement.Integration

open Relational Transaction Numeric

/-! # What a sync does to single rows

Every record that a sync accepts creates a row or updates one, and an update that
changes the watched attribute emits a signal.  The events of a run are what it
leaves of its records; that no other signal is emitted is a theorem.
-/

inductive RowEvent where
  | created (entity : Entity) (row : Row)
  | updated (entity : Entity) (old new : Row) (signal : Option ObservationSignal)

/-- The rows that a record is looked up as. -/
def holders (entity : Entity) (identity : Identity) (db : DB) : List Row :=
  (db.canonical entity).rows.filter fun row => identityOf entity row = identity

def eventOf (context : SyncContext) (mappings : List FieldMapping) (progress : Progress) (next : Entity × Record)
    (db : DB) : Option RowEvent :=
  match acceptedOf context mappings progress next db, syncNext context mappings progress next db with
  | some accepted, .ok _ after =>
      match holders next.1 accepted.identity db with
      | [] => ((after.canonical next.1).rows.getLast?).map (.created next.1)
      | existing :: _ => ((after.canonical next.1).find? existing.id).map fun stored =>
          .updated next.1 existing stored (after.observationSignal.rows.drop db.observationSignal.rows.length).head?
  | _, _ => none

def eventsAlong (context : SyncContext) (mappings : List FieldMapping) :
    List (Entity × Record) → Progress → DB → List RowEvent
  | [], _, _ => []
  | next :: rest, progress, db =>
      (eventOf context mappings progress next db).toList ++
        match syncNext context mappings progress next db with
        | .error _ _ => []
        | .ok later after => eventsAlong context mappings rest later after

def SyncCall.events (call : SyncCall) (db : DB) : List RowEvent :=
  if returned (call.session db) then
    match db.dataSource.find? call.dataSourceId with
    | none => []
    | some source =>
        match call.connectors.build source >>= fun _ => call.connectors.fetch source with
        | .error _ => []
        | .ok batch =>
            eventsAlong (call.context batch) (confirmedMappings call.dataSourceId db)
              (schedule (confirmedMappings call.dataSourceId db) batch.records) .start db
  else []

/-- The events of calls, each call in the state its predecessors left. -/
def rowEventsOf : List SyncCall → DB → List RowEvent
  | [], _ => []
  | call :: rest, db => call.events db ++ rowEventsOf rest (call.commit db)

/-! ## One record -/

/-- What becomes of the watched attribute of a row that is updated. -/
inductive Watched (attr : String) (accepted : Accepted) (existing stored : Row) : Option ObservationSignal → Prop where
  | absent (missing : accepted.attrs.lookup attr = none)
      (kept : ColumnType.numeric.bind attr (existing.col attr) = .ok (stored.col attr)) :
      Watched attr accepted existing stored none
  | same {new : Value} (given : accepted.attrs.lookup attr = some new)
      (compared : sameValue (existing.col attr) new = .ok true)
      (kept : ColumnType.numeric.bind attr new = .ok (stored.col attr)) : Watched attr accepted existing stored none
  | changed {new : Value} {signal : ObservationSignal} (given : accepted.attrs.lookup attr = some new)
      (compared : sameValue (existing.col attr) new = .ok false)
      (kept : ColumnType.numeric.bind attr new = .ok (stored.col attr))
      (payload : signal.payload = ⟨accepted.entity, attr, (existing.col attr).decimal?, new.decimal?⟩) :
      Watched attr accepted existing stored (some signal)

inductive RowStep (accepted : Accepted) (before : DB) : RowEvent → DB → Prop where
  | created {stored : Row} {after : DB} (missing : holders accepted.entity accepted.identity before = [])
      (table : after.canonical accepted.entity = (before.canonical accepted.entity).insert stored)
      (signals : after.observationSignal = before.observationSignal) :
      RowStep accepted before (.created accepted.entity ((before.canonical accepted.entity).newRow stored)) after
  | updated {existing stored : Row} {signal : Option ObservationSignal} {after : DB}
      (only : holders accepted.entity accepted.identity before = [existing]) (id : stored.id = existing.id)
      (table : after.canonical accepted.entity =
        (before.canonical accepted.entity).update existing.id fun _ => stored)
      (signals : after.observationSignal.rows = before.observationSignal.rows ++ signal.toList)
      (watched : ∀ watch ∈ signalWatch accepted.entity, Watched watch.1 accepted existing stored signal)
      (unwatched : signalWatch accepted.entity = none → signal = none) :
      RowStep accepted before (.updated accepted.entity existing stored signal) after

section Records

variable {context : SyncContext} {entity : Entity} {resolved : Dict Raw} {provenance : Provenance}
variable {before after : DB} {signal : Option ObservationSignal} {existing stored changed : Row}

theorem Diffed.watched {middle db : DB} {attr : String} {signalType : SignalType}
    (watch : signalWatch entity = some (attr, signalType))
    (diffed : Diffed context entity existing (coerced entity resolved) resolved before signal middle)
    (assigned : Assigned entity (coerced entity resolved) existing changed)
    (kept : storeRow db entity
      { changed with sourceProvenance := some provenance, observability := .fresh } = .ok stored) :
    Watched attr ⟨entity, context.enterpriseId, coerced entity resolved⟩ existing stored
      (signal.map before.observationSignal.newRow) := by
  obtain ⟨column, column_watched⟩ := signalWatch_column watch
  have stores := (storedNumber_of_storeRow column_watched kept).1
  change ColumnType.numeric.bind attr (changed.col attr) = _ at stores
  cases given : (coerced entity resolved).lookup attr with
  | none =>
      rw [assigned.absent attr given] at stores
      cases diffed with
      | silent _ => exact .absent given stores
      | emitted compared _ _ _ _ =>
          obtain ⟨other, isWatch, new, isNew, _⟩ := compared
          obtain rfl := Option.some.inj (watch.symm.trans isWatch)
          exact nomatch given.symm.trans isNew
  | some new =>
      rw [assigned.given attr new column_watched.free (by simp [column_watched.own]) given] at stores
      cases diffed with
      | silent compared => exact .same given (compared (attr, signalType) watch new given) stores
      | emitted compared _ _ _ payload =>
          obtain ⟨other, isWatch, value, isNew, differs⟩ := compared
          obtain rfl := Option.some.inj (watch.symm.trans isWatch)
          obtain rfl := Option.some.inj (given.symm.trans isNew)
          exact .changed given differs stores (payload _ watch new given)

theorem filter_hasIdentity_holders {identity : List (String × Value)}
    (identified : identityValues entity (coerced entity resolved) = .ok identity) :
    (before.canonical entity).rows.filter (hasIdentity context.enterpriseId identity) =
      holders entity (Accepted.identity ⟨entity, context.enterpriseId, coerced entity resolved⟩) before := by
  refine List.filter_congr fun row _ => ?_
  rw [Bool.eq_iff_iff, decide_eq_true_eq, hasIdentity_iff identified]

theorem Diffed.signals {attrs : Dict Value} {middle : DB}
    (diffed : Diffed context entity existing attrs resolved before signal middle) :
    middle.observationSignal.rows =
      before.observationSignal.rows ++ (signal.map before.observationSignal.newRow).toList := by
  cases diffed with
  | silent _ => exact (List.append_nil _).symm
  | emitted _ _ _ _ _ => rfl

theorem Diffed.unwatched {attrs : Dict Value} {middle : DB} (none : signalWatch entity = none)
    (diffed : Diffed context entity existing attrs resolved before signal middle) : signal = Option.none := by
  cases diffed with
  | silent _ => rfl
  | emitted compared _ _ _ _ =>
      obtain ⟨_, isWatch, _⟩ := compared
      exact nomatch none.symm.trans isWatch

theorem Upserted.rowStep (step : Upserted context entity resolved provenance before signal after) :
    ∃ event, RowStep ⟨entity, context.enterpriseId, coerced entity resolved⟩ before event after := by
  cases step with
  | inserted identified missing constructed kept =>
      exact ⟨_, .created ((filter_hasIdentity_holders identified).symm.trans missing) (DB.setCanonical_self ..) rfl⟩
  | @updated identity existing changed stored signal middle identified only diffed assigned kept =>
      have assigned := assignAttrs_ok assigned
      refine ⟨.updated entity existing stored (signal.map before.observationSignal.newRow), ?_⟩
      refine .updated ((filter_hasIdentity_holders identified).symm.trans only) ?_ ?_ diffed.signals ?_ ?_
      · exact (storeRow_ok kept).2.1.id.trans assigned.id
      · rw [DB.setCanonical_self, diffed.canonical]
      · exact fun watch isWatch => diffed.watched isWatch assigned kept
      · intro none
        rw [diffed.unwatched none]
        rfl

/-- The signal of an upsert is added to the log. -/
theorem Upserted.signals (step : Upserted context entity resolved provenance before signal after) :
    after.observationSignal.rows =
      before.observationSignal.rows ++ (signal.map before.observationSignal.newRow).toList := by
  cases step with
  | inserted _ _ _ _ => exact (List.append_nil _).symm
  | updated _ _ diffed _ _ => exact diffed.signals

/-- The event tells what the record has done. -/
theorem RowStep.event {accepted : Accepted} {event : RowEvent} {mappings : List FieldMapping}
    {progress later : Progress} {next : Entity × Record} (step : RowStep accepted before event after)
    (accepts : acceptedOf context mappings progress next before = some accepted) (isNext : accepted.entity = next.1)
    (ran : syncNext context mappings progress next before = .ok later after) :
    eventOf context mappings progress next before = some event := by
  simp only [eventOf, accepts, ran, ← isNext]
  cases step with
  | created missing table signals => simp [missing, table]
  | @updated existing stored signal _ only id table signals watched unwatched =>
      have member : existing ∈ (before.canonical accepted.entity).rows := by
        have listed : existing ∈ holders accepted.entity accepted.identity before := by simp [only]
        exact (List.mem_filter.mp listed).1
      have found : (before.canonical accepted.entity).find? existing.id = some existing := Table.find?_of_mem member
      have assigned : Table.assign (fun _ => stored) existing = stored := Table.assign_eq id
      simp only [only, table, signals, List.drop_left, Table.find?_update_self, found, Option.map_some, assigned]
      cases signal <;> rfl

theorem syncNext_rowStep {mappings : List FieldMapping} {progress later : Progress} {next : Entity × Record}
    (ran : syncNext context mappings progress next before = .ok later after) :
    (acceptedOf context mappings progress next before = none ∧
        eventOf context mappings progress next before = none ∧ after = before) ∨
      ∃ accepted event, acceptedOf context mappings progress next before = some accepted ∧
        accepted.entity = next.1 ∧ eventOf context mappings progress next before = some event ∧
        SuppliedTo accepted before after ∧ RowStep accepted before event after := by
  rcases syncNext_upserted ran with ⟨nothing, same⟩ | ⟨resolved, signal, accepts, stored⟩
  · exact .inl ⟨nothing, by simp [eventOf, nothing], same⟩
  · obtain ⟨event, step⟩ := stored.rowStep
    obtain ⟨table, others⟩ := stored.supplied
    exact .inr ⟨_, event, accepts, rfl, step.event accepts rfl ran, ⟨table, others⟩, step⟩

end Records

/-! ## Runs -/

section Runs

variable {context : SyncContext} {mappings : List FieldMapping} {rest : List (Entity × Record)}
variable {progress later : Progress} {before after : DB} {earlier : List RowEvent}

/-- What every accepted record keeps of the state and the events so far, the loop keeps. -/
theorem eventsAlong_invariant (holds : List RowEvent → DB → Prop)
    (keeps : ∀ accepted ∈ acceptedAlong context mappings rest progress before, ∀ events event (db next : DB),
      holds events db → SuppliedTo accepted db next → RowStep accepted db event next →
        (Numbers db → Numbers next) → holds (events ++ [event]) next)
    (start : holds earlier before)
    (ran : rest.foldlM (syncNext context mappings) progress before = .ok later after) :
    holds (earlier ++ eventsAlong context mappings rest progress before) after := by
  induction rest generalizing progress before earlier with
  | nil =>
      obtain ⟨_, rfl⟩ := pure_eq_ok.mp ran
      rwa [eventsAlong, List.append_nil]
  | cons next rest ih =>
      rw [List.foldlM_cons] at ran
      obtain ⟨middle, reached, first, restRan⟩ := bind_eq_ok.mp ran
      rw [acceptedAlong, first] at keeps
      have keepsRest := fun accepted member => keeps accepted (List.mem_append_right _ member)
      rw [eventsAlong, first]
      rcases syncNext_rowStep first with ⟨_, nothing, rfl⟩ | ⟨accepted, event, accepts, _, isEvent, supplied, step⟩
      · rw [nothing]
        exact ih keepsRest start restRan
      · have isFirst := keeps accepted (List.mem_append_left _ (by simp [accepts]))
        have stepped := isFirst earlier event before reached start supplied step fun numbers => syncNext_numbers numbers first
        rw [isEvent, Option.toList_some, ← List.append_assoc]
        exact ih keepsRest stepped restRan

/-- The events are those of the iterations. -/
theorem mem_eventsAlong {event : RowEvent}
    (ran : rest.foldlM (syncNext context mappings) progress before = .ok later after) :
    event ∈ eventsAlong context mappings rest progress before ↔ ∃ next acc reached,
      Transaction.Reaches (syncNext context mappings) rest progress before next acc reached ∧
        eventOf context mappings acc next reached = some event := by
  induction rest generalizing progress before with
  | nil => simp [eventsAlong, Transaction.Reaches]
  | cons first rest ih =>
      rw [List.foldlM_cons] at ran
      obtain ⟨middle, reached, firstRan, restRan⟩ := bind_eq_ok.mp ran
      rw [eventsAlong, firstRan, List.mem_append, Option.mem_toList, ih restRan]
      constructor
      · rintro (isFirst | ⟨next, acc, db, isReached, isEvent⟩)
        · exact ⟨first, progress, before, reaches_cons.mpr (.inl ⟨rfl, rfl, rfl⟩), isFirst⟩
        · exact ⟨next, acc, db, reaches_cons.mpr (.inr ⟨middle, reached, firstRan, isReached⟩), isEvent⟩
      · rintro ⟨next, acc, db, isReached, isEvent⟩
        rcases reaches_cons.mp isReached with ⟨rfl, rfl, rfl⟩ | ⟨_, _, again, isReached⟩
        · exact .inl isEvent
        · obtain ⟨rfl, rfl⟩ := EStateM.Result.ok.inj (firstRan.symm.trans again)
          exact .inr ⟨next, acc, db, isReached, isEvent⟩

variable {call : SyncCall}

theorem SyncCall.events_invariant (holds : List RowEvent → DB → Prop)
    (congr : ∀ {events} {db other : DB}, other.canonical = db.canonical →
      other.observationSignal = db.observationSignal → holds events db → holds events other)
    (keeps : ∀ accepted ∈ call.accepted before, ∀ events event (db next : DB),
      holds events db → SuppliedTo accepted db next → RowStep accepted db event next →
        (Numbers db → Numbers next) → holds (events ++ [event]) next)
    (start : holds earlier before) : holds (earlier ++ call.events before) (call.commit before) := by
  unfold SyncCall.commit SyncCall.events
  unfold SyncCall.accepted at keeps
  cases ran : call.session before with
  | error reason after =>
      rw [transact_of_error ran]
      simpa [returned] using start
  | ok result after =>
      obtain ⟨synced⟩ := syncSource_ok ran
      have batchRan := synced.ran
      rw [syncBatch_schedule] at batchRan
      simp only [ran, returned, if_true, synced.found, synced.fetched] at keeps
      rw [transact_of_ok ran]
      simp only [returned, if_true, synced.found, synced.fetched]
      exact congr synced.canonical synced.signals (eventsAlong_invariant holds keeps start batchRan)

/-- What a batch adds to the log, and what it counts and remembers of it. -/
structure SignalsCounted (before : DB) (added : List ObservationSignal) (progress : Progress) (db : DB) : Prop where
  log : db.observationSignal.rows = before.observationSignal.rows ++ added
  counted : progress.signalsCreated = added.length
  touched : ∀ item, item ∈ progress.touchedItemIds ↔ ∃ signal ∈ added, signal.itemId = some item

theorem syncBatch_signals {records : List Record} (ran : syncBatch context mappings records before = .ok progress after) :
    ∃ added, SignalsCounted before added progress after := by
  refine syncBatch_invariant (fun progress db => ∃ added, SignalsCounted before added progress db) ?_ ?_ ran
  · intro entity record progress db next later counted step
    cases step with
    | empty _ _ => exact counted
    | skipped _ _ _ =>
        obtain ⟨added, counted⟩ := counted
        exact ⟨added, counted.log, counted.counted, counted.touched⟩
    | @upserted _ _ resolution signal _ _ _ _ _ _ stored =>
        obtain ⟨added, counted⟩ := counted
        refine ⟨added ++ (signal.map db.observationSignal.newRow).toList, ?_, ?_, fun item => ?_⟩
        · rw [stored.signals, counted.log, List.append_assoc]
        · cases signal with
          | none => simpa [Progress.record] using counted.counted
          | some emitted => simp [Progress.record, counted.counted]
        · rw [mem_record_touched, counted.touched]
          cases signal with
          | none => simp
          | some emitted =>
              have sameItem : (db.observationSignal.newRow emitted).itemId = emitted.itemId := rfl
              simp [or_and_right, exists_or, sameItem]
  · exact ⟨[], by simp, rfl, by simp⟩

theorem fixesJobs_batch (dataSourceId : Uuid) : BatchFrame dataSourceId (Frame.fixes (·.job)) where
  signal _ _ := rfl
  insert _ _ _ _ := rfl
  update _ _ _ _ _ := rfl

/-- A sync that returns has asked for the aggregates of what it has signalled, if anything. -/
theorem Synced.queued {now : Timestamp} {connectors : Connectors} {enterpriseId dataSourceId : Uuid} {before after : DB}
    (synced : Synced now connectors enterpriseId dataSourceId before after) :
    ∃ added, after.observationSignal.rows = before.observationSignal.rows ++ added ∧
      if added = [] then after.job = before.job
      else after.job = before.job.insert (recomputeJob now enterpriseId synced.progress) ∧
        ∀ item, item ∈ synced.progress.touchedItemIds ↔ ∃ signal ∈ added, signal.itemId = some item := by
  obtain ⟨added, signals⟩ := syncBatch_signals synced.ran
  have batched : synced.batched.job = before.job := syncBatch_frame (fixesJobs_batch dataSourceId) synced.ran
  have job := congrArg DB.job synced.final
  simp only [batched, signals.counted, List.length_eq_zero_iff] at job
  refine ⟨added, synced.signals ▸ signals.log, ?_⟩
  split
  · next none => rw [job, if_pos none]
  · next some =>
    rw [job, if_neg some]
    exact ⟨rfl, signals.touched⟩

end Runs

end SmartProcurement.Integration
