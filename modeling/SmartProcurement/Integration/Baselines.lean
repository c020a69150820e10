import SmartProcurement.Integration.SignalHistory

namespace SmartProcurement.Integration

open Relational Transaction

/-! # First-seen rows

A record that creates a row emits nothing, but a batch may hold several records
of one row, and those after the first meet a row that is there.
-/

def RecordStep.accepted (step : RecordStep) : Option Accepted :=
  acceptedOf step.context step.mappings step.progress (step.entity, step.record) step.db

/-- The record finds a row that the call has created itself, and gives it another
watched value. -/
def RecordStep.Revises (before : DB) (step : RecordStep) : Prop :=
  ∃ accepted row watch new, step.accepted = some accepted ∧
    row ∈ holders accepted.entity accepted.identity step.db ∧ ¬ HasRow before accepted.entity row.id ∧
    signalWatch accepted.entity = some watch ∧ accepted.attrs.lookup watch.1 = some new ∧
    sameValue (row.col watch.1) new ≠ .ok true

/-- The signals of a call are those of its updates, and none is for a row that was
not there before; into empty tables, a sync signals nothing and asks for nothing. -/
structure Baseline (call : SyncCall) (before : DB) : Prop where
  known : ∀ entity old new signal, .updated entity old new (some signal) ∈ call.events before →
    HasRow before entity old.id
  first : (∀ entity, (before.canonical entity).rows = []) →
    (call.commit before).observationSignal = before.observationSignal ∧ (call.commit before).job = before.job

section Steps

variable {context : SyncContext} {mappings : List FieldMapping} {progress later : Progress}
variable {next : Entity × Record} {before after : DB} {call : SyncCall} {event : RowEvent}

theorem acceptedOf_mappingsOf (context : SyncContext) (mappings : List FieldMapping) (progress : Progress)
    (next : Entity × Record) (db : DB) :
    acceptedOf context (mappingsOf mappings next.1) progress next db = acceptedOf context mappings progress next db := by
  have same : mappingsOf (mappingsOf mappings next.1) next.1 = mappingsOf mappings next.1 := by
    simp [mappingsOf]
  unfold acceptedOf
  rw [same]

namespace SyncCall

theorem Loop.events (loop : Loop call before after) {result : SyncResult} (ran : call.session before = .ok result after) :
    call.events before = eventsAlong (call.context loop.batch) (confirmedMappings call.dataSourceId before)
      (schedule (confirmedMappings call.dataSourceId before) loop.batch.records) .start before := by
  obtain ⟨source, found, fetched⟩ := loop.fetched
  simp only [SyncCall.events, ran, returned, if_true, found, fetched]

theorem Loop.accepted (loop : Loop call before after) {db : DB} : (loop.step next progress db).accepted =
    acceptedOf (call.context loop.batch) (confirmedMappings call.dataSourceId before) progress next db :=
  acceptedOf_mappingsOf ..

/-- An event of a call that returns is that of a record it comes to. -/
theorem step_of_event {result : SyncResult} (ran : call.session before = .ok result after)
    (isEvent : event ∈ call.events before) : ∃ (step : RecordStep) (accepted : Accepted) (next : DB),
      call.Reaches before step ∧ step.accepted = some accepted ∧ RowStep accepted step.db event next := by
  obtain ⟨loop⟩ := call.loop ran
  rw [loop.events ran, mem_eventsAlong loop.ran] at isEvent
  obtain ⟨next, acc, db, reached, isEvent⟩ := isEvent
  obtain ⟨_, later, middle, stepped, _⟩ := reached.ran loop.ran
  rcases syncNext_rowStep stepped with ⟨_, nothing, _⟩ | ⟨accepted, other, accepts, _, isOther, _, rowStep⟩
  · exact nomatch nothing.symm.trans isEvent
  · obtain rfl := Option.some.inj (isOther.symm.trans isEvent)
    exact ⟨loop.step next acc db, accepted, middle, loop.reaches reached, loop.accepted.trans accepts, rowStep⟩

/-- A record that a call comes to and accepts has its event. -/
theorem event_of_step {result : SyncResult} (ran : call.session before = .ok result after) {step : RecordStep}
    {accepted : Accepted} (reached : call.Reaches before step) (accepts : step.accepted = some accepted) :
    ∃ event ∈ call.events before, ∃ next, RowStep accepted step.db event next := by
  obtain ⟨loop⟩ := call.loop ran
  obtain ⟨next, acc, db, isReached, rfl⟩ := loop.of_reaches reached
  obtain ⟨_, later, middle, stepped, _⟩ := isReached.ran loop.ran
  rw [loop.accepted] at accepts
  rcases syncNext_rowStep stepped with ⟨nothing, _⟩ | ⟨other, event, isOther, _, isEvent, _, rowStep⟩
  · exact nomatch nothing.symm.trans accepts
  · obtain rfl := Option.some.inj (isOther.symm.trans accepts)
    refine ⟨event, ?_, middle, rowStep⟩
    rw [loop.events ran, mem_eventsAlong loop.ran]
    exact ⟨next, acc, db, isReached, isEvent⟩

end SyncCall

end Steps

/-! ## The signals of a call -/

section Calls

variable {call : SyncCall} {before after : DB} {result : SyncResult}

theorem events_signals (call : SyncCall) (before : DB) : (call.commit before).observationSignal.rows =
    before.observationSignal.rows ++ (call.events before).filterMap (·.signal) := by
  have start : before.observationSignal.rows =
      before.observationSignal.rows ++ ([] : List RowEvent).filterMap (·.signal) := by simp
  refine SyncCall.events_invariant (fun events db => db.observationSignal.rows =
    before.observationSignal.rows ++ events.filterMap (·.signal)) ?_ ?_ start
  · intro events db other _ signals log
    rw [signals, log]
  · intro accepted _ events event db next log _ step _
    cases step with
    | created _ _ signals =>
        rw [signals, log]
        simp [RowEvent.signal]
    | @updated _ _ signal _ _ _ _ signals _ _ =>
        rw [signals, log]
        cases signal <;> simp [RowEvent.signal]

/-- A call that signals nothing asks for no recomputation. -/
theorem commit_job_of_silent (silent : (call.commit before).observationSignal.rows = before.observationSignal.rows) :
    (call.commit before).job = before.job := by
  unfold SyncCall.commit at silent ⊢
  cases ran : call.session before with
  | error reason after => rw [transact_of_error ran]
  | ok result after =>
      rw [transact_of_ok ran] at silent ⊢
      obtain ⟨synced⟩ := syncSource_ok ran
      obtain ⟨added, log, queued⟩ := synced.queued
      change after.observationSignal.rows = _ at silent
      rw [log, List.append_right_eq_self] at silent
      rwa [if_pos silent] at queued

/-- A call keeps the baseline exactly if none of its records revises a row that the
call has created. -/
theorem baseline_iff (call : SyncCall) (before : DB) : Baseline call before ↔
    (returned (call.session before) = true → ∀ step, call.Reaches before step → ¬ step.Revises before) := by
  constructor
  · rintro baseline returns step reached ⟨accepted, row, watch, new, accepts, holds, isNew, isWatch, given, differs⟩
    obtain ⟨result, ran⟩ := exists_of_returned returns
    obtain ⟨event, isEvent, next, rowStep⟩ := SyncCall.event_of_step ran reached accepts
    cases rowStep with
    | created missing _ _ => simp [missing] at holds
    | @updated existing stored signal _ only _ _ _ watched _ =>
        rw [only, List.mem_singleton] at holds
        subst holds
        cases watched watch isWatch with
        | absent missing _ => cases missing.symm.trans given
        | same again compared _ =>
            obtain rfl := Option.some.inj (again.symm.trans given)
            exact differs compared
        | changed _ _ _ _ => exact isNew (baseline.known _ _ _ _ isEvent)
  · intro condition
    have known : ∀ entity old new signal, .updated entity old new (some signal) ∈ call.events before →
        HasRow before entity old.id := by
      intro entity old new signal isEvent
      cases ran : call.session before with
      | error reason after => simp [SyncCall.events, ran, returned] at isEvent
      | ok result after =>
          obtain ⟨step, accepted, next, reached, accepts, rowStep⟩ := SyncCall.step_of_event ran isEvent
          by_contra isNew
          cases rowStep with
          | updated only _ _ _ watched unwatched =>
              cases isWatch : signalWatch accepted.entity with
              | none => cases unwatched isWatch
              | some watch =>
                  cases watched watch isWatch with
                  | @changed new _ given compared _ _ =>
                      refine condition (by rw [ran]; rfl) step reached
                        ⟨accepted, old, watch, new, accepts, by simp [only], isNew, isWatch, given, ?_⟩
                      simp [compared]
    refine ⟨known, fun empty => ?_⟩
    have silent : (call.events before).filterMap (·.signal) = [] := by
      refine List.filterMap_eq_nil_iff.mpr fun event isEvent => ?_
      cases event with
      | created _ _ => rfl
      | updated entity old new signal =>
          cases signal with
          | none => rfl
          | some emitted =>
              obtain ⟨row, member, _⟩ := known entity old new emitted isEvent
              rw [empty entity] at member
              cases member
    have log := events_signals call before
    rw [silent, List.append_nil] at log
    exact ⟨Table.ext log, commit_job_of_silent log⟩

end Calls

/-- The sheet names the item twice, with different quantities: the first sync into
empty tables emits a signal and asks for a recomputation. -/
theorem repeated_item_is_no_baseline :
    (∀ entity, (sheetWithSource.canonical entity).rows = []) ∧
      (((stockCall ["10", "4"]).commit sheetWithSource).observationSignal.rows.map fun signal =>
        (signal.payload.old, signal.payload.new)) = [(some (.finite 10), some (.finite 4))] ∧
      ((stockCall ["10", "4"]).commit sheetWithSource).job.rows.map (·.kind) = ["recompute_aggregates"] ∧
      ¬ Baseline (stockCall ["10", "4"]) sheetWithSource := by
  have empty : ∀ entity, (sheetWithSource.canonical entity).rows = [] := fun _ => rfl
  refine ⟨empty, by decide +kernel, by decide +kernel, fun baseline => ?_⟩
  have same := congrArg (fun table => table.rows.length) (baseline.first empty).1
  exact absurd same (by decide +kernel)

end SmartProcurement.Integration
