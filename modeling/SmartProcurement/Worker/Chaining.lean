import SmartProcurement.Worker.Observations
import SmartProcurement.Integration.RowEvents
import Mathlib.Data.List.Forall2

namespace SmartProcurement.Worker

open Relational Transaction Transition Jobs

/-! # The chained pipeline

An observation that has seen changes asks for aggregates, and these ask for a
detection.  Each stage queues the next one in its own transaction.
-/

/-! ## Workers that fail and crash -/

/-- An observation that is done, with the signals of its sync. -/
structure SyncRun where
  job : Job
  signals : List ObservationSignal

/-- The workers, and the observations they have done so far. -/
structure Pipeline extends State where
  syncs : List SyncRun

inductive PipelineEvent where
  | step (event : Event)
  /-- An exception ends the handler, whatever it has written by then. -/
  | interrupted (now : Timestamp) (reason : Error) (id : Uuid)
  /-- A process ends, and with it go the jobs it has claimed. -/
  | crash (ids : List Uuid)

def State.meets (runtime : Runtime) (state : State) : PipelineEvent → State
  | .step event => state.after runtime event
  | .interrupted now reason id =>
      if id ∉ state.held then state
      else
        match state.db.job.find? id with
        | none => { state with held := state.held.erase id }
        | some job => { db := (recover runtime now job reason state.db).2, held := state.held.erase id }
  | .crash ids => { state with held := state.held.filter (· ∉ ids) }

/-- The signals that a transaction has committed. -/
def emitted (before after : DB) : List ObservationSignal :=
  after.observationSignal.rows.drop before.observationSignal.rows.length

/-- The observations that a transaction has brought to their end. -/
def finishedSyncs (before after : DB) : List SyncRun :=
  (before.job.rows.filter fun job => job.kind = "observe_source" ∧ job.status ≠ .done ∧
    (after.job.find? job.id).any (·.status = .done)).map fun job => ⟨job, emitted before after⟩

def Pipeline.after (runtime : Runtime) (pipeline : Pipeline) (event : PipelineEvent) : Pipeline :=
  let next := pipeline.toState.meets runtime event
  { next with syncs := pipeline.syncs ++ finishedSyncs pipeline.db next.db }

def Pipeline.start (initial : DB) : Pipeline := ⟨⟨initial, []⟩, []⟩

/-! ## What is chained -/

/-- The jobs of a kind that were not there at the start. -/
def created (initial : DB) (kind : String) (jobs : List Job) : List Job :=
  jobs.filter fun job => job.kind = kind ∧ initial.job.find? job.id = none

/-- The jobs of a kind that were done since the start. -/
def doneSince (initial : DB) (kind : String) (jobs : List Job) : List Job :=
  jobs.filter fun job => job.kind = kind ∧ job.status = .done ∧
    ∀ old ∈ initial.job.find? job.id, old.status ≠ .done

/-- The job asks for the aggregates of exactly the items that the sync has signalled. -/
structure AggregatesFor (job : Job) (sync : SyncRun) : Prop where
  enterprise : job.payload.enterpriseId = sync.job.payload.enterpriseId
  items : ∃ items, job.payload.itemIds = some items ∧
    ∀ item, item ∈ items ↔ ∃ signal ∈ sync.signals, signal.itemId = some item

/-- The job is the next run of the observation. -/
structure NextRun (job : Job) (sync : SyncRun) : Prop where
  enterprise : job.enterpriseId = sync.job.payload.enterpriseId
  payload : job.payload = sync.job.payload

structure Chained (initial : DB) (jobs : List Job) (syncs : List SyncRun) : Prop where
  observed : (syncs.map fun sync => (sync.job.id, sync.job.payload)).Perm
    ((doneSince initial "observe_source" jobs).map fun job => (job.id, job.payload))
  recomputes : List.Forall₂ AggregatesFor (created initial "recompute_aggregates" jobs)
    (syncs.filter (!·.signals.isEmpty))
  detections : (created initial "detect_risks" jobs).length =
    (doneSince initial "recompute_aggregates" jobs).length
  successors : List.Forall₂ NextRun (created initial "observe_source" jobs) syncs

/-! ## Steps that finish nothing -/

/-- A job that asks for the same and is as done as before. -/
structure Requeued (old new : Job) : Prop where
  kind : new.kind = old.kind
  payload : new.payload = old.payload
  enterprise : new.enterpriseId = old.enterpriseId
  finished : new.status = .done ↔ old.status = .done

section Steps

variable {initial before after db : DB} {table : Table Job} {syncs : List SyncRun} {job : Job}
variable {selected : Job → Bool} {change : Job → Job} {kind : String}

theorem AggregatesFor.congr {old new : Job} {sync : SyncRun} (payload : new.payload = old.payload)
    (asks : AggregatesFor old sync) : AggregatesFor new sync :=
  ⟨payload ▸ asks.enterprise, payload ▸ asks.items⟩

theorem NextRun.congr {old new : Job} {sync : SyncRun} (payload : new.payload = old.payload)
    (enterprise : new.enterpriseId = old.enterpriseId) (next : NextRun old sync) : NextRun new sync :=
  ⟨enterprise.trans next.enterprise, payload.trans next.payload⟩

theorem created_updateWhere
    (kinds : ∀ job ∈ table.rows, selected job = true → (Table.assign change job).kind = job.kind) :
    created initial kind (table.updateWhere selected change).rows =
      (created initial kind table.rows).map fun job => if selected job then Table.assign change job else job := by
  refine Table.filter_updateWhere fun job member hit => ?_
  have sameId : (Table.assign change job).id = job.id := Table.key_assign change job
  rw [kinds job member hit, sameId]

theorem doneSince_updateWhere
    (requeued : ∀ job ∈ table.rows, selected job = true → Requeued job (Table.assign change job)) :
    doneSince initial kind (table.updateWhere selected change).rows =
      (doneSince initial kind table.rows).map fun job => if selected job then Table.assign change job else job := by
  refine Table.filter_updateWhere fun job member hit => ?_
  have sameId : (Table.assign change job).id = job.id := Table.key_assign change job
  simp only [(requeued job member hit).kind, (requeued job member hit).finished, sameId]

/-- An assignment that keeps what the jobs ask for keeps what they were created for. -/
theorem forall₂_assign {relation : Job → SyncRun → Prop} {jobs : List Job}
    (congr : ∀ job ∈ jobs, selected job = true → ∀ sync, relation job sync → relation (Table.assign change job) sync)
    (related : List.Forall₂ relation jobs syncs) :
    List.Forall₂ relation (jobs.map fun job => if selected job then Table.assign change job else job) syncs := by
  induction related with
  | nil => exact .nil
  | @cons job sync _ _ first _ ih =>
      refine .cons ?_ (ih fun job member => congr job (List.mem_cons_of_mem _ member))
      dsimp only
      split
      · next hit => exact congr job List.mem_cons_self hit sync first
      · exact first

theorem Chained.requeue (chained : Chained initial table.rows syncs)
    (requeued : ∀ job ∈ table.rows, selected job = true → Requeued job (Table.assign change job)) :
    Chained initial (table.updateWhere selected change).rows syncs := by
  have kinds := fun job member hit => (requeued job member hit).kind
  constructor
  · rw [doneSince_updateWhere requeued, List.map_map]
    refine chained.observed.trans (.of_eq (List.map_congr_left fun job member => ?_))
    simp only [Function.comp_apply]
    split
    · next hit =>
      have sameId : (Table.assign change job).id = job.id := Table.key_assign change job
      rw [sameId, (requeued job (List.mem_of_mem_filter member) hit).payload]
    · rfl
  · rw [created_updateWhere kinds]
    refine forall₂_assign (fun job member hit sync => ?_) chained.recomputes
    exact AggregatesFor.congr (requeued job (List.mem_of_mem_filter member) hit).payload
  · rw [created_updateWhere kinds, doneSince_updateWhere requeued, List.length_map, List.length_map]
    exact chained.detections
  · rw [created_updateWhere kinds]
    refine forall₂_assign (fun job member hit sync => ?_) chained.successors
    have same := requeued job (List.mem_of_mem_filter member) hit
    exact NextRun.congr same.payload same.enterprise

theorem finishedSyncs_requeue (same : after.job = before.job.updateWhere selected change)
    (requeued : ∀ job ∈ before.job.rows, selected job = true → Requeued job (Table.assign change job)) :
    finishedSyncs before after = [] := by
  rw [finishedSyncs, List.map_eq_nil_iff, List.filter_eq_nil_iff]
  intro job member isFinished
  obtain ⟨_, unfinished, finished⟩ := of_decide_eq_true isFinished
  have found : before.job.find? job.id = some job := Table.find?_of_mem member
  rw [same, Table.find?_updateWhere, found, Option.map_some, Option.any_some] at finished
  split at finished
  · next hit => exact unfinished ((requeued job member hit).finished.mp (of_decide_eq_true finished))
  · exact unfinished (of_decide_eq_true finished)

/-! ## Steps that finish a job -/

/-- What a job that is done adds to the queue and to the log. -/
structure Produces (job : Job) (added : List Job) (syncs : List SyncRun) : Prop where
  observed : syncs.map (fun sync => (sync.job.id, sync.job.payload)) =
    if job.kind = "observe_source" then [(job.id, job.payload)] else []
  recomputes : List.Forall₂ AggregatesFor (added.filter (·.kind = "recompute_aggregates"))
    (syncs.filter (!·.signals.isEmpty))
  detections : (added.filter (·.kind = "detect_risks")).length =
    if job.kind = "recompute_aggregates" then 1 else 0
  successors : List.Forall₂ NextRun (added.filter (·.kind = "observe_source")) syncs

/-- The jobs of the start are still there, and those that were done are done. -/
def Kept (initial db : DB) : Prop :=
  ∀ id old, initial.job.find? id = some old →
    ∃ row, db.job.find? id = some row ∧ (old.status = .done → row.status = .done)

variable {grown : Table Job} {added : List Job} {produced : List SyncRun}

theorem added_fresh (kept : Kept initial db) (rows : grown.rows = db.job.rows ++ added)
    (isNew : job ∈ added) : initial.job.find? job.id = none := by
  cases found : initial.job.find? job.id with
  | none => rfl
  | some old =>
      obtain ⟨row, stored, _⟩ := kept job.id old found
      obtain ⟨member, same⟩ := Table.find?_some stored
      have distinct := grown.distinct
      rw [rows, List.map_append] at distinct
      have there : job.id ∈ db.job.rows.map Keyed.key := same ▸ List.mem_map_of_mem member
      exact absurd (List.mem_map_of_mem isNew) (List.disjoint_of_nodup_append distinct there)

theorem created_grown (kept : Kept initial db) (rows : grown.rows = db.job.rows ++ added) :
    created initial kind grown.rows = created initial kind db.job.rows ++ added.filter (·.kind = kind) := by
  rw [created, rows, List.filter_append, ← created]
  congr 1
  refine List.filter_congr fun job isNew => ?_
  simp [added_fresh kept rows isNew]

theorem doneSince_grown (rows : grown.rows = db.job.rows ++ added)
    (pending : ∀ job ∈ added, job.status = .pending) :
    doneSince initial kind grown.rows = doneSince initial kind db.job.rows := by
  have none : doneSince initial kind added = [] :=
    List.filter_eq_nil_iff.mpr fun job isNew => by simp [pending job isNew]
  rw [doneSince, rows, List.filter_append, ← doneSince, ← doneSince, none, List.append_nil]

/-- The job that is done joins the jobs of its kind that are. -/
theorem doneSince_finish (kept : Kept initial db) (rows : grown.rows = db.job.rows ++ added)
    (pending : ∀ job ∈ added, job.status = .pending) (stored : db.job.find? job.id = some job)
    (active : job.status = .running) :
    (doneSince initial kind (grown.update job.id done).rows).Perm
      ((if job.kind = kind then [done job] else []) ++ doneSince initial kind db.job.rows) := by
  have member : job ∈ grown.rows := rows ▸ List.mem_append_left _ (Table.find?_some stored).1
  have grew : doneSince initial kind grown.rows = doneSince initial kind db.job.rows := doneSince_grown rows pending
  rw [← grew]
  split
  · next isKind =>
    refine Table.filter_update_enters member (by simp [active]) ?_
    have open_ : ∀ old ∈ initial.job.find? job.id, old.status ≠ .done := by
      intro old wasThere finished
      obtain ⟨row, found, still⟩ := kept job.id old wasThere
      obtain rfl := Option.some.inj (stored.symm.trans found)
      rw [active] at still
      cases still finished
    exact decide_eq_true ⟨isKind, rfl, open_⟩
  · next other =>
    refine .of_eq (Table.filter_updateWhere_of_not fun row rowMember hit => ?_)
    obtain rfl := Table.eq_of_key_eq rowMember member (eq_of_beq hit)
    have otherDone : (Table.assign done row).kind ≠ kind := other
    simp [other, otherDone]

theorem Chained.finish (chained : Chained initial db.job.rows syncs) (kept : Kept initial db)
    (rows : grown.rows = db.job.rows ++ added) (pending : ∀ job ∈ added, job.status = .pending)
    (stored : db.job.find? job.id = some job) (active : job.status = .running)
    (produces : Produces job added produced) :
    Chained initial (grown.update job.id done).rows (syncs ++ produced) := by
  have creates (kind : String) : created initial kind (grown.update job.id done).rows = _ :=
    created_updateWhere fun job _ _ => rfl
  have carried {relation : Job → SyncRun → Prop} {earlier runs : List SyncRun} {kind : String}
      (congr : ∀ job sync, relation job sync → relation (done job) sync)
      (old : List.Forall₂ relation (created initial kind db.job.rows) earlier)
      (new : List.Forall₂ relation (added.filter (·.kind = kind)) runs) :
      List.Forall₂ relation (created initial kind (grown.update job.id done).rows) (earlier ++ runs) := by
    rw [creates, created_grown kept rows]
    exact forall₂_assign (fun job _ _ sync => congr job sync) (List.rel_append old new)
  have finishes (kind : String) : (doneSince initial kind (grown.update job.id done).rows).Perm _ :=
    doneSince_finish kept rows pending stored active
  constructor
  · have ended := (finishes "observe_source").map fun row => (row.id, row.payload)
    refine .trans ?_ ended.symm
    rw [List.map_append, List.map_append, produces.observed]
    refine List.perm_append_comm.trans (List.Perm.append (.of_eq ?_) chained.observed)
    split <;> rfl
  · rw [List.filter_append]
    exact carried (fun _ _ asks => ⟨asks.enterprise, asks.items⟩) chained.recomputes produces.recomputes
  · rw [(finishes "recompute_aggregates").length_eq, creates, List.length_map, created_grown kept rows,
      List.length_append, List.length_append, chained.detections, produces.detections, Nat.add_comm]
    split <;> rfl
  · exact carried (fun _ _ next => ⟨next.enterprise, next.payload⟩) chained.successors produces.successors

theorem finishedSyncs_finish (stored : before.job.find? job.id = some job) (active : job.status = .running)
    (rows : grown.rows = before.job.rows ++ added) (same : after.job = grown.update job.id done) :
    finishedSyncs before after = if job.kind = "observe_source" then [⟨job, emitted before after⟩] else [] := by
  have there {row : Job} (member : row ∈ before.job.rows) : grown.find? row.id = some row :=
    Table.find?_of_mem (rows ▸ List.mem_append_left _ member)
  have selects : ∀ row ∈ before.job.rows, (decide (row.kind = "observe_source" ∧ row.status ≠ .done ∧
      (after.job.find? row.id).any (·.status = .done))) =
        ((row.kind = "observe_source") && (Keyed.key row == job.id)) := by
    intro row member
    by_cases hit : row.id = job.id
    · obtain rfl := Table.eq_of_key_eq member (Table.find?_some stored).1 hit
      rw [same, Table.find?_update_self, there member]
      have isDone : (Table.assign done row).status = .done := rfl
      have keyed : Keyed.key row = row.id := rfl
      simp [active, isDone, keyed]
    · rw [same, Table.find?_update_other _ _ hit, there member]
      have other : Keyed.key row ≠ job.id := hit
      simp [other]
  rw [finishedSyncs, List.filter_congr selects, ← List.filter_filter, Table.filter_key, stored]
  by_cases isKind : job.kind = "observe_source"
  · simp [isKind]
  · simp [isKind]

/-! ## Every step -/

/-- What a step of the workers does to the queue. -/
inductive Turned (before : DB) : DB → Prop where
  | requeued {after : DB} (selected : Job → Bool) (change : Job → Job)
      (table : after.job = before.job.updateWhere selected change)
      (requeues : ∀ job ∈ before.job.rows, selected job = true → Requeued job (Table.assign change job)) :
      Turned before after
  | finished {after : DB} {grown : Table Job} {job : Job} {added : List Job}
      (stored : before.job.find? job.id = some job) (active : job.status = .running)
      (rows : grown.rows = before.job.rows ++ added) (pending : ∀ job ∈ added, job.status = .pending)
      (table : after.job = grown.update job.id done)
      (produces : Produces job added
        (if job.kind = "observe_source" then [⟨job, emitted before after⟩] else [])) :
      Turned before after

theorem Turned.refl (db : DB) : Turned db db := by
  refine .requeued (fun _ => false) id ?_ (by simp)
  exact (Table.updateWhere_eq_self (by simp)).symm

theorem Turned.kept (turned : Turned before after) (kept : Kept initial before) : Kept initial after := by
  intro id old wasThere
  obtain ⟨row, found, still⟩ := kept id old wasThere
  cases turned with
  | requeued selected change table requeues =>
      rw [table, Table.find?_updateWhere, found]
      refine ⟨_, rfl, fun wasDone => ?_⟩
      dsimp only
      split
      · next hit => exact (requeues row (Table.find?_some found).1 hit).finished.mpr (still wasDone)
      · exact still wasDone
  | @finished grown job added stored active rows pending table produces =>
      obtain ⟨member, rfl⟩ := Table.find?_some found
      have there : grown.find? row.id = some row :=
        Table.find?_of_mem (rows ▸ List.mem_append_left _ member)
      by_cases hit : row.id = job.id
      · refine ⟨done row, ?_, fun _ => rfl⟩
        rw [table, ← hit]
        exact (Table.find?_update_self ..).trans (by rw [there]; rfl)
      · have other : Keyed.key row ≠ job.id := hit
        exact ⟨row, by rw [table, Table.find?_update_other _ _ other]; exact there, still⟩

theorem Turned.chained (turned : Turned before after) (kept : Kept initial before)
    (chained : Chained initial before.job.rows syncs) :
    Chained initial after.job.rows (syncs ++ finishedSyncs before after) := by
  cases turned with
  | requeued selected change table requeues =>
      rw [finishedSyncs_requeue table requeues, List.append_nil, table]
      exact chained.requeue requeues
  | finished stored active rows pending table produces =>
      rw [finishedSyncs_finish stored active rows table, table]
      exact chained.finish kept rows pending stored active produces

/-! ### Runs of a handler -/

variable {runtime : Runtime} {now : Timestamp} {outside : Job → Outside}

theorem requeued_failed (error : String) (active : job.status = .running) :
    Requeued job (failedOrRetried now error job) := by
  have enterprise : (failedOrRetried now error job).enterpriseId = job.enterpriseId := by
    simp only [failedOrRetried]
    split <;> rfl
  refine ⟨failedOrRetried_kind, failedOrRetried_payload, enterprise, ?_⟩
  rw [failedOrRetried_status, active]
  split <;> simp

theorem turned_failed (stored : before.job.find? job.id = some job) (active : job.status = .running)
    (error : String) :
    Turned before { before with job := before.job.update job.id fun _ => failedOrRetried now error job } := by
  refine .requeued (fun row => Keyed.key row == job.id) (fun _ => failedOrRetried now error job) rfl ?_
  intro row member hit
  obtain rfl := Table.eq_of_key_eq member (Table.find?_some stored).1 (eq_of_beq hit)
  rw [Table.assign_eq failedOrRetried_id]
  exact requeued_failed error active

structure Explains (job : Job) : Prop where
  kind : job.kind = "generate_explanation"
  pending : job.status = .pending

/-- A job that neither observes nor recomputes adds explanations only. -/
theorem handlers_explain {handler : Handler} (registered : handlers outside kind = some handler)
    (observes : kind ≠ "observe_source") (recomputes : kind ≠ "recompute_aggregates") :
    ∀ now job, Follows (adds Explains) (handler.run now job) := by
  have same {db other : DB} (jobs : other.job = db.job) : (adds Explains).rel db other := adds_of_same jobs
  have suggests : Integration.SuggestionFrame (adds Explains) :=
    ⟨fun _ _ => same rfl, fun _ _ => same rfl, fun _ _ _ => same rfl⟩
  have detects : Analysis.DetectionFrame (adds Explains) :=
    ⟨fun _ _ => same rfl, fun _ _ => same rfl,
      fun _ _ _ => follows_write fun _ => adds_insert ⟨rfl, rfl⟩ rfl⟩
  have explains : Analysis.ExplanationFrame (adds Explains) :=
    ⟨fun _ _ => same rfl, fun _ _ => same rfl, fun _ _ _ _ => same rfl, fun _ _ => same rfl⟩
  have follow {run : Timestamp → Job → Session PUnit} {derived : ∀ now job, Follows derives (run now job)}
      (is : some (derivingHandler run derived) = some handler)
      (follows : ∀ now job, Follows (adds Explains) (run now job)) :
      ∀ now job, Follows (adds Explains) (handler.run now job) := by
    obtain rfl := Option.some.inj is
    exact follows
  unfold handlers at registered
  split at registered
  · exact follow registered fun _ _ => follows_pure _
  · exact follow registered fun now job => suggestMappingHandler_follows suggests _ now job
  · exact absurd rfl observes
  · exact absurd rfl recomputes
  · exact follow registered fun now job => detectRisksHandler_follows detects now job
  · exact follow registered fun now job => generateExplanationHandler_follows explains _ now job
  · cases registered

theorem produces_of_explanations (observes : job.kind ≠ "observe_source")
    (recomputes : job.kind ≠ "recompute_aggregates") (explain : ∀ row ∈ added, row.kind = "generate_explanation") :
    Produces job added [] := by
  have none (kind : String) (other : kind ≠ "generate_explanation") : added.filter (·.kind = kind) = [] :=
    List.filter_eq_nil_iff.mpr fun row member => by simp [explain row member, other.symm]
  refine ⟨by simp [observes], ?_, ?_, ?_⟩
  · rw [none _ (by decide)]
    exact .nil
  · simp [none _ (by decide : "detect_risks" ≠ "generate_explanation"), recomputes]
  · rw [none _ (by decide)]
    exact .nil

/-- The observation queues its next run, after the aggregates of what its sync has signalled. -/
theorem produces_of_observation {signals : List ObservationSignal} {asked : List Job} {next : Job}
    (isKind : job.kind = "observe_source") (nextKind : next.kind = "observe_source")
    (runs : NextRun next ⟨job, signals⟩)
    (asks : if signals = [] then asked = []
      else ∃ row, asked = [row] ∧ row.kind = "recompute_aggregates" ∧ AggregatesFor row ⟨job, signals⟩) :
    Produces job (asked ++ [next]) [⟨job, signals⟩] := by
  have notRecomputing : job.kind ≠ "recompute_aggregates" := by simp [isKind]
  split at asks
  · next none =>
    subst none asks
    exact ⟨by simp [isKind], by simp [nextKind], by simp [nextKind, notRecomputing], by simp [nextKind, runs]⟩
  · next some =>
    obtain ⟨row, rfl, rowKind, asks⟩ := asks
    exact ⟨by simp [isKind], by simp [nextKind, rowKind, some, asks], by simp [nextKind, rowKind, notRecomputing],
      by simp [nextKind, rowKind, runs]⟩

theorem handlers_observe {handler : Handler} (registered : handlers outside "observe_source" = some handler)
    (isKind : job.kind = "observe_source") (ran : handler.run now job before = .ok ⟨⟩ after) :
    ∃ added, after.job.rows = before.job.rows ++ added ∧ (∀ row ∈ added, row.status = .pending) ∧
      Produces job added [⟨job, emitted before after⟩] := by
  obtain rfl : observing outside = handler := Option.some.inj registered
  obtain ⟨enterpriseId, dataSourceId, source, synced, enterprise, _, ⟨sync⟩, _, _, rfl⟩ :=
    observeSourceHandler_ok ran
  obtain ⟨signals, log, queued⟩ := sync.queued
  have emits : emitted before synced = signals := by rw [emitted, log, List.drop_left]
  have asked : ∃ asked, synced.job.rows = before.job.rows ++ asked ∧ (∀ row ∈ asked, row.status = .pending) ∧
      if signals = [] then asked = []
      else ∃ row, asked = [row] ∧ row.kind = "recompute_aggregates" ∧ AggregatesFor row ⟨job, signals⟩ := by
    split at queued
    · next none => exact ⟨[], by simp [queued], by simp, if_pos none ▸ rfl⟩
    · next some =>
      obtain ⟨queued, items⟩ := queued
      refine ⟨[_], by rw [queued, Table.insert_rows], ?_, ?_⟩
      · exact List.forall_mem_singleton.mpr rfl
      · rw [if_neg some]
        exact ⟨_, rfl, rfl, enterprise.symm, _, rfl, items⟩
  obtain ⟨asked, rows, pending, asks⟩ := asked
  let next := newJob now "observe_source" job.payload (some (now + seconds source.observationIntervalSeconds))
    (some enterpriseId) defaultMaxAttempts
  refine ⟨asked ++ [synced.job.newRow next], ?_, ?_, ?_⟩
  · rw [Table.insert_rows, rows, List.append_assoc]
  · exact List.forall_mem_append.mpr ⟨pending, List.forall_mem_singleton.mpr rfl⟩
  · change Produces job _ [⟨job, emitted before synced⟩]
    rw [emits]
    exact produces_of_observation isKind rfl ⟨enterprise.symm, rfl⟩ asks

theorem handlers_recompute {handler : Handler} (registered : handlers outside "recompute_aggregates" = some handler)
    (isKind : job.kind = "recompute_aggregates") (ran : handler.run now job before = .ok ⟨⟩ after) :
    ∃ added, after.job.rows = before.job.rows ++ added ∧ (∀ row ∈ added, row.status = .pending) ∧
      Produces job added [] := by
  obtain rfl := Option.some.inj registered
  change recomputeAggregatesHandler now job before = .ok ⟨⟩ after at ran
  simp only [recomputeAggregatesHandler, bind_eq_ok, lift_eq_ok, enqueue, write_eq_ok] at ran
  obtain ⟨enterpriseId, _, ⟨_, rfl⟩, _, middle, recomputed, rfl⟩ := ran
  obtain ⟨table, rfl⟩ := (Observation.recomputeAggregates_follows job.payload.itemIds).ok recomputed
  let detection := newJob now "detect_risks" { enterpriseId := some enterpriseId } none (some enterpriseId)
    defaultMaxAttempts
  have kind : (before.job.newRow detection).kind = "detect_risks" := rfl
  refine ⟨[before.job.newRow detection], rfl, ?_, ?_⟩
  · exact List.forall_mem_singleton.mpr rfl
  · exact ⟨by simp [isKind], by simp [kind], by simp [kind, isKind], by simp [kind]⟩

theorem turned_runJob (stored : before.job.find? job.id = some job) (active : job.status = .running) :
    Turned before (runJob runtime (handlers outside) now job before).2 := by
  have ended : JobRun runtime (handlers outside) now job before _ := runJob_cases stored
  generalize runJob runtime (handlers outside) now job before = result at ended ⊢
  cases ended with
  | unknown _ error => exact turned_failed stored active error
  | failed _ _ _ error => exact turned_failed stored active error
  | escaped _ _ _ => exact .refl before
  | @finished handler after registered ran =>
      by_cases observes : job.kind = "observe_source"
      · rw [observes] at registered
        obtain ⟨added, rows, pending, produces⟩ := handlers_observe registered observes ran
        refine .finished stored active rows pending rfl ?_
        rw [if_pos observes]
        exact produces
      · by_cases recomputes : job.kind = "recompute_aggregates"
        · rw [recomputes] at registered
          obtain ⟨added, rows, pending, produces⟩ := handlers_recompute registered recomputes ran
          refine .finished stored active rows pending rfl ?_
          rw [if_neg observes]
          exact produces
        · obtain ⟨added, rows, explains⟩ := (handlers_explain registered observes recomputes now job).ok ran
          refine .finished stored active rows (fun row isNew => (explains row isNew).pending) rfl ?_
          rw [if_neg observes]
          exact produces_of_explanations observes recomputes fun row isNew => (explains row isNew).kind

/-! ### The machine -/

theorem turned_recover (stored : before.job.find? job.id = some job) (active : job.status = .running)
    (reason : Error) : Turned before (recover runtime now job reason before).2 := by
  unfold recover
  split
  · exact .refl before
  · simp only [stored]
    exact turned_failed stored active _

theorem recover_others {reason : Error} {id : Uuid} {other : Job} (stored : before.job.find? job.id = some job)
    (different : id ≠ job.id) (found : before.job.find? id = some other) :
    (recover runtime now job reason before).2.job.find? id = some other := by
  unfold recover
  split
  · exact found
  · simp only [stored]
    exact (Table.find?_update_other _ _ different).trans found

variable {state : State}

theorem State.meets_turned (wellHeld : WellHeld state) (event : PipelineEvent) :
    Turned state.db (state.meets runtime event).db := by
  cases event with
  | step event =>
      cases event with
      | claim now workerId limit =>
          rw [State.meets, claim_eq]
          refine .requeued _ (claimed workerId now) rfl fun job member claims => ?_
          have isDue := mem_of_mem_dueJobs ((claims_iff member).mp claims)
          have pending := (due_iff.mp isDue.2).1
          exact ⟨rfl, rfl, rfl, by simp [assign_claimed, pending]⟩
      | run now outside id =>
          simp only [State.meets, State.after]
          split
          · exact .refl _
          · next held =>
            obtain ⟨job, found, active⟩ := wellHeld.running id (not_not.mp held)
            simp only [found]
            obtain ⟨_, rfl⟩ := Table.find?_some found
            exact turned_runJob found active
  | interrupted now reason id =>
      simp only [State.meets]
      split
      · exact .refl _
      · next held =>
        obtain ⟨job, found, active⟩ := wellHeld.running id (not_not.mp held)
        simp only [found]
        obtain ⟨_, rfl⟩ := Table.find?_some found
        exact turned_recover found active reason
  | crash ids => exact .refl _

theorem State.meets_wellHeld (wellHeld : WellHeld state) (event : PipelineEvent) :
    WellHeld (state.meets runtime event) := by
  cases event with
  | step event => exact wellHeld.step event
  | interrupted now reason id =>
      simp only [State.meets]
      split
      · exact wellHeld
      · next held =>
        obtain ⟨job, found, _⟩ := wellHeld.running id (not_not.mp held)
        simp only [found]
        obtain ⟨_, rfl⟩ := Table.find?_some found
        exact wellHeld.released fun _ _ different rowFound => recover_others found different rowFound
  | crash ids =>
      refine ⟨wellHeld.distinct.filter _, fun id held => wellHeld.running id (List.mem_of_mem_filter held)⟩

/-- The jobs are chained, and the claimed ones are running. -/
structure Piped (initial : DB) (pipeline : Pipeline) : Prop where
  wellHeld : WellHeld pipeline.toState
  kept : Kept initial pipeline.db
  chained : Chained initial pipeline.db.job.rows pipeline.syncs

theorem piped_start (initial : DB) : Piped initial (.start initial) where
  wellHeld := ⟨List.nodup_nil, by simp [Pipeline.start]⟩
  kept id old found := ⟨old, found, fun isDone => isDone⟩
  chained := by
    have there : ∀ job ∈ initial.job.rows, initial.job.find? job.id = some job := fun _ => Table.find?_of_mem
    have none (kind : String) : created initial kind initial.job.rows = [] :=
      List.filter_eq_nil_iff.mpr fun job member => by simp [there job member]
    have undone (kind : String) : doneSince initial kind initial.job.rows = [] :=
      List.filter_eq_nil_iff.mpr fun job member => by simp +contextual [there job member]
    constructor
    · simp [Pipeline.start, undone]
    · simp [Pipeline.start, none]
    · simp [Pipeline.start, none, undone]
    · simp [Pipeline.start, none]

theorem Piped.step {pipeline : Pipeline} (piped : Piped initial pipeline) (event : PipelineEvent) :
    Piped initial (pipeline.after runtime event) := by
  have turned : Turned pipeline.db (pipeline.toState.meets runtime event).db := State.meets_turned piped.wellHeld event
  exact ⟨State.meets_wellHeld piped.wellHeld event, turned.kept piped.kept, turned.chained piped.kept piped.chained⟩

end Steps

/-- However the workers run, fail and crash, each stage of the pipeline has queued
the next one exactly once. -/
theorem pipeline_chained (runtime : Runtime) (initial : DB) (events : List PipelineEvent) :
    let pipeline := events.foldl (Pipeline.after runtime) (.start initial)
    Chained initial pipeline.db.job.rows pipeline.syncs := by
  have piped (pipeline : Pipeline) (holds : Piped initial pipeline) :
      Piped initial (events.foldl (Pipeline.after runtime) pipeline) := by
    induction events generalizing pipeline with
    | nil => exact holds
    | cons event rest ih => exact ih _ (holds.step event)
  exact (piped _ (piped_start initial)).chained

end SmartProcurement.Worker
