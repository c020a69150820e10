import SmartProcurement.Worker
import SmartProcurement.Transition.Runs

namespace SmartProcurement.Worker

open Relational Transaction Transition Jobs Observation

/-! # Observation jobs

What a failed observation leaves behind, and how long a source stays observed.
-/

/-! ## The evidence of an outage -/

/-- The source is marked as unavailable, with its error, and its gap is open. -/
structure OutageEvident (enterpriseId dataSourceId : Uuid) (db : DB) : Prop where
  marked : ∃ source, db.dataSource.find? dataSourceId = some source ∧ source.health = .unavailable ∧
    source.lastError.isSome
  gap : (sourceUnavailable enterpriseId dataSourceId).isOpen db = true

/-- The job observes a source whose connector cannot be built or cannot fetch. -/
structure Outage (connectors : Integration.Connectors) (job : Job) (enterpriseId dataSourceId : Uuid) (db : DB) :
    Prop where
  kind : job.kind = "observe_source"
  enterprise : job.payload.enterpriseId = some enterpriseId
  source : job.payload.dataSourceId = some dataSourceId
  failed : ∃ source detail, db.dataSource.find? dataSourceId = some source ∧
    source.enterpriseId = enterpriseId ∧ connectors.loadCredential source = .ok ⟨⟩ ∧
    (connectors.build source >>= fun _ => connectors.fetch source) = .error (.connector detail)

section Outages

variable {enterpriseId dataSourceId : Uuid} {before after : DB} {now : Timestamp} {job : Job}

theorem OutageEvident.congr (sources : after.dataSource = before.dataSource)
    (gaps : after.observabilityGap = before.observabilityGap) :
    OutageEvident enterpriseId dataSourceId after ↔ OutageEvident enterpriseId dataSourceId before := by
  have sameGap : (sourceUnavailable enterpriseId dataSourceId).isOpen after =
      (sourceUnavailable enterpriseId dataSourceId).isOpen before := by
    rw [GapKey.isOpen, gaps, GapKey.isOpen]
  constructor
  · rintro ⟨marked, gap⟩
    exact ⟨sources ▸ marked, sameGap ▸ gap⟩
  · rintro ⟨marked, gap⟩
    exact ⟨sources.symm ▸ marked, sameGap.trans gap⟩

theorem runJob_of_raises {runtime : Runtime} {registry : Registry}
    (raised : raises registry now job before = true) :
    ∃ jobs, (runJob runtime registry now job before).2 = { before with job := jobs } := by
  unfold raises at raised
  split at raised
  · cases raised
  · next handler registered =>
    split at raised
    · cases raised
    · next reason abandoned ran =>
      simp only [runJob, registered, ran, recover]
      split
      · exact ⟨_, rfl⟩
      · split
        · exact ⟨_, rfl⟩
        · exact ⟨_, rfl⟩

theorem Outage.raises {outside : Job → Outside}
    (outage : Outage (outside job).connectors job enterpriseId dataSourceId before) :
    raises (handlers outside) now job before = true := by
  obtain ⟨source, detail, found, owned, _, failed⟩ := outage.failed
  have registered : handlers outside job.kind = some (observing outside) := by
    rw [outage.kind]
    rfl
  cases ran : observeSourceHandler (outside job) now job before with
  | error reason abandoned => exact raises_of_error registered ran
  | ok done after =>
      obtain ⟨_, otherId, _, _, _, same, ⟨synced⟩, _⟩ := observeSourceHandler_ok ran
      obtain rfl := Option.some.inj (outage.source.symm.trans same)
      have sameSource := Option.some.inj (found.symm.trans synced.found)
      rw [sameSource, synced.fetched] at failed
      cases failed

/-- After a failed observation the evidence is there exactly when it was there before. -/
theorem outageEvident_after_run_iff {runtime : Runtime} {outside : Job → Outside}
    (outage : Outage (outside job).connectors job enterpriseId dataSourceId before) :
    OutageEvident enterpriseId dataSourceId (runJob runtime (handlers outside) now job before).2 ↔
      OutageEvident enterpriseId dataSourceId before := by
  obtain ⟨jobs, same⟩ : ∃ jobs, (runJob runtime (handlers outside) now job before).2 =
      { before with job := jobs } := runJob_of_raises outage.raises
  rw [same]
  exact OutageEvident.congr rfl rfl

end Outages

def observation : Job :=
  { newJob 0 "observe_source" { enterpriseId := some 1, dataSourceId := some 1 } none (some 1)
      defaultMaxAttempts with id := 1 }

theorem observedSheet_outage : Outage offline.connectors observation 1 1 observedSheet :=
  ⟨rfl, rfl, rfl, _, "timeout", rfl, rfl, rfl, rfl⟩

theorem outageEvident_after_run_observedSheet :
    OutageEvident 1 1 (runJob (runtime true) (handlers fun _ => offline) 0 observation observedSheet).2 ↔
      OutageEvident 1 1 observedSheet :=
  outageEvident_after_run_iff observedSheet_outage

/-- In either runtime the first outage of a source leaves no evidence. -/
theorem outage_leaves_no_evidence :
    Outage offline.connectors observation 1 1 observedSheet ∧
      ¬ OutageEvident 1 1 (runJob (runtime true) (handlers fun _ => offline) 0 observation observedSheet).2 ∧
      ¬ OutageEvident 1 1 (runJob (runtime false) (handlers fun _ => offline) 0 observation observedSheet).2 := by
  refine ⟨observedSheet_outage, fun evident => ?_, fun evident => ?_⟩
  · exact absurd evident.gap (by decide +kernel)
  · exact absurd evident.gap (by decide +kernel)

/-! ## Workers over the queue -/

/-- The committed state and the claimed jobs that no worker has run yet. -/
structure State where
  db : DB
  held : List Uuid

inductive Event where
  | claim (now : Timestamp) (workerId : String) (limit : Nat)
  | run (now : Timestamp) (outside : Job → Outside) (id : Uuid)

def State.after (runtime : Runtime) (state : State) : Event → State
  | .claim now workerId limit =>
      match transact (claimDue now workerId limit) state.db with
      | (.error _, db) => { state with db }
      | (.ok jobs, db) => { db, held := state.held ++ jobs.map (·.id) }
  | .run now outside id =>
      if id ∉ state.held then state
      else
        match state.db.job.find? id with
        | none => { state with held := state.held.erase id }
        | some job =>
            { db := (runJob runtime (handlers outside) now job state.db).2, held := state.held.erase id }

/-- The job will observe the source, or is doing so. -/
def observes (dataSourceId : Uuid) (job : Job) : Bool :=
  job.kind = "observe_source" ∧ job.payload.dataSourceId = some dataSourceId ∧
    (job.status = .pending ∨ job.status = .running)

def observations (dataSourceId : Uuid) (db : DB) : List Job := db.job.rows.filter (observes dataSourceId)

/-- The claimed jobs are running, each held once. -/
structure WellHeld (state : State) : Prop where
  distinct : state.held.Nodup
  running : ∀ id ∈ state.held, ∃ job, state.db.job.find? id = some job ∧ job.status = .running

section Steps

variable {runtime : Runtime} {dataSourceId : Uuid} {state : State} {db : DB} {job : Job} {now : Timestamp}

theorem observes_iff : observes dataSourceId job = true ↔ job.kind = "observe_source" ∧
    job.payload.dataSourceId = some dataSourceId ∧ (job.status = .pending ∨ job.status = .running) :=
  decide_eq_true_iff

theorem observes_done : observes dataSourceId (done job) = false := by
  simp [observes, done]

theorem observes_of_kind (other : job.kind ≠ "observe_source") : observes dataSourceId job = false := by
  simp [observes, other]

theorem observes_failedOrRetried_of_not (error : String) (active : job.status = .running)
    (idle : observes dataSourceId job = false) :
    observes dataSourceId (failedOrRetried now error job) = false := by
  refine Bool.eq_false_iff.mpr fun still => ?_
  obtain ⟨kind, source, _⟩ := observes_iff.mp still
  have observing : observes dataSourceId job = true :=
    observes_iff.mpr ⟨by simpa using kind, by simpa using source, .inr active⟩
  simp [idle] at observing

/-! ### Claims -/

theorem claim_eq (now : Timestamp) (workerId : String) (limit : Nat) :
    state.after runtime (.claim now workerId limit) =
      { db := { state.db with job := claimRows state.db.job workerId now limit }
        held := state.held ++ (dueJobs state.db.job now limit).map (·.id) } := by
  change State.mk _ (state.held ++ ((dueJobs state.db.job now limit).map (claimed workerId now)).map (·.id)) = _
  rw [List.map_map]
  rfl

theorem observations_claim (now : Timestamp) (workerId : String) (limit : Nat) :
    (observations dataSourceId { db with job := claimRows db.job workerId now limit }).length =
      (observations dataSourceId db).length := by
  unfold observations
  simp only [claimRows]
  rw [Table.filter_updateWhere, List.length_map]
  intro job member claims
  have isDue := mem_of_mem_dueJobs ((claims_iff member).mp claims)
  have pending := (due_iff.mp isDue.2).1
  simp [assign_claimed, observes, pending]

theorem WellHeld.claim (wellHeld : WellHeld state) (now : Timestamp) (workerId : String) (limit : Nat) :
    WellHeld (state.after runtime (.claim now workerId limit)) := by
  rw [claim_eq]
  have pending : ∀ job ∈ dueJobs state.db.job now limit, job.status = .pending := fun job isDue =>
    (due_iff.mp (mem_of_mem_dueJobs isDue).2).1
  constructor
  · refine List.Nodup.append wellHeld.distinct (dueJobs_nodup ..) ?_
    intro id held claimed
    obtain ⟨job, isDue, rfl⟩ := List.mem_map.mp claimed
    obtain ⟨row, found, running⟩ := wellHeld.running _ held
    have same : row = job := Option.some.inj
      (found.symm.trans (Table.find?_of_mem (mem_of_mem_dueJobs isDue).1))
    rw [same, pending job isDue] at running
    cases running
  · intro id held
    rcases List.mem_append.mp held with held | claims
    · obtain ⟨job, found, running⟩ := wellHeld.running id held
      obtain ⟨member, rfl⟩ := Table.find?_some found
      have notDue : job ∉ dueJobs state.db.job now limit := fun isDue => by
        rw [pending job isDue] at running
        cases running
      have kept : (claimRows state.db.job workerId now limit).find? job.id = _ := find?_claimRows found
      rw [if_neg notDue] at kept
      exact ⟨job, kept, running⟩
    · obtain ⟨job, isDue, rfl⟩ := List.mem_map.mp claims
      have found := Table.find?_of_mem (mem_of_mem_dueJobs isDue).1
      have kept : (claimRows state.db.job workerId now limit).find? job.id = _ := find?_claimRows found
      rw [if_pos isDue] at kept
      exact ⟨_, kept, rfl⟩

/-! ### Runs -/

theorem observations_adds {after : DB} (added : (adds Derived).rel db after) :
    observations dataSourceId after = observations dataSourceId db := by
  obtain ⟨jobs, rows, derived⟩ := added
  have others : jobs.filter (observes dataSourceId) = [] :=
    List.filter_eq_nil_iff.mpr fun job member => by simp [observes_of_kind (derived job member).kind]
  rw [observations, rows, List.filter_append, others, List.append_nil, observations]

theorem observations_update (db : DB) {change : Job → Job} (stored : db.job.find? job.id = some job)
    (same : observes dataSourceId (Table.assign change job) = observes dataSourceId job) :
    (observations dataSourceId { db with job := db.job.update job.id change }).length =
      (observations dataSourceId db).length := by
  unfold observations
  simp only [Table.update]
  rw [Table.filter_updateWhere, List.length_map]
  intro row member isJob
  have equal : row = job := Table.eq_of_key_eq member (Table.find?_some stored).1 (eq_of_beq isJob)
  rw [equal, same]

/-- The next run takes the place of the observation that is done. -/
theorem observations_reobserve {synced : DB} {added : Job} (stored : db.job.find? job.id = some job)
    (single : (observations dataSourceId db).length = 1)
    (derived : (adds Derived).rel db synced)
    (next : observes dataSourceId (synced.job.newRow added) = observes dataSourceId job) :
    (observations dataSourceId
      { synced with job := (synced.job.insert added).update job.id done }).length = 1 := by
  have sameObservations : observations dataSourceId synced = observations dataSourceId db :=
    observations_adds derived
  have found : (synced.job.insert added).find? job.id = some job :=
    Table.find?_insert_of_find? (adds_find? derived stored) added
  cases observing : observes dataSourceId job with
  | false =>
      have idle : observes dataSourceId (Table.assign done job) = observes dataSourceId job := by
        rw [assign_done, observes_done, observing]
      have kept := observations_update { synced with job := synced.job.insert added } found idle
      rw [kept, observations, Table.filter_insert, next, observing]
      simp only [Bool.false_eq_true, if_false, List.append_nil]
      rw [← single, ← sameObservations, observations]
  | true =>
      have member : job ∈ observations dataSourceId db :=
        List.mem_filter.mpr ⟨(Table.find?_some stored).1, observing⟩
      obtain ⟨only, alone⟩ := List.length_eq_one_iff.mp single
      rw [alone, List.mem_singleton] at member
      subst member
      rw [observations, Table.filter_update_leaves, Table.filter_insert, next, observing, if_pos rfl]
      · change (List.filter _ (observations dataSourceId synced ++ _)).length = 1
        have fresh : synced.job.freshKey ≠ job.id := fun same => by
          have below := Table.key_lt_freshKey (Table.find?_some (adds_find? derived stored)).1
          exact absurd below (by rw [same]; exact lt_irrefl _)
        have old : (Keyed.key job != job.id) = false := bne_self_eq_false job.id
        rw [sameObservations, alone]
        simp [old, fresh]
      · intro row rowMember isJob
        have equal : row = job := Table.eq_of_key_eq rowMember (Table.find?_some found).1 isJob
        rw [equal, assign_done, observes_done]

theorem observations_runJob {outside : Job → Outside} (stored : db.job.find? job.id = some job)
    (active : job.status = .running) (single : (observations dataSourceId db).length = 1)
    (expired : runtime.expiredReadsRaise = true) :
    (observations dataSourceId (runJob runtime (handlers outside) now job db).2).length = 1 := by
  have ended : JobRun runtime (handlers outside) now job db _ := runJob_cases stored
  generalize runJob runtime (handlers outside) now job db = result at ended ⊢
  cases ended with
  | unknown unregistered error =>
      have other : job.kind ≠ "observe_source" := by
        rintro same
        rw [same] at unregistered
        cases unregistered
      have idle : observes dataSourceId job = false := observes_of_kind other
      rw [observations_update db stored, single]
      rw [Table.assign_eq failedOrRetried_id, idle, observes_failedOrRetried_of_not error active idle]
  | failed _ _ readable _ => simp [readable] at expired
  -- the job of a handler that has raised stays running, though nobody runs it
  | escaped _ _ _ => exact single
  | @finished handler after registered ran =>
      by_cases kind : job.kind = "observe_source"
      · rw [kind] at registered
        obtain rfl : observing outside = handler := Option.some.inj registered
        obtain ⟨_, _, source, synced, _, _, _, kept, _, rfl⟩ := observeSourceHandler_ok ran
        refine observations_reobserve stored single kept.2 ?_
        simp [observes, active, kind, newJob, Table.newRow, Keyed.withKey]
      · have idle : observes dataSourceId job = false := observes_of_kind kind
        have derived := ((handlers_derives registered kind now job).ok ran).2
        rw [observations_update after (adds_find? derived stored), observations_adds derived, single]
        rw [assign_done, observes_done, idle]

/-- A run that leaves the other jobs alone gives its own job back. -/
theorem WellHeld.released {after : DB} (wellHeld : WellHeld state)
    (others : ∀ id other, id ≠ job.id → state.db.job.find? id = some other → after.job.find? id = some other) :
    WellHeld ⟨after, state.held.erase job.id⟩ where
  distinct := wellHeld.distinct.erase job.id
  running := by
    intro other member
    obtain ⟨different, member⟩ := (List.Nodup.mem_erase_iff wellHeld.distinct).mp member
    obtain ⟨row, rowFound, active⟩ := wellHeld.running other member
    exact ⟨row, others other row different rowFound, active⟩

theorem WellHeld.run {outside : Job → Outside} {id : Uuid} (wellHeld : WellHeld state)
    (found : state.db.job.find? id = some job) :
    WellHeld ⟨(runJob runtime (handlers outside) now job state.db).2, state.held.erase id⟩ := by
  obtain ⟨_, rfl⟩ := Table.find?_some found
  exact wellHeld.released fun _ _ different rowFound => runJob_others found different rowFound

theorem WellHeld.step (wellHeld : WellHeld state) (event : Event) : WellHeld (state.after runtime event) := by
  cases event with
  | claim now workerId limit => exact wellHeld.claim now workerId limit
  | run now outside id =>
      simp only [State.after]
      split
      · exact wellHeld
      · next held =>
        obtain ⟨job, found, _⟩ := wellHeld.running id (not_not.mp held)
        simp only [found]
        exact wellHeld.run found

/-- One observation of the source is pending or running, and claimed jobs are running. -/
structure Observed (dataSourceId : Uuid) (state : State) : Prop where
  wellHeld : WellHeld state
  single : (observations dataSourceId state.db).length = 1

theorem Observed.step (observed : Observed dataSourceId state) (expired : runtime.expiredReadsRaise = true) (event : Event) :
    Observed dataSourceId (state.after runtime event) := by
  refine ⟨observed.wellHeld.step event, ?_⟩
  cases event with
  | claim now workerId limit =>
      rw [claim_eq, observations_claim]
      exact observed.single
  | run now outside id =>
      simp only [State.after]
      split
      · exact observed.single
      · next held =>
        have held := not_not.mp held
        obtain ⟨job, found, active⟩ := observed.wellHeld.running id held
        simp only [found]
        obtain ⟨_, rfl⟩ := Table.find?_some found
        exact observations_runJob found active observed.single expired

end Steps

/-- The event takes the workers from one state to the other. -/
def Event.Takes (runtime : Runtime) (before : State) (event : Event) (after : State) : Prop := before.after runtime event = after

/-- Whatever the workers claim and run, and whatever the handlers raise, one observation of
the source is pending or running: a rollback expires the job that is to be marked as
failed, so that no failure is ever recorded and no attempt is ever the last one. -/
theorem observation_continues {runtime : Runtime} (expired : runtime.expiredReadsRaise = true) {dataSourceId : Uuid}
    {initial state : State} {events : List Event} (wellHeld : WellHeld initial)
    (single : (observations dataSourceId initial.db).length = 1) (run : Run (Event.Takes runtime) initial events state) :
    (observations dataSourceId state.db).length = 1 := by
  refine (run.invariant (Observed dataSourceId) ⟨wellHeld, single⟩ ?_).single
  rintro before event _ observed rfl
  exact observed.step expired event

def observedState : State := ⟨observedSheet, []⟩

theorem observedState_wellHeld : WellHeld observedState := ⟨List.nodup_nil, by simp [observedState]⟩

/-- An outage on the first attempt, and two more claims a day later. -/
theorem observation_continues_after_outage :
    let events : List Event := [.claim 0 "w" 25, .run 0 (fun _ => offline) 1, .claim (seconds 86400) "w" 25,
      .claim (seconds 86400) "v" 25]
    (observations 1 (events.foldl (State.after (runtime true)) observedState).db).length = 1 :=
  observation_continues rfl observedState_wellHeld (by decide +kernel) (run_foldl _ _ _)

end SmartProcurement.Worker
