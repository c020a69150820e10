import SmartProcurement.Worker

namespace SmartProcurement.Worker

open Relational Transaction Jobs

/-! # One call of `process_once`

The call runs the jobs of its batch one after another.  As long as no exception
escapes a run, every selected job is settled; the first that escapes leaves its
job, and every job after it, as they were claimed.
-/

section Batches

variable (runtime : Runtime) (registry : Registry) (clock : Clock) (workerId : String)

/-- The jobs of a list, each with the committed state it runs in. -/
def runsOf : List Job → DB → List (Job × DB)
  | [], _ => []
  | job :: rest, committed =>
      (job, committed) :: runsOf rest (runJob runtime registry (clock.run job.id) job committed).2

def runAll : List Job → DB → DB
  | [], committed => committed
  | job :: rest, committed => runAll rest (runJob runtime registry (clock.run job.id) job committed).2

/-- The exception of this run escapes `_run_job`. -/
def escapes (run : Job × DB) : Bool :=
  runtime.expiredReadsRaise && raises registry (clock.run run.1.id) run.1 run.2

def batch (limit : Nat) (db : DB) : List Job :=
  (dueJobs db.job clock.claim limit).map (claimed workerId clock.claim)

def claimedState (limit : Nat) (db : DB) : DB :=
  { db with job := claimRows db.job workerId clock.claim limit }

theorem processOnce_eq (kind : Option String) (limit : Nat) (db : DB) :
    processOnce runtime registry clock workerId kind limit db =
      processJobs runtime registry clock kind (batch clock workerId limit db) 0
        (claimedState clock workerId limit db) := rfl

end Batches

/-! ## Settled jobs -/

/-- A failure as `mark_failed_or_retry` must record it. -/
structure FailureRecorded (job row : Job) : Prop where
  attempts : row.attempts = job.attempts + 1
  error : row.lastError.isSome
  unlocked : row.lockedBy = none ∧ row.lockedAt = none
  next : (row.status = .pending ∧ job.runAt < row.runAt ∧ (row.attempts : Int) < job.maxAttempts) ∨
    (row.status = .failed ∧ job.maxAttempts ≤ row.attempts)

structure Settled (registry : Registry) (now : Timestamp) (job : Job) (committed : DB) (row : Job) : Prop where
  done : (registry job.kind).isSome → raises registry now job committed = false → row.status = .done
  failed : raises registry now job committed = true → FailureRecorded job row

section Rows

variable {runtime : Runtime} {registry : Registry} {now : Timestamp} {job : Job} {committed : DB}

theorem backoff_pos (attempts : Nat) : 0 < backoff attempts := by
  have doubled : (0 : Int) < 5 * 2 ^ attempts := by positivity
  unfold backoff seconds backoffBaseSeconds backoffCapSeconds
  omega

theorem failureRecorded (error : String) (due : job.runAt ≤ now) :
    FailureRecorded job (failedOrRetried now error job) := by
  have later := backoff_pos (job.attempts + 1)
  unfold failedOrRetried
  by_cases exhausted : job.maxAttempts ≤ (job.attempts + 1 : Nat)
  · simp only [if_pos exhausted]
    exact ⟨rfl, rfl, ⟨rfl, rfl⟩, .inr ⟨rfl, exhausted⟩⟩
  · simp only [if_neg exhausted]
    exact ⟨rfl, rfl, ⟨rfl, rfl⟩, .inl ⟨rfl, lt_of_le_of_lt due (Int.lt_add_of_pos_right now later),
      not_le.mp exhausted⟩⟩

theorem failedOrRetried_stopped (error : String) : (failedOrRetried now error job).status ≠ .running := by
  rw [failedOrRetried_status]
  split <;> simp

theorem find?_replaced {table : Table Job} {row : Job} (stored : table.find? job.id = some job)
    (same : row.id = job.id) : (table.update job.id fun _ => row).find? job.id = some row := by
  rw [Table.find?_update_self, stored, Option.map_some, Table.assign_eq same]

theorem runJob_settles (stored : committed.job.find? job.id = some job) (due : job.runAt ≤ now)
    (contained : (runtime.expiredReadsRaise && raises registry now job committed) = false) :
    (runJob runtime registry now job committed).1 = .ok () ∧
      ∃ row, (runJob runtime registry now job committed).2.job.find? job.id = some row ∧
        row.status ≠ .running ∧ Settled registry now job committed row := by
  have ended : JobRun runtime registry now job committed _ := runJob_cases stored
  generalize runJob runtime registry now job committed = result at ended ⊢
  cases ended with
  | unknown unregistered error =>
      refine ⟨rfl, _, find?_replaced stored failedOrRetried_id, failedOrRetried_stopped error, ?_, ?_⟩
      · simp [unregistered]
      · simp [raises, unregistered]
  | @finished handler after registered ran =>
      have returned := raises_of_ok registered ran
      refine ⟨rfl, done job, ?_, by simp, fun _ _ => rfl, by simp [returned]⟩
      change (after.job.update job.id done).find? job.id = _
      rw [Table.find?_update_self, adds_find? (handler.adds ran) stored, Option.map_some, assign_done]
  | failed registered ran readable error =>
      have raised := raises_of_error registered ran
      exact ⟨rfl, _, find?_replaced stored failedOrRetried_id, failedOrRetried_stopped error,
        fun _ returned => absurd raised (by simp [returned]), fun _ => failureRecorded error due⟩
  | escaped registered ran expired =>
      rw [expired, raises_of_error registered ran] at contained
      cases contained

theorem runJob_escapes (stored : committed.job.find? job.id = some job)
    (escaping : (runtime.expiredReadsRaise && raises registry now job committed) = true) :
    runJob runtime registry now job committed = (.error .missingGreenlet, committed) := by
  obtain ⟨expired, raised⟩ := Bool.and_eq_true_iff.mp escaping
  have ended : JobRun runtime registry now job committed _ := runJob_cases stored
  generalize runJob runtime registry now job committed = result at ended ⊢
  cases ended with
  | unknown unregistered error => simp [raises, unregistered] at raised
  | finished registered ran => simp [raises_of_ok registered ran] at raised
  | failed registered ran readable error => simp [readable] at expired
  | escaped registered ran expired => rfl

end Rows

/-! ## Runs of a batch -/

/-- The jobs are stored as they stand in the list, each under an id of its own,
and none of them runs before it is due. -/
structure Holds (clock : Clock) (jobs : List Job) (db : DB) : Prop where
  stored : ∀ job ∈ jobs, db.job.find? job.id = some job
  distinct : (jobs.map (·.id)).Nodup
  due : ∀ job ∈ jobs, job.runAt ≤ clock.run job.id

section Batches

variable {runtime : Runtime} {registry : Registry} {clock : Clock} {workerId : String}
variable {jobs : List Job} {job : Job} {db : DB} {limit : Nat} {kind : Option String}

theorem mem_batch {claimedJob : Job} : claimedJob ∈ batch clock workerId limit db ↔
    ∃ job ∈ dueJobs db.job clock.claim limit, claimedJob = claimed workerId clock.claim job := by
  simp only [batch, List.mem_map, eq_comm]

theorem batch_holds (clock : Clock) (workerId : String) (limit : Nat) (db : DB) :
    Holds clock (batch clock workerId limit db) (claimedState clock workerId limit db) where
  stored := by
    intro claimedJob member
    obtain ⟨job, isDue, rfl⟩ := mem_batch.mp member
    have found := Table.find?_of_mem (mem_of_mem_dueJobs isDue).1
    have claims : (claimRows db.job workerId clock.claim limit).find? job.id = _ := find?_claimRows found
    rwa [if_pos isDue] at claims
  distinct := by
    have ids : (batch clock workerId limit db).map (·.id) = (dueJobs db.job clock.claim limit).map (·.id) := by
      rw [batch, List.map_map]
      rfl
    rw [ids]
    exact dueJobs_nodup ..
  due := by
    intro claimedJob member
    obtain ⟨job, isDue, rfl⟩ := mem_batch.mp member
    exact (due_iff.mp (mem_of_mem_dueJobs isDue).2).2.trans (clock.forward _)

theorem Holds.different {rest : List Job} (holds : Holds clock (job :: rest) db) {other : Job}
    (member : other ∈ rest) : other.id ≠ job.id := by
  intro same
  have fresh := (List.nodup_cons.mp holds.distinct).1
  exact fresh (List.mem_map.mpr ⟨other, member, same⟩)

/-- What is held of the jobs that remain is not lost when the first one runs. -/
theorem Holds.next {rest : List Job} (holds : Holds clock (job :: rest) db) :
    Holds clock rest (runJob runtime registry (clock.run job.id) job db).2 where
  stored other member := runJob_others (holds.stored job (by simp)) (holds.different member)
    (holds.stored other (List.mem_cons_of_mem _ member))
  distinct := (List.nodup_cons.mp holds.distinct).2
  due other member := holds.due other (List.mem_cons_of_mem _ member)

theorem Holds.sublist {fewer : List Job} (holds : Holds clock jobs db) (sub : fewer.Sublist jobs) :
    Holds clock fewer db where
  stored job member := holds.stored job (sub.subset member)
  distinct := List.Nodup.sublist (sub.map _) holds.distinct
  due job member := holds.due job (sub.subset member)

theorem runAll_others (holds : Holds clock jobs db) {id : Uuid} (outside : id ∉ jobs.map (·.id)) {row : Job}
    (found : db.job.find? id = some row) :
    (runAll runtime registry clock jobs db).job.find? id = some row := by
  induction jobs generalizing db with
  | nil => exact found
  | cons job rest ih =>
      rw [List.map_cons, List.mem_cons, not_or] at outside
      exact ih holds.next outside.2 (runJob_others (holds.stored job (by simp)) outside.1 found)

theorem runAll_skipped (holds : Holds clock jobs db) (member : job ∈ jobs) (skipped : selected kind job = false) :
    (runAll runtime registry clock (jobs.filter (selected kind)) db).job.find? job.id = some job := by
  refine runAll_others (holds.sublist List.filter_sublist) ?_ (holds.stored job member)
  intro listed
  obtain ⟨other, otherMember, same⟩ := List.mem_map.mp listed
  obtain ⟨otherMember, wanted⟩ := List.mem_filter.mp otherMember
  have found := holds.stored other otherMember
  rw [same, holds.stored job member] at found
  obtain rfl := Option.some.inj found
  exact absurd wanted (by simp [skipped])

theorem runAll_settles (holds : Holds clock jobs db)
    (contained : ∀ run ∈ runsOf runtime registry clock jobs db, escapes runtime registry clock run = false) :
    ∀ run ∈ runsOf runtime registry clock jobs db,
      ∃ row, (runAll runtime registry clock jobs db).job.find? run.1.id = some row ∧
        row.status ≠ .running ∧ Settled registry (clock.run run.1.id) run.1 run.2 row := by
  induction jobs generalizing db with
  | nil => simp [runsOf]
  | cons job rest ih =>
      intro run member
      rcases List.mem_cons.mp member with rfl | member
      · obtain ⟨_, row, found, stopped, settled⟩ := runJob_settles (holds.stored job (by simp))
          (holds.due job (by simp)) (contained (job, db) List.mem_cons_self)
        have fresh := (List.nodup_cons.mp holds.distinct).1
        exact ⟨row, runAll_others holds.next fresh found, stopped, settled⟩
      · exact ih holds.next (fun run later => contained run (List.mem_cons_of_mem _ later)) run member

theorem run_of_job (member : job ∈ jobs) (db : DB) :
    ∃ run ∈ runsOf runtime registry clock jobs db, run.1 = job := by
  induction jobs generalizing db with
  | nil => cases member
  | cons first rest ih =>
      rcases List.mem_cons.mp member with rfl | member
      · exact ⟨_, List.mem_cons_self, rfl⟩
      · obtain ⟨run, later, same⟩ := ih member (runJob runtime registry (clock.run first.id) first db).2
        exact ⟨run, List.mem_cons_of_mem _ later, same⟩

/-! ## The loop -/

/-- The loop when no exception escapes: every selected job runs. -/
theorem processJobs_of_contained (holds : Holds clock jobs db)
    (contained : ∀ run ∈ runsOf runtime registry clock (jobs.filter (selected kind)) db,
      escapes runtime registry clock run = false) (processed : Nat) :
    processJobs runtime registry clock kind jobs processed db =
      (.ok (processed + (jobs.filter (selected kind)).length),
        runAll runtime registry clock (jobs.filter (selected kind)) db) := by
  induction jobs generalizing db processed with
  | nil => rfl
  | cons job rest ih =>
      have remaining := holds.sublist (List.sublist_cons_self job rest)
      cases wanted : selected kind job with
      | false =>
          rw [List.filter_cons_of_neg (by simp [wanted])] at contained ⊢
          rw [processJobs, if_pos (by simp [wanted])]
          exact ih remaining contained processed
      | true =>
          rw [List.filter_cons_of_pos wanted] at contained ⊢
          have stored := holds.stored job (by simp)
          have returned := (runJob_settles stored (holds.due job (by simp)) (contained (job, db) List.mem_cons_self)).1
          have later := ih holds.next
            (fun run member => contained run (List.mem_cons_of_mem _ member)) (processed + 1)
          rw [processJobs, if_neg (by simp [wanted]), runAll]
          simp only [stored]
          generalize runJob runtime registry (clock.run job.id) job db = result at returned later ⊢
          obtain ⟨ended, after⟩ := result
          obtain rfl : ended = .ok () := returned
          have count : processed + ((rest.filter (selected kind)).length + 1) =
              processed + 1 + (rest.filter (selected kind)).length := by omega
          rw [List.length_cons, count]
          exact later

/-- The loop when an exception escapes: the call raises, and the job that raised
is still as it was claimed. -/
theorem processJobs_of_escaping (holds : Holds clock jobs db)
    (escaping : ∃ run ∈ runsOf runtime registry clock (jobs.filter (selected kind)) db,
      escapes runtime registry clock run = true) (processed : Nat) :
    (processJobs runtime registry clock kind jobs processed db).1 = .error .missingGreenlet ∧
      ∃ run ∈ runsOf runtime registry clock (jobs.filter (selected kind)) db,
        escapes runtime registry clock run = true ∧
        (processJobs runtime registry clock kind jobs processed db).2.job.find? run.1.id = some run.1 := by
  induction jobs generalizing db processed with
  | nil =>
      obtain ⟨run, member, _⟩ := escaping
      cases member
  | cons job rest ih =>
      cases wanted : selected kind job with
      | false =>
          rw [List.filter_cons_of_neg (by simp [wanted])] at escaping ⊢
          rw [processJobs, if_pos (by simp [wanted])]
          exact ih (holds.sublist (List.sublist_cons_self job rest)) escaping processed
      | true =>
          rw [List.filter_cons_of_pos wanted] at escaping ⊢
          have stored := holds.stored job (by simp)
          rw [processJobs, if_neg (by simp [wanted])]
          simp only [stored]
          cases first : escapes runtime registry clock (job, db) with
          | true =>
              have ended : runJob runtime registry (clock.run job.id) job db = (.error .missingGreenlet, db) :=
                runJob_escapes stored first
              rw [ended]
              exact ⟨rfl, (job, db), List.mem_cons_self, first, stored⟩
          | false =>
              have returned := (runJob_settles stored (holds.due job (by simp)) first).1
              have others : ∃ run ∈ runsOf runtime registry clock (rest.filter (selected kind))
                  (runJob runtime registry (clock.run job.id) job db).2,
                  escapes runtime registry clock run = true := by
                obtain ⟨run, member, escaped⟩ := escaping
                rcases List.mem_cons.mp member with rfl | member
                · simp [first] at escaped
                · exact ⟨run, member, escaped⟩
              obtain ⟨raised, run, member, later⟩ := ih holds.next others (processed + 1)
              have member : run ∈ runsOf runtime registry clock (job :: rest.filter (selected kind)) db :=
                List.mem_cons_of_mem _ member
              generalize runJob runtime registry (clock.run job.id) job db = result at returned raised later ⊢
              obtain ⟨ended, after⟩ := result
              obtain rfl : ended = .ok () := returned
              exact ⟨raised, run, member, later⟩

end Batches

/-! ## Containment of failures -/

/-- The final state has the record that a run must leave of its job. -/
def Recorded (registry : Registry) (clock : Clock) (final : DB) (run : Job × DB) : Prop :=
  ∃ row, final.job.find? run.1.id = some row ∧ Settled registry (clock.run run.1.id) run.1 run.2 row

/-- Every job of the batch is run and recorded exactly when reading the expired
job does not raise, or no handler does. -/
theorem processOnce_contains_iff (runtime : Runtime) (registry : Registry) (clock : Clock) (workerId : String)
    (limit : Nat) (db : DB) :
    (∀ run ∈ runsOf runtime registry clock (batch clock workerId limit db) (claimedState clock workerId limit db),
      Recorded registry clock (processOnce runtime registry clock workerId none limit db).2 run) ↔
    (runtime.expiredReadsRaise = true →
      ∀ run ∈ runsOf runtime registry clock (batch clock workerId limit db) (claimedState clock workerId limit db),
        raises registry (clock.run run.1.id) run.1 run.2 = false) := by
  have holds := batch_holds clock workerId limit db
  have everyJob : (batch clock workerId limit db).filter (selected none) = batch clock workerId limit db :=
    List.filter_eq_self.mpr fun _ _ => rfl
  constructor
  · intro recorded expired run member
    by_contra raised
    have escaping : ∃ run ∈ runsOf runtime registry clock ((batch clock workerId limit db).filter (selected none))
        (claimedState clock workerId limit db), escapes runtime registry clock run = true := by
      rw [everyJob]
      exact ⟨run, member, by simpa [escapes, expired] using raised⟩
    obtain ⟨_, stuck, stuckMember, stuckEscapes, still⟩ := processJobs_of_escaping holds escaping 0
    rw [everyJob] at stuckMember
    obtain ⟨row, found, settled⟩ := recorded stuck stuckMember
    rw [processOnce_eq, still] at found
    obtain rfl := Option.some.inj found
    have counted := (settled.failed (Bool.and_eq_true_iff.mp stuckEscapes).2).attempts
    omega
  · intro quiet
    have contained : ∀ run ∈ runsOf runtime registry clock ((batch clock workerId limit db).filter (selected none))
        (claimedState clock workerId limit db), escapes runtime registry clock run = false := by
      intro run member
      rw [everyJob] at member
      cases expired : runtime.expiredReadsRaise with
      | false => simp [escapes, expired]
      | true => simp [escapes, expired, quiet expired run member]
    have ended := processJobs_of_contained holds contained 0
    rw [everyJob] at contained ended
    intro run member
    obtain ⟨row, found, _, settled⟩ := runAll_settles holds contained run member
    refine ⟨row, ?_, settled⟩
    rw [processOnce_eq, ended]
    exact found

/-- The idle job behind an observation that fails is never run. -/
theorem failure_stops_batch :
    ¬ ∀ run ∈ runsOf (runtime true) (handlers fun _ => offline) atOnce (batch atOnce "w" 25 observedSheet)
        (claimedState atOnce "w" 25 observedSheet),
      Recorded (handlers fun _ => offline) atOnce
        (processOnce (runtime true) (handlers fun _ => offline) atOnce "w" none 25 observedSheet).2 run := by
  intro recorded
  have idle : { claimed "w" 0 (newJob 0 "noop" {} none none defaultMaxAttempts) with id := 2 } ∈
      batch atOnce "w" 25 observedSheet := by decide +kernel
  obtain ⟨run, member, same⟩ := run_of_job idle (claimedState atOnce "w" 25 observedSheet)
  obtain ⟨row, found, settled⟩ := recorded run member
  rw [same] at found settled
  have stuck : ((processOnce (runtime true) (handlers fun _ => offline) atOnce "w" none 25
      observedSheet).2.job.find? 2).map (·.status) = some .running := by decide +kernel
  have finished : row.status = .done := settled.done rfl rfl
  rw [found, Option.map_some, finished] at stuck
  cases stuck

/-! ## Stranded jobs -/

/-- When the call returns, no job it claimed is still running. -/
def StrandsNone (runtime : Runtime) (registry : Registry) (clock : Clock) (workerId : String)
    (kind : Option String) (limit : Nat) (db : DB) : Prop :=
  ∀ processed, (processOnce runtime registry clock workerId kind limit db).1 = .ok processed →
    ∀ job ∈ batch clock workerId limit db, ∃ row,
      (processOnce runtime registry clock workerId kind limit db).2.job.find? job.id = some row ∧
        row.status ≠ .running

/-- The call strands no job exactly when every due job it claims passes the
filter, or it does not return at all. -/
theorem strandsNone_iff (runtime : Runtime) (registry : Registry) (clock : Clock) (workerId : String)
    (kind : Option String) (limit : Nat) (db : DB) :
    StrandsNone runtime registry clock workerId kind limit db ↔
      (∀ job ∈ dueJobs db.job clock.claim limit, selected kind job = true) ∨
      (runtime.expiredReadsRaise = true ∧
        ∃ run ∈ runsOf runtime registry clock ((batch clock workerId limit db).filter (selected kind))
          (claimedState clock workerId limit db), raises registry (clock.run run.1.id) run.1 run.2 = true) := by
  have holds := batch_holds clock workerId limit db
  by_cases escaping : ∃ run ∈ runsOf runtime registry clock ((batch clock workerId limit db).filter (selected kind))
      (claimedState clock workerId limit db), escapes runtime registry clock run = true
  · have raised := (processJobs_of_escaping holds escaping 0).1
    refine iff_of_true ?_ (.inr ?_)
    · intro processed returned
      rw [processOnce_eq, raised] at returned
      cases returned
    · obtain ⟨run, member, escaped⟩ := escaping
      obtain ⟨expired, raising⟩ := Bool.and_eq_true_iff.mp escaped
      exact ⟨expired, run, member, raising⟩
  · have contained : ∀ run ∈ runsOf runtime registry clock ((batch clock workerId limit db).filter (selected kind))
        (claimedState clock workerId limit db), escapes runtime registry clock run = false := by
      intro run member
      exact Bool.eq_false_iff.mpr fun escaped => escaping ⟨run, member, escaped⟩
    have ended := processJobs_of_contained holds contained 0
    rw [or_iff_left fun raising => escaping (by
      obtain ⟨expired, run, member, raising⟩ := raising
      exact ⟨run, member, Bool.and_eq_true_iff.mpr ⟨expired, raising⟩⟩)]
    constructor
    · intro strandsNone job isDue
      by_contra skipped
      have member : claimed workerId clock.claim job ∈ batch clock workerId limit db :=
        mem_batch.mpr ⟨job, isDue, rfl⟩
      have skipped : selected kind (claimed workerId clock.claim job) = false := Bool.eq_false_iff.mpr skipped
      obtain ⟨row, found, stopped⟩ := strandsNone _ (by rw [processOnce_eq, ended]) _ member
      rw [processOnce_eq, ended, runAll_skipped holds member skipped] at found
      obtain rfl := Option.some.inj found
      exact stopped rfl
    · intro passes processed returned claimedJob member
      have everyJob : (batch clock workerId limit db).filter (selected kind) = batch clock workerId limit db := by
        refine List.filter_eq_self.mpr fun claimedJob member => ?_
        obtain ⟨job, isDue, rfl⟩ := mem_batch.mp member
        exact passes job isDue
      rw [everyJob] at contained ended
      obtain ⟨run, runMember, rfl⟩ := run_of_job member (claimedState clock workerId limit db)
      obtain ⟨row, found, stopped, _⟩ := runAll_settles holds contained run runMember
      rw [processOnce_eq, ended]
      exact ⟨row, found, stopped⟩

/-- A call for idle jobs leaves the due observation running. -/
theorem filter_strands_observation :
    ¬ StrandsNone (runtime true) (handlers fun _ => offline) atOnce "w" (some "noop") 25 observedSheet := by
  intro strandsNone
  have observation : { claimed "w" 0 (newJob 0 "observe_source" { enterpriseId := some 1, dataSourceId := some 1 }
      none (some 1) defaultMaxAttempts) with id := 1 } ∈ batch atOnce "w" 25 observedSheet := by decide +kernel
  obtain ⟨row, found, stopped⟩ := strandsNone 1 (by decide +kernel) _ observation
  have stuck : ((processOnce (runtime true) (handlers fun _ => offline) atOnce "w" (some "noop") 25
      observedSheet).2.job.find? 1).map (·.status) = some .running := by decide +kernel
  rw [found, Option.map_some] at stuck
  exact stopped (Option.some.inj stuck)

end SmartProcurement.Worker
