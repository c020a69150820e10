import SmartProcurement.Jobs.Handlers

namespace SmartProcurement.Worker

open Relational Transaction Jobs

/-! # The worker

A job is claimed in one transaction and run in another.  The handler's writes
are committed together with the status `done`; a handler that raises is rolled
back, and its failure recorded in a transaction of its own.
-/

/-- What the worker meets outside its own code: how exceptions are shown, and
whether reading an attribute of an object that a rollback has expired raises. -/
structure Runtime where
  expiredReadsRaise : Bool
  repr : Error → String

/-- Commit what a body that cannot raise has written. -/
def commit (body : Session PUnit) (db : DB) : DB := (transact body db).2

/-- The `except` branch, after the rollback: `job` is an expired object by then. -/
def recover (runtime : Runtime) (now : Timestamp) (job : Job) (reason : Error) (committed : DB) :
    Except Error Unit × DB :=
  if runtime.expiredReadsRaise then (.error .missingGreenlet, committed)
  else
    match committed.job.find? job.id with
    | none => (.ok (), committed)
    | some fresh => (.ok (), commit (markFailedOrRetry now fresh (runtime.repr reason)) committed)

/-- `_run_job`: the exception that escapes it, if any, and the committed state. -/
def runJob (runtime : Runtime) (registry : Registry) (now : Timestamp) (job : Job) (committed : DB) :
    Except Error Unit × DB :=
  match registry job.kind with
  | none => (.ok (), commit (markFailedOrRetry now job ("no handler for kind '" ++ job.kind ++ "'")) committed)
  | some handler =>
      match handler.run now job committed with
      | .error reason _ => recover runtime now job reason committed
      | .ok _ after => (.ok (), commit (markDone job.id) after)

/-- The times at which one call of `process_once` claims and runs its jobs. -/
structure Clock where
  claim : Timestamp
  run : Uuid → Timestamp
  forward : ∀ id, claim ≤ run id

def selected (kind : Option String) (job : Job) : Bool := kind.all (· = job.kind)

/-- The loop over the claimed jobs; an exception that escapes `_run_job` ends it. -/
def processJobs (runtime : Runtime) (registry : Registry) (clock : Clock) (kind : Option String) :
    List Job → Nat → DB → Except Error Nat × DB
  | [], processed, committed => (.ok processed, committed)
  | job :: rest, processed, committed =>
      if !selected kind job then processJobs runtime registry clock kind rest processed committed
      else
        match committed.job.find? job.id with
        | none => processJobs runtime registry clock kind rest processed committed
        | some dbJob =>
            match runJob runtime registry (clock.run job.id) dbJob committed with
            | (.error reason, after) => (.error reason, after)
            | (.ok _, after) => processJobs runtime registry clock kind rest (processed + 1) after

def processOnce (runtime : Runtime) (registry : Registry) (clock : Clock) (workerId : String)
    (kind : Option String) (limit : Nat) (committed : DB) : Except Error Nat × DB :=
  match transact (claimDue clock.claim workerId limit) committed with
  | (.error reason, after) => (.error reason, after)
  | (.ok jobs, after) => processJobs runtime registry clock kind jobs 0 after

/-! ## What running one job does -/

def raises (registry : Registry) (now : Timestamp) (job : Job) (committed : DB) : Bool :=
  match registry job.kind with
  | none => false
  | some handler =>
      match handler.run now job committed with
      | .ok _ _ => false
      | .error _ _ => true

section Runs

variable {runtime : Runtime} {registry : Registry} {now : Timestamp} {job : Job} {committed : DB}

/-- The ways in which a run of a stored job ends. -/
inductive JobRun (runtime : Runtime) (registry : Registry) (now : Timestamp) (job : Job) (committed : DB) :
    Except Error Unit × DB → Prop where
  | unknown (unregistered : registry job.kind = none) (error : String) :
      JobRun runtime registry now job committed
        (.ok (), { committed with job := committed.job.update job.id fun _ => failedOrRetried now error job })
  | finished {handler : Handler} {after : DB} (registered : registry job.kind = some handler)
      (ran : handler.run now job committed = .ok ⟨⟩ after) :
      JobRun runtime registry now job committed
        (.ok (), { after with job := after.job.update job.id done })
  | failed {handler : Handler} {reason : Error} {abandoned : DB} (registered : registry job.kind = some handler)
      (ran : handler.run now job committed = .error reason abandoned)
      (readable : runtime.expiredReadsRaise = false) (error : String) :
      JobRun runtime registry now job committed
        (.ok (), { committed with job := committed.job.update job.id fun _ => failedOrRetried now error job })
  | escaped {handler : Handler} {reason : Error} {abandoned : DB} (registered : registry job.kind = some handler)
      (ran : handler.run now job committed = .error reason abandoned)
      (expired : runtime.expiredReadsRaise = true) :
      JobRun runtime registry now job committed (.error .missingGreenlet, committed)

theorem runJob_cases (stored : committed.job.find? job.id = some job) :
    JobRun runtime registry now job committed (runJob runtime registry now job committed) := by
  unfold runJob
  split
  · next unregistered => exact .unknown unregistered _
  · next handler registered =>
    split
    · next reason abandoned ran =>
      cases expired : runtime.expiredReadsRaise with
      | true =>
          rw [recover, if_pos expired]
          exact .escaped registered ran expired
      | false =>
          simp only [recover, expired, Bool.false_eq_true, if_false, stored]
          exact .failed registered ran expired _
    · next done after ran => exact .finished registered ran

theorem raises_of_ok {handler : Handler} {after : DB} (registered : registry job.kind = some handler)
    (ran : handler.run now job committed = .ok ⟨⟩ after) : raises registry now job committed = false := by
  simp only [raises, registered, ran]

theorem raises_of_error {handler : Handler} {reason : Error} {abandoned : DB}
    (registered : registry job.kind = some handler)
    (ran : handler.run now job committed = .error reason abandoned) :
    raises registry now job committed = true := by
  simp only [raises, registered, ran]

theorem runJob_others (stored : committed.job.find? job.id = some job) {id : Uuid} {other : Job}
    (different : id ≠ job.id) (found : committed.job.find? id = some other) :
    (runJob runtime registry now job committed).2.job.find? id = some other := by
  have ended : JobRun runtime registry now job committed _ := runJob_cases stored
  generalize runJob runtime registry now job committed = result at ended ⊢
  cases ended with
  | unknown _ error => rwa [Table.find?_update_other _ _ different]
  | finished registered ran =>
      rw [Table.find?_update_other _ _ different]
      exact adds_find? (Handler.adds _ ran) found
  | failed _ _ _ error => rwa [Table.find?_update_other _ _ different]
  | escaped _ _ _ => exact found

end Runs

/-! ## A source that is offline -/

def offline : Outside where
  connectors := {
    loadCredential := fun _ => .ok ⟨⟩
    build := fun _ => .ok ⟨⟩
    testConnection := fun _ => .error (.connector "timeout")
    fetch := fun _ => .error (.connector "timeout") }
  suggestions _ := .providerError "timeout"
  explanation _ := .providerError "timeout"

/-- A data source with the job that observes it, and an idle job. -/
def observedSheet : DB :=
  { Integration.mappedStockSheet with
    dataSource := Table.empty.insert (Integration.newSource 1 Integration.stockSheet none)
    job := (Table.empty.insert (newJob 0 "observe_source" { enterpriseId := some 1, dataSourceId := some 1 }
      none (some 1) defaultMaxAttempts)).insert (newJob 0 "noop" {} none none defaultMaxAttempts) }

def atOnce : Clock := ⟨0, fun _ => 0, fun _ => le_refl 0⟩

/-- The runtime in which an expired object can still be read, or cannot. -/
def runtime (expiredReadsRaise : Bool) : Runtime := ⟨expiredReadsRaise, fun _ => "UpstreamError"⟩

end SmartProcurement.Worker
