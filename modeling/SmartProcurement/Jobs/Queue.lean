import SmartProcurement.Database
import Mathlib.Data.List.Sort
import Mathlib.Order.Defs.LinearOrder
import Mathlib.Data.Int.Order.Basic

namespace SmartProcurement.Jobs

open Relational Transaction

/-! # The durable job queue -/

def backoffBaseSeconds : Int := 5

def backoffCapSeconds : Int := 3600

def seconds (count : Int) : Int := count * 1000000

def backoff (attempts : Nat) : Int :=
  seconds (min (backoffBaseSeconds * 2 ^ attempts) backoffCapSeconds)

/-- The row `enqueue` adds. -/
def newJob (now : Timestamp) (kind : String) (payload : Payload) (runAt : Option Timestamp)
    (enterpriseId : Option Uuid) (maxAttempts : Int) : Job where
  id := 0
  enterpriseId
  kind
  payload
  runAt := runAt.getD now
  status := .pending
  attempts := 0
  maxAttempts
  lockedBy := none
  lockedAt := none
  lastError := none

def enqueue (now : Timestamp) (kind : String) (payload : Payload) (runAt : Option Timestamp)
    (enterpriseId : Option Uuid) (maxAttempts : Int) : Session PUnit :=
  write fun db => { db with job := db.job.insert (newJob now kind payload runAt enterpriseId maxAttempts) }

/-- The default of `max_attempts`. -/
def defaultMaxAttempts : Int := 5

/-- Enqueue the next run of a self-perpetuating job. -/
def rescheduleRecurring (now : Timestamp) (kind : String) (intervalSeconds : Int) (payload : Payload)
    (enterpriseId : Option Uuid) : Session PUnit :=
  enqueue now kind payload (some (now + seconds intervalSeconds)) enterpriseId defaultMaxAttempts

/-! ## Claiming -/

def due (now : Timestamp) (job : Job) : Bool :=
  job.status = .pending ∧ job.runAt ≤ now

/-- The rows the claim query selects: due, earliest first, at most `limit`. -/
def dueJobs (table : Table Job) (now : Timestamp) (limit : Nat) : List Job :=
  ((table.rows.filter (due now)).insertionSort fun first second => first.runAt ≤ second.runAt).take limit

/-- The same while other transactions hold row locks, which `SKIP LOCKED` passes over. -/
def unlockedDueJobs (table : Table Job) (locked : Uuid → Bool) (now : Timestamp) (limit : Nat) : List Job :=
  ((table.rows.filter fun job => due now job && !locked job.id).insertionSort
    fun first second => first.runAt ≤ second.runAt).take limit

def claimed (workerId : String) (now : Timestamp) (job : Job) : Job :=
  { job with status := .running, lockedBy := some workerId, lockedAt := some now }

def claimRows (table : Table Job) (workerId : String) (now : Timestamp) (limit : Nat) : Table Job :=
  let ids := (dueJobs table now limit).map (·.id)
  table.updateWhere (fun job => ids.contains job.id) (claimed workerId now)

def claimDue (now : Timestamp) (workerId : String) (limit : Nat) : Session (List Job) := do
  let rows ← read fun db => dueJobs db.job now limit
  write fun db => { db with job := claimRows db.job workerId now limit }
  return rows.map (claimed workerId now)

/-! ## Finishing -/

def done (job : Job) : Job :=
  { job with status := .done, lockedBy := none, lockedAt := none }

def markDone (jobId : Uuid) : Session PUnit :=
  write fun db => { db with job := db.job.update jobId done }

/-- `error[:2000]`. -/
def truncated (error : String) : String := .ofList (error.toList.take 2000)

/-- A job after its failure has been recorded. -/
def failedOrRetried (now : Timestamp) (error : String) (job : Job) : Job :=
  let attempts := job.attempts + 1
  let cleared := { job with attempts, lastError := some (truncated error), lockedBy := none, lockedAt := none }
  if job.maxAttempts ≤ attempts then { cleared with status := .failed }
  else { cleared with status := .pending, runAt := now + backoff attempts }

/-- A flush writes the columns of a loaded row that were changed since it was loaded. -/
def saveChanges (loaded changed row : Job) : Job :=
  { row with
    status := if changed.status = loaded.status then row.status else changed.status
    attempts := if changed.attempts = loaded.attempts then row.attempts else changed.attempts
    runAt := if changed.runAt = loaded.runAt then row.runAt else changed.runAt
    lockedBy := if changed.lockedBy = loaded.lockedBy then row.lockedBy else changed.lockedBy
    lockedAt := if changed.lockedAt = loaded.lockedAt then row.lockedAt else changed.lockedAt
    lastError := if changed.lastError = loaded.lastError then row.lastError else changed.lastError }

/-- The session writes the columns as they stand on the loaded object `job`. -/
def markFailedOrRetry (now : Timestamp) (job : Job) (error : String) : Session PUnit :=
  write fun db => { db with job := db.job.update job.id fun _ => failedOrRetried now error job }

/-! ## What the operations do to the table -/

section Rows

variable {table : Table Job} {now : Timestamp} {limit : Nat} {job : Job} {workerId error : String}

@[simp] theorem due_iff : due now job = true ↔ job.status = .pending ∧ job.runAt ≤ now := by
  simp [due]

theorem mem_of_mem_unlockedDueJobs {locked : Uuid → Bool} (member : job ∈ unlockedDueJobs table locked now limit) :
    job ∈ table.rows ∧ due now job = true ∧ locked job.id = false := by
  have sorted := List.mem_of_mem_take member
  obtain ⟨stored, isFree⟩ := List.mem_filter.mp ((List.mem_insertionSort _).mp sorted)
  obtain ⟨isDue, free⟩ := Bool.and_eq_true_iff.mp isFree
  exact ⟨stored, isDue, by simpa using free⟩

theorem unlockedDueJobs_nodup (table : Table Job) (locked : Uuid → Bool) (now : Timestamp) (limit : Nat) :
    ((unlockedDueJobs table locked now limit).map (·.id)).Nodup := by
  have selected : ((table.rows.filter fun job => due now job && !locked job.id).map (·.id)).Nodup :=
    List.Nodup.sublist (List.filter_sublist.map _) table.distinct
  have sorted := ((List.perm_insertionSort (fun first second : Job => first.runAt ≤ second.runAt)
    (table.rows.filter fun job => due now job && !locked job.id)).map (·.id)).nodup_iff.mpr selected
  exact List.Nodup.sublist ((List.take_sublist _ _).map _) sorted

theorem unlockedDueJobs_of_free (table : Table Job) (now : Timestamp) (limit : Nat) :
    unlockedDueJobs table (fun _ => false) now limit = dueJobs table now limit := by
  simp [unlockedDueJobs, dueJobs]

theorem mem_of_mem_dueJobs (member : job ∈ dueJobs table now limit) :
    job ∈ table.rows ∧ due now job = true := by
  rw [← unlockedDueJobs_of_free] at member
  obtain ⟨stored, isDue, _⟩ := mem_of_mem_unlockedDueJobs member
  exact ⟨stored, isDue⟩

theorem dueJobs_nodup (table : Table Job) (now : Timestamp) (limit : Nat) :
    ((dueJobs table now limit).map (·.id)).Nodup :=
  unlockedDueJobs_of_free table now limit ▸ unlockedDueJobs_nodup table _ now limit

theorem claims_iff (member : job ∈ table.rows) :
    ((dueJobs table now limit).map (·.id)).contains job.id = true ↔ job ∈ dueJobs table now limit := by
  simp only [List.contains_iff_mem, List.mem_map]
  constructor
  · rintro ⟨other, otherDue, same⟩
    have equal := Table.eq_of_key_eq (mem_of_mem_dueJobs otherDue).1 member same
    exact equal ▸ otherDue
  · intro isDue
    exact ⟨job, isDue, rfl⟩

theorem mem_claimRows {claimedJob : Job} :
    claimedJob ∈ (claimRows table workerId now limit).rows ↔
      ∃ job ∈ table.rows, claimedJob =
        if job ∈ dueJobs table now limit then claimed workerId now job else job := by
  simp only [claimRows, Table.mem_updateWhere]
  refine exists_congr fun job => and_congr_right fun member => ?_
  have selection : ((dueJobs table now limit).map (·.id)).contains job.id = true ↔
      job ∈ dueJobs table now limit := claims_iff member
  by_cases isDue : job ∈ dueJobs table now limit
  · rw [if_pos isDue, if_pos (selection.mpr isDue)]
    rfl
  · rw [if_neg isDue, if_neg fun hit => isDue (selection.mp hit)]

theorem find?_claimRows (found : table.find? job.id = some job) :
    (claimRows table workerId now limit).find? job.id =
      some (if job ∈ dueJobs table now limit then claimed workerId now job else job) := by
  have member := (Table.find?_some found).1
  have selection : ((dueJobs table now limit).map (·.id)).contains job.id = true ↔
      job ∈ dueJobs table now limit := claims_iff member
  rw [claimRows, Table.find?_updateWhere, found, Option.map_some]
  by_cases isDue : job ∈ dueJobs table now limit
  · rw [if_pos isDue, if_pos (selection.mpr isDue)]
    rfl
  · rw [if_neg isDue, if_neg fun hit => isDue (selection.mp hit)]

@[simp] theorem claimed_id : (claimed workerId now job).id = job.id := rfl

@[simp] theorem claimed_status : (claimed workerId now job).status = .running := rfl

@[simp] theorem claimed_kind : (claimed workerId now job).kind = job.kind := rfl

@[simp] theorem claimed_payload : (claimed workerId now job).payload = job.payload := rfl

@[simp] theorem claimed_attempts : (claimed workerId now job).attempts = job.attempts := rfl

@[simp] theorem claimed_maxAttempts : (claimed workerId now job).maxAttempts = job.maxAttempts := rfl

@[simp] theorem done_id : (done job).id = job.id := rfl

@[simp] theorem done_attempts : (done job).attempts = job.attempts := rfl

@[simp] theorem done_status : (done job).status = .done := rfl

@[simp] theorem failedOrRetried_id : (failedOrRetried now error job).id = job.id := by
  simp only [failedOrRetried]
  split <;> rfl

@[simp] theorem failedOrRetried_kind : (failedOrRetried now error job).kind = job.kind := by
  simp only [failedOrRetried]
  split <;> rfl

@[simp] theorem failedOrRetried_payload : (failedOrRetried now error job).payload = job.payload := by
  simp only [failedOrRetried]
  split <;> rfl

@[simp] theorem failedOrRetried_attempts :
    (failedOrRetried now error job).attempts = job.attempts + 1 := by
  simp only [failedOrRetried]
  split <;> rfl

@[simp] theorem failedOrRetried_maxAttempts :
    (failedOrRetried now error job).maxAttempts = job.maxAttempts := by
  simp only [failedOrRetried]
  split <;> rfl

theorem failedOrRetried_status :
    (failedOrRetried now error job).status =
      if job.maxAttempts ≤ (job.attempts + 1 : Nat) then .failed else .pending := by
  simp only [failedOrRetried]
  split <;> rfl

/-- On the row that was loaded, saving the changes of a failure gives the failed job. -/
theorem saveChanges_failedOrRetried :
    saveChanges job (failedOrRetried now error job) job = failedOrRetried now error job := by
  have kept {α : Type} [DecidableEq α] (new old : α) : (if new = old then old else new) = new := by
    split
    · next same => exact same.symm
    · rfl
  simp only [saveChanges, kept]
  simp only [failedOrRetried]
  split <;> rfl

theorem assign_claimed : Table.assign (claimed workerId now) job = claimed workerId now job := rfl

theorem assign_done : Table.assign done job = done job := rfl

end Rows

/-! ## Adding jobs -/

/-- A job that nobody has claimed yet. -/
structure Unclaimed (job : Job) : Prop where
  pending : job.status = .pending
  unlocked : job.lockedBy = none
  noAttempts : job.attempts = 0

/-- The frame in which allowed jobs are added and the jobs in the queue stay as they are. -/
def adds (allowed : Job → Prop) : Frame DB where
  rel before after := ∃ added, after.job.rows = before.job.rows ++ added ∧ ∀ job ∈ added, allowed job
  refl db := ⟨[], by simp⟩
  trans := by
    rintro _ _ _ ⟨first, firstRows, firstAllowed⟩ ⟨second, secondRows, secondAllowed⟩
    refine ⟨first ++ second, by rw [secondRows, firstRows, List.append_assoc], fun job member => ?_⟩
    rcases List.mem_append.mp member with member | member
    · exact firstAllowed job member
    · exact secondAllowed job member

section Additions

variable {allowed : Job → Prop} {before after : DB} {id : Uuid} {job : Job}

theorem adds_of_same (same : after.job = before.job) : (adds allowed).rel before after :=
  ⟨[], by simp [same], by simp⟩

theorem adds_insert (allows : allowed (before.job.newRow job)) (same : after.job = before.job.insert job) :
    (adds allowed).rel before after :=
  ⟨[before.job.newRow job], by simp [same], by simpa using allows⟩

theorem adds_weaken {other : Job → Prop} (weaker : ∀ job, allowed job → other job)
    (added : (adds allowed).rel before after) : (adds other).rel before after := by
  obtain ⟨jobs, rows, allows⟩ := added
  exact ⟨jobs, rows, fun job member => weaker job (allows job member)⟩

theorem adds_find? (added : (adds allowed).rel before after) (found : before.job.find? id = some job) :
    after.job.find? id = some job := by
  obtain ⟨jobs, rows, _⟩ := added
  obtain ⟨member, same⟩ := Table.find?_some found
  exact Table.find?_eq_some_iff.mpr ⟨by simp [rows, member], same⟩

theorem newJob_unclaimed (table : Table Job) (now : Timestamp) (kind : String) (payload : Payload)
    (runAt : Option Timestamp) (enterpriseId : Option Uuid) (maxAttempts : Int) :
    Unclaimed (table.newRow (newJob now kind payload runAt enterpriseId maxAttempts)) :=
  ⟨rfl, rfl, rfl⟩

end Additions

end SmartProcurement.Jobs
