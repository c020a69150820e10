import SmartProcurement.Worker
import SmartProcurement.Transition.Runs

namespace SmartProcurement.Workers

open Relational Transaction Transition Jobs

/-! # Many workers over one queue

Any number of workers take the small steps of `process_once` in any order.  A
step is a statement or a commit of one worker's transaction; what a transaction
has not committed lives in its worker alone, and is lost when the worker
crashes or rolls back.  Handlers are arbitrary: they return with any writes
that add to the queue at most, or raise.
-/

/-- Where a worker stands in `_run_job`. -/
inductive Stage where
  | loaded
  | handling
  | returned (writes : DB → DB)
  | raised (error : String)
  | recording (changed : Job)

inductive Phase where
  | idle
  | claiming (now : Timestamp) (rows : List Job)
  | batch (rest : List Job)
  | running (stage : Stage) (job : Job) (rest : List Job)

/-- The rows that the worker's open transaction has locked. -/
def Phase.locks : Phase → List Uuid
  | .claiming _ rows => rows.map (·.id)
  | _ => []

/-- The claimed jobs that the worker still has to deal with. -/
def Phase.held : Phase → List Uuid
  | .batch rest => rest.map (·.id)
  | .running _ job rest => job.id :: rest.map (·.id)
  | _ => []

section Steps

variable {Worker : Type} [DecidableEq Worker]

structure State (Worker : Type) where
  db : DB
  phase : Worker → Phase

def State.move (state : State Worker) (worker : Worker) (phase : Phase) : State Worker :=
  { state with phase := Function.update state.phase worker phase }

def State.commit (state : State Worker) (worker : Worker) (db : DB) (phase : Phase) : State Worker :=
  { db, phase := Function.update state.phase worker phase }

inductive Event (Worker : Type) where
  | select (worker : Worker)
  | claim (worker : Worker) (ids : List Uuid)
  | load (worker : Worker)
  | start (worker : Worker) (id : Uuid)
  | handled (worker : Worker)
  | finish (worker : Worker) (id : Uuid)
  | fail (worker : Worker) (id : Uuid)
  | leave (worker : Worker)
  | crash (worker : Worker)
  | other

/-- The steps of the workers, and of the transactions that enqueue jobs. -/
inductive Step (expiredReadsRaise : Bool) (registered : String → Bool) (name : Worker → String)
    (before : State Worker) : Event Worker → State Worker → Prop where
  | select {worker : Worker} (now : Timestamp) (limit : Nat) (locked : Uuid → Bool)
      (idle : before.phase worker = .idle)
      (others : ∀ id, locked id = true ↔ ∃ other, other ≠ worker ∧ id ∈ (before.phase other).locks) :
      Step expiredReadsRaise registered name before (.select worker)
        (before.move worker (.claiming now (unlockedDueJobs before.db.job locked now limit)))
  | claim {worker : Worker} {now : Timestamp} {rows : List Job}
      (selected : before.phase worker = .claiming now rows) :
      Step expiredReadsRaise registered name before (.claim worker (rows.map (·.id)))
        (before.commit worker
          { before.db with
            job := before.db.job.updateWhere (fun job => (rows.map (·.id)).contains job.id)
              (claimed (name worker) now) }
          (.batch (rows.map (claimed (name worker) now))))
  -- the job is gone, or not of the kind the call was made for
  | skip {worker : Worker} {job : Job} {rest : List Job} (next : before.phase worker = .batch (job :: rest)) :
      Step expiredReadsRaise registered name before (.load worker) (before.move worker (.batch rest))
  | load {worker : Worker} {job row : Job} {rest : List Job} (next : before.phase worker = .batch (job :: rest))
      (found : before.db.job.find? job.id = some row) :
      Step expiredReadsRaise registered name before (.load worker)
        (before.move worker (.running .loaded row rest))
  | unknown {worker : Worker} {job : Job} {rest : List Job} (now : Timestamp) (error : String)
      (loaded : before.phase worker = .running .loaded job rest) (missing : registered job.kind = false) :
      Step expiredReadsRaise registered name before (.handled worker)
        (before.move worker (.running (.recording (failedOrRetried now error job)) job rest))
  | start {worker : Worker} {job : Job} {rest : List Job}
      (loaded : before.phase worker = .running .loaded job rest) (known : registered job.kind = true) :
      Step expiredReadsRaise registered name before (.start worker job.id)
        (before.move worker (.running .handling job rest))
  | returns {worker : Worker} {job : Job} {rest : List Job} (writes : DB → DB)
      (handling : before.phase worker = .running .handling job rest) :
      Step expiredReadsRaise registered name before (.handled worker)
        (before.move worker (.running (.returned writes) job rest))
  | raises {worker : Worker} {job : Job} {rest : List Job} (error : String)
      (handling : before.phase worker = .running .handling job rest) :
      Step expiredReadsRaise registered name before (.handled worker)
        (before.move worker (.running (.raised error) job rest))
  | refetch {worker : Worker} {job fresh : Job} {rest : List Job} {error : String} (now : Timestamp)
      (raised : before.phase worker = .running (.raised error) job rest)
      (readable : expiredReadsRaise = false) (found : before.db.job.find? job.id = some fresh) :
      Step expiredReadsRaise registered name before (.handled worker)
        (before.move worker (.running (.recording (failedOrRetried now error fresh)) fresh rest))
  | vanished {worker : Worker} {job : Job} {rest : List Job} {error : String}
      (raised : before.phase worker = .running (.raised error) job rest)
      (readable : expiredReadsRaise = false) (gone : before.db.job.find? job.id = none) :
      Step expiredReadsRaise registered name before (.handled worker) (before.move worker (.batch rest))
  -- reading the expired job raises out of the whole call
  | escape {worker : Worker} {job : Job} {rest : List Job} {error : String}
      (raised : before.phase worker = .running (.raised error) job rest)
      (expired : expiredReadsRaise = true) :
      Step expiredReadsRaise registered name before (.leave worker) (before.move worker .idle)
  | finish {worker : Worker} {job : Job} {rest : List Job} {writes : DB → DB}
      (returned : before.phase worker = .running (.returned writes) job rest)
      (adds : (Jobs.adds Unclaimed).rel before.db (writes before.db)) :
      Step expiredReadsRaise registered name before (.finish worker job.id)
        (before.commit worker
          { writes before.db with job := (writes before.db).job.update job.id done } (.batch rest))
  | fail {worker : Worker} {job changed : Job} {rest : List Job}
      (recording : before.phase worker = .running (.recording changed) job rest) :
      Step expiredReadsRaise registered name before (.fail worker job.id)
        (before.commit worker
          { before.db with job := before.db.job.update job.id (saveChanges job changed) } (.batch rest))
  | leave {worker : Worker} (finished : before.phase worker = .batch []) :
      Step expiredReadsRaise registered name before (.leave worker) (before.move worker .idle)
  | crash (worker : Worker) :
      Step expiredReadsRaise registered name before (.crash worker) (before.move worker .idle)
  | other (writes : DB → DB) (adds : (Jobs.adds Unclaimed).rel before.db (writes before.db)) :
      Step expiredReadsRaise registered name before .other { before with db := writes before.db }

end Steps

/-! ## Counting -/

section Counts

variable {Worker : Type}

def Event.starts (id : Uuid) : Event Worker → Bool
  | .start _ jobId => jobId = id
  | _ => false

def Event.finishes (id : Uuid) : Event Worker → Bool
  | .finish _ jobId => jobId = id
  | _ => false

def Event.fails (id : Uuid) : Event Worker → Bool
  | .fail _ jobId => jobId = id
  | _ => false

def Event.claims (id : Uuid) : Event Worker → Bool
  | .claim _ ids => ids.contains id
  | _ => false

/-- How often the handler of a job was started, its success committed and its failure recorded. -/
structure Counts where
  starts : Nat
  finishes : Nat
  failures : Nat

def counts (events : List (Event Worker)) (id : Uuid) : Counts where
  starts := events.countP (Event.starts id)
  finishes := events.countP (Event.finishes id)
  failures := events.countP (Event.fails id)

def Counts.none : Counts := ⟨0, 0, 0⟩

variable {events : List (Event Worker)} {event : Event Worker} {worker : Worker} {id : Uuid}

def Event.quiet (id : Uuid) (event : Event Worker) : Prop :=
  event.starts id = false ∧ event.finishes id = false ∧ event.fails id = false

theorem counts_quiet (quiet : event.quiet id) : counts (events ++ [event]) id = counts events id := by
  obtain ⟨starts, finishes, fails⟩ := quiet
  simp [counts, List.countP_append, starts, finishes, fails]

theorem counts_start (worker : Worker) (id : Uuid) : counts (events ++ [.start worker id]) id =
    { counts events id with starts := (counts events id).starts + 1 } := by
  simp [counts, List.countP_append, Event.starts, Event.finishes, Event.fails]

theorem counts_finish (worker : Worker) (id : Uuid) : counts (events ++ [.finish worker id]) id =
    { counts events id with finishes := (counts events id).finishes + 1 } := by
  simp [counts, List.countP_append, Event.starts, Event.finishes, Event.fails]

theorem counts_fail (worker : Worker) (id : Uuid) : counts (events ++ [.fail worker id]) id =
    { counts events id with failures := (counts events id).failures + 1 } := by
  simp [counts, List.countP_append, Event.starts, Event.finishes, Event.fails]

theorem quiet_start {jobId : Uuid} (different : id ≠ jobId) : (Event.start worker jobId).quiet id := by
  simp [Event.quiet, Event.starts, Event.finishes, Event.fails, different.symm]

theorem quiet_finish {jobId : Uuid} (different : id ≠ jobId) : (Event.finish worker jobId).quiet id := by
  simp [Event.quiet, Event.starts, Event.finishes, Event.fails, different.symm]

theorem quiet_fail {jobId : Uuid} (different : id ≠ jobId) : (Event.fail worker jobId).quiet id := by
  simp [Event.quiet, Event.starts, Event.finishes, Event.fails, different.symm]

end Counts

/-- How the row of a job and the counts of its events agree. -/
structure Tally (row : Job) (counts : Counts) : Prop where
  failures : row.attempts = counts.failures
  finishes : counts.finishes = if row.status = .done then 1 else 0
  starts : counts.starts ≤ row.attempts + if row.status = .running ∨ row.status = .done then 1 else 0
  remaining : row.status ≠ .failed → row.attempts = 0 ∨ (row.attempts : Int) < row.maxAttempts
  exhausted : row.status = .failed → (row.attempts : Int) ≤ max 1 row.maxAttempts

section Tallies

variable {row : Job} {counted : Counts}

theorem Tally.unclaimed (fresh : Unclaimed row) : Tally row .none := by
  constructor <;> simp [Counts.none, fresh.pending, fresh.noAttempts]

theorem Tally.claimed (tally : Tally row counted) (pending : row.status = .pending) (workerId : String)
    (now : Timestamp) : Tally (Jobs.claimed workerId now row) counted := by
  obtain ⟨failures, finishes, starts, remaining, _⟩ := tally
  simp only [pending, reduceCtorEq, if_false, or_self, Nat.add_zero] at finishes starts
  refine ⟨failures, by simpa using finishes, ?_, fun _ => remaining (by simp [pending]), by simp⟩
  simp only [claimed_attempts]
  omega

theorem Tally.pending_starts (tally : Tally row counted) (pending : row.status = .pending) :
    counted.starts ≤ row.attempts := by
  simpa [pending] using tally.starts

theorem Tally.started (tally : Tally row counted) (active : row.status = .running)
    (unstarted : counted.starts ≤ row.attempts) : Tally row { counted with starts := counted.starts + 1 } :=
  ⟨tally.failures, tally.finishes, by simpa [active] using unstarted, tally.remaining, tally.exhausted⟩

theorem Tally.done (tally : Tally row counted) (active : row.status = .running) :
    Tally (Jobs.done row) { counted with finishes := counted.finishes + 1 } := by
  obtain ⟨failures, finishes, starts, remaining, _⟩ := tally
  simp only [active, reduceCtorEq, if_false, true_or, if_true] at finishes starts
  refine ⟨failures, by simp [finishes], by simpa using starts, fun _ => remaining (by simp [active]), by simp⟩

theorem Tally.failed (tally : Tally row counted) (active : row.status = .running) (now : Timestamp)
    (error : String) :
    Tally (failedOrRetried now error row) { counted with failures := counted.failures + 1 } := by
  obtain ⟨failures, finishes, starts, remaining, _⟩ := tally
  simp only [active, reduceCtorEq, if_false, true_or, if_true] at finishes starts
  have left := remaining (by simp [active])
  have status : (failedOrRetried now error row).status = _ := failedOrRetried_status
  by_cases exhausted : row.maxAttempts ≤ (row.attempts + 1 : Nat)
  · rw [if_pos exhausted] at status
    refine ⟨by simp [failures], by simp [status, finishes], by simp [status, starts], by simp [status], fun _ => ?_⟩
    simp only [failedOrRetried_attempts, failedOrRetried_maxAttempts]
    omega
  · rw [if_neg exhausted] at status
    refine ⟨by simp [failures], by simp [status, finishes], by simp [status, starts], fun _ => .inr ?_, by simp [status]⟩
    simp only [failedOrRetried_attempts, failedOrRetried_maxAttempts]
    omega

theorem Tally.starts_le (tally : Tally row counted) : (counted.starts : Int) ≤ max 1 row.maxAttempts := by
  obtain ⟨_, _, starts, remaining, exhausted⟩ := tally
  by_cases failed : row.status = .failed
  · have bound := exhausted failed
    simp only [failed, reduceCtorEq, or_self, if_false] at starts
    omega
  · have left := remaining failed
    split at starts <;> omega

theorem Tally.attempts_le (tally : Tally row counted) : (row.attempts : Int) ≤ max 1 row.maxAttempts := by
  by_cases failed : row.status = .failed
  · exact tally.exhausted failed
  · have left := tally.remaining failed
    omega

end Tallies

/-! ## The invariant -/

section Invariant

variable {Worker : Type}

/-- The job is running and waits in a worker's batch for its handler to be started. -/
def Waiting (events : List (Event Worker)) (db : DB) (id : Uuid) : Prop :=
  ∃ row, db.job.find? id = some row ∧ row.status = .running ∧ (counts events id).starts ≤ row.attempts

/-- What a worker knows about the job it runs. -/
def StageOwns (events : List (Event Worker)) (job : Job) : Stage → Prop
  | .loaded => (counts events job.id).starts ≤ job.attempts
  | .recording changed => ∃ now error, changed = failedOrRetried now error job
  | _ => True

def Owns (events : List (Event Worker)) (db : DB) : Phase → Prop
  | .idle => True
  | .claiming _ rows => (rows.map (·.id)).Nodup ∧
      ∀ row ∈ rows, db.job.find? row.id = some row ∧ row.status = .pending
  | .batch rest => (rest.map (·.id)).Nodup ∧ ∀ job ∈ rest, Waiting events db job.id
  | .running stage job rest => (job.id :: rest.map (·.id)).Nodup ∧ (∀ job ∈ rest, Waiting events db job.id) ∧
      db.job.find? job.id = some job ∧ job.status = .running ∧ StageOwns events job stage

def Phase.ids (phase : Phase) : List Uuid := phase.locks ++ phase.held

variable {events later : List (Event Worker)} {before after : DB} {phase : Phase} {id : Uuid}

theorem Waiting.frame (waiting : Waiting events before id)
    (kept : ∀ row, before.job.find? id = some row → after.job.find? id = some row)
    (same : counts later id = counts events id) : Waiting later after id := by
  obtain ⟨row, found, active, unstarted⟩ := waiting
  exact ⟨row, kept row found, active, by rwa [same]⟩

theorem Owns.frame (owns : Owns events before phase)
    (kept : ∀ id ∈ phase.ids, ∀ row, before.job.find? id = some row → after.job.find? id = some row)
    (same : ∀ id ∈ phase.ids, counts later id = counts events id) : Owns later after phase := by
  have listed {rest : List Job} {job : Job} (member : job ∈ rest) : job.id ∈ rest.map (·.id) :=
    List.mem_map_of_mem member
  cases phase with
  | idle => trivial
  | claiming now rows =>
      refine ⟨owns.1, fun row member => ?_⟩
      obtain ⟨found, pending⟩ := owns.2 row member
      exact ⟨kept _ (List.mem_append_left _ (listed member)) row found, pending⟩
  | batch rest =>
      refine ⟨owns.1, fun job member => ?_⟩
      have inside : job.id ∈ (Phase.batch rest).ids := List.mem_append_right _ (listed member)
      exact (owns.2 job member).frame (kept _ inside) (same _ inside)
  | running stage job rest =>
      obtain ⟨distinct, waiting, found, active, staged⟩ := owns
      have inside : job.id ∈ (Phase.running stage job rest).ids := by
        simp [Phase.ids, Phase.locks, Phase.held]
      refine ⟨distinct, fun other member => ?_, kept _ inside job found, active, ?_⟩
      · have inside : other.id ∈ (Phase.running stage job rest).ids :=
          List.mem_append_right _ (List.mem_cons_of_mem _ (listed member))
        exact (waiting other member).frame (kept _ inside) (same _ inside)
      · cases stage with
        | loaded => simpa only [StageOwns, same _ inside] using staged
        | recording changed => exact staged
        | _ => trivial

theorem Owns.held_running (owns : Owns events before phase) (held : id ∈ phase.held) :
    ∃ row, before.job.find? id = some row ∧ row.status = .running := by
  have waits {rest : List Job} (waiting : ∀ job ∈ rest, Waiting events before job.id)
      (listed : id ∈ rest.map (·.id)) : ∃ row, before.job.find? id = some row ∧ row.status = .running := by
    obtain ⟨job, member, rfl⟩ := List.mem_map.mp listed
    obtain ⟨row, found, active, _⟩ := waiting job member
    exact ⟨row, found, active⟩
  cases phase with
  | idle => cases held
  | claiming now rows => cases held
  | batch rest => exact waits owns.2 held
  | running stage job rest =>
      obtain ⟨_, waiting, found, active, _⟩ := owns
      rcases List.mem_cons.mp held with rfl | listed
      · exact ⟨job, found, active⟩
      · exact waits waiting listed

structure Invariant (events : List (Event Worker)) (state : State Worker) : Prop where
  owns : ∀ worker, Owns events state.db (state.phase worker)
  apart : ∀ worker other, worker ≠ other →
    ∀ id ∈ (state.phase worker).ids, id ∉ (state.phase other).ids
  tallied : ∀ id row, state.db.job.find? id = some row → Tally row (counts events id)
  unknown : ∀ id, state.db.job.find? id = none → counts events id = .none

variable {state : State Worker} {worker : Worker} {event : Event Worker} {db : DB}

/-- Rows that the handlers or other transactions add have no history. -/
theorem Invariant.adds (invariant : Invariant events state) (added : (Jobs.adds Unclaimed).rel state.db db) :
    (∀ id row, db.job.find? id = some row → Tally row (counts events id)) ∧
      ∀ id, db.job.find? id = none → counts events id = .none := by
  constructor
  · intro id row found
    cases known : state.db.job.find? id with
    | some old =>
        have same := (adds_find? added known).symm.trans found
        obtain rfl := Option.some.inj same
        exact invariant.tallied id old known
    | none =>
        rw [invariant.unknown id known]
        obtain ⟨jobs, rows, unclaimed⟩ := added
        obtain ⟨member, isRow⟩ := Table.find?_some found
        rw [rows] at member
        rcases List.mem_append.mp member with old | new
        · exact absurd isRow (Table.find?_none known row old)
        · exact .unclaimed (unclaimed row new)
  · intro id missing
    cases known : state.db.job.find? id with
    | some old =>
        rw [adds_find? added known] at missing
        cases missing
    | none => exact invariant.unknown id known

theorem Invariant.owned (invariant : Invariant events state) (stands : state.phase worker = phase) :
    Owns events state.db phase :=
  stands ▸ invariant.owns worker

/-- A quiet event leaves the counts of every row as they are. -/
theorem Invariant.quiet (invariant : Invariant events state) (quiet : ∀ id, event.quiet id) :
    (∀ id row, state.db.job.find? id = some row → Tally row (counts (events ++ [event]) id)) ∧
      ∀ id, state.db.job.find? id = none → counts (events ++ [event]) id = .none := by
  constructor
  · intro id row found
    rw [counts_quiet (quiet id)]
    exact invariant.tallied id row found
  · intro id missing
    rw [counts_quiet (quiet id)]
    exact invariant.unknown id missing

theorem Invariant.other (invariant : Invariant events state) (adds : (Jobs.adds Unclaimed).rel state.db db) :
    Invariant (events ++ [.other]) { state with db } := by
  have quiet (id : Uuid) : (Event.other : Event Worker).quiet id := ⟨rfl, rfl, rfl⟩
  obtain ⟨tallied, unknown⟩ := invariant.adds adds
  refine ⟨fun worker => ?_, invariant.apart, ?_, ?_⟩
  · exact (invariant.owns worker).frame (fun _ _ _ found => adds_find? adds found)
      fun id _ => counts_quiet (quiet id)
  · intro id row found
    rw [counts_quiet (quiet id)]
    exact tallied id row found
  · intro id missing
    rw [counts_quiet (quiet id)]
    exact unknown id missing

structure Initial (state : State Worker) : Prop where
  idle : ∀ worker, state.phase worker = .idle
  unclaimed : ∀ job ∈ state.db.job.rows, Unclaimed job

theorem Initial.invariant (initial : Initial state) : Invariant [] state where
  owns worker := by
    rw [initial.idle]
    trivial
  apart worker other _ id member := by
    rw [initial.idle] at member
    cases member
  tallied id row found := .unclaimed (initial.unclaimed row (Table.find?_some found).1)
  unknown _ _ := rfl

variable [DecidableEq Worker]

theorem Invariant.commit (invariant : Invariant events state)
    (kept : ∀ id ∉ (state.phase worker).ids, ∀ row, state.db.job.find? id = some row → db.job.find? id = some row)
    (quiet : ∀ id ∉ (state.phase worker).ids, event.quiet id)
    (owns : Owns (events ++ [event]) db phase)
    (apart : ∀ other, other ≠ worker → ∀ id ∈ phase.ids, id ∉ (state.phase other).ids)
    (tallied : ∀ id row, db.job.find? id = some row → Tally row (counts (events ++ [event]) id))
    (unknown : ∀ id, db.job.find? id = none → counts (events ++ [event]) id = .none) :
    Invariant (events ++ [event]) (state.commit worker db phase) where
  owns other := by
    by_cases same : other = worker
    · subst same
      simpa [State.commit] using owns
    · have outside : ∀ id ∈ (state.phase other).ids, id ∉ (state.phase worker).ids := invariant.apart _ _ same
      simp only [State.commit, Function.update_of_ne same]
      exact (invariant.owns other).frame (fun id member => kept id (outside id member))
        fun id member => counts_quiet (quiet id (outside id member))
  apart left right different id member := by
    by_cases leftSame : left = worker
    · subst leftSame
      simp only [State.commit, Function.update_self] at member
      simp only [State.commit, Function.update_of_ne different.symm]
      exact apart right different.symm id member
    · by_cases rightSame : right = worker
      · subst rightSame
        simp only [State.commit, Function.update_of_ne leftSame] at member
        simp only [State.commit, Function.update_self]
        exact fun inside => apart left leftSame id inside member
      · simp only [State.commit, Function.update_of_ne leftSame] at member
        simp only [State.commit, Function.update_of_ne rightSame]
        exact invariant.apart left right different id member
  tallied := tallied
  unknown := unknown

/-- A step that commits nothing, starts no handler and gives the worker no new job. -/
theorem Invariant.move (invariant : Invariant events state) (quiet : ∀ id, event.quiet id)
    (owns : Owns events state.db phase) (fewer : ∀ id ∈ phase.ids, id ∈ (state.phase worker).ids) :
    Invariant (events ++ [event]) (state.move worker phase) := by
  obtain ⟨tallied, unknown⟩ := invariant.quiet quiet
  refine invariant.commit (fun _ _ _ found => found) (fun id _ => quiet id) ?_ ?_ tallied unknown
  · exact owns.frame (fun _ _ _ found => found) fun id _ => counts_quiet (quiet id)
  · intro other different id member inside
    exact invariant.apart other worker different id inside (fewer id member)

/-! ### The steps, one by one -/

theorem Invariant.select (invariant : Invariant events state) {now : Timestamp} {limit : Nat}
    {locked : Uuid → Bool} (others : ∀ id, locked id = true ↔ ∃ other, other ≠ worker ∧ id ∈ (state.phase other).locks)
    (quiet : ∀ id, event.quiet id) :
    Invariant (events ++ [event])
      (state.move worker (.claiming now (unlockedDueJobs state.db.job locked now limit))) := by
  have pendingRow : ∀ row ∈ unlockedDueJobs state.db.job locked now limit,
      state.db.job.find? row.id = some row ∧ row.status = .pending := by
    intro row member
    obtain ⟨stored, isDue, _⟩ := mem_of_mem_unlockedDueJobs member
    exact ⟨Table.find?_of_mem stored, (due_iff.mp isDue).1⟩
  obtain ⟨tallied, unknown⟩ := invariant.quiet quiet
  refine invariant.commit (fun _ _ _ found => found) (fun id _ => quiet id) ?_ ?_ tallied unknown
  · exact ⟨unlockedDueJobs_nodup .., pendingRow⟩
  · intro other different id member inside
    simp only [Phase.ids, Phase.locks, Phase.held, List.append_nil] at member
    obtain ⟨row, selected, rfl⟩ := List.mem_map.mp member
    obtain ⟨stored, _, free⟩ := mem_of_mem_unlockedDueJobs selected
    rcases List.mem_append.mp inside with lockedByOther | heldByOther
    · rw [(others row.id).mpr ⟨other, different, lockedByOther⟩] at free
      cases free
    · obtain ⟨heldRow, found, active⟩ := (invariant.owns other).held_running heldByOther
      rw [(pendingRow row selected).1] at found
      obtain rfl := Option.some.inj found
      rw [(pendingRow row selected).2] at active
      cases active

theorem find?_claimed {table : Table Job} {rows : List Job} {workerId : String} {now : Timestamp} (id : Uuid) :
    (table.updateWhere (fun job => (rows.map (·.id)).contains job.id) (claimed workerId now)).find? id =
      (table.find? id).map fun row => if id ∈ rows.map (·.id) then claimed workerId now row else row := by
  rw [Table.find?_updateWhere]
  cases found : table.find? id with
  | none => rfl
  | some row =>
      obtain ⟨_, same⟩ := Table.find?_some found
      have same : row.id = id := same
      simp only [Option.map_some, List.contains_iff_mem, same]
      rfl

theorem Invariant.claim (invariant : Invariant events state) {name : String} {now : Timestamp} {rows : List Job}
    (selected : state.phase worker = .claiming now rows) :
    Invariant (events ++ [.claim worker (rows.map (·.id))])
      (state.commit worker
        { state.db with
          job := state.db.job.updateWhere (fun job => (rows.map (·.id)).contains job.id) (claimed name now) }
        (.batch (rows.map (claimed name now)))) := by
  have quiet (id : Uuid) : (Event.claim worker (rows.map (·.id))).quiet id := ⟨rfl, rfl, rfl⟩
  have owns := invariant.owns worker
  rw [selected] at owns
  have ids : (rows.map (claimed name now)).map (·.id) = rows.map (·.id) := by
    rw [List.map_map]
    rfl
  refine invariant.commit ?_ (fun id _ => quiet id) ?_ ?_ ?_ ?_
  · intro id outside row found
    have notSelected : id ∉ rows.map (·.id) := by
      simpa [selected, Phase.ids, Phase.locks, Phase.held] using outside
    rw [find?_claimed, found, Option.map_some, if_neg notSelected]
  · refine ⟨by rw [ids]; exact owns.1, fun job member => ?_⟩
    obtain ⟨row, selectedRow, rfl⟩ := List.mem_map.mp member
    obtain ⟨found, pending⟩ := owns.2 row selectedRow
    refine ⟨claimed name now row, ?_, rfl, ?_⟩
    · rw [claimed_id, find?_claimed, found, Option.map_some, if_pos (List.mem_map_of_mem selectedRow)]
    · rw [claimed_id, counts_quiet (quiet _)]
      exact (invariant.tallied row.id row found).pending_starts pending
  · intro other different id member inside
    simp only [Phase.ids, Phase.locks, Phase.held, List.nil_append, ids] at member
    refine invariant.apart other worker different id inside ?_
    rw [selected]
    exact List.mem_append_left _ member
  · intro id row found
    rw [counts_quiet (quiet id)]
    rw [find?_claimed] at found
    obtain ⟨old, oldFound, rfl⟩ := Option.map_eq_some_iff.mp found
    have tally := invariant.tallied id old oldFound
    split
    · next isSelected =>
      obtain ⟨row, selectedRow, rfl⟩ := List.mem_map.mp isSelected
      obtain ⟨rowFound, pending⟩ := owns.2 row selectedRow
      obtain rfl := Option.some.inj (oldFound.symm.trans rowFound)
      exact tally.claimed pending _ _
    · exact tally
  · intro id missing
    rw [counts_quiet (quiet id)]
    rw [find?_claimed, Option.map_eq_none_iff] at missing
    exact invariant.unknown id missing

/-- The job that the worker runs changes to `changed`; its counts move along. -/
theorem Invariant.settle (invariant : Invariant events state) {stage : Stage} {job changed : Job}
    {rest : List Job} (held : state.phase worker = .running stage job rest)
    (added : (Jobs.adds Unclaimed).rel state.db db) {change : Job → Job}
    (sets : Table.assign change job = changed) (quiet : ∀ id, id ≠ job.id → event.quiet id)
    (tally : Tally job (counts events job.id) → Tally changed (counts (events ++ [event]) job.id)) :
    Invariant (events ++ [event])
      (state.commit worker { db with job := db.job.update job.id change } (.batch rest)) := by
  have owns := invariant.owns worker
  rw [held] at owns
  obtain ⟨distinct, waiting, found, active, _⟩ := owns
  have ids : (state.phase worker).ids = job.id :: rest.map (·.id) := by
    rw [held]
    rfl
  have self : (db.job.update job.id change).find? job.id = some changed := by
    rw [Table.find?_update_self, adds_find? added found, Option.map_some, sets]
  have others (id : Uuid) (different : id ≠ job.id) :
      (db.job.update job.id change).find? id = db.job.find? id := Table.find?_update_other _ _ different
  obtain ⟨tallied, unknown⟩ := invariant.adds added
  refine invariant.commit ?_ ?_ ?_ ?_ ?_ ?_
  · intro id outside row rowFound
    rw [ids, List.mem_cons, not_or] at outside
    rw [others id outside.1, adds_find? added rowFound]
  · intro id outside
    rw [ids, List.mem_cons, not_or] at outside
    exact quiet id outside.1
  · obtain ⟨fresh, distinct⟩ := List.nodup_cons.mp distinct
    refine ⟨distinct, fun other member => ?_⟩
    have different : other.id ≠ job.id := fun same => fresh (same ▸ List.mem_map_of_mem member)
    refine (waiting other member).frame (fun row rowFound => ?_) (counts_quiet (quiet _ different))
    rw [others _ different, adds_find? added rowFound]
  · intro other different id member inside
    refine invariant.apart other worker different id inside ?_
    rw [ids]
    exact List.mem_cons_of_mem _ member
  · intro id row rowFound
    by_cases same : id = job.id
    · subst same
      obtain rfl := Option.some.inj (self.symm.trans rowFound)
      exact tally (invariant.tallied _ job found)
    · rw [others id same] at rowFound
      rw [counts_quiet (quiet id same)]
      exact tallied id row rowFound
  · intro id missing
    by_cases same : id = job.id
    · subst same
      rw [self] at missing
      cases missing
    · rw [others id same] at missing
      rw [counts_quiet (quiet id same)]
      exact unknown id missing

variable {expiredReadsRaise : Bool} {registered : String → Bool} {name : Worker → String} {next : State Worker}

theorem Invariant.skip (invariant : Invariant events state) {job : Job} {rest : List Job}
    (batched : state.phase worker = .batch (job :: rest)) :
    Invariant (events ++ [.load worker]) (state.move worker (.batch rest)) := by
  obtain ⟨distinct, waiting⟩ := invariant.owned batched
  refine invariant.move (fun _ => ⟨rfl, rfl, rfl⟩)
    ⟨(List.nodup_cons.mp distinct).2, fun job member => waiting job (List.mem_cons_of_mem _ member)⟩ ?_
  intro id member
  rw [batched]
  exact List.mem_cons_of_mem _ member

/-- The row of a waiting job is read again. -/
theorem Invariant.load (invariant : Invariant events state) {job row : Job} {rest : List Job}
    (batched : state.phase worker = .batch (job :: rest)) (found : state.db.job.find? job.id = some row) :
    Invariant (events ++ [.load worker]) (state.move worker (.running .loaded row rest)) := by
  obtain ⟨distinct, waiting⟩ := invariant.owned batched
  obtain ⟨held, heldFound, active, unstarted⟩ := waiting job List.mem_cons_self
  obtain rfl := Option.some.inj (heldFound.symm.trans found)
  have same : held.id = job.id := (Table.find?_some found).2
  have ids : (Phase.running .loaded held rest).ids = (Phase.batch (job :: rest)).ids := by
    simp [Phase.ids, Phase.locks, Phase.held, same]
  refine invariant.move (fun _ => ⟨rfl, rfl, rfl⟩) ⟨?_, ?_, ?_, active, ?_⟩ ?_
  · rw [same]
    exact distinct
  · exact fun other member => waiting other (List.mem_cons_of_mem _ member)
  · rw [same]
    exact found
  · rw [StageOwns, same]
    exact unstarted
  · intro id member
    rwa [batched, ← ids]

/-- The worker goes on with the job it runs. -/
theorem Invariant.restage (invariant : Invariant events state) {stage later : Stage} {job : Job} {rest : List Job}
    (runs : state.phase worker = .running stage job rest) (staged : StageOwns events job later) :
    Invariant (events ++ [.handled worker]) (state.move worker (.running later job rest)) := by
  obtain ⟨distinct, waiting, found, active, _⟩ := invariant.owned runs
  exact invariant.move (fun _ => ⟨rfl, rfl, rfl⟩) ⟨distinct, waiting, found, active, staged⟩
    fun id member => by rwa [runs]

theorem Invariant.start (invariant : Invariant events state) {job : Job} {rest : List Job}
    (loaded : state.phase worker = .running .loaded job rest) :
    Invariant (events ++ [.start worker job.id]) (state.move worker (.running .handling job rest)) := by
  obtain ⟨distinct, waiting, found, active, unstarted⟩ := invariant.owned loaded
  have fresh := (List.nodup_cons.mp distinct).1
  have ids : (Phase.running .handling job rest).ids = (state.phase worker).ids := by
    rw [loaded]
    rfl
  refine invariant.commit (fun _ _ _ kept => kept) ?_ ⟨distinct, ?_, found, active, trivial⟩ ?_ ?_ ?_
  · intro id outside
    rw [← ids] at outside
    exact quiet_start fun same => outside (same ▸ List.mem_cons_self)
  · intro other member
    have different : other.id ≠ job.id := fun same => fresh (same ▸ List.mem_map_of_mem member)
    exact (waiting other member).frame (fun _ kept => kept) (counts_quiet (quiet_start different))
  · intro other different id member inside
    exact invariant.apart other worker different id inside (ids ▸ member)
  · intro id row rowFound
    by_cases same : id = job.id
    · subst same
      obtain rfl := Option.some.inj (found.symm.trans rowFound)
      rw [counts_start]
      exact (invariant.tallied _ job found).started active unstarted
    · rw [counts_quiet (quiet_start same)]
      exact invariant.tallied id row rowFound
  · intro id missing
    have different : id ≠ job.id := fun same => by
      rw [same, found] at missing
      cases missing
    rw [counts_quiet (quiet_start different)]
    exact invariant.unknown id missing

theorem Invariant.finish (invariant : Invariant events state) {job : Job} {rest : List Job} {writes : DB → DB}
    (returned : state.phase worker = .running (.returned writes) job rest)
    (adds : (Jobs.adds Unclaimed).rel state.db (writes state.db)) :
    Invariant (events ++ [.finish worker job.id])
      (state.commit worker { writes state.db with job := (writes state.db).job.update job.id done } (.batch rest)) := by
  obtain ⟨_, _, _, active, _⟩ := invariant.owned returned
  refine invariant.settle returned adds rfl (fun id different => quiet_finish different) fun tally => ?_
  rw [counts_finish]
  exact tally.done active

theorem Invariant.fail (invariant : Invariant events state) {job changed : Job} {rest : List Job}
    (recording : state.phase worker = .running (.recording changed) job rest) :
    Invariant (events ++ [.fail worker job.id])
      (state.commit worker { state.db with job := state.db.job.update job.id (saveChanges job changed) } (.batch rest)) := by
  obtain ⟨_, _, _, active, now, error, rfl⟩ := invariant.owned recording
  have sets : Table.assign (saveChanges job (failedOrRetried now error job)) job =
      failedOrRetried now error job := (Table.assign_eq rfl).trans saveChanges_failedOrRetried
  refine invariant.settle recording (adds_of_same rfl) sets (fun id different => quiet_fail different)
    fun tally => ?_
  rw [counts_fail]
  exact tally.failed active now error

/-- The worker drops what it has at hand. -/
theorem Invariant.drop (invariant : Invariant events state) (quiet : ∀ id, event.quiet id) :
    Invariant (events ++ [event]) (state.move worker .idle) :=
  invariant.move quiet trivial (by simp [Phase.ids, Phase.locks, Phase.held])

theorem Invariant.step (invariant : Invariant events state)
    (step : Step expiredReadsRaise registered name state event next) : Invariant (events ++ [event]) next := by
  cases step with
  | select now limit locked idle others => exact invariant.select others fun _ => ⟨rfl, rfl, rfl⟩
  | claim selected => exact invariant.claim selected
  | skip batched => exact invariant.skip batched
  | load batched found => exact invariant.load batched found
  | unknown now error loaded missing => exact invariant.restage loaded ⟨now, error, rfl⟩
  | start loaded known => exact invariant.start loaded
  | returns writes handling => exact invariant.restage handling trivial
  | raises error handling => exact invariant.restage handling trivial
  | refetch now raised readable found =>
      obtain ⟨_, _, stored, _⟩ := invariant.owned raised
      obtain rfl := Option.some.inj (stored.symm.trans found)
      exact invariant.restage raised ⟨now, _, rfl⟩
  | vanished raised readable gone =>
      obtain ⟨_, _, stored, _⟩ := invariant.owned raised
      rw [stored] at gone
      cases gone
  | escape raised expired => exact invariant.drop fun _ => ⟨rfl, rfl, rfl⟩
  | finish returned adds => exact invariant.finish returned adds
  | fail recording => exact invariant.fail recording
  | leave finished => exact invariant.drop fun _ => ⟨rfl, rfl, rfl⟩
  | crash worker => exact invariant.drop fun _ => ⟨rfl, rfl, rfl⟩
  | other writes adds => exact invariant.other adds

/-! ## Safety of the queue -/

def terminal (job : Job) : Prop := job.status = .done ∨ job.status = .failed

/-- What a step may have written: the handler's writes come with the status `done`
and only then, any other step of a worker changes rows of the queue at most. -/
def Writes (before after : DB) (phase : Worker → Phase) : Event Worker → Prop
  | .finish worker id => ∃ writes job rest, phase worker = .running (.returned writes) job rest ∧ job.id = id ∧
      after = { writes before with job := (writes before).job.update id done } ∧
      before.job.find? id = some job ∧ job.status = .running ∧ after.job.find? id = some (done job)
  | .other => (Jobs.adds Unclaimed).rel before after
  | _ => ∃ jobs : Table Job, after = { before with job := jobs } ∧
      jobs.rows.map (·.id) = before.job.rows.map (·.id) ∧
      ∀ job ∈ jobs.rows, job.status = .done → job ∈ before.job.rows

structure QueueSafe (step : State Worker → Event Worker → State Worker → Prop) (events : List (Event Worker))
    (state : State Worker) : Prop where
  running : ∀ worker, ∀ id ∈ (state.phase worker).held, ∃ job, state.db.job.find? id = some job ∧
    job.status = .running
  exclusive : ∀ worker other, worker ≠ other → ∀ id ∈ (state.phase worker).held, id ∉ (state.phase other).held
  once : ∀ worker, (state.phase worker).held.Nodup
  starts : ∀ job ∈ state.db.job.rows, ((counts events job.id).starts : Int) ≤ max 1 job.maxAttempts
  attempts : ∀ job ∈ state.db.job.rows, job.attempts = (counts events job.id).failures ∧
    (job.attempts : Int) ≤ max 1 job.maxAttempts
  commits : ∀ job ∈ state.db.job.rows, (counts events job.id).finishes = if job.status = .done then 1 else 0
  final : ∀ event next, step state event next → ∀ job ∈ state.db.job.rows, terminal job →
    job ∈ next.db.job.rows ∧ event.claims job.id = false ∧ event.starts job.id = false
  writes : ∀ event next, step state event next → Writes state.db next.db state.phase event

theorem Invariant.final (invariant : Invariant events state)
    (step : Step expiredReadsRaise registered name state event next) {job : Job}
    (stored : state.db.job.find? job.id = some job) (ended : terminal job) :
    next.db.job.find? job.id = some job ∧ event.claims job.id = false ∧ event.starts job.id = false := by
  -- a worker only claims pending jobs, and only starts and settles running ones
  have notPending (pending : job.status = .pending) : False := by
    rcases ended with done | failed
    · simp [pending] at done
    · simp [pending] at failed
  have notHeld {worker : Worker} {stage : Stage} {other : Job} {rest : List Job}
      (held : state.phase worker = .running stage other rest) : job.id ≠ other.id := by
    intro same
    have owns := invariant.owns worker
    rw [held] at owns
    obtain ⟨_, _, found, active, _⟩ := owns
    rw [← same, stored] at found
    obtain rfl := Option.some.inj found
    rcases ended with done | failed
    · simp [active] at done
    · simp [active] at failed
  cases step with
  | @claim worker now rows selected =>
      have owns := invariant.owns worker
      rw [selected] at owns
      have outside : job.id ∉ rows.map (·.id) := by
        intro listed
        obtain ⟨row, member, same⟩ := List.mem_map.mp listed
        obtain ⟨found, pending⟩ := owns.2 row member
        rw [same, stored] at found
        exact notPending (Option.some.inj found ▸ pending)
      refine ⟨?_, ?_, rfl⟩
      · change Table.find? (Table.updateWhere _ _ _) _ = _
        rw [find?_claimed, stored, Option.map_some, if_neg outside]
      · simpa [Event.claims] using outside
  | start loaded known => exact ⟨stored, rfl, decide_eq_false (notHeld loaded).symm⟩
  | finish returned adds =>
      refine ⟨?_, rfl, rfl⟩
      change Table.find? (Table.update _ _ _) _ = _
      rw [Table.find?_update_other _ _ (notHeld returned)]
      exact adds_find? adds stored
  | fail recording =>
      refine ⟨?_, rfl, rfl⟩
      change Table.find? (Table.update _ _ _) _ = _
      rw [Table.find?_update_other _ _ (notHeld recording), stored]
  | other writes adds => exact ⟨adds_find? adds stored, rfl, rfl⟩
  | _ => exact ⟨stored, rfl, rfl⟩

theorem Invariant.writes (invariant : Invariant events state)
    (step : Step expiredReadsRaise registered name state event next) :
    Writes state.db next.db state.phase event := by
  cases step with
  | @claim worker now rows selected =>
      refine ⟨_, rfl, Table.updateWhere_keys _ _ _, fun job member isDone => ?_⟩
      obtain ⟨old, oldMember, rfl⟩ := Table.mem_updateWhere.mp member
      split at isDone
      · cases isDone
      · next kept =>
        rw [if_neg kept]
        exact oldMember
  | @finish worker job rest writes returned adds =>
      have owns := invariant.owns worker
      rw [returned] at owns
      obtain ⟨_, _, found, active, _⟩ := owns
      refine ⟨writes, job, rest, returned, rfl, rfl, found, active, ?_⟩
      change Table.find? (Table.update _ _ _) _ = _
      rw [Table.find?_update_self, adds_find? adds found, Option.map_some, assign_done]
  | @fail worker job changed rest recording =>
      have owns := invariant.owns worker
      rw [recording] at owns
      obtain ⟨_, _, found, _, now, error, rfl⟩ := owns
      refine ⟨_, rfl, Table.updateWhere_keys _ _ _, fun row member isDone => ?_⟩
      obtain ⟨old, oldMember, rfl⟩ := Table.mem_updateWhere.mp member
      split at isDone
      · next isJob =>
        have same : old = job := Table.eq_of_key_eq oldMember (Table.find?_some found).1 (eq_of_beq isJob)
        rw [same, Table.assign_eq rfl, saveChanges_failedOrRetried, failedOrRetried_status] at isDone
        split at isDone <;> cases isDone
      · next kept =>
        rw [if_neg kept]
        exact oldMember
  | other writes adds => exact adds
  | _ => exact ⟨_, rfl, rfl, fun _ member _ => member⟩

/-- Whatever the workers do, in whatever order, and wherever they crash, the queue is safe. -/
theorem queueSafe_of_run {initial : State Worker} (fresh : Initial initial)
    (run : Run (Step expiredReadsRaise registered name) initial events state) :
    QueueSafe (Step expiredReadsRaise registered name) events state := by
  have invariant : Invariant events state :=
    run.traceInvariant Invariant fresh.invariant fun _ _ _ _ invariant step => invariant.step step
  have tally : ∀ job ∈ state.db.job.rows, Tally job (counts events job.id) := fun job member =>
    invariant.tallied job.id job (Table.find?_of_mem member)
  refine ⟨fun worker id => (invariant.owns worker).held_running, ?_, ?_, fun job member => (tally job member).starts_le,
    fun job member => ⟨(tally job member).failures, (tally job member).attempts_le⟩,
    fun job member => (tally job member).finishes, ?_, fun event next step => invariant.writes step⟩
  · intro worker other different id held inside
    exact invariant.apart worker other different id (List.mem_append_right _ held) (List.mem_append_right _ inside)
  · intro worker
    have owns := invariant.owns worker
    cases phase : state.phase worker with
    | idle => exact List.nodup_nil
    | claiming now rows => exact List.nodup_nil
    | batch rest =>
        rw [phase] at owns
        exact owns.1
    | running stage job rest =>
        rw [phase] at owns
        exact owns.1
  · intro event next step job member ended
    obtain ⟨found, claims, starts⟩ := invariant.final step (Table.find?_of_mem member) ended
    exact ⟨(Table.find?_some found).1, claims, starts⟩

end Invariant

/-- Two workers that share the queue of a sheet. -/
def idlePool : State Bool := ⟨Worker.observedSheet, fun _ => .idle⟩

theorem idlePool_initial : Initial idlePool where
  idle _ := rfl
  unclaimed job member := by
    rcases List.mem_append.mp member with first | second
    · rcases List.mem_append.mp first with none | first
      · cases none
      · obtain rfl := List.mem_singleton.mp first
        exact newJob_unclaimed ..
    · obtain rfl := List.mem_singleton.mp second
      exact newJob_unclaimed ..

def claimingPool : State Bool :=
  idlePool.move true (.claiming 0 (unlockedDueJobs Worker.observedSheet.job (fun _ => false) 0 25))

/-- The steps of the pool, whose workers handle observations only. -/
def PoolStep : State Bool → Event Bool → State Bool → Prop :=
  Step true (fun kind => kind == "observe_source") fun _ => "w"

theorem pool_selects : PoolStep idlePool (.select true) claimingPool :=
  .select 0 25 (fun _ => false) rfl fun id => by simp [idlePool, Phase.locks]

/-- What one worker has locked the other one skips. -/
theorem pool_skips : PoolStep claimingPool (.select false) (claimingPool.move false (.claiming 0 [])) := by
  refine Step.select 0 25 (fun id => [1, 2].contains id) rfl fun id => ?_
  have locks : (claimingPool.phase true).locks = [1, 2] := by decide +kernel
  simp [locks]

/-- One worker claims both jobs, of which one succeeds and one has no handler; the
other worker gets none and crashes. -/
def poolEvents : List (Event Bool) :=
  [.select true, .select false, .claim true [1, 2], .claim false [], .load true, .start true 1, .crash false,
    .handled true, .finish true 1, .load true, .handled true, .fail true 2, .leave true]

theorem pool_works : ∃ state, Run PoolStep idlePool poolEvents state ∧
    state.db.job.rows.map (fun job => (job.status, job.attempts)) = [(.done, 0), (.pending, 1)] := by
  have selected : Run PoolStep idlePool _ _ := (Run.start.next pool_selects).next pool_skips
  have claimed : Run PoolStep idlePool (_ ++ [.claim true _]) _ := selected.next (.claim rfl)
  have empty : Run PoolStep idlePool (_ ++ [.claim false _]) _ := claimed.next (.claim rfl)
  have loaded : Run PoolStep idlePool (_ ++ [.load true]) _ := empty.next (.load rfl rfl)
  have started : Run PoolStep idlePool (_ ++ [.start true _]) _ := loaded.next (.start rfl rfl)
  have crashed : Run PoolStep idlePool (_ ++ [.crash false]) _ := started.next (.crash false)
  have returned : Run PoolStep idlePool (_ ++ [.handled true]) _ := crashed.next (.returns id rfl)
  have finished : Run PoolStep idlePool (_ ++ [.finish true _]) _ :=
    returned.next (.finish rfl ((Jobs.adds Unclaimed).refl _))
  have again : Run PoolStep idlePool (_ ++ [.load true]) _ := finished.next (.load rfl rfl)
  have refused : Run PoolStep idlePool (_ ++ [.handled true]) _ :=
    again.next (.unknown 0 "no handler for job kind 'noop'" rfl rfl)
  have failed : Run PoolStep idlePool (_ ++ [.fail true _]) _ := refused.next (.fail rfl)
  exact ⟨_, failed.next (.leave rfl), by decide +kernel⟩

theorem queueSafe_poolEvents : ∃ state,
    state.db.job.rows.map (fun job => (job.status, job.attempts)) = [(.done, 0), (.pending, 1)] ∧
      QueueSafe PoolStep poolEvents state := by
  obtain ⟨state, run, rows⟩ := pool_works
  exact ⟨state, rows, queueSafe_of_run idlePool_initial run⟩

/-! ## The worker as a sequence of steps -/

section Simulation

variable {Worker : Type} [DecidableEq Worker] {state : State Worker} {worker : Worker} {first second : Phase}
variable {db : DB}

@[simp] theorem State.move_phase : (state.move worker first).phase worker = first := Function.update_self ..

@[simp] theorem State.move_db : (state.move worker first).db = state.db := rfl

@[simp] theorem State.move_move : (state.move worker first).move worker second = state.move worker second := by
  simp [State.move]

@[simp] theorem State.move_commit :
    (state.move worker first).commit worker db second = state.commit worker db second := by
  simp [State.move, State.commit]

theorem update_saveChanges {table : Table Job} {job : Job} (stored : table.find? job.id = some job)
    (now : Timestamp) (error : String) :
    table.update job.id (saveChanges job (failedOrRetried now error job)) =
      table.update job.id fun _ => failedOrRetried now error job := by
  refine Table.ext (List.map_congr_left fun row member => ?_)
  by_cases isJob : (Keyed.key row == job.id) = true
  · have same : row = job := Table.eq_of_key_eq member (Table.find?_some stored).1 (eq_of_beq isJob)
    rw [if_pos isJob, if_pos isJob, same, Table.assign_eq rfl, Table.assign_eq failedOrRetried_id,
      saveChanges_failedOrRetried]
  · rw [if_neg isJob, if_neg isJob]

/-- Running a job as the worker does is a run of the steps of one worker. -/
theorem runJob_steps {runtime : SmartProcurement.Worker.Runtime} {registry : Registry} {name : Worker → String}
    {now : Timestamp} {job : Job} {rest : List Job} (batched : state.phase worker = .batch (job :: rest))
    (stored : state.db.job.find? job.id = some job) :
    ∃ events phase, (phase = .batch rest ∨ phase = .idle) ∧
      Run (Step runtime.expiredReadsRaise (fun kind => (registry kind).isSome) name) state events
        (state.commit worker (SmartProcurement.Worker.runJob runtime registry now job state.db).2 phase) := by
  have loaded : Run (Step runtime.expiredReadsRaise (fun kind => (registry kind).isSome) name) state _ _ :=
    Run.start.next (.load batched stored)
  have ended : SmartProcurement.Worker.JobRun runtime registry now job state.db _ :=
    SmartProcurement.Worker.runJob_cases stored
  generalize SmartProcurement.Worker.runJob runtime registry now job state.db = result at ended ⊢
  cases ended with
  | unknown unregistered error =>
      have recorded := loaded.next (.unknown now error State.move_phase (by simp [unregistered]))
      have saved := recorded.next (.fail State.move_phase)
      simp only [State.move_move, State.move_commit, State.move_db, update_saveChanges stored] at saved
      exact ⟨_, _, .inl rfl, saved⟩
  | @finished handler after registered ran =>
      have started := loaded.next (.start State.move_phase (by simp [registered]))
      have returned := started.next (.returns (fun _ => after) State.move_phase)
      have saved := returned.next (.finish State.move_phase (handler.adds ran))
      simp only [State.move_move, State.move_commit] at saved
      exact ⟨_, _, .inl rfl, saved⟩
  | failed registered ran readable error =>
      have started := loaded.next (.start State.move_phase (by simp [registered]))
      have raised := started.next (.raises error State.move_phase)
      have recorded := raised.next (.refetch now State.move_phase readable stored)
      have saved := recorded.next (.fail State.move_phase)
      simp only [State.move_move, State.move_commit, State.move_db, update_saveChanges stored] at saved
      exact ⟨_, _, .inl rfl, saved⟩
  | escaped registered ran expired =>
      have started := loaded.next (.start State.move_phase (by simp [registered]))
      have raised := started.next (.raises "" State.move_phase)
      have escaped := raised.next (.escape State.move_phase expired)
      simp only [State.move_move] at escaped
      exact ⟨_, _, .inr rfl, escaped⟩

end Simulation

end SmartProcurement.Workers
