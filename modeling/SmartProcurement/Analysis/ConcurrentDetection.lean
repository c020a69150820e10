import SmartProcurement.Analysis.RiskRuns
import SmartProcurement.Transaction.ReadCommitted

namespace SmartProcurement.Analysis.Concurrent

open Relational Transaction Transition

/-! # Two transactions of detect_risks

Two workers detect risks at once.  Every statement sees the committed rows and
the rows that its own transaction has inserted.  Of what a transaction writes,
the findings are kept: links and explanation jobs decide nothing about a finding.
-/

structure Detection where
  now : Timestamp
  enterpriseId : Uuid

/-- The three loops of a detection. -/
inductive Loop where
  | aggregates
  | delays
  | qualities

def Loop.probes (detection : Detection) (db : DB) : Loop → List Probe
  | .aggregates => (aggregatesOf detection.enterpriseId db).flatMap (aggregateProbes detection.now)
  | .delays => (supplierDelaySamples detection.enterpriseId db).map delayProbe
  | .qualities => (qualitySamples detection.enterpriseId db).map qualityProbe

inductive Phase where
  | reading (loop : Loop)
  | probing (loop : Loop) (rest : List Probe)
  | looking (loop : Loop) (candidate : RiskCandidate) (rest : List Probe)
  | inserting (loop : Loop) (candidate : RiskCandidate) (rest : List Probe)
  | ended (committed : Bool)

structure State where
  committed : DB
  own : Bool → Table RiskFinding
  phase : Bool → Phase

inductive Event where
  | run (party : Bool) (id : Uuid)
  | abort (party : Bool)

namespace State

variable (state : State) (party : Bool)

def seen : Table RiskFinding := state.committed.riskFinding.overlay (state.own party)

def view : DB := { state.committed with riskFinding := state.seen party }

def start (initial : DB) : State := ⟨initial, fun _ => .empty, fun _ => .reading .aggregates⟩

def enter (phase : Phase) : State := { state with phase := Function.update state.phase party phase }

def finish (findings : Table RiskFinding) (committed : Bool) : State where
  committed := { state.committed with riskFinding := findings }
  own := Function.update state.own party .empty
  phase := Function.update state.phase party (.ended committed)

def commit : State := state.finish party (state.seen party) true

def abort : State := state.finish party state.committed.riskFinding false

def put (finding : RiskFinding) (phase : Phase) : State :=
  { state with
    own := Function.update state.own party ((state.own party).put finding)
    phase := Function.update state.phase party phase }

def taken (id : Uuid) : Bool := ((state.seen party).rows ++ (state.own (!party)).rows).any (·.id = id)

def leave : Loop → State
  | .aggregates => state.enter party (.reading .delays)
  | .delays => state.enter party (.reading .qualities)
  | .qualities => state.commit party

def judged (loop : Loop) (rest : List Probe) : Except Error (Option RiskCandidate) → State
  | .error _ => state.abort party
  | .ok none => state.enter party (.probing loop rest)
  | .ok (some candidate) => state.enter party (.looking loop candidate rest)

/-- `_find_non_terminal` has returned. -/
def looked (loop : Loop) (candidate : RiskCandidate) (rest : List Probe) : Except Error (Option RiskFinding) → State
  | .error _ => state.abort party
  | .ok (some _) => state.enter party (.probing loop rest)
  | .ok none => state.enter party (.inserting loop candidate rest)

end State

/-- One statement of a transaction, with the code up to the next. -/
def advance (detection : Detection) (state : State) (party : Bool) (id : Uuid) : State :=
  match state.phase party with
  | .ended _ => state
  | .reading loop => state.enter party (.probing loop (loop.probes detection (state.view party)))
  | .probing loop [] => state.leave party loop
  | .probing loop (probe :: rest) => state.judged party loop rest (probe.evaluate (state.view party))
  | .looking loop candidate rest =>
      state.looked party loop candidate rest
        (outcome (findNonTerminal detection.enterpriseId candidate (state.view party)))
  | .inserting loop candidate rest =>
      if state.taken party id then state
      else state.put party { newFinding detection.now detection.enterpriseId candidate with id } (.probing loop rest)

def step (detections : Bool → Detection) (state : State) : Event → State
  | .run party id => advance (detections party) state party id
  | .abort party =>
      match state.phase party with
      | .ended _ => state
      | _ => state.abort party

/-! ## What is awaited -/

/-- A transaction that has found no finding is about to insert one. -/
def Phase.awaited (enterpriseId : Uuid) : Phase → Option FindingKey
  | .inserting _ candidate _ => some (keyOf enterpriseId candidate)
  | _ => none

def State.shared (detections : Bool → Detection) (state : State) : Shared RiskFinding FindingKey where
  committed := state.committed.riskFinding
  own := state.own
  awaited party := (state.phase party).awaited (detections party).enterpriseId

/-- A lookup that finds no ongoing finding does not miss one that the other
transaction has inserted or is about to insert. -/
def MissesNone (detections : Bool → Detection) (state : State) (party : Bool) (key : FindingKey) : Prop :=
  (∀ finding ∈ (state.seen party).rows, ongoingKey finding ≠ some key) →
    Untouched ongoingKey (state.shared detections) party key

def Separate (detections : Bool → Detection) (state : State) : Event → Prop
  | .abort _ => True
  | .run party _ =>
      match state.phase party with
      | .looking _ candidate _ => MissesNone detections state party (keyOf (detections party).enterpriseId candidate)
      | _ => True

section Decidable

variable (detections : Bool → Detection) (state : State) (party : Bool) (key : FindingKey)

instance : Decidable (MissesNone detections state party key) := by
  unfold MissesNone
  infer_instance

instance : (event : Event) → Decidable (Separate detections state event)
  | .abort _ => .isTrue trivial
  | .run party _ => by
      simp only [Separate]
      split <;> infer_instance

end Decidable

/-! ## The moves of a transaction -/

section Moves

variable {detections : Bool → Detection} {state : State} {party : Bool} {phase : Phase} {finding : RiskFinding}
variable {loop : Loop} {candidate : RiskCandidate} {rest : List Probe}

/-- Ongoing findings are told apart in all that is or may be committed. -/
abbrev Kept (detections : Bool → Detection) (state : State) : Prop :=
  Exclusive ongoingKey (state.shared detections)

theorem awaited_update (phase : Phase) :
    (fun other => (Function.update state.phase party phase other).awaited (detections other).enterpriseId) =
      Function.update (state.shared detections).awaited party (phase.awaited (detections party).enterpriseId) := by
  funext other
  by_cases same : other = party
  · subst same
    simp
  · simp [same, State.shared]

theorem shared_enter : (state.enter party phase).shared detections =
    (state.shared detections).await party (phase.awaited (detections party).enterpriseId) :=
  congrArg (fun awaited => (⟨_, _, awaited⟩ : Shared RiskFinding FindingKey)) (awaited_update phase)

theorem shared_finish {findings : Table RiskFinding} {committed : Bool} :
    (state.finish party findings committed).shared detections = (state.shared detections).finish party findings :=
  congrArg (fun awaited => (⟨_, _, awaited⟩ : Shared RiskFinding FindingKey)) (awaited_update (.ended committed))

theorem shared_put : (state.put party finding (.probing loop rest)).shared detections =
    (state.shared detections).write party finding :=
  congrArg (fun awaited => (⟨_, _, awaited⟩ : Shared RiskFinding FindingKey)) (awaited_update (.probing loop rest))

theorem kept_enter (kept : Kept detections state) (idle : phase.awaited (detections party).enterpriseId = none) :
    Kept detections (state.enter party phase) := by
  rw [Kept, shared_enter, idle]
  exact kept.release party

theorem kept_abort (kept : Kept detections state) : Kept detections (state.abort party) := by
  rw [Kept, State.abort, shared_finish]
  exact kept.abort party

theorem kept_leave (kept : Kept detections state) : Kept detections (state.leave party loop) := by
  cases loop with
  | aggregates => exact kept_enter kept rfl
  | delays => exact kept_enter kept rfl
  | qualities =>
      rw [Kept, State.leave, State.commit, shared_finish]
      exact kept.commit party

theorem kept_judged (kept : Kept detections state) (judgement : Except Error (Option RiskCandidate)) :
    Kept detections (state.judged party loop rest judgement) := by
  cases judgement with
  | error _ => exact kept_abort kept
  | ok found =>
      cases found with
      | none => exact kept_enter kept rfl
      | some candidate => exact kept_enter kept rfl

theorem findNonTerminal_none {enterpriseId : Uuid} {before after : DB}
    (ran : findNonTerminal enterpriseId candidate before = .ok none after) :
    ∀ finding ∈ before.riskFinding.rows, ongoingKey finding ≠ some (keyOf enterpriseId candidate) := by
  obtain ⟨single, _⟩ := scalarOrNone_eq_ok.mp ran
  have nobody := scalarOneOrNone_ok single
  intro finding member has
  exact List.filter_eq_nil_iff.mp nobody finding member (matchesCandidate_iff_key.mpr has)

theorem kept_looked (kept : Kept detections state)
    (separate : MissesNone detections state party (keyOf (detections party).enterpriseId candidate)) :
    Kept detections (state.looked party loop candidate rest
      (outcome (findNonTerminal (detections party).enterpriseId candidate (state.view party)))) := by
  cases ended : outcome (findNonTerminal (detections party).enterpriseId candidate (state.view party)) with
  | error _ => exact kept_abort kept
  | ok found =>
      cases found with
      | some finding => exact kept_enter kept rfl
      | none =>
          obtain ⟨after, ran⟩ := outcome_eq_ok ended
          have missing := findNonTerminal_none ran
          rw [Kept, State.looked, shared_enter]
          exact kept.look missing (separate missing)

theorem ongoingKey_newFinding (now : Timestamp) (enterpriseId id : Uuid) (candidate : RiskCandidate) :
    ongoingKey { newFinding now enterpriseId candidate with id } = some (keyOf enterpriseId candidate) :=
  matchesCandidate_iff_key.mp (matches_newFinding now enterpriseId id candidate)

theorem kept_inserted {id : Uuid} (kept : Kept detections state)
    (phase : state.phase party = .inserting loop candidate rest) (available : state.taken party id = false)
    (now : Timestamp) :
    Kept detections (state.put party { newFinding now (detections party).enterpriseId candidate with id }
      (.probing loop rest)) := by
  rw [Kept, shared_put]
  refine kept.insert ?_ (ongoingKey_newFinding now _ id candidate) fun other member same => ?_
  · simp only [State.shared, phase, Phase.awaited]
  · simp only [State.taken, List.any_eq_false, decide_eq_true_eq] at available
    exact available other (List.mem_append_right _ member) same

theorem kept_advance (kept : Kept detections state) (id : Uuid) (separate : Separate detections state (.run party id)) :
    Kept detections (advance (detections party) state party id) := by
  unfold advance
  simp only [Separate] at separate
  cases phase : state.phase party with
  | ended _ => exact kept
  | reading loop => exact kept_enter kept rfl
  | probing loop probes =>
      cases probes with
      | nil => exact kept_leave kept
      | cons probe rest => exact kept_judged kept _
  | looking loop candidate rest =>
      simp only [phase] at separate
      exact kept_looked kept separate
  | inserting loop candidate rest =>
      simp only
      split
      · exact kept
      · next available => exact kept_inserted kept phase (by simpa using available) _

theorem kept_step (kept : Kept detections state) (event : Event) (separate : Separate detections state event) :
    Kept detections (step detections state event) := by
  cases event with
  | run party id => exact kept_advance kept id separate
  | abort party =>
      simp only [step]
      split
      · exact kept
      · exact kept_abort kept

end Moves

/-! ## Runs -/

/-- An ongoing condition has one finding, and a later detection raises only what
one of its rules raises. -/
structure Deduplicated (findings : Table RiskFinding) : Prop where
  single : Unique ongoingKey findings
  later : ∀ db now enterpriseId, db.riskFinding = findings →
    (∀ probe ∈ probes now enterpriseId db, ∃ found, probe.evaluate db = .ok found) →
      ∃ results after, detectRisks now enterpriseId db = .ok results after

theorem deduplicated_of_unique {findings : Table RiskFinding} (unique : Unique ongoingKey findings) :
    Deduplicated findings := by
  refine ⟨unique, ?_⟩
  rintro db now enterpriseId rfl judged
  cases ran : detectRisks now enterpriseId db with
  | ok results after => exact ⟨results, after, rfl⟩
  | error reason after =>
      obtain ⟨probe, member, raised⟩ := detectRisks_error unique ran
      obtain ⟨found, returns⟩ := judged probe member
      rw [raised] at returns
      cases returns

/-- What two detections commit, whatever the order of their statements. -/
theorem deduplicated_of_separate (detections : Bool → Detection) (initial : DB) (events : List Event)
    (unique : Unique ongoingKey initial.riskFinding)
    (separate : Along (step detections) (Separate detections) (.start initial) events) :
    Deduplicated (events.foldl (step detections) (.start initial)).committed.riskFinding := by
  have start : Kept detections (.start initial) := Exclusive.start initial.riskFinding unique
  have kept : Kept detections (events.foldl (step detections) (.start initial)) :=
    separate.invariant start fun _ event holds meets => kept_step holds event meets
  exact deduplicated_of_unique kept.committed

/-! ## Two detections of one price jump -/

def bothDetect (_ : Bool) : Detection := ⟨0, 1⟩

def alone (party : Bool) (id : Uuid) (statements : Nat) : List Event := List.replicate statements (.run party id)

/-- One detection after the other, the second knows the finding of the first. -/
theorem deduplicated_priceJump :
    let final := (alone false 1 12 ++ alone true 2 12).foldl (step bothDetect) (.start priceJump)
    final.committed.riskFinding.rows.length = 1 ∧ Deduplicated final.committed.riskFinding :=
  ⟨by decide +kernel, deduplicated_of_separate _ _ _ (fun _ member => absurd member List.not_mem_nil)
    (by decide +kernel)⟩

/-- Both look the finding up before either has inserted it; a third detection fails. -/
theorem interleaved_detections_duplicate :
    let final := (alone false 1 6 ++ alone true 2 6 ++ alone false 1 6 ++ alone true 2 6).foldl (step bothDetect)
      (.start priceJump)
    (∀ party, final.phase party matches .ended true) ∧ ¬ Deduplicated final.committed.riskFinding ∧
      outcome (detectRisks 1 1 final.committed) matches .error .multipleResultsFound := by
  refine ⟨by decide +kernel, fun deduplicated => ?_, by decide +kernel⟩
  have single := deduplicated.single.filter_length (1, .priceAnomaly, some 1, none)
  exact absurd single (by decide +kernel)

end SmartProcurement.Analysis.Concurrent
