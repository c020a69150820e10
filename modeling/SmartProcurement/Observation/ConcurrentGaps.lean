import SmartProcurement.Observation.Observability
import SmartProcurement.Transaction.ReadCommitted
import SmartProcurement.Transition.Runs

namespace SmartProcurement.Observation.Concurrent

open Relational Transaction Transition

/-! # Two transactions that open one gap

Both transactions look for an open gap and insert one if they have seen none.
Every statement sees the committed gaps and those of its own transaction; no lock
and no unique index stands between the lookup and the insert.  What else the
transactions do does not concern the gap and is left out.
-/

inductive Phase where
  | looking
  | inserting
  | opened
  | ended (committed : Bool)
deriving DecidableEq

structure State where
  committed : DB
  own : Bool → Table ObservabilityGap
  phase : Bool → Phase

/-- A statement with the identifier it would generate, or a rollback. -/
inductive Event where
  | run (party : Bool) (id : Uuid)
  | abort (party : Bool)

namespace State

variable (state : State) (party : Bool)

def start (initial : DB) : State := ⟨initial, fun _ => .empty, fun _ => .looking⟩

def view : DB := { state.committed with
  observabilityGap := state.committed.observabilityGap.overlay (state.own party) }

def enter (phase : Phase) : State := { state with phase := Function.update state.phase party phase }

def put (gap : ObservabilityGap) : State where
  committed := state.committed
  own := Function.update state.own party ((state.own party).put gap)
  phase := Function.update state.phase party .opened

def finish (committed : DB) (phase : Phase) : State where
  committed
  own := Function.update state.own party .empty
  phase := Function.update state.phase party phase

def commit : State := state.finish party (state.view party) (.ended true)

def abort : State := state.finish party state.committed (.ended false)

def taken (id : Uuid) : Bool :=
  ((state.view party).observabilityGap.rows ++ (state.own (!party)).rows).any (·.id = id)

/-- `_current` has returned. -/
def looked : Except Error (Option ObservabilityGap) → State
  | .error _ => state.abort party
  | .ok (some _) => state.enter party .opened
  | .ok none => state.enter party .inserting

end State

def step (key : GapKey) (now : Bool → Timestamp) (state : State) : Event → State
  | .abort party =>
      match state.phase party with
      | .ended _ => state
      | _ => state.abort party
  | .run party id =>
      match state.phase party with
      | .looking => state.looked party (outcome (current key (state.view party)))
      | .inserting =>
          if state.taken party id then state else state.put party { newGap (now party) key with id }
      | .opened => state.commit party
      | .ended _ => state

/-- The other transaction has neither inserted the gap nor is about to. -/
def Untouched (key : GapKey) (state : State) (party : Bool) : Prop :=
  (∀ gap ∈ (state.own !party).rows, key.current gap = false) ∧ state.phase (!party) ≠ .inserting

/-- A lookup that sees no open gap does not miss that of the other transaction. -/
def Separate (key : GapKey) (state : State) : Event → Prop
  | .abort _ => True
  | .run party _ => state.phase party = .looking → key.openGaps (state.view party) = [] → Untouched key state party

instance (key : GapKey) (state : State) (party : Bool) : Decidable (Untouched key state party) :=
  inferInstanceAs (Decidable (_ ∧ _))

instance (key : GapKey) (state : State) : (event : Event) → Decidable (Separate key state event)
  | .abort _ => .isTrue trivial
  | .run _ _ => inferInstanceAs (Decidable (_ → _))

/-! ## Later calls -/

inductive GapCall where
  | openGap (now : Timestamp)
  | closeGap (now : Timestamp)

def GapCall.perform (key : GapKey) : GapCall → Session PUnit
  | .openGap now => Observation.openGap now key
  | .closeGap now => Observation.closeGap now key

/-- How many open gaps the call may leave. -/
def GapCall.bound : GapCall → Nat
  | .openGap _ => 1
  | .closeGap _ => 0

def GapCall.commit (key : GapKey) (db : DB) (call : GapCall) : DB := (transact (call.perform key) db).2

/-- One gap at most is open, and every later call returns and keeps its bound. -/
structure Sound (key : GapKey) (db : DB) : Prop where
  single : (key.openGaps db).length ≤ 1
  later : ∀ (calls : List GapCall) (call : GapCall), ∃ done after,
    call.perform key (calls.foldl (GapCall.commit key) db) = .ok done after ∧
      (key.openGaps after).length ≤ call.bound

section Calls

variable {key : GapKey} {db : DB}

theorem GapCall.bound_le_one (call : GapCall) : call.bound ≤ 1 := by
  cases call with
  | openGap _ => exact Nat.le_refl 1
  | closeGap _ => exact Nat.zero_le 1

theorem GapCall.returns (call : GapCall) (single : (key.openGaps db).length ≤ 1) :
    ∃ done after, call.perform key db = .ok done after ∧ (key.openGaps after).length ≤ call.bound := by
  cases call with
  | openGap now =>
      obtain ⟨done, after, ran⟩ : ∃ done after, Observation.openGap now key db = .ok done after :=
        openGap_returns single
      exact ⟨done, after, ran, (openGap_single ran).le⟩
  | closeGap now =>
      obtain ⟨done, after, ran⟩ : ∃ done after, Observation.closeGap now key db = .ok done after :=
        closeGap_returns single
      refine ⟨done, after, ran, ?_⟩
      rw [closeGap_none ran]
      exact Nat.zero_le _

theorem GapCall.commit_single (call : GapCall) (single : (key.openGaps db).length ≤ 1) :
    (key.openGaps (call.commit key db)).length ≤ 1 := by
  obtain ⟨done, after, ran, bounded⟩ := call.returns single
  rw [GapCall.commit, transact_of_ok ran]
  exact bounded.trans (call.bound_le_one)

theorem sound_iff_single : Sound key db ↔ (key.openGaps db).length ≤ 1 := by
  refine ⟨Sound.single, fun single => ⟨single, fun calls call => call.returns ?_⟩⟩
  induction calls generalizing db with
  | nil => exact single
  | cons first rest ih => exact ih (first.commit_single single)

end Calls

/-! ## Counting the gaps that are or may be committed -/

/-- The open gaps a transaction adds when it commits. -/
def State.pending (key : GapKey) (state : State) (party : Bool) : Nat :=
  (state.own party).rows.countP key.current + if state.phase party = .inserting then 1 else 0

def State.weight (key : GapKey) (state : State) : Nat :=
  (key.openGaps state.committed).length + state.pending key false + state.pending key true

/-- Rows of a transaction are new, different from those of the other, and gone
when it has ended. -/
structure Tidy (state : State) : Prop where
  fresh : ∀ party, ∀ gap ∈ (state.own party).rows, ∀ old ∈ state.committed.observabilityGap.rows, gap.id ≠ old.id
  apart : ∀ party, ∀ gap ∈ (state.own party).rows, ∀ other ∈ (state.own !party).rows, gap.id ≠ other.id
  gone : ∀ party committed, state.phase party = .ended committed → (state.own party).rows = []

section Steps

variable {key : GapKey} {now : Bool → Timestamp} {state : State} {party : Bool} {phase : Phase} {event : Event}

theorem weight_eq (party : Bool) : state.weight key =
    (key.openGaps state.committed).length + state.pending key party + state.pending key (!party) := by
  cases party
  · rfl
  · exact Nat.add_right_comm ..

@[simp] theorem pending_enter_other : (state.enter party phase).pending key (!party) = state.pending key (!party) := by
  simp [State.pending, State.enter]

@[simp] theorem pending_put_other {gap : ObservabilityGap} :
    (state.put party gap).pending key (!party) = state.pending key (!party) := by
  simp [State.pending, State.put]

@[simp] theorem pending_finish_other {committed : DB} :
    (state.finish party committed phase).pending key (!party) = state.pending key (!party) := by
  simp [State.pending, State.finish]

theorem Tidy.view_rows (tidy : Tidy state) (party : Bool) : (state.view party).observabilityGap.rows =
    state.committed.observabilityGap.rows ++ (state.own party).rows :=
  Table.overlay_rows (tidy.fresh party)

theorem Tidy.openGaps_view (tidy : Tidy state) (party : Bool) : (key.openGaps (state.view party)).length =
    (key.openGaps state.committed).length + (state.own party).rows.countP key.current := by
  rw [GapKey.openGaps, tidy.view_rows, List.filter_append, List.length_append, List.countP_eq_length_filter]
  rfl

theorem Tidy.enter (tidy : Tidy state) (running : ∀ committed, phase ≠ .ended committed) :
    Tidy (state.enter party phase) := by
  refine ⟨tidy.fresh, tidy.apart, fun other committed ended => ?_⟩
  rcases eq_or_eq_not party other with rfl | rfl
  · exact absurd ((Function.update_self ..).symm.trans ended) (running committed)
  · exact tidy.gone _ committed ((Function.update_of_ne (Bool.not_ne_self party) ..).symm.trans ended)

theorem Tidy.finish (tidy : Tidy state) {committed : DB}
    (origin : ∀ gap ∈ committed.observabilityGap.rows,
      gap ∈ state.committed.observabilityGap.rows ∨ gap ∈ (state.own party).rows) :
    Tidy (state.finish party committed phase) := by
  constructor
  · intro other gap member old oldMember
    rcases eq_or_eq_not party other with rfl | rfl
    · simp [State.finish] at member
    · simp only [State.finish, Function.update_of_ne (Bool.not_ne_self party)] at member
      rcases origin old oldMember with committed | own
      · exact tidy.fresh _ gap member old committed
      · exact (tidy.apart party old own gap member).symm
  · intro other gap member gap' member'
    rcases eq_or_eq_not party other with rfl | rfl
    · simp [State.finish] at member
    · simp [State.finish] at member'
  · intro other committed ended
    rcases eq_or_eq_not party other with rfl | rfl
    · simp [State.finish]
    · simp only [State.finish, Function.update_of_ne (Bool.not_ne_self party)] at ended ⊢
      exact tidy.gone _ committed ended

theorem Tidy.commit (tidy : Tidy state) : Tidy (state.commit party) := by
  refine tidy.finish fun gap member => ?_
  rwa [tidy.view_rows, List.mem_append] at member

theorem Tidy.abort (tidy : Tidy state) : Tidy (state.abort party) := tidy.finish fun _ member => .inl member

theorem not_taken {id : Uuid} (tidy : Tidy state) (available : state.taken party id = false) :
    (∀ gap ∈ state.committed.observabilityGap.rows, gap.id ≠ id) ∧ (∀ gap ∈ (state.own party).rows, gap.id ≠ id) ∧
      ∀ gap ∈ (state.own !party).rows, gap.id ≠ id := by
  rw [State.taken, tidy.view_rows, List.any_eq_false] at available
  simp only [List.mem_append, decide_eq_true_eq] at available
  exact ⟨fun gap member => available gap (.inl (.inl member)), fun gap member => available gap (.inl (.inr member)),
    fun gap member => available gap (.inr member)⟩

theorem Tidy.put (tidy : Tidy state) {gap : ObservabilityGap} (available : state.taken party gap.id = false) :
    Tidy (state.put party gap) := by
  obtain ⟨committed, own, other⟩ := not_taken tidy available
  have rows : ∀ row ∈ ((state.own party).put gap).rows, row = gap ∨ row ∈ (state.own party).rows :=
    fun row member => (Table.mem_put.mp member).imp_right And.left
  constructor
  · intro writer row member old oldMember
    rcases eq_or_eq_not party writer with rfl | rfl
    · simp only [State.put, Function.update_self] at member
      rcases rows row member with rfl | member
      · exact (committed old oldMember).symm
      · exact tidy.fresh _ row member old oldMember
    · simp only [State.put, Function.update_of_ne (Bool.not_ne_self party)] at member
      exact tidy.fresh _ row member old oldMember
  · intro writer row member row' member'
    rcases eq_or_eq_not party writer with rfl | rfl
    · simp only [State.put, Function.update_self] at member
      simp only [State.put, Function.update_of_ne (Bool.not_ne_self writer)] at member'
      rcases rows row member with rfl | member
      · exact (other row' member').symm
      · exact tidy.apart _ row member row' member'
    · rw [Bool.not_not] at member'
      simp only [State.put, Function.update_of_ne (Bool.not_ne_self party)] at member
      simp only [State.put, Function.update_self] at member'
      rcases rows row' member' with rfl | member'
      · exact other row member
      · exact (tidy.apart _ row' member' row member).symm
  · intro writer committed ended
    rcases eq_or_eq_not party writer with rfl | rfl
    · simp [State.put] at ended
    · simp only [State.put, Function.update_of_ne (Bool.not_ne_self party)] at ended ⊢
      exact tidy.gone _ committed ended

/-! ### The weight -/

theorem weight_commit (tidy : Tidy state) (opened : state.phase party = .opened) :
    (state.commit party).weight key = state.weight key := by
  rw [weight_eq party, weight_eq party, State.commit, pending_finish_other]
  have committed : (key.openGaps (state.finish party (state.view party) (.ended true)).committed).length =
      (key.openGaps state.committed).length + (state.own party).rows.countP key.current := tidy.openGaps_view party
  have nothing : (state.finish party (state.view party) (.ended true)).pending key party = 0 := by
    simp [State.pending, State.finish]
  have own : state.pending key party = (state.own party).rows.countP key.current := by
    simp [State.pending, opened]
  rw [committed, nothing, own, Nat.add_zero]

theorem weight_put {id : Uuid} (tidy : Tidy state) (inserting : state.phase party = .inserting)
    (available : state.taken party id = false) (time : Timestamp) :
    (state.put party { newGap time key with id }).weight key = state.weight key := by
  rw [weight_eq party, weight_eq party, pending_put_other]
  have rows : ((state.own party).put { newGap time key with id }).rows =
      (state.own party).rows ++ [{ newGap time key with id }] :=
    Table.put_rows fun old member => ((not_taken tidy available).2.1 old member).symm
  have one : (state.put party { newGap time key with id }).pending key party = state.pending key party := by
    simp only [State.pending, State.put, Function.update_self, rows, List.countP_append, inserting, if_true]
    simp
  rw [one]
  rfl

theorem weight_enter (calm : state.phase party ≠ .inserting) :
    (state.enter party phase).weight key = state.weight key + if phase = .inserting then 1 else 0 := by
  rw [weight_eq party, weight_eq party, pending_enter_other]
  have entered : (state.enter party phase).pending key party =
      state.pending key party + if phase = .inserting then 1 else 0 := by
    simp [State.pending, State.enter, calm]
  have same : (state.enter party phase).committed = state.committed := rfl
  rw [entered, same]
  omega

/-! ### What a step does -/

inductive Moved (key : GapKey) (now : Bool → Timestamp) (state : State) : Event → State → Prop where
  | waited {event : Event} : Moved key now state event state
  | aborted {event : Event} {party : Bool} (running : ∀ committed, state.phase party ≠ .ended committed) :
      Moved key now state event (state.abort party)
  | found {party : Bool} {id : Uuid} (looking : state.phase party = .looking)
      (one : (key.openGaps (state.view party)).length = 1) :
      Moved key now state (.run party id) (state.enter party .opened)
  | missed {party : Bool} {id : Uuid} (looking : state.phase party = .looking)
      (nobody : key.openGaps (state.view party) = []) :
      Moved key now state (.run party id) (state.enter party .inserting)
  | inserted {party : Bool} {id : Uuid} (inserting : state.phase party = .inserting)
      (available : state.taken party id = false) :
      Moved key now state (.run party id) (state.put party { newGap (now party) key with id })
  | committed {party : Bool} {id : Uuid} (opened : state.phase party = .opened) :
      Moved key now state (.run party id) (state.commit party)

theorem looked_moved (looking : state.phase party = .looking) (id : Uuid) :
    Moved key now state (.run party id) (state.looked party (outcome (current key (state.view party)))) := by
  cases ran : current key (state.view party) with
  | error reason _ => exact .aborted (by simp [looking])
  | ok found after =>
      have rows := (current_ok ran).2
      cases found with
      | none => exact .missed looking rows
      | some gap => exact .found looking (congrArg List.length rows)

theorem step_moved (key : GapKey) (now : Bool → Timestamp) (state : State) (event : Event) :
    Moved key now state event (step key now state event) := by
  cases event with
  | abort party =>
      simp only [step]
      split
      · exact .waited
      · next running => exact .aborted fun committed ended => running committed ended
  | run party id =>
      simp only [step]
      cases phase : state.phase party with
      | looking => exact looked_moved phase id
      | inserting =>
          simp only
          split
          · exact .waited
          · next available => exact .inserted phase (by simpa using available)
      | opened => exact .committed phase
      | ended _ => exact .waited

theorem Moved.tidy {after : State} (moved : Moved key now state event after) (tidy : Tidy state) : Tidy after := by
  cases moved with
  | waited => exact tidy
  | aborted _ => exact tidy.abort
  | found _ _ => exact tidy.enter nofun
  | missed _ _ => exact tidy.enter nofun
  | inserted _ available => exact tidy.put available
  | committed _ => exact tidy.commit

/-- A rolled-back transaction stays so. -/
theorem Moved.ended {after : State} {other committed : Bool} (moved : Moved key now state event after)
    (ended : state.phase other = .ended committed) : after.phase other = .ended committed := by
  have apart {party : Bool} (phase : Phase) (moves : state.phase party = phase)
      (running : ∀ committed, phase ≠ .ended committed) : other ≠ party := by
    rintro rfl
    exact running committed (moves.symm.trans ended)
  cases moved with
  | waited => exact ended
  | aborted running => exact (Function.update_of_ne (apart _ rfl running) ..).trans ended
  | found looking _ => exact (Function.update_of_ne (apart _ looking nofun) ..).trans ended
  | missed looking _ => exact (Function.update_of_ne (apart _ looking nofun) ..).trans ended
  | inserted inserting _ => exact (Function.update_of_ne (apart _ inserting nofun) ..).trans ended
  | committed opened => exact (Function.update_of_ne (apart _ opened nofun) ..).trans ended

/-! ### Two gaps on the way -/

/-- Two gaps are open or on the way, or a transaction has been rolled back. -/
def Doubled (key : GapKey) (state : State) : Prop :=
  2 ≤ state.weight key ∨ ∃ party, state.phase party = .ended false

theorem Moved.doubled {after : State} (moved : Moved key now state event after) (tidy : Tidy state)
    (doubled : Doubled key state) : Doubled key after := by
  rcases doubled with heavy | ⟨other, ended⟩
  · cases moved with
    | waited => exact .inl heavy
    | aborted _ => exact .inr ⟨_, Function.update_self ..⟩
    | found looking _ => exact .inl (by rw [weight_enter (by simp [looking])]; omega)
    | missed looking _ => exact .inl (by rw [weight_enter (by simp [looking])]; omega)
    | inserted inserting available => exact .inl (by rwa [weight_put tidy inserting available])
    | committed opened => exact .inl (by rwa [weight_commit tidy opened])
  · exact .inr ⟨other, moved.ended ended⟩

theorem doubled_of_not_separate (key : GapKey) (now : Bool → Timestamp) (overlap : ¬ Separate key state event) :
    Doubled key (step key now state event) := by
  cases event with
  | abort _ => exact absurd trivial overlap
  | run party id =>
      simp only [Separate, Classical.not_imp, Untouched, Classical.not_and_iff_not_or_not] at overlap
      obtain ⟨looking, nobody, touched⟩ := overlap
      have missed : step key now state (.run party id) = state.enter party .inserting := by
        have ran : current key (state.view party) = .ok none (state.view party) :=
          scalarOrNone_eq_ok.mpr ⟨congrArg (scalarOneOrNone Error.multipleResultsFound) nobody, rfl⟩
        simp only [step, looking, ran]
        rfl
      have other : 1 ≤ state.pending key (!party) := by
        rcases touched with inserted | inserting
        · push Not at inserted
          obtain ⟨gap, member, isCurrent⟩ := inserted
          have positive : 0 < (state.own !party).rows.countP key.current :=
            List.countP_pos_iff.mpr ⟨gap, member, by simpa using isCurrent⟩
          exact Nat.le_add_right_of_le positive
        · have inserting := not_not.mp inserting
          simp [State.pending, inserting]
      refine .inl ?_
      rw [missed, weight_enter (by simp [looking]), weight_eq party]
      simp only [if_true]
      omega

/-! ### One gap at most -/

/-- Two gaps were open before: every lookup raises. -/
def Stuck (key : GapKey) (state : State) : Prop :=
  2 ≤ (key.openGaps state.committed).length ∧
    ∀ party, state.phase party = .looking ∨ state.phase party = .ended false

def Kept (key : GapKey) (state : State) : Prop := state.weight key ≤ 1 ∨ Stuck key state

theorem weight_abort_le : (state.abort party).weight key ≤ state.weight key := by
  rw [weight_eq party, weight_eq party, State.abort, pending_finish_other]
  have nothing : (state.finish party state.committed (.ended false)).pending key party = 0 := by
    simp [State.pending, State.finish]
  have same : (state.finish party state.committed (.ended false)).committed = state.committed := rfl
  rw [nothing, same]
  omega

theorem Stuck.moved {after : State} (stuck : Stuck key state) (tidy : Tidy state)
    (moved : Moved key now state event after) : Stuck key after := by
  have crowded (party : Bool) : 2 ≤ (key.openGaps (state.view party)).length :=
    stuck.1.trans (by rw [tidy.openGaps_view]; exact Nat.le_add_right ..)
  have elsewhere {party : Bool} {phase : Phase} (is : state.phase party = phase) (looking : phase ≠ .looking)
      (running : phase ≠ .ended false) : False :=
    (stuck.2 party).elim (fun same => looking (is.symm.trans same)) fun same => running (is.symm.trans same)
  cases moved with
  | waited => exact stuck
  | @aborted _ party _ =>
      refine ⟨stuck.1, fun other => ?_⟩
      rcases eq_or_eq_not party other with rfl | rfl
      · exact .inr (Function.update_self ..)
      · exact (stuck.2 _).imp (Function.update_of_ne (Bool.not_ne_self party) ..).trans
          (Function.update_of_ne (Bool.not_ne_self party) ..).trans
  | @found party _ _ one =>
      have := crowded party
      omega
  | @missed party _ _ nobody =>
      have := crowded party
      rw [nobody, List.length_nil] at this
      omega
  | inserted inserting _ => exact (elsewhere inserting nofun nofun).elim
  | committed opened => exact (elsewhere opened nofun nofun).elim

theorem Kept.moved {after : State} (kept : Kept key state) (tidy : Tidy state)
    (moved : Moved key now state event after)
    (separate : Separate key state event) : Kept key after := by
  rcases kept with light | stuck
  · left
    cases moved with
    | waited => exact light
    | aborted _ => exact weight_abort_le.trans light
    | found looking _ =>
        rw [weight_enter (by simp [looking])]
        exact light
    | @missed party _ looking nobody =>
        obtain ⟨inserted, inserting⟩ := separate looking nobody
        have none : (key.openGaps (state.view party)).length = _ := tidy.openGaps_view party
        rw [nobody, List.length_nil] at none
        have other : state.pending key (!party) = 0 := by
          simp only [State.pending, inserting, if_false, Nat.add_zero]
          exact List.countP_eq_zero.mpr fun gap member => by simp [inserted gap member]
        have own : state.pending key party = (state.own party).rows.countP key.current := by
          simp [State.pending, looking]
        rw [weight_enter (by simp [looking]), weight_eq party, other, own]
        simp only [if_true]
        omega
    | inserted inserting available => exact (weight_put tidy inserting available _).le.trans light
    | committed opened => exact (weight_commit tidy opened).le.trans light
  · exact .inr (stuck.moved tidy moved)

end Steps

/-! ## Runs -/

section Runs

variable {key : GapKey} {now : Bool → Timestamp} {state : State} {events : List Event}

theorem tidy_start (initial : DB) : Tidy (.start initial) :=
  ⟨fun _ _ member => absurd member List.not_mem_nil, fun _ _ member => absurd member List.not_mem_nil,
    fun _ _ _ => rfl⟩

theorem kept_start (key : GapKey) (initial : DB) : Kept key (.start initial) := by
  by_cases single : (key.openGaps initial).length ≤ 1
  · left
    simpa [State.weight, State.pending, State.start] using single
  · exact .inr ⟨Nat.lt_of_not_le single, fun _ => .inl rfl⟩

theorem doubled_run (tidy : Tidy state) (doubled : Doubled key state) :
    Doubled key (events.foldl (step key now) state) := by
  induction events generalizing state with
  | nil => exact doubled
  | cons event rest ih => exact ih ((step_moved ..).tidy tidy) ((step_moved ..).doubled tidy doubled)

theorem doubled_of_overlap (tidy : Tidy state) (overlap : ¬ Along (step key now) (Separate key) state events) :
    Doubled key (events.foldl (step key now) state) := by
  induction events generalizing state with
  | nil => exact absurd trivial overlap
  | cons event rest ih =>
      have kept : Tidy (step key now state event) := (step_moved key now state event).tidy tidy
      by_cases separate : Separate key state event
      · exact ih kept fun along => overlap ⟨separate, along⟩
      · rw [List.foldl_cons]
        exact doubled_run kept (doubled_of_not_separate key now separate)

theorem kept_run {initial : DB} (separate : Along (step key now) (Separate key) (.start initial) events) :
    Kept key (events.foldl (step key now) (.start initial)) := by
  have invariant : Tidy (events.foldl (step key now) (.start initial)) ∧
      Kept key (events.foldl (step key now) (.start initial)) := by
    have step : ∀ state event, Tidy state ∧ Kept key state → Separate key state event →
        Tidy (step key now state event) ∧ Kept key (step key now state event) := by
      rintro state event ⟨tidy, kept⟩ meets
      have moved := step_moved key now state event
      exact ⟨moved.tidy tidy, kept.moved tidy moved meets⟩
    exact Along.invariant ⟨tidy_start initial, kept_start key initial⟩ step separate
  exact invariant.2

theorem tidy_run (tidy : Tidy state) : Tidy (events.foldl (step key now) state) := by
  induction events generalizing state with
  | nil => exact tidy
  | cons event rest ih => exact ih ((step_moved ..).tidy tidy)

end Runs

/-- Once both transactions have committed, the gap is open once and stays usable
exactly when no lookup has missed the gap of the other transaction. -/
theorem sound_iff_separate (key : GapKey) (now : Bool → Timestamp) (initial : DB) (events : List Event)
    (committed : ∀ party, (events.foldl (step key now) (.start initial)).phase party = .ended true) :
    Sound key (events.foldl (step key now) (.start initial)).committed ↔
      Along (step key now) (Separate key) (.start initial) events := by
  rw [sound_iff_single]
  -- nothing is on the way any more: what counts is committed
  have settled (party : Bool) : ((events.foldl (step key now) (.start initial)).own party).rows = [] :=
    (tidy_run (tidy_start initial)).gone party true (committed party)
  have weight : (events.foldl (step key now) (.start initial)).weight key =
      (key.openGaps (events.foldl (step key now) (.start initial)).committed).length := by
    simp [State.weight, State.pending, settled, committed]
  constructor
  · intro single
    by_contra overlap
    rcases doubled_of_overlap (tidy_start initial) overlap with heavy | ⟨party, aborted⟩
    · rw [weight] at heavy
      omega
    · rw [committed party] at aborted
      cases aborted
  · intro separate
    rcases kept_run separate with light | ⟨_, ended⟩
    · rwa [weight] at light
    · have impossible := ended false
      rw [committed false] at impossible
      rcases impossible with looking | aborted
      · cases looking
      · cases aborted

/-! ## Two workers that lose the provider together -/

def capabilityGap : GapKey := aiUnavailable 1 "risk_explanation"

def alone (party : Bool) (id : Uuid) (statements : Nat) : List Event := List.replicate statements (.run party id)

/-- One after the other, the second finds the gap of the first. -/
theorem sound_serial :
    Sound capabilityGap ((alone false 1 3 ++ alone true 2 3).foldl (step capabilityGap fun _ => 0)
      (.start default)).committed :=
  (sound_iff_separate capabilityGap _ default _ (by decide +kernel)).mpr (by decide +kernel)

/-- Both look before either has inserted: two gaps are open, and the gap can
never be closed again. -/
theorem overlapping_opens_break_gap :
    let final := (alone false 1 1 ++ alone true 2 1 ++ alone false 1 2 ++ alone true 2 2).foldl
      (step capabilityGap fun _ => 0) (.start default)
    (∀ party, final.phase party = .ended true) ∧ ¬ Sound capabilityGap final.committed ∧
      outcome (closeGap 1 capabilityGap final.committed) matches .error .multipleResultsFound := by
  refine ⟨by decide +kernel, fun sound => ?_, by decide +kernel⟩
  exact absurd sound.single (by decide +kernel)

end SmartProcurement.Observation.Concurrent
