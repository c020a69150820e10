import Mathlib.Logic.Function.Basic
import SmartProcurement.Lorm.PromotionHistory
import SmartProcurement.Transition.Runs

namespace SmartProcurement.Lorm

open Relational Transaction Transition

/-! # Decisions taken at the same time

A decision reads the request, and an approval also the capability, from what is
committed at that moment.  Nothing is locked, and what is committed at the end
rests on rows that may have changed since.
-/

inductive Verdict where
  | approve
  | reject
deriving DecidableEq, Repr

/-- A call of `approvePromotion` or `rejectPromotion`. -/
structure Decision where
  verdict : Verdict
  now : Timestamp
  enterpriseId : Uuid
  requestId : Uuid
  decidedBy : Uuid

inductive Phase where
  | waiting
  | requested (req : PromotionRequest)
  | ready (cap : Capability) (req : PromotionRequest)
  | succeeded
  | failed
deriving DecidableEq, Repr

structure State where
  db : Tables
  phase : Nat → Phase

inductive Event where
  | readRequest (call : Nat)
  | readCapability (call : Nat)
  | commit (call : Nat)
  | abort (call : Nat)
deriving DecidableEq, Repr

/-! ## The parts of a call -/

def pendingRequest (enterpriseId requestId : Uuid) : Session PromotionRequest := do
  let req ← getPromotionRequest enterpriseId requestId
  lift (requirePending req)
  return req

def promotable (req : PromotionRequest) : Session Capability := do
  let cap ← getCapabilityById req.capabilityId
  let _ ← lift (validateTarget cap req.proposedToLevel.name)
  return cap

theorem approvePromotion_eq (now : Timestamp) (enterpriseId requestId decidedBy : Uuid) :
    approvePromotion now enterpriseId requestId decidedBy = (do
      let req ← pendingRequest enterpriseId requestId
      let cap ← promotable req
      write (applyApproval now decidedBy cap req)
      return { cap with level := req.proposedToLevel }) := by
  simp only [approvePromotion, pendingRequest, promotable, bind_assoc, pure_bind]

theorem rejectPromotion_eq (now : Timestamp) (enterpriseId requestId decidedBy : Uuid) :
    rejectPromotion now enterpriseId requestId decidedBy = (do
      let req ← pendingRequest enterpriseId requestId
      write (applyRejection now decidedBy req)
      return decided now .rejected decidedBy req) := by
  simp only [rejectPromotion, pendingRequest, bind_assoc, pure_bind]

/-- A call goes on with what it has read, or fails. -/
def Phase.after {α : Type} (next : α → Phase) : EStateM.Result Error Tables α → Phase
  | .ok value _ => next value
  | .error _ _ => .failed

def State.enter (state : State) (call : Nat) (phase : Phase) : State :=
  { state with phase := Function.update state.phase call phase }

def State.commit (state : State) (call : Nat) (db : Tables) : State :=
  ⟨db, Function.update state.phase call .succeeded⟩

def step (calls : Nat → Decision) (state : State) : Event → State
  | .readRequest call =>
      match state.phase call with
      | .waiting => state.enter call
          (.after .requested (pendingRequest (calls call).enterpriseId (calls call).requestId state.db))
      | _ => state
  | .readCapability call =>
      match (calls call).verdict, state.phase call with
      | .approve, .requested req => state.enter call (.after (.ready · req) (promotable req state.db))
      | _, _ => state
  | .commit call =>
      match (calls call).verdict, state.phase call with
      | .approve, .ready cap req =>
          state.commit call (applyApproval (calls call).now (calls call).decidedBy cap req state.db)
      | .reject, .requested req =>
          state.commit call (applyRejection (calls call).now (calls call).decidedBy req state.db)
      | _, _ => state
  | .abort call => if state.phase call = .succeeded then state else state.enter call .failed

def Decision.toCall (decision : Decision) : Call :=
  match decision.verdict with
  | .approve => .approvePromotion decision.now decision.enterpriseId decision.requestId decision.decidedBy
  | .reject => .rejectPromotion decision.now decision.enterpriseId decision.requestId decision.decidedBy

section Parts

variable {before after : Tables} {enterpriseId requestId : Uuid} {req : PromotionRequest} {cap : Capability}

theorem pendingRequest_ok (ran : pendingRequest enterpriseId requestId before = .ok req after) :
    after = before ∧ before.promotionRequest.find? requestId = some req ∧ req.status = .pending := by
  simp only [pendingRequest, bind_eq_ok, lift_eq_ok, pure_eq_ok] at ran
  obtain ⟨_, _, found, _, _, ⟨pending, rfl⟩, rfl, rfl⟩ := ran
  obtain ⟨rfl, stored, _⟩ := getPromotionRequest_ok found
  exact ⟨rfl, stored, requirePending_ok pending⟩

theorem promotable_ok (ran : promotable req before = .ok cap after) :
    after = before ∧ before.capability.find? req.capabilityId = some cap ∧
      req.proposedToLevel.index = cap.level.index + 1 ∧ (req.proposedToLevel = .l5 → cap.l5Allowed = true) := by
  simp only [promotable, bind_eq_ok, lift_eq_ok, pure_eq_ok] at ran
  obtain ⟨_, _, found, level, _, ⟨valid, rfl⟩, rfl, rfl⟩ := ran
  obtain ⟨rfl, stored⟩ := getCapabilityById_ok found
  obtain ⟨named, raises, allowed⟩ := validateTarget_eq_ok.mp valid
  rw [level?_name, Option.some.injEq] at named
  subst named
  exact ⟨rfl, stored, raises, allowed⟩

theorem uninterrupted (calls : Nat → Decision) (state : State) (call : Nat) (waiting : state.phase call = .waiting) :
    ([.readRequest call, .readCapability call, .commit call].foldl (step calls) state).db =
      (calls call).toCall.commit state.db := by
  simp only [List.foldl_cons, List.foldl_nil, Decision.toCall]
  cases requested : pendingRequest (calls call).enterpriseId (calls call).requestId state.db with
  | error reason after =>
      cases verdict : (calls call).verdict with
      | approve =>
          simp [step, waiting, requested, verdict, State.enter, Phase.after, Call.commit, approvePromotion_eq,
            transact_of_error (bind_of_error requested)]
      | reject =>
          simp [step, waiting, requested, verdict, State.enter, Phase.after, Call.commit, rejectPromotion_eq,
            transact_of_error (bind_of_error requested)]
  | ok req after =>
      obtain ⟨rfl, _⟩ := pendingRequest_ok requested
      cases verdict : (calls call).verdict with
      | approve =>
          cases ready : promotable req state.db with
          | error reason after =>
              have raised : approvePromotion (calls call).now (calls call).enterpriseId (calls call).requestId
                  (calls call).decidedBy state.db = .error reason after := by
                rw [approvePromotion_eq, bind_of_ok requested, bind_of_error ready]
              simp [step, waiting, requested, ready, verdict, State.enter, Phase.after, Call.commit,
                transact_of_error raised]
          | ok cap after =>
              obtain ⟨rfl, _⟩ := promotable_ok ready
              have ran : approvePromotion (calls call).now (calls call).enterpriseId (calls call).requestId
                  (calls call).decidedBy state.db = .ok { cap with level := req.proposedToLevel }
                    (applyApproval (calls call).now (calls call).decidedBy cap req state.db) := by
                rw [approvePromotion_eq, bind_of_ok requested, bind_of_ok ready]
                rfl
              simp [step, waiting, requested, ready, verdict, State.enter, State.commit, Phase.after, Call.commit,
                transact_of_ok ran]
      | reject =>
          have ran : rejectPromotion (calls call).now (calls call).enterpriseId (calls call).requestId
              (calls call).decidedBy state.db = .ok (decided (calls call).now .rejected (calls call).decidedBy req)
                (applyRejection (calls call).now (calls call).decidedBy req state.db) := by
            rw [rejectPromotion_eq, bind_of_ok requested]
            rfl
          simp [step, waiting, requested, verdict, State.enter, State.commit, Phase.after, Call.commit,
            transact_of_ok ran]

end Parts

/-! ## What must hold at any time -/

/-- No level is below what it was. -/
def LevelsKept (before after : Tables) : Prop :=
  ∀ cap ∈ before.capability.rows, ∃ later ∈ after.capability.rows,
    later.id = cap.id ∧ cap.level.index ≤ later.level.index

/-- Of the calls for one request at most one has succeeded, and every capability
has the history of its approved requests. -/
structure Sound (seed : Tables) (calls : Nat → Decision) (state : State) : Prop where
  once : ∀ first second, state.phase first = .succeeded → state.phase second = .succeeded →
    (calls first).requestId = (calls second).requestId → first = second
  history : PromotionHistory seed state.db

/-- The same along a run, with no level ever lowered. -/
def TakesEffectOnce (seed : Tables) (calls : Nat → Decision) (initial : State) (events : List Event) : Prop :=
  Sound seed calls initial ∧ Along (step calls) (fun before event =>
    Sound seed calls (step calls before event) ∧ LevelsKept before.db (step calls before event).db) initial events

/-- What a commit writes over is what its call has read. -/
def Fresh (calls : Nat → Decision) (state : State) : Event → Prop
  | .commit call =>
      match (calls call).verdict, state.phase call with
      | .approve, .ready cap req =>
          state.db.promotionRequest.find? req.id = some req ∧ state.db.capability.find? cap.id = some cap
      | .reject, .requested req => state.db.promotionRequest.find? req.id = some req
      | _, _ => True
  | _ => True

/-! ## The rows that are held -/

section Held

variable {seed : Tables} {calls : Nat → Decision} {state : State} {db before after : Tables}
variable {call : Nat} {phase : Phase} {cap : Capability} {req : PromotionRequest}

/-- The request that a call has read is stored like that, or another call has decided it. -/
structure RequestHeld (calls : Nat → Decision) (state : State) (call : Nat) (req : PromotionRequest) : Prop where
  id : req.id = (calls call).requestId
  pending : req.status = .pending
  stored : state.db.promotionRequest.find? req.id = some req ∨
    ∃ other, state.phase other = .succeeded ∧ (calls other).requestId = req.id

/-- Every capability is as it was, or higher. -/
def Raised (before after : Tables) : Prop :=
  ∀ cap ∈ before.capability.rows, ∃ later, after.capability.find? cap.id = some later ∧
    (later = cap ∨ cap.level.index < later.level.index)

/-- The capability that a call has read is stored like that, or higher. -/
structure CapabilityHeld (db : Tables) (cap : Capability) (req : PromotionRequest) : Prop where
  id : cap.id = req.capabilityId
  step : req.proposedToLevel.index = cap.level.index + 1
  allowed : req.proposedToLevel = .l5 → cap.l5Allowed = true
  stored : ∃ row, db.capability.find? cap.id = some row ∧ (row = cap ∨ cap.level.index < row.level.index)

def Holds (calls : Nat → Decision) (state : State) (call : Nat) : Phase → Prop
  | .requested req => RequestHeld calls state call req
  | .ready cap req => RequestHeld calls state call req ∧ CapabilityHeld state.db cap req
  | _ => True

structure Invariant (seed : Tables) (calls : Nat → Decision) (state : State) : Prop
    extends Sound seed calls state where
  held : ∀ call, Holds calls state call (state.phase call)
  decided : ∀ call, state.phase call = .succeeded → ∃ row,
    state.db.promotionRequest.find? (calls call).requestId = some row ∧ row.status ≠ .pending

theorem Raised.levelsKept (raised : Raised before after) : LevelsKept before after := by
  intro cap member
  obtain ⟨later, found, rises⟩ := raised cap member
  obtain ⟨laterMember, same⟩ := Table.find?_some found
  refine ⟨later, laterMember, same, ?_⟩
  rcases rises with rfl | above
  · exact Nat.le_refl _
  · exact Nat.le_of_lt above

theorem Raised.refl (db : Tables) : Raised db db :=
  fun cap member => ⟨cap, Table.find?_of_mem member, .inl rfl⟩

theorem CapabilityHeld.raised (held : CapabilityHeld before cap req) (raised : Raised before after) :
    CapabilityHeld after cap req := by
  obtain ⟨row, found, above⟩ := held.stored
  obtain ⟨member, same⟩ := Table.find?_some found
  obtain ⟨later, foundLater, rises⟩ := raised row member
  refine ⟨held.id, held.step, held.allowed, later, ?_, ?_⟩
  · rw [← foundLater]
    exact congrArg _ same.symm
  · rcases above with rfl | above
    · exact rises
    · rcases rises with rfl | rises
      · exact .inr above
      · exact .inr (Nat.lt_trans above rises)

theorem Approvable.raised {now : Timestamp} {decidedBy : Uuid} (approvable : Approvable cap req before) :
    Raised before (applyApproval now decidedBy cap req before) := by
  intro row member
  have found := Table.find?_of_mem member
  by_cases hit : row.id = cap.id
  · have same : row = cap := Table.eq_of_key_eq member (Table.find?_some approvable.capability).1 hit
    subst same
    refine ⟨{ row with level := req.proposedToLevel }, ?_, .inr ?_⟩
    · change (before.capability.update row.id _).find? row.id = _
      rw [Table.find?_update_self, show before.capability.find? row.id = some row from found]
      rfl
    · change row.level.index < req.proposedToLevel.index
      rw [approvable.step]
      exact Nat.lt_succ_self _
  · refine ⟨row, ?_, .inl rfl⟩
    exact (Table.find?_update_other _ _ hit).trans found

theorem Holds.later {later : State} (holds : Holds calls state call phase)
    (requests : ∀ req, RequestHeld calls state call req → RequestHeld calls later call req)
    (raised : Raised state.db later.db) : Holds calls later call phase := by
  cases phase with
  | requested req => exact requests req holds
  | ready cap req => exact ⟨requests req holds.1, holds.2.raised raised⟩
  | waiting | succeeded | failed => trivial

/-! ## Reading -/

theorem State.enter_succeeded (unfinished : phase ≠ .succeeded) (running : state.phase call ≠ .succeeded)
    (other : Nat) : (state.enter call phase).phase other = .succeeded ↔ state.phase other = .succeeded := by
  by_cases same : other = call
  · subst same
    simp [State.enter, unfinished, running]
  · simp [State.enter, same]

theorem Invariant.enter (invariant : Invariant seed calls state) (running : state.phase call ≠ .succeeded)
    (unfinished : phase ≠ .succeeded) (holds : Holds calls state call phase) :
    Invariant seed calls (state.enter call phase) := by
  have succeeded (other : Nat) :
      (state.enter call phase).phase other = .succeeded ↔ state.phase other = .succeeded :=
    State.enter_succeeded unfinished running other
  have kept {other : Nat} {held : Phase} (holds : Holds calls state other held) :
      Holds calls (state.enter call phase) other held :=
    holds.later (fun _ held => ⟨held.id, held.pending,
      held.stored.imp_right fun ⟨decider, done, same⟩ => ⟨decider, (succeeded decider).mpr done, same⟩⟩)
      (Raised.refl _)
  constructor
  · constructor
    · intro first second firstDone secondDone same
      exact invariant.once first second ((succeeded first).mp firstDone) ((succeeded second).mp secondDone) same
    · exact invariant.history
  · intro other
    by_cases same : other = call
    · subst same
      have moved : (state.enter other phase).phase other = phase := Function.update_self ..
      rw [moved]
      exact kept holds
    · have unmoved : (state.enter call phase).phase other = state.phase other := Function.update_of_ne same _ _
      rw [unmoved]
      exact kept (invariant.held other)
  · intro other done
    exact invariant.decided other ((succeeded other).mp done)

/-! ## Committing -/

theorem State.commit_succeeded (other : Nat) :
    (state.commit call db).phase other = .succeeded ↔ other = call ∨ state.phase other = .succeeded := by
  by_cases same : other = call
  · subst same
    simp [State.commit]
  · simp [State.commit, same]

theorem Invariant.commit (invariant : Invariant seed calls state) (held : RequestHeld calls state call req)
    (fresh : state.db.promotionRequest.find? req.id = some req) (committed : Committed state.db db)
    (raised : Raised state.db db) {status : PromotionStatus} {now : Timestamp} {decidedBy : Uuid}
    (requests : db.promotionRequest = state.db.promotionRequest.update req.id (Lorm.decided now status decidedBy))
    (isDecided : status ≠ .pending) :
    Invariant seed calls (state.commit call db) := by
  have undecided {other : Nat} (done : state.phase other = .succeeded) : (calls other).requestId ≠ req.id := by
    intro same
    obtain ⟨row, found, rowDecided⟩ := invariant.decided other done
    rw [same, fresh, Option.some.injEq] at found
    exact rowDecided (found ▸ held.pending)
  have requestHeld {other : Nat} {read : PromotionRequest} (held' : RequestHeld calls state other read) :
      RequestHeld calls (state.commit call db) other read := by
    refine ⟨held'.id, held'.pending, ?_⟩
    by_cases same : read.id = req.id
    · exact .inr ⟨call, State.commit_succeeded call |>.mpr (.inl rfl), held.id.symm.trans same.symm⟩
    · refine held'.stored.imp (fun stored => ?_) fun ⟨later, done, isIt⟩ =>
        ⟨later, State.commit_succeeded later |>.mpr (.inr done), isIt⟩
      change db.promotionRequest.find? read.id = some read
      rw [requests, Table.find?_update_other _ _ same, stored]
  constructor
  · constructor
    · intro first second firstDone secondDone same
      rcases State.commit_succeeded first |>.mp firstDone with rfl | firstDone
      · rcases State.commit_succeeded second |>.mp secondDone with rfl | secondDone
        · rfl
        · exact absurd (same.symm.trans held.id.symm) (undecided secondDone)
      · rcases State.commit_succeeded second |>.mp secondDone with rfl | secondDone
        · exact absurd (same.trans held.id.symm) (undecided ‹state.phase first = .succeeded›)
        · exact invariant.once first second firstDone secondDone same
    · exact committed.history invariant.history
  · intro other
    by_cases same : other = call
    · have done : (state.commit call db).phase other = .succeeded := State.commit_succeeded other |>.mpr (.inl same)
      rw [done]
      trivial
    · have unmoved : (state.commit call db).phase other = state.phase other := Function.update_of_ne same _ _
      rw [unmoved]
      exact (invariant.held other).later (fun _ held => requestHeld held) raised
  · intro other done
    change ∃ row, db.promotionRequest.find? (calls other).requestId = some row ∧ _
    rcases State.commit_succeeded other |>.mp done with rfl | done
    · rw [requests, ← held.id, Table.find?_update_self, fresh]
      exact ⟨_, rfl, isDecided⟩
    · obtain ⟨row, found, rowDecided⟩ := invariant.decided other done
      rw [requests, Table.find?_update_other _ _ (undecided done)]
      exact ⟨row, found, rowDecided⟩

theorem CapabilityHeld.approvable (held : CapabilityHeld state.db cap req)
    (requestHeld : RequestHeld calls state call req) (fresh : state.db.promotionRequest.find? req.id = some req)
    (freshCap : state.db.capability.find? cap.id = some cap) : Approvable cap req state.db :=
  ⟨fresh, requestHeld.pending, held.id ▸ freshCap, held.step, held.allowed⟩

/-- A step that is fresh keeps the invariant and lowers no level. -/
theorem Invariant.step (invariant : Invariant seed calls state) {event : Event} (fresh : Fresh calls state event) :
    Invariant seed calls (step calls state event) ∧ Raised state.db (Lorm.step calls state event).db := by
  cases event with
  | readRequest call =>
      simp only [Lorm.step]
      split
      · next waiting =>
        refine ⟨invariant.enter (by simp [waiting]) ?_ ?_, Raised.refl _⟩
        · cases pendingRequest (calls call).enterpriseId (calls call).requestId state.db <;> nofun
        · cases ran : pendingRequest (calls call).enterpriseId (calls call).requestId state.db with
          | ok req after =>
              obtain ⟨_, stored, pending⟩ := pendingRequest_ok ran
              have key : req.id = (calls call).requestId := (Table.find?_some stored).2
              exact ⟨key, pending, .inl (key ▸ stored)⟩
          | error reason after => trivial
      · exact ⟨invariant, Raised.refl _⟩
  | readCapability call =>
      simp only [Lorm.step]
      split
      · next req _ requested =>
        have holds := invariant.held call
        rw [requested] at holds
        refine ⟨invariant.enter (by simp [requested]) ?_ ?_, Raised.refl _⟩
        · cases promotable req state.db <;> nofun
        · cases ran : promotable req state.db with
          | ok cap after =>
              obtain ⟨_, stored, raises, allowed⟩ := promotable_ok ran
              have key : cap.id = req.capabilityId := (Table.find?_some stored).2
              exact ⟨holds, key, raises, allowed, cap, key ▸ stored, .inl rfl⟩
          | error reason after => trivial
      · exact ⟨invariant, Raised.refl _⟩
  | commit call =>
      have holds := invariant.held call
      simp only [Fresh] at fresh
      simp only [Lorm.step]
      split
      · next cap req approves ready =>
        simp only [approves, ready] at fresh holds
        have approvable := holds.2.approvable holds.1 fresh.1 fresh.2
        exact ⟨invariant.commit holds.1 fresh.1 (.approved approvable) approvable.raised rfl nofun, approvable.raised⟩
      · next req rejects requested =>
        simp only [rejects, requested] at fresh holds
        have kept : Raised state.db (applyRejection (calls call).now (calls call).decidedBy req state.db) :=
          Raised.refl state.db
        exact ⟨invariant.commit holds fresh (.rejected fresh holds.pending) kept rfl nofun, kept⟩
      · exact ⟨invariant, Raised.refl _⟩
  | abort call =>
      simp only [Lorm.step]
      split
      · exact ⟨invariant, Raised.refl _⟩
      · next running => exact ⟨invariant.enter running nofun trivial, Raised.refl _⟩

/-! ## What a stale commit breaks -/

/-- A second decision of a request is a second success. -/
theorem RequestHeld.fresh (held : RequestHeld calls state call req)
    (running : state.phase call ≠ .succeeded) (sound : Sound seed calls (state.commit call db)) :
    state.db.promotionRequest.find? req.id = some req := by
  rcases held.stored with stored | ⟨other, done, same⟩
  · exact stored
  · have isCall : other = call := sound.once other call
      (State.commit_succeeded other |>.mpr (.inr done)) (State.commit_succeeded call |>.mpr (.inl rfl))
      (same.trans held.id)
    exact absurd (isCall ▸ done) running

/-- An approval from a level that has been left adds an event but no level. -/
theorem Invariant.capability_fresh (invariant : Invariant seed calls state) {now : Timestamp} {decidedBy : Uuid}
    (held : CapabilityHeld state.db cap req)
    (sound : Sound seed calls (state.commit call (applyApproval now decidedBy cap req state.db))) :
    state.db.capability.find? cap.id = some cap := by
  obtain ⟨row, found, rfl | above⟩ := held.stored
  · exact found
  · obtain ⟨member, same⟩ := Table.find?_some found
    have same : row.id = cap.id := same
    obtain ⟨start, started, history⟩ := invariant.history row member
    have written : (applyApproval now decidedBy cap req state.db).capability.find? cap.id =
        some { row with level := req.proposedToLevel } := by
      change (state.db.capability.update cap.id _).find? cap.id = _
      rw [Table.find?_update_self, found]
      rfl
    obtain ⟨start', started', history'⟩ := sound.history _ (Table.find?_some written).1
    have sameStart : start' = start :=
      Table.eq_of_key_eq started' started (history'.id.symm.trans history.id)
    have events : eventsOf (applyApproval now decidedBy cap req state.db) row.id =
        eventsOf state.db row.id ++ [state.db.capabilityLevelEvent.newRow (levelEvent now decidedBy cap req)] := by
      have selected : (state.db.capabilityLevelEvent.newRow (levelEvent now decidedBy cap req)).capabilityId =
        cap.id := rfl
      rw [eventsOf, applyApproval, Table.filter_insert, if_pos (by simp [selected, same]), ← eventsOf]
    have level := history.level
    have level' : req.proposedToLevel.index = start'.level.index +
      (eventsOf (applyApproval now decidedBy cap req state.db) row.id).length := history'.level
    rw [events, List.length_append, List.length_singleton, held.step, sameStart] at level'
    omega

theorem Invariant.fresh (invariant : Invariant seed calls state) {event : Event}
    (sound : Sound seed calls (Lorm.step calls state event)) : Fresh calls state event := by
  cases event with
  | commit call =>
      have holds := invariant.held call
      simp only [Lorm.step] at sound
      simp only [Fresh]
      split
      · next cap req approves ready =>
        simp only [approves, ready] at sound holds
        exact ⟨holds.1.fresh (by simp [ready]) sound, invariant.capability_fresh holds.2 sound⟩
      · next req rejects requested =>
        simp only [rejects, requested] at sound holds
        exact holds.fresh (by simp [requested]) sound
      · trivial
  | readRequest _ | readCapability _ | abort _ => trivial

end Held

/-! ## From the seed on -/

def opened (enterprises : List Uuid) (setup : List Call) : State :=
  ⟨commitAll setup (seeded enterprises), fun _ => .waiting⟩

theorem opened_invariant (enterprises : List Uuid) (setup : List Call) (calls : Nat → Decision) :
    Invariant (seeded enterprises) calls (opened enterprises setup) where
  once := nofun
  history := commitAll_history setup (seeded_history enterprises)
  held := fun _ => trivial
  decided := nofun

/-- Requests take effect once exactly in the runs whose commits are all fresh. -/
theorem takesEffectOnce_iff (enterprises : List Uuid) (setup : List Call) (calls : Nat → Decision)
    (events : List Event) :
    TakesEffectOnce (seeded enterprises) calls (opened enterprises setup) events ↔
      Along (step calls) (Fresh calls) (opened enterprises setup) events := by
  have start := opened_invariant enterprises setup calls
  rw [TakesEffectOnce, and_iff_right start.toSound]
  refine along_congr start (fun before event invariant => ⟨fun good => invariant.fresh good.1, fun fresh => ?_⟩)
    fun before event invariant fresh => (invariant.step fresh).1
  obtain ⟨after, raised⟩ := invariant.step fresh
  exact ⟨after.toSound, raised.levelsKept⟩

def bothApprove (call : Nat) : Decision :=
  { verdict := .approve, now := 10, enterpriseId := 1, requestId := 1, decidedBy := call }

/-- Two approvals that read the request before either of them commits both succeed. -/
theorem both_approvals_succeed :
    ¬ TakesEffectOnce (seeded [1]) bothApprove (opened [1] [.createPromotionRequest 1 "proc.inventory.observe" "L1" "" 5])
      [.readRequest 0, .readCapability 0, .readRequest 1, .readCapability 1, .commit 0, .commit 1] := by
  rintro ⟨_, _, _, _, _, _, ⟨⟨once, _⟩, _⟩, _⟩
  have same := once 0 1 (by decide +kernel) (by decide +kernel) rfl
  cases same

end SmartProcurement.Lorm
