import SmartProcurement.Lorm.CapabilityService

namespace SmartProcurement.Lorm

open Relational Transaction

/-! # The history of promotions

Requests go stale while others are approved, so what is checked when a request
is made does not last; the check at the approval keeps level, events and
approved requests of a capability in step.
-/

inductive Call where
  | createPromotionRequest (enterpriseId : Uuid) (key proposedToLevel rationale : String) (createdBy : Uuid)
  | approvePromotion (now : Timestamp) (enterpriseId requestId decidedBy : Uuid)
  | rejectPromotion (now : Timestamp) (enterpriseId requestId decidedBy : Uuid)

def Call.commit (db : Tables) : Call → Tables
  | .createPromotionRequest enterpriseId key proposedToLevel rationale createdBy =>
      (transact (Lorm.createPromotionRequest enterpriseId key proposedToLevel rationale createdBy) db).2
  | .approvePromotion now enterpriseId requestId decidedBy =>
      (transact (Lorm.approvePromotion now enterpriseId requestId decidedBy) db).2
  | .rejectPromotion now enterpriseId requestId decidedBy =>
      (transact (Lorm.rejectPromotion now enterpriseId requestId decidedBy) db).2

def commitAll (calls : List Call) (db : Tables) : Tables := calls.foldl Call.commit db

def seeded (enterprises : List Uuid) : Tables :=
  enterprises.foldl (fun db enterpriseId => (transact (seedCapabilities enterpriseId) db).2) .empty

/-! ## The invariant -/

/-- The events of a capability in the order of their creation. -/
def eventsOf (db : Tables) (capabilityId : Uuid) : List CapabilityLevelEvent :=
  db.capabilityLevelEvent.rows.filter (·.capabilityId = capabilityId)

def approvedOf (db : Tables) (capabilityId : Uuid) : List PromotionRequest :=
  db.promotionRequest.rows.filter fun req => req.capabilityId = capabilityId ∧ req.status = .approved

/-- Promotions by one level each that lead from one level to another. -/
def Chain (start : Level) : List CapabilityLevelEvent → Level → Prop
  | [], final => start = final
  | event :: rest, final =>
      event.direction = .promotion ∧ event.trigger = .human ∧ event.fromLevel = start ∧
        event.toLevel.index = start.index + 1 ∧ Chain event.toLevel rest final

/-- A capability and its history since the seed. -/
structure CapabilityHistory (seed : Capability) (db : Tables) (cap : Capability) : Prop where
  id : cap.id = seed.id
  l5Allowed : cap.l5Allowed = seed.l5Allowed
  level : cap.level.index = seed.level.index + (eventsOf db cap.id).length
  chain : Chain seed.level (eventsOf db cap.id) cap.level
  decisions : ((eventsOf db cap.id).map fun event => (event.toLevel, event.actorId)).Perm
    ((approvedOf db cap.id).map fun req => (req.proposedToLevel, req.decidedBy))
  capped : cap.l5Allowed = false → cap.level ≠ .l5

/-- Every capability has a history that starts at its seed. -/
def PromotionHistory (seed db : Tables) : Prop :=
  ∀ cap ∈ db.capability.rows, ∃ start ∈ seed.capability.rows, CapabilityHistory start db cap

/-- Decided requests are what they were. -/
def DecisionsKept (before after : Tables) : Prop :=
  ∀ req ∈ before.promotionRequest.rows, req.status ≠ .pending → req ∈ after.promotionRequest.rows

theorem Chain.snoc {start middle : Level} {events : List CapabilityLevelEvent} {event : CapabilityLevelEvent}
    (chain : Chain start events middle) (direction : event.direction = .promotion)
    (trigger : event.trigger = .human) (fromLevel : event.fromLevel = middle)
    (step : event.toLevel.index = middle.index + 1) : Chain start (events ++ [event]) event.toLevel := by
  induction events generalizing start with
  | nil =>
      cases chain
      exact ⟨direction, trigger, fromLevel, step, rfl⟩
  | cons first rest ih =>
      obtain ⟨isPromotion, isHuman, starts, raises, tail⟩ := chain
      exact ⟨isPromotion, isHuman, starts, raises, ih tail⟩

/-! ## What one call does -/

inductive Committed (before : Tables) : Tables → Prop where
  | refused : Committed before before
  | requested (req : PromotionRequest) (pending : req.status = .pending) :
      Committed before { before with promotionRequest := before.promotionRequest.insert req }
  | approved {now : Timestamp} {decidedBy : Uuid} {cap : Capability} {req : PromotionRequest}
      (approvable : Approvable cap req before) : Committed before (applyApproval now decidedBy cap req before)
  | rejected {now : Timestamp} {decidedBy : Uuid} {req : PromotionRequest}
      (stored : before.promotionRequest.find? req.id = some req) (pending : req.status = .pending) :
      Committed before (applyRejection now decidedBy req before)

theorem Call.committed (call : Call) (before : Tables) : Committed before (call.commit before) := by
  cases call with
  | createPromotionRequest enterpriseId key proposedToLevel rationale createdBy =>
      refine transact_preserves .refused fun _ _ ran => ?_
      obtain ⟨req, pending, rfl⟩ := createPromotionRequest_ok ran
      exact .requested req pending
  | approvePromotion now enterpriseId requestId decidedBy =>
      refine transact_preserves .refused fun _ _ ran => ?_
      obtain ⟨cap, req, approvable, _, rfl⟩ := approvePromotion_ok ran
      exact .approved approvable
  | rejectPromotion now enterpriseId requestId decidedBy =>
      refine transact_preserves .refused fun _ _ ran => ?_
      obtain ⟨req, stored, _, pending, rfl⟩ := rejectPromotion_ok ran
      exact .rejected stored pending

section Steps

variable {before after : Tables} {now : Timestamp} {decidedBy capabilityId : Uuid}
variable {cap : Capability} {req : PromotionRequest} {seed : Capability}

theorem Committed.decisionsKept (committed : Committed before after) : DecisionsKept before after := by
  intro row member isDecided
  have differs {req : PromotionRequest} (stored : before.promotionRequest.find? req.id = some req)
      (pending : req.status = .pending) : row.id ≠ req.id := fun same =>
    isDecided (Table.eq_of_key_eq member (Table.find?_some stored).1 same ▸ pending)
  cases committed with
  | refused => exact member
  | requested _ _ => exact List.mem_append_left _ member
  | approved approvable => exact Table.mem_update_of_ne member (differs approvable.request approvable.pending)
  | rejected stored pending => exact Table.mem_update_of_ne member (differs stored pending)

theorem CapabilityHistory.congr (history : CapabilityHistory seed before cap)
    (events : eventsOf after cap.id = eventsOf before cap.id)
    (approved : approvedOf after cap.id = approvedOf before cap.id) : CapabilityHistory seed after cap := by
  refine ⟨history.id, history.l5Allowed, ?_, ?_, ?_, history.capped⟩
  · rw [events]
    exact history.level
  · rw [events]
    exact history.chain
  · rw [events, approved]
    exact history.decisions

theorem approvedOf_requested (pending : req.status = .pending) :
    approvedOf { before with promotionRequest := before.promotionRequest.insert req } capabilityId =
      approvedOf before capabilityId := by
  have unselected : (before.promotionRequest.newRow req).status = .pending := pending
  rw [approvedOf, Table.filter_insert, if_neg (by simp [unselected]), List.append_nil, ← approvedOf]

/-- A decision about a pending request of another kind or another capability. -/
theorem approvedOf_update {status : PromotionStatus} (stored : before.promotionRequest.find? req.id = some req)
    (pending : req.status = .pending) (unrelated : status = .approved → req.capabilityId ≠ capabilityId) :
    (before.promotionRequest.update req.id (decided now status decidedBy)).rows.filter
        (fun req => req.capabilityId = capabilityId ∧ req.status = .approved) =
      approvedOf before capabilityId := by
  refine Table.filter_updateWhere_of_not fun row member hit => ?_
  obtain rfl := Table.eq_of_key_eq member (Table.find?_some stored).1 (beq_iff_eq.mp hit)
  have after : (Table.assign (decided now status decidedBy) row).status = status := rfl
  have same : (Table.assign (decided now status decidedBy) row).capabilityId = row.capabilityId := rfl
  constructor
  · simp [pending]
  · simp only [after, same, decide_eq_false_iff_not, not_and]
    exact fun isIt isApproved => unrelated isApproved isIt

theorem approved_history (approvable : Approvable cap req before) (history : CapabilityHistory seed before cap) :
    CapabilityHistory seed (applyApproval now decidedBy cap req before)
      { cap with level := req.proposedToLevel } := by
  have capId : cap.id = req.capabilityId := (Table.find?_some approvable.capability).2
  have events : eventsOf (applyApproval now decidedBy cap req before) cap.id =
      eventsOf before cap.id ++ [before.capabilityLevelEvent.newRow (levelEvent now decidedBy cap req)] := by
    have selected : (before.capabilityLevelEvent.newRow (levelEvent now decidedBy cap req)).capabilityId = cap.id := rfl
    rw [eventsOf, applyApproval, Table.filter_insert, if_pos (by simp [selected]), ← eventsOf]
  have approved : (approvedOf (applyApproval now decidedBy cap req before) cap.id).Perm
      (decided now .approved decidedBy req :: approvedOf before cap.id) :=
    Table.filter_update_enters (Table.find?_some approvable.request).1 (by simp [approvable.pending])
      (by simp [Table.assign, Keyed.withKey, decided, capId])
  refine ⟨history.id, history.l5Allowed, ?_, ?_, ?_, fun capped top => ?_⟩
  · change req.proposedToLevel.index = seed.level.index + (eventsOf _ cap.id).length
    rw [events, List.length_append, approvable.step, history.level]
    rfl
  · change Chain seed.level (eventsOf _ cap.id) req.proposedToLevel
    rw [events]
    exact history.chain.snoc rfl rfl rfl approvable.step
  · change ((eventsOf _ cap.id).map _).Perm ((approvedOf _ cap.id).map _)
    rw [events, List.map_append]
    have added := history.decisions.cons (req.proposedToLevel, some decidedBy)
    have decisions := approved.map fun req : PromotionRequest => (req.proposedToLevel, req.decidedBy)
    exact ((List.perm_append_singleton _ _).trans added).trans decisions.symm
  · rw [approvable.allowed top] at capped
    cases capped

theorem Committed.history {initial : Tables} (committed : Committed before after)
    (history : PromotionHistory initial before) : PromotionHistory initial after := by
  intro cap member
  cases committed with
  | refused => exact history cap member
  | requested req pending =>
      obtain ⟨start, started, capHistory⟩ := history cap member
      exact ⟨start, started, capHistory.congr rfl (approvedOf_requested pending)⟩
  | @rejected now decidedBy req stored pending =>
      obtain ⟨start, started, capHistory⟩ := history cap member
      exact ⟨start, started, capHistory.congr rfl (approvedOf_update stored pending nofun)⟩
  | @approved now decidedBy target req approvable =>
      obtain ⟨old, oldMember, rfl⟩ := Table.mem_updateWhere.mp member
      obtain ⟨start, started, capHistory⟩ := history old oldMember
      obtain ⟨targetMember, capId⟩ := Table.find?_some approvable.capability
      have capId : target.id = req.capabilityId := capId
      by_cases hit : old.id = target.id
      · obtain rfl := Table.eq_of_key_eq oldMember targetMember hit
        rw [if_pos (by simp [Keyed.key])]
        exact ⟨start, started, approved_history approvable capHistory⟩
      · rw [if_neg (by simpa [Keyed.key] using hit)]
        refine ⟨start, started, capHistory.congr ?_ ?_⟩
        · rw [eventsOf, applyApproval, Table.filter_insert, if_neg, List.append_nil, ← eventsOf]
          simp only [decide_eq_true_eq]
          exact fun same => hit same.symm
        · exact approvedOf_update approvable.request approvable.pending fun _ same => hit (same.symm.trans capId.symm)

end Steps

/-! ## From the seed on -/

/-- A seed has capabilities without any history. -/
structure Unpromoted (db : Tables) : Prop where
  events : db.capabilityLevelEvent.rows = []
  requests : db.promotionRequest.rows = []
  capped : ∀ cap ∈ db.capability.rows, cap.l5Allowed = false → cap.level ≠ .l5

theorem seedCapabilities_unpromoted {enterpriseId : Uuid} {before after : Tables} {created : Nat}
    (unpromoted : Unpromoted before) (ran : seedCapabilities enterpriseId before = .ok created after) :
    Unpromoted after := by
  simp only [seedCapabilities, bind_eq_ok, read_eq_ok, pure_eq_ok] at ran
  obtain ⟨existing, _, ⟨_, rfl⟩, ⟨⟩, _, inserted, _, rfl⟩ := ran
  refine forM_ok_invariant Unpromoted ?_ unpromoted inserted
  rintro ⟨key, level, l5Allowed⟩ member middle final holding step
  obtain rfl := write_eq_ok.mp step
  have capped : ∀ seed ∈ seedLevels, seed.2.2 = false → seed.2.1 ≠ .l5 := by decide
  refine ⟨holding.events, holding.requests, fun cap capMember => ?_⟩
  rcases List.mem_append.mp capMember with old | new
  · exact holding.capped cap old
  · rw [List.mem_singleton.mp new]
    exact capped _ (List.mem_filter.mp member).1

theorem seeded_unpromoted (enterprises : List Uuid) : Unpromoted (seeded enterprises) := by
  unfold seeded
  have start : Unpromoted .empty := ⟨rfl, rfl, nofun⟩
  generalize Tables.empty = db at start ⊢
  induction enterprises generalizing db with
  | nil => exact start
  | cons first rest ih =>
      exact ih _ (transact_preserves start fun _ _ ran => seedCapabilities_unpromoted start ran)

theorem seeded_history (enterprises : List Uuid) :
    PromotionHistory (seeded enterprises) (seeded enterprises) := by
  intro cap member
  have unpromoted := seeded_unpromoted enterprises
  have events : eventsOf (seeded enterprises) cap.id = [] := by rw [eventsOf, unpromoted.events, List.filter_nil]
  have approved : approvedOf (seeded enterprises) cap.id = [] := by
    rw [approvedOf, unpromoted.requests, List.filter_nil]
  refine ⟨cap, member, rfl, rfl, ?_, ?_, ?_, unpromoted.capped cap member⟩
  · rw [events]
    rfl
  · rw [events]
    rfl
  · rw [events, approved]
    exact List.Perm.refl _

theorem commitAll_history {seed before : Tables} (calls : List Call) (history : PromotionHistory seed before) :
    PromotionHistory seed (commitAll calls before) := by
  induction calls generalizing before with
  | nil => exact history
  | cons call rest ih => exact ih ((call.committed before).history history)

theorem commitAll_decisionsKept (calls : List Call) (before : Tables) :
    DecisionsKept before (commitAll calls before) := by
  induction calls generalizing before with
  | nil => exact fun _ member _ => member
  | cons call rest ih =>
      exact fun req member isDecided =>
        ih _ req ((call.committed before).decisionsKept req member isDecided) isDecided

/-- After any calls every capability has its history, and what they decided no
further calls change. -/
theorem promotionHistory_of_calls (enterprises : List Uuid) (calls more : List Call) :
    PromotionHistory (seeded enterprises) (commitAll calls (seeded enterprises)) ∧
      DecisionsKept (commitAll calls (seeded enterprises)) (commitAll more (commitAll calls (seeded enterprises))) :=
  ⟨commitAll_history calls (seeded_history enterprises), commitAll_decisionsKept more _⟩

end SmartProcurement.Lorm
