import SmartProcurement.Core.Values
import SmartProcurement.Relational.Table
import SmartProcurement.Transaction.Session

namespace SmartProcurement.Lorm

open Relational Transaction

/-! # Capability levels and promotions

The only code path that raises a capability's level.  A promotion is asked for,
and then approved or rejected by a human, one level at a time.
-/

inductive Level where
  | l0
  | l1
  | l2
  | l3
  | l4
  | l5
deriving DecidableEq, Repr

/-- `LEVELS`. -/
def levels : List Level := [.l0, .l1, .l2, .l3, .l4, .l5]

def Level.name : Level → String
  | .l0 => "L0"
  | .l1 => "L1"
  | .l2 => "L2"
  | .l3 => "L3"
  | .l4 => "L4"
  | .l5 => "L5"

/-- `_LEVEL_INDEX`. -/
def Level.index : Level → Nat
  | .l0 => 0
  | .l1 => 1
  | .l2 => 2
  | .l3 => 3
  | .l4 => 4
  | .l5 => 5

def level? (name : String) : Option Level := levels.find? fun level => level.name == name

inductive Direction where
  | promotion
  | demotion
deriving DecidableEq, Repr

inductive Trigger where
  | human
  | incident
  | rollback
  | verificationFailure
  | observabilityLoss
  | uncertainty
  | policyExpiry
  | policyRevocation
deriving DecidableEq, Repr

inductive Origin where
  | human
  | ai
deriving DecidableEq, Repr

inductive PromotionStatus where
  | pending
  | approved
  | rejected
deriving DecidableEq, Repr

def PromotionStatus.name : PromotionStatus → String
  | .pending => "pending"
  | .approved => "approved"
  | .rejected => "rejected"

structure Capability where
  id : Uuid
  enterpriseId : Uuid
  key : String
  level : Level
  l5Allowed : Bool
deriving DecidableEq, Repr

structure CapabilityLevelEvent where
  id : Uuid
  capabilityId : Uuid
  direction : Direction
  fromLevel : Level
  toLevel : Level
  reason : String
  trigger : Trigger
  actorId : Option Uuid
  at_ : Timestamp
deriving DecidableEq, Repr

structure PromotionRequest where
  id : Uuid
  enterpriseId : Uuid
  capabilityId : Uuid
  proposedToLevel : Level
  rationale : String
  origin : Origin
  status : PromotionStatus
  decidedBy : Option Uuid
  decidedAt : Option Timestamp
deriving DecidableEq, Repr

instance : Keyed Capability := ⟨(·.id), fun id row => { row with id }, fun _ _ => rfl, fun _ => rfl⟩
instance : Keyed CapabilityLevelEvent :=
  ⟨(·.id), fun id row => { row with id }, fun _ _ => rfl, fun _ => rfl⟩
instance : Keyed PromotionRequest := ⟨(·.id), fun id row => { row with id }, fun _ _ => rfl, fun _ => rfl⟩

structure Tables where
  capability : Table Capability
  capabilityLevelEvent : Table CapabilityLevelEvent
  promotionRequest : Table PromotionRequest

def Tables.empty : Tables := ⟨.empty, .empty, .empty⟩

abbrev Session := EStateM Error Tables

def selectOne {α : Type} (query : Tables → List α) : Session (Option α) := do
  lift (scalarOneOrNone .multipleResultsFound (← read query))

theorem selectOne_eq_ok {α : Type} {query : Tables → List α} {before after : Tables} {found : Option α} :
    selectOne query before = .ok found after ↔
      scalarOneOrNone Error.multipleResultsFound (query before) = .ok found ∧ before = after := by
  simp only [selectOne, bind_eq_ok, read_eq_ok, lift_eq_ok]
  constructor
  · rintro ⟨_, _, ⟨rfl, rfl⟩, single, rfl⟩
    exact ⟨single, rfl⟩
  · rintro ⟨single, rfl⟩
    exact ⟨_, _, ⟨rfl, rfl⟩, single, rfl⟩

/-! ## Seed -/

/-- `SEED_LEVELS`. -/
def seedLevels : List (String × Level × Bool) := [
  ("proc.inventory.observe", .l0, true),
  ("proc.demand.observe", .l1, true),
  ("proc.risk.diagnose", .l2, true),
  ("proc.order.recommend", .l3, true),
  ("proc.po.create", .l3, true),
  ("proc.replenish.routine", .l4, true),
  ("proc.supplier.add", .l4, false),
  ("proc.payment.release", .l3, false)]

/-- Create the capabilities that the enterprise lacks. -/
def seedCapabilities (enterpriseId : Uuid) : Session Nat := do
  let existing ← read fun db =>
    (db.capability.rows.filter (·.enterpriseId = enterpriseId)).map (·.key)
  let missing := seedLevels.filter fun seed => seed.1 ∉ existing
  missing.forM fun (key, level, l5Allowed) =>
    write fun db => { db with
      capability := db.capability.insert { id := 0, enterpriseId, key, level, l5Allowed } }
  return missing.length

/-! ## Promotion -/

def quoted (text : String) : String := "'" ++ text ++ "'"

def getCapability (enterpriseId : Uuid) (key : String) : Session Capability := do
  lift (bindText "key" key)
  match ← selectOne fun db => db.capability.rows.filter fun row =>
      row.enterpriseId = enterpriseId ∧ row.key = key with
  | some row => return row
  | none => raise (.notFound ("capability " ++ quoted key ++ " not found"))

def getCapabilityById (capabilityId : Uuid) : Session Capability := do
  match ← selectOne fun db => db.capability.rows.filter (·.id = capabilityId) with
  | some row => return row
  | none => raise (.notFound "capability not found")

def getPromotionRequest (enterpriseId requestId : Uuid) : Session PromotionRequest := do
  match ← selectOne fun db => db.promotionRequest.rows.filter fun row =>
      row.id = requestId ∧ row.enterpriseId = enterpriseId with
  | some row => return row
  | none => raise (.notFound "promotion request not found")

/-- The refusal of a jump; its text names the next level, which L5 does not have. -/
def wrongStep (current : Level) : Error :=
  match levels[current.index + 1]? with
  | some next =>
      .domainRule ("promotion must raise the level by exactly one step (from " ++ current.name ++
        " to " ++ next.name ++ ")")
  | none => .other "IndexError('tuple index out of range')"

def validateTarget (cap : Capability) (target : String) : Except Error Level :=
  match level? target with
  | none => .error (.domainRule ("unknown level " ++ quoted target))
  | some level =>
      if level.index ≠ cap.level.index + 1 then .error (wrongStep cap.level)
      else if level = .l5 ∧ !cap.l5Allowed then
        .error (.domainRule ("capability " ++ quoted cap.key ++ " may never reach L5 (l5_allowed = false)"))
      else .ok level

def createPromotionRequest (enterpriseId : Uuid) (key proposedToLevel rationale : String)
    (_createdBy : Uuid) : Session PromotionRequest := do
  let cap ← getCapability enterpriseId key
  let level ← lift (validateTarget cap proposedToLevel)
  let req : PromotionRequest :=
    { id := 0, enterpriseId, capabilityId := cap.id, proposedToLevel := level, rationale
      origin := .human, status := .pending, decidedBy := none, decidedAt := none }
  lift (bindText "rationale" rationale)
  let added ← read fun db => db.promotionRequest.newRow req
  write fun db => { db with promotionRequest := db.promotionRequest.insert req }
  return added

def decided (now : Timestamp) (status : PromotionStatus) (decidedBy : Uuid) (req : PromotionRequest) :
    PromotionRequest :=
  { req with status, decidedBy := some decidedBy, decidedAt := some now }

def levelEvent (now : Timestamp) (decidedBy : Uuid) (cap : Capability) (req : PromotionRequest) :
    CapabilityLevelEvent where
  id := 0
  capabilityId := cap.id
  direction := .promotion
  fromLevel := cap.level
  toLevel := req.proposedToLevel
  reason := if req.rationale = "" then "promotion approved" else req.rationale
  trigger := .human
  actorId := some decidedBy
  at_ := now

/-- What approving writes: the level, the request and the event. -/
def applyApproval (now : Timestamp) (decidedBy : Uuid) (cap : Capability) (req : PromotionRequest)
    (db : Tables) : Tables where
  capability := db.capability.update cap.id fun row => { row with level := req.proposedToLevel }
  promotionRequest := db.promotionRequest.update req.id (decided now .approved decidedBy)
  capabilityLevelEvent := db.capabilityLevelEvent.insert (levelEvent now decidedBy cap req)

def applyRejection (now : Timestamp) (decidedBy : Uuid) (req : PromotionRequest) (db : Tables) : Tables :=
  { db with promotionRequest := db.promotionRequest.update req.id (decided now .rejected decidedBy) }

def requirePending (req : PromotionRequest) : Except Error PUnit :=
  if req.status ≠ .pending then .error (.conflict ("promotion request is already " ++ req.status.name))
  else .ok ⟨⟩

def approvePromotion (now : Timestamp) (enterpriseId requestId decidedBy : Uuid) : Session Capability := do
  let req ← getPromotionRequest enterpriseId requestId
  lift (requirePending req)
  let cap ← getCapabilityById req.capabilityId
  -- re-check against the current level
  let _ ← lift (validateTarget cap req.proposedToLevel.name)
  write (applyApproval now decidedBy cap req)
  return { cap with level := req.proposedToLevel }

def rejectPromotion (now : Timestamp) (enterpriseId requestId decidedBy : Uuid) : Session PromotionRequest := do
  let req ← getPromotionRequest enterpriseId requestId
  lift (requirePending req)
  write (applyRejection now decidedBy req)
  return decided now .rejected decidedBy req

/-! ## Results -/

section Results

variable {before after : Tables} {now : Timestamp} {enterpriseId requestId decidedBy : Uuid}

theorem level?_name (level : Level) : level? level.name = some level := by
  cases level <;> decide

/-- The level is the next one of the capability, and L5 only where that is allowed. -/
def NextLevel (cap : Capability) (level : Level) : Prop :=
  level.index = cap.level.index + 1 ∧ (level = .l5 → cap.l5Allowed = true)

theorem validateTarget_eq_ok {cap : Capability} {target : String} {level : Level} :
    validateTarget cap target = .ok level ↔ level? target = some level ∧ NextLevel cap level := by
  unfold validateTarget
  constructor
  · intro valid
    split at valid
    · cases valid
    · next found =>
      split at valid
      · cases valid
      · next step =>
        split at valid
        · cases valid
        · next allowed =>
          cases valid
          exact ⟨found, not_not.mp step, fun top => by simpa [top] using allowed⟩
  · rintro ⟨found, step, allowed⟩
    have permitted : ¬ (level = .l5 ∧ (!cap.l5Allowed) = true) := fun barred => by simp [allowed barred.1] at barred
    simp only [found, step, ne_eq, not_true_eq_false, if_false, if_neg permitted]

theorem getPromotionRequest_ok {req : PromotionRequest}
    (ran : getPromotionRequest enterpriseId requestId before = .ok req after) :
    after = before ∧ before.promotionRequest.find? requestId = some req ∧ req.enterpriseId = enterpriseId := by
  simp only [getPromotionRequest, bind_eq_ok, selectOne_eq_ok] at ran
  obtain ⟨found, _, ⟨single, rfl⟩, ran⟩ := ran
  cases found with
  | none => simp at ran
  | some row =>
      obtain ⟨rfl, rfl⟩ := pure_eq_ok.mp ran
      obtain ⟨member, isRow⟩ := List.mem_filter.mp (mem_of_scalarOneOrNone single)
      simp only [decide_eq_true_eq] at isRow
      exact ⟨rfl, isRow.1 ▸ Table.find?_of_mem member, isRow.2⟩

theorem getCapabilityById_ok {capabilityId : Uuid} {cap : Capability}
    (ran : getCapabilityById capabilityId before = .ok cap after) :
    after = before ∧ before.capability.find? capabilityId = some cap := by
  simp only [getCapabilityById, bind_eq_ok, selectOne_eq_ok] at ran
  obtain ⟨found, _, ⟨single, rfl⟩, ran⟩ := ran
  cases found with
  | none => simp at ran
  | some row =>
      obtain ⟨rfl, rfl⟩ := pure_eq_ok.mp ran
      obtain ⟨member, isRow⟩ := List.mem_filter.mp (mem_of_scalarOneOrNone single)
      simp only [decide_eq_true_eq] at isRow
      exact ⟨rfl, isRow ▸ Table.find?_of_mem member⟩

theorem requirePending_ok {req : PromotionRequest} {done : PUnit} (pending : requirePending req = .ok done) :
    req.status = .pending := by
  unfold requirePending at pending
  split at pending
  · cases pending
  · next isPending => exact not_not.mp isPending

theorem getCapability_ok {key : String} {cap : Capability}
    (ran : getCapability enterpriseId key before = .ok cap after) :
    after = before ∧ before.capability.find? cap.id = some cap := by
  simp only [getCapability, bind_eq_ok, lift_eq_ok, selectOne_eq_ok] at ran
  obtain ⟨_, _, ⟨_, rfl⟩, found, _, ⟨single, rfl⟩, ran⟩ := ran
  cases found with
  | none => simp at ran
  | some row =>
      obtain ⟨rfl, rfl⟩ := pure_eq_ok.mp ran
      exact ⟨rfl, Table.find?_of_mem (List.mem_filter.mp (mem_of_scalarOneOrNone single)).1⟩

/-- What an approval has found when it returns. -/
structure Approvable (cap : Capability) (req : PromotionRequest) (db : Tables) : Prop where
  request : db.promotionRequest.find? req.id = some req
  pending : req.status = .pending
  capability : db.capability.find? req.capabilityId = some cap
  step : req.proposedToLevel.index = cap.level.index + 1
  allowed : req.proposedToLevel = .l5 → cap.l5Allowed = true

theorem approvePromotion_ok {result : Capability}
    (ran : approvePromotion now enterpriseId requestId decidedBy before = .ok result after) :
    ∃ cap req, Approvable cap req before ∧ req.id = requestId ∧
      after = applyApproval now decidedBy cap req before := by
  simp only [approvePromotion, bind_eq_ok, lift_eq_ok, write_eq_ok, pure_eq_ok] at ran
  obtain ⟨req, _, found, _, _, ⟨pending, rfl⟩, cap, _, foundCap, level, _, ⟨valid, rfl⟩, _, _, rfl, _, rfl⟩ := ran
  obtain ⟨rfl, stored, _⟩ := getPromotionRequest_ok found
  obtain ⟨rfl, storedCap⟩ := getCapabilityById_ok foundCap
  obtain ⟨named, step, allowed⟩ := validateTarget_eq_ok.mp valid
  rw [level?_name, Option.some.injEq] at named
  subst named
  have key : req.id = requestId := (Table.find?_some stored).2
  exact ⟨cap, req, ⟨key ▸ stored, requirePending_ok pending, storedCap, step, allowed⟩, key, rfl⟩

theorem rejectPromotion_ok {result : PromotionRequest}
    (ran : rejectPromotion now enterpriseId requestId decidedBy before = .ok result after) :
    ∃ req, before.promotionRequest.find? req.id = some req ∧ req.id = requestId ∧ req.status = .pending ∧
      after = applyRejection now decidedBy req before := by
  simp only [rejectPromotion, bind_eq_ok, lift_eq_ok, write_eq_ok, pure_eq_ok] at ran
  obtain ⟨req, _, found, _, _, ⟨pending, rfl⟩, _, _, rfl, _, rfl⟩ := ran
  obtain ⟨rfl, stored, _⟩ := getPromotionRequest_ok found
  have key : req.id = requestId := (Table.find?_some stored).2
  exact ⟨req, key ▸ stored, key, requirePending_ok pending, rfl⟩

theorem createPromotionRequest_ok {key proposedToLevel rationale : String} {createdBy : Uuid}
    {result : PromotionRequest}
    (ran : createPromotionRequest enterpriseId key proposedToLevel rationale createdBy before = .ok result after) :
    ∃ req, req.status = .pending ∧
      after = { before with promotionRequest := before.promotionRequest.insert req } := by
  simp only [createPromotionRequest, bind_eq_ok, lift_eq_ok, read_eq_ok, write_eq_ok, pure_eq_ok] at ran
  obtain ⟨cap, _, found, level, _, ⟨_, rfl⟩, _, _, ⟨_, rfl⟩, _, _, ⟨rfl, rfl⟩, _, _, rfl, _, rfl⟩ := ran
  obtain ⟨rfl, _⟩ := getCapability_ok found
  exact ⟨_, rfl, rfl⟩

end Results

end SmartProcurement.Lorm
