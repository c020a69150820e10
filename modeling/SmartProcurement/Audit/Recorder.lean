import SmartProcurement.Database

namespace SmartProcurement.Audit

open Relational Transaction

/-! # The append-only audit trail -/

def eventTypes : List String := [
  "recommendation", "l4_prepared", "l4_approved", "l4_rejected", "l5_authorized", "dispatched",
  "execution_result", "verification", "promotion", "demotion", "recovery", "ai_unavailable",
  "policy_approved", "policy_revoked", "mapping_confirmed", "enforcement", "risk_dismissed"]

/-- Events that represent an action and need the full set of fields. -/
def actionEvents : List String :=
  ["l4_approved", "l5_authorized", "dispatched", "execution_result", "verification"]

/-- The arguments of `AuditRecorder.record`; an empty object stands for `None`. -/
structure Entry where
  eventType : String
  capabilityKey : Option String := none
  lormLevel : Option String := none
  evidenceRef : List (String × String) := []
  authorizer : List (String × String) := []
  action : Option String := none
  params : List (String × String) := []
  outcome : List (String × String) := []

/-- `not value` of an optional text. -/
def absent (text : Option String) : Bool := (text.getD "").isEmpty

/-- The fields of `_REQUIRED_FOR_ACTION` that the entry leaves out. -/
def missingForAction (entry : Entry) : List String :=
  [("capability_key", absent entry.capabilityKey), ("lorm_level", absent entry.lormLevel),
    ("authorizer", entry.authorizer.isEmpty), ("action", absent entry.action),
    ("evidence_ref", entry.evidenceRef.isEmpty)].filterMap fun (field, isMissing) =>
      if isMissing then some field else none

def quoted (text : String) : String := "'" ++ text ++ "'"

def check (entry : Entry) : Except Error PUnit := do
  if entry.eventType ∉ eventTypes then
    throw (.auditIntegrity ("unknown event_type " ++ quoted entry.eventType))
  if entry.eventType ∈ actionEvents ∧ missingForAction entry ≠ [] then
    throw (.auditIntegrity ("audit event " ++ quoted entry.eventType ++ " missing required field(s): [" ++
      String.intercalate ", " ((missingForAction entry).map quoted) ++ "]"))

def recordOf (now : Timestamp) (enterpriseId : Uuid) (entry : Entry) : AuditRecord where
  id := 0
  enterpriseId
  at_ := now
  eventType := entry.eventType
  capabilityKey := entry.capabilityKey
  lormLevel := entry.lormLevel
  evidenceRef := entry.evidenceRef
  authorizer := entry.authorizer
  action := entry.action
  params := entry.params
  outcome := entry.outcome

def record (now : Timestamp) (enterpriseId : Uuid) (entry : Entry) : Session PUnit := do
  lift (check entry)
  write fun db => { db with auditRecord := db.auditRecord.insert (recordOf now enterpriseId entry) }

theorem record_follows {frame : Frame DB} (now : Timestamp) (enterpriseId : Uuid) (entry : Entry)
    (append : ∀ db records, frame.rel db { db with auditRecord := records }) :
    Follows frame (record now enterpriseId entry) :=
  (follows_lift _).bind fun _ => follows_write fun db => append db _

end SmartProcurement.Audit
