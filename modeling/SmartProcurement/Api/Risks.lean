import Mathlib.Data.List.Sort
import SmartProcurement.Audit.Recorder
import SmartProcurement.Core.Pagination

namespace SmartProcurement.Api

open Relational Transaction

/-! # The risks endpoints -/

structure CurrentUser where
  id : Uuid
  enterpriseId : Uuid
deriving DecidableEq, Repr

/-- The request body: a reason of at least one character. -/
structure DismissIn where
  reason : String
  nonempty : reason ≠ ""

def statusText : RiskStatus → String
  | .open => "open"
  | .recommended => "recommended"
  | .actioned => "actioned"
  | .resolved => "resolved"
  | .dismissed => "dismissed"

/-- `_get_finding_or_404`; a finding of another enterprise is not found either. -/
def getFinding (enterpriseId riskId : Uuid) : Session RiskFinding := do
  let missing := Error.notFound ("risk_finding " ++ uuidText riskId ++ " not found")
  match ← read fun db => db.riskFinding.find? riskId with
  | none => raise missing
  | some finding => if finding.enterpriseId ≠ enterpriseId then raise missing else return finding

def dismissed (now : Timestamp) (user : CurrentUser) (reason : String) (finding : RiskFinding) :
    RiskFinding :=
  { finding with
    status := .dismissed
    dismissedReason := some reason
    dismissedAt := some now
    dismissedBy := some user.id
    resolvedAt := some now
    updatedAt := now }

def dismissRisk (now : Timestamp) (user : CurrentUser) (riskId : Uuid) (body : DismissIn) :
    Session RiskFinding := do
  let finding ← getFinding user.enterpriseId riskId
  if finding.status.terminal then
    raise (.conflict ("risk_finding " ++ uuidText riskId ++ " is already " ++ statusText finding.status))
  else do
    lift (bindText "dismissed_reason" body.reason)
    write fun db => { db with riskFinding := db.riskFinding.update riskId (dismissed now user body.reason) }
    Audit.record now user.enterpriseId {
      eventType := "risk_dismissed"
      authorizer := [("kind", "human"), ("user_id", uuidText user.id)]
      action := some "risk.dismiss"
      params := [("risk_finding_id", uuidText finding.id), ("reason", body.reason)]
      outcome := [("status", "dismissed")] }
    return dismissed now user body.reason finding

/-! ## The list of risks -/

def riskTypeText : RiskType → String
  | .likelyShortage => "likely_shortage"
  | .insufficientUntilNextDelivery => "insufficient_until_next_delivery"
  | .productionStopRisk => "production_stop_risk"
  | .systematicSupplierDelay => "systematic_supplier_delay"
  | .qualityDegradation => "quality_degradation"
  | .priceAnomaly => "price_anomaly"

/-- The query parameters that select findings. -/
structure RiskQuery where
  status : Option String
  riskType : Option String
  itemId : Option Uuid

def RiskQuery.selects (query : RiskQuery) (user : CurrentUser) (finding : RiskFinding) : Bool :=
  finding.enterpriseId = user.enterpriseId &&
    query.status.all (· = statusText finding.status) &&
    query.riskType.all (· = riskTypeText finding.riskType) &&
    query.itemId.all (finding.itemId = some ·)

/-- `order_by(detected_at.desc(), id)`. -/
def listedBefore (first second : RiskFinding) : Prop :=
  second.detectedAt < first.detectedAt ∨ first.detectedAt = second.detectedAt ∧ first.id ≤ second.id

instance (first second : RiskFinding) : Decidable (listedBefore first second) :=
  inferInstanceAs (Decidable (_ ∨ _))

/-- The rows of the statement. -/
def selectedRisks (user : CurrentUser) (query : RiskQuery) (db : DB) : List RiskFinding :=
  (db.riskFinding.rows.filter (query.selects user)).insertionSort listedBefore

def listRisks (maxDigits : Nat) (user : CurrentUser) (query : RiskQuery) (limit : Option Int) (cursor : Option String) :
    Session (List RiskFinding × Option String) := do
  let _ ← lift (query.status.mapM (bindText "status"))
  let _ ← lift (query.riskType.mapM (bindText "risk_type"))
  read fun db => Pagination.paginate maxDigits (selectedRisks user query db) limit cursor

section Listing

variable {user : CurrentUser} {query : RiskQuery} {db : DB}

theorem mem_selectedRisks {finding : RiskFinding} :
    finding ∈ selectedRisks user query db ↔ finding ∈ db.riskFinding.rows ∧ query.selects user finding = true := by
  rw [selectedRisks, List.mem_insertionSort, List.mem_filter]

theorem listRisks_ok {maxDigits : Nat} {limit : Option Int} {cursor : Option String} {after : DB}
    {page : List RiskFinding × Option String} (ran : listRisks maxDigits user query limit cursor db = .ok page after) :
    after = db ∧ page = Pagination.paginate maxDigits (selectedRisks user query db) limit cursor := by
  simp only [listRisks, bind_eq_ok, lift_eq_ok, read_eq_ok] at ran
  obtain ⟨_, _, ⟨_, rfl⟩, _, _, ⟨_, rfl⟩, rfl, rfl⟩ := ran
  exact ⟨rfl, rfl⟩

theorem selectedRisks_nodup : (selectedRisks user query db).Nodup := by
  unfold selectedRisks
  rw [(List.perm_insertionSort _ _).nodup_iff]
  exact (List.Nodup.of_map _ db.riskFinding.distinct).filter _

/-- A client that follows the cursors while nothing changes sees each selected finding once. -/
theorem followed_risks {maxDigits : Nat} {limit : Option Int} {pages : List (List RiskFinding)}
    (legible : Text.Legible maxDigits (selectedRisks user query db).length)
    (followed : Pagination.Followed maxDigits (selectedRisks user query db) limit none pages) :
    pages.flatten.Nodup ∧ ∀ finding, finding ∈ pages.flatten ↔
      finding ∈ db.riskFinding.rows ∧ query.selects user finding = true := by
  have listed : pages.flatten = selectedRisks user query db := (followed.lists legible).1
  rw [listed]
  exact ⟨selectedRisks_nodup, fun _ => mem_selectedRisks⟩

end Listing

section Results

variable {now : Timestamp} {user : CurrentUser} {riskId : Uuid} {body : DismissIn} {before after : DB}
variable {finding : RiskFinding}

/-- A dismissal that returns changed one ongoing finding of the user's enterprise. -/
theorem dismissRisk_ok (ran : dismissRisk now user riskId body before = .ok finding after) :
    (∃ old, before.riskFinding.find? riskId = some old ∧ old.enterpriseId = user.enterpriseId ∧
      old.status.terminal = false ∧ finding = dismissed now user body.reason old) ∧
    ∃ records, after = { before with
      riskFinding := before.riskFinding.update riskId (dismissed now user body.reason)
      auditRecord := records } := by
  simp only [dismissRisk, getFinding, bind_eq_ok, read_eq_ok] at ran
  obtain ⟨old, middle, ⟨found, _, ⟨found_eq, rfl⟩, ran'⟩, ran⟩ := ran
  cases found with
  | none => simp at ran'
  | some row =>
      by_cases foreign : row.enterpriseId ≠ user.enterpriseId
      · simp [if_pos foreign] at ran'
      · simp only [if_neg foreign] at ran'
        obtain ⟨rfl, rfl⟩ := pure_eq_ok.mp ran'
        cases closed : row.status.terminal with
        | true => simp [closed] at ran
        | false =>
            simp only [closed, Bool.false_eq_true, if_false, Audit.record, bind_eq_ok, write_eq_ok,
              lift_eq_ok, pure_eq_ok] at ran
            obtain ⟨_, _, ⟨_, rfl⟩, _, _, rfl, _, _, ⟨_, _, ⟨_, rfl⟩, rfl⟩, rfl, rfl⟩ := ran
            exact ⟨⟨row, found_eq, not_not.mp foreign, closed, rfl⟩, _, rfl⟩

end Results

end SmartProcurement.Api
