import SmartProcurement.Analysis.Detection
import SmartProcurement.Ai.Structured

namespace SmartProcurement.Analysis

open Relational Transaction Numeric Observation

/-! # AI explanations

`explain_risk` explains a finding that already exists.  Only evidence that is
genuinely tied to the finding may be cited; what else the output cites is
discarded, and an explanation without valid evidence counts as no explanation.
-/

def explanationCapabilityKey : String := "proc.risk.diagnose"

def linkedSignals (finding : RiskFinding) (db : DB) : List ObservationSignal :=
  (db.riskSignalLink.rows.filter (·.riskFindingId = finding.id)).filterMap fun link =>
    db.observationSignal.find? link.observationSignalId

/-- The deliveries that a systematic delay was detected from. -/
def delayedOrders (finding : RiskFinding) (supplierId : Uuid) (db : DB) : List Row :=
  (trustedOf db .purchaseOrder finding.enterpriseId).filter fun order =>
    order.uuid? "supplier_id" = some supplierId && withStatus "received" order && (lateDays order).isSome

/-- `evidence_payloads`, reduced to what an output may cite. -/
def evidencePayloads (finding : RiskFinding) (db : DB) : List EvidenceRef :=
  let signals := (linkedSignals finding db).map fun signal => EvidenceRef.mk .observationSignal (.id signal.id)
  match finding.riskType, finding.supplierId with
  | .systematicSupplierDelay, some supplierId =>
      signals ++ (delayedOrders finding supplierId db).map fun order => ⟨.domainRow, .id order.id⟩
  | _, _ => signals

/-- `Numeric(4, 3)`. -/
def confidenceColumn : Decimal.FixedPoint := ⟨4, 3⟩

def explanationOf (enterpriseId : Uuid) (finding : RiskFinding) (parsed : Ai.RiskExplanation)
    (kept : List EvidenceRef) : Explanation where
  id := 0
  enterpriseId
  subjectId := finding.id
  what := parsed.what
  why := parsed.why
  dataUsed := kept
  factors := parsed.factors
  confidence := confidenceColumn.quantize parsed.confidence

/-- A flush updates the rows that have changed, and with them `updated_at`. -/
def withAiStatus (now : Timestamp) (aiStatus : AiStatus) (row : RiskFinding) : RiskFinding :=
  if row.aiStatus = aiStatus then row else { row with aiStatus, updatedAt := now }

@[simp] theorem withAiStatus_id (now : Timestamp) (aiStatus : AiStatus) (row : RiskFinding) :
    (withAiStatus now aiStatus row).id = row.id := by
  unfold withAiStatus
  split <;> rfl

@[simp] theorem withAiStatus_aiStatus (now : Timestamp) (aiStatus : AiStatus) (row : RiskFinding) :
    (withAiStatus now aiStatus row).aiStatus = aiStatus := by
  unfold withAiStatus
  split
  · assumption
  · rfl

def setAiStatus (now : Timestamp) (riskFindingId : Uuid) (aiStatus : AiStatus) : Session PUnit :=
  write fun db => { db with riskFinding := db.riskFinding.update riskFindingId (withAiStatus now aiStatus) }

def explanationRequest (enterpriseId : Uuid) : Ai.Request where
  enterpriseId
  capabilityKey := explanationCapabilityKey
  schema := "RiskExplanation"

/-- `_mark_unavailable`. -/
def markUnavailable (now : Timestamp) (enterpriseId : Uuid) (reason : String) : Session PUnit :=
  Ai.failSafe now (explanationRequest enterpriseId) [("error", reason)]

/-- The generation, with the finding marked when the AI is unavailable. -/
def generateExplanation (now : Timestamp) (provider : Ai.Provider Ai.RiskExplanation)
    (enterpriseId riskFindingId : Uuid) : Session Ai.RiskExplanation :=
  handle (Ai.generateStructured now provider (explanationRequest enterpriseId)) fun
    | .llmUnavailable message => do
        setAiStatus now riskFindingId .unavailable
        raise (.llmUnavailable message)
    | reason => raise reason

/-- No cited evidence survived the grounding. -/
def rejectGrounding (now : Timestamp) (enterpriseId riskFindingId : Uuid) : Session Explanation := do
  markUnavailable now enterpriseId
    "no valid evidence remained after grounding validation (all data_used refs were hallucinated or empty)"
  setAiStatus now riskFindingId .unavailable
  raise (Ai.unavailable (explanationRequest enterpriseId) "no valid evidence after grounding")

def addExplanation (now : Timestamp) (explanation : Explanation) : Session Explanation := do
  lift (bindText "what" explanation.what)
  lift (bindText "why" explanation.why)
  let stored ← read fun db => db.explanation.newRow explanation
  write fun db => { db with explanation := db.explanation.insert explanation }
  setAiStatus now explanation.subjectId .ready
  return stored

def explainRisk (now : Timestamp) (provider : Ai.Provider Ai.RiskExplanation)
    (enterpriseId riskFindingId : Uuid) : Session Explanation := do
  match ← read fun db => db.riskFinding.find? riskFindingId with
  | none => raise (.notFound "risk_finding not found")
  | some finding =>
      if finding.enterpriseId ≠ enterpriseId then raise (.notFound "risk_finding not found")
      else do
        let valid ← read (evidencePayloads finding)
        let parsed ← generateExplanation now provider enterpriseId riskFindingId
        match parsed.dataUsed.filter (· ∈ valid) with
        | [] => rejectGrounding now enterpriseId riskFindingId
        | kept => addExplanation now (explanationOf enterpriseId finding parsed kept)

/-! ## What an explanation run does -/

section Results

variable {now : Timestamp} {provider : Ai.Provider Ai.RiskExplanation} {enterpriseId riskFindingId : Uuid}
variable {before after : DB}

theorem generateExplanation_ok {parsed : Ai.RiskExplanation}
    (ran : generateExplanation now provider enterpriseId riskFindingId before = .ok parsed after) :
    after = before := by
  unfold generateExplanation handle at ran
  cases generated : Ai.generateStructured now provider (explanationRequest enterpriseId) before with
  | ok value middle =>
      rw [generated] at ran
      cases ran
      exact Ai.generateStructured_ok generated
  | error reason middle =>
      rw [generated] at ran
      cases reason <;> simp at ran

/-- Nothing but gaps and audit records. -/
def reportsOnly : Frame DB where
  rel before after := ∃ gaps records, after = { before with observabilityGap := gaps, auditRecord := records }
  refl db := ⟨db.observabilityGap, db.auditRecord, rfl⟩
  trans := by
    rintro _ _ _ ⟨_, _, rfl⟩ ⟨gaps, records, rfl⟩
    exact ⟨gaps, records, rfl⟩

theorem reports_gaps (db : DB) (gaps : Table ObservabilityGap) :
    reportsOnly.rel db { db with observabilityGap := gaps } := ⟨gaps, db.auditRecord, rfl⟩

theorem reports_records (db : DB) (records : Table AuditRecord) :
    reportsOnly.rel db { db with auditRecord := records } := ⟨db.observabilityGap, records, rfl⟩

theorem generateExplanation_unavailable {message : String}
    (ran : generateExplanation now provider enterpriseId riskFindingId before = .error (.llmUnavailable message) after) :
    ∃ middle, reportsOnly.rel before middle ∧ after = { middle with
      riskFinding := middle.riskFinding.update riskFindingId (withAiStatus now .unavailable) } := by
  unfold generateExplanation handle at ran
  cases generated : Ai.generateStructured now provider (explanationRequest enterpriseId) before with
  | ok value middle =>
      rw [generated] at ran
      cases ran
  | error reason middle =>
      rw [generated] at ran
      have reported : reportsOnly.rel before middle :=
        (Ai.generateStructured_follows now provider _ reports_gaps reports_records).error generated
      cases reason with
      | llmUnavailable shown =>
          simp only [setAiStatus, bind_eq_error, write_eq_error, write_eq_ok, raise_eq_error, false_or] at ran
          obtain ⟨_, _, rfl, _, rfl⟩ := ran
          exact ⟨middle, reported, rfl⟩
      | _ => simp at ran

theorem rejectGrounding_unavailable {message : String}
    (ran : rejectGrounding now enterpriseId riskFindingId before = .error (.llmUnavailable message) after) :
    ∃ middle, reportsOnly.rel before middle ∧ after = { middle with
      riskFinding := middle.riskFinding.update riskFindingId (withAiStatus now .unavailable) } := by
  simp only [rejectGrounding, markUnavailable, setAiStatus, bind_eq_error, write_eq_error, write_eq_ok,
    raise_eq_error, false_or] at ran
  rcases ran with failing | ⟨_, middle, marked, _, _, rfl, _, rfl⟩
  · cases Ai.failSafe_error failing
  · exact ⟨middle, (Ai.failSafe_follows now _ _ reports_gaps reports_records).ok marked, rfl⟩

theorem addExplanation_ok {explanation stored : Explanation}
    (ran : addExplanation now explanation before = .ok stored after) :
    after = { before with
      explanation := before.explanation.insert explanation
      riskFinding := before.riskFinding.update explanation.subjectId (withAiStatus now .ready) } := by
  simp only [addExplanation, setAiStatus, bind_eq_ok, lift_eq_ok, read_eq_ok, write_eq_ok, pure_eq_ok] at ran
  obtain ⟨_, _, ⟨_, rfl⟩, _, _, ⟨_, rfl⟩, _, _, ⟨_, rfl⟩, _, _, rfl, _, _, rfl, _, rfl⟩ := ran
  rfl

theorem addExplanation_available {explanation : Explanation} {message : String} :
    addExplanation now explanation before ≠ .error (.llmUnavailable message) after := by
  have text (column text : String) : bindText column text ≠ .error (.llmUnavailable message) := by
    unfold bindText
    split <;> simp
  simp only [addExplanation, setAiStatus, ne_eq, bind_eq_error, lift_eq_error, read_eq_error, write_eq_error,
    pure_eq_error, text, false_and, and_false, exists_false, or_false, not_false_eq_true]

/-- The stored explanation cites evidence of the finding only, and some of it. -/
theorem explainRisk_ok {explanation : Explanation}
    (ran : explainRisk now provider enterpriseId riskFindingId before = .ok explanation after) :
    ∃ finding stored, before.riskFinding.find? riskFindingId = some finding ∧ stored.subjectId = riskFindingId ∧
      stored.dataUsed ≠ [] ∧ (∀ ref ∈ stored.dataUsed, ref ∈ evidencePayloads finding before) ∧
      after = { before with
        explanation := before.explanation.insert stored
        riskFinding := before.riskFinding.update riskFindingId (withAiStatus now .ready) } := by
  simp only [explainRisk, bind_eq_ok, read_eq_ok] at ran
  obtain ⟨found, _, ⟨looked, rfl⟩, ran⟩ := ran
  cases found with
  | none => simp at ran
  | some finding =>
      dsimp only at ran
      split at ran
      · simp at ran
      · simp only [bind_eq_ok, read_eq_ok] at ran
        obtain ⟨valid, _, ⟨validEq, rfl⟩, parsed, _, generated, ran⟩ := ran
        obtain rfl := generateExplanation_ok generated
        cases kept : parsed.dataUsed.filter (· ∈ valid) with
        | nil => simp [kept, rejectGrounding] at ran
        | cons first rest =>
            rw [kept] at ran
            have key : finding.id = riskFindingId := (Table.find?_some looked).2
            refine ⟨finding, explanationOf enterpriseId finding parsed (first :: rest), looked, key,
              List.cons_ne_nil _ _, fun ref cited => ?_, ?_⟩
            · have cited : ref ∈ parsed.dataUsed.filter (· ∈ valid) := kept ▸ cited
              exact validEq ▸ of_decide_eq_true (List.mem_filter.mp cited).2
            · rw [addExplanation_ok ran, ← key]
              rfl

theorem explainRisk_unavailable {message : String}
    (ran : explainRisk now provider enterpriseId riskFindingId before = .error (.llmUnavailable message) after) :
    ∃ finding middle, before.riskFinding.find? riskFindingId = some finding ∧ reportsOnly.rel before middle ∧
      after = { middle with
        riskFinding := middle.riskFinding.update riskFindingId (withAiStatus now .unavailable) } := by
  simp only [explainRisk, bind_eq_error, read_eq_error, false_or, read_eq_ok] at ran
  obtain ⟨found, _, ⟨looked, rfl⟩, ran⟩ := ran
  cases found with
  | none => simp at ran
  | some finding =>
      dsimp only at ran
      split at ran
      · simp at ran
      · simp only [bind_eq_error, read_eq_error, false_or, read_eq_ok] at ran
        obtain ⟨valid, _, ⟨_, rfl⟩, generating | ⟨parsed, _, generated, ran⟩⟩ := ran
        · obtain ⟨middle, reported, marked⟩ := generateExplanation_unavailable generating
          exact ⟨finding, middle, looked, reported, marked⟩
        · obtain rfl := generateExplanation_ok generated
          cases kept : parsed.dataUsed.filter (· ∈ valid) with
          | nil =>
              rw [kept] at ran
              obtain ⟨middle, reported, marked⟩ := rejectGrounding_unavailable ran
              exact ⟨finding, middle, looked, reported, marked⟩
          | cons first rest =>
              rw [kept] at ran
              exact absurd ran addExplanation_available

end Results

/-- A frame that the writes of an explanation run respect. -/
structure ExplanationFrame (frame : Frame DB) : Prop where
  gaps : ∀ db gaps, frame.rel db { db with observabilityGap := gaps }
  records : ∀ db records, frame.rel db { db with auditRecord := records }
  status : ∀ db now id aiStatus,
    frame.rel db { db with riskFinding := db.riskFinding.update id (withAiStatus now aiStatus) }
  explanations : ∀ db explanations, frame.rel db { db with explanation := explanations }

theorem explainRisk_follows {frame : Frame DB} (allowed : ExplanationFrame frame) (now : Timestamp)
    (provider : Ai.Provider Ai.RiskExplanation) (enterpriseId riskFindingId : Uuid) :
    Follows frame (explainRisk now provider enterpriseId riskFindingId) := by
  have marks (id : Uuid) (status : AiStatus) : Follows frame (setAiStatus now id status) :=
    follows_write fun db => allowed.status db now id status
  have generates : Follows frame (generateExplanation now provider enterpriseId riskFindingId) := by
    refine (Ai.generateStructured_follows now provider _ allowed.gaps allowed.records).handle fun reason => ?_
    cases reason with
    | llmUnavailable message => exact (marks _ _).bind fun _ => follows_raise _
    | _ => exact follows_raise _
  have rejects : Follows frame (rejectGrounding now enterpriseId riskFindingId) :=
    (Ai.failSafe_follows now _ _ allowed.gaps allowed.records).bind fun _ =>
      (marks _ _).bind fun _ => follows_raise _
  have stores (explanation : Explanation) : Follows frame (addExplanation now explanation) := by
    refine (follows_lift _).bind fun _ => (follows_lift _).bind fun _ => (follows_read _).bind fun _ => ?_
    exact (follows_write fun db => allowed.explanations db _).bind fun _ =>
      (marks _ _).bind fun _ => follows_pure _
  refine (follows_read _).bind fun found => ?_
  cases found with
  | none => exact follows_raise _
  | some finding =>
      dsimp only
      split
      · exact follows_raise _
      · refine (follows_read _).bind fun valid => generates.bind fun parsed => ?_
        cases parsed.dataUsed.filter (· ∈ valid) with
        | nil => exact rejects
        | cons first rest => exact stores _

end SmartProcurement.Analysis
