import SmartProcurement.Audit.Recorder
import SmartProcurement.Observation.Observability

namespace SmartProcurement.Ai

open Transaction Observation

/-! # Typed LLM output

An output that the schema accepts carries what the schema checks.  The provider
is known by what each of its calls yields; when no attempt gives a usable
output, the fail-safe is written and the call raises.
-/

/-! ## Schemas -/

structure MappingSuggestion where
  sourceFieldPath : String
  canonicalEntity : Entity
  canonicalAttribute : String
  transform : Option Transform
  confidence : ℚ
  confidenceRange : 0 ≤ confidence ∧ confidence ≤ 1

structure MappingSuggestionSet where
  suggestions : List MappingSuggestion

structure RiskExplanation where
  what : String
  why : String
  dataUsed : List EvidenceRef
  dataUsedNonempty : dataUsed ≠ []
  factors : List RiskFactor
  confidence : ℚ
  confidenceRange : 0 ≤ confidence ∧ confidence ≤ 1

/-! ## Attempts -/

/-- What one call of the provider yields, once it is parsed and validated. -/
inductive Attempt (α : Type) where
  | usable (value : α)
  | providerError (shown : String)
  | invalidOutput (shown : String)
  | raised (reason : Error)

/-- The provider, as one `generate_structured` call meets it. -/
abbrev Provider (α : Type) := Nat → Attempt α

def defaultAttempts : Nat := 3

/-- The retry loop: the first usable output, or the last failure. -/
def retry {α : Type} (provider : Provider α) : List Nat → String → Except Error (Except String α)
  | [], lastError => .ok (.error lastError)
  | attempt :: rest, _ =>
      match provider attempt with
      | .usable value => .ok (.ok value)
      | .providerError shown => retry provider rest ("provider error: " ++ shown)
      | .invalidOutput shown => retry provider rest ("invalid structured output: " ++ shown)
      | .raised reason => .error reason

structure Request where
  enterpriseId : Uuid
  capabilityKey : String
  schema : String
  attempts : Nat := defaultAttempts

/-- The gap and the audit record of an AI failure. -/
def failSafe (now : Timestamp) (request : Request) (outcome : List (String × String)) : Session PUnit := do
  openGap now (aiUnavailable request.enterpriseId request.capabilityKey)
  Audit.record now request.enterpriseId {
    eventType := "ai_unavailable"
    capabilityKey := some request.capabilityKey
    action := some ("generate_structured:" ++ request.schema)
    outcome }

/-- `f"AI unavailable for {capability_key} ({schema}): {detail}"`. -/
def unavailable (request : Request) (detail : String) : Error :=
  .llmUnavailable ("AI unavailable for " ++ request.capabilityKey ++ " (" ++ request.schema ++ "): " ++ detail)

def generateStructured {α : Type} (now : Timestamp) (provider : Provider α) (request : Request) :
    Session α := do
  match ← lift (retry provider (List.range request.attempts) "unknown") with
  | .ok value => return value
  | .error lastError =>
      failSafe now request [("error", lastError), ("attempts", toString request.attempts)]
      raise (unavailable request lastError)

/-! ## Results -/

section Results

variable {now : Timestamp} {request : Request} {outcome : List (String × String)} {before after : DB}

theorem generateStructured_ok {α : Type} {provider : Provider α} {value : α}
    (ran : generateStructured now provider request before = .ok value after) : after = before := by
  simp only [generateStructured, bind_eq_ok, lift_eq_ok] at ran
  obtain ⟨tried, _, ⟨_, rfl⟩, ran⟩ := ran
  cases tried with
  | ok found => exact (pure_eq_ok.mp ran).2.symm
  | error lastError => simp at ran

theorem failSafe_error {reason : Error} (raised : failSafe now request outcome before = .error reason after) :
    reason = .multipleResultsFound := by
  have passes (entry : Audit.Entry) (isFailure : entry.eventType = "ai_unavailable") :
      Audit.check entry = .ok ⟨⟩ := by
    unfold Audit.check
    rw [isFailure, if_neg (by decide), if_neg (fun both => absurd both.1 (by decide))]
    rfl
  simp only [failSafe, bind_eq_error] at raised
  rcases raised with opening | ⟨_, middle, _, recording⟩
  · simp only [openGap, current, bind_eq_error] at opening
    rcases opening with looking | ⟨found, middle, _, writing⟩
    · exact scalarOrNone_error looking
    · cases found with
      | some _ => simp at writing
      | none => simp at writing
  · simp only [Audit.record, bind_eq_error, lift_eq_error, write_eq_error, and_false, exists_false, or_false] at recording
    cases (passes _ rfl).symm.trans recording.1

end Results

/-! ## Frames -/

section Frames

variable {frame : Frame DB} {α : Type}

theorem openGap_follows (now : Timestamp) (key : GapKey)
    (gaps : ∀ db gaps, frame.rel db { db with observabilityGap := gaps }) :
    Follows frame (openGap now key) := by
  refine ((follows_read _).bind fun _ => follows_lift _).bind fun found => ?_
  cases found with
  | some gap => exact follows_pure _
  | none => exact follows_write fun db => gaps db _

theorem failSafe_follows (now : Timestamp) (request : Request) (outcome : List (String × String))
    (gaps : ∀ db gaps, frame.rel db { db with observabilityGap := gaps })
    (records : ∀ db records, frame.rel db { db with auditRecord := records }) :
    Follows frame (failSafe now request outcome) :=
  (openGap_follows now _ gaps).bind fun _ => Audit.record_follows now _ _ records

theorem generateStructured_follows (now : Timestamp) (provider : Provider α) (request : Request)
    (gaps : ∀ db gaps, frame.rel db { db with observabilityGap := gaps })
    (records : ∀ db records, frame.rel db { db with auditRecord := records }) :
    Follows frame (generateStructured now provider request) := by
  refine (follows_lift _).bind fun generated => ?_
  cases generated with
  | ok value => exact follows_pure value
  | error lastError =>
      exact (failSafe_follows now request _ gaps records).bind fun _ => follows_raise _

end Frames

end SmartProcurement.Ai
