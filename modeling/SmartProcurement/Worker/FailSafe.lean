import SmartProcurement.Ai.Outages
import SmartProcurement.Worker

namespace SmartProcurement.Api

open Transaction

/-- `POST /data-sources/{data_source_id}/mapping-suggestions`: what the request
answers and what it leaves committed. -/
def mappingSuggestions (now : Timestamp) (provider : Ai.Provider Ai.MappingSuggestionSet)
    (enterpriseId dataSourceId : Uuid) (committed : DB) : Except Error (List FieldMapping) × DB :=
  match Integration.suggestMappingsForSource now provider enterpriseId dataSourceId committed with
  | .ok created after => (.ok created, after)
  | .error (.llmUnavailable message) after =>
      -- persist the gap and the audit record
      (.error (.upstream ("AI mapping suggestion unavailable: " ++ message)), after)
  | .error reason _ => (.error reason, committed)

end SmartProcurement.Api

namespace SmartProcurement.Worker

open Relational Transaction Jobs Observation

/-! # What remains of an AI failure

The fail-safe is written in the transaction of the caller, together with an
exception.  The caller decides whether both reach the database.
-/

/-- The ways into `generate_structured`. -/
inductive Entry where
  | mappingSuggestions (enterpriseId dataSourceId : Uuid)
  | suggestMapping (job : Job) (kind : job.kind = "suggest_mapping")
  | generateExplanation (job : Job) (kind : job.kind = "generate_explanation")

def suggestionRequest (enterpriseId : Uuid) : Ai.Request where
  enterpriseId
  capabilityKey := Integration.mappingCapabilityKey
  schema := "MappingSuggestionSet"

/-- The source of the suggestions is found and introspected. -/
structure Introspected (db : DB) (enterpriseId dataSourceId : Uuid) : Prop where
  found : ∃ source, Integration.getDataSource enterpriseId dataSourceId db = .ok source db ∧
    Integration.fieldsOf source.id db ≠ []

/-- The entry comes to `generate_structured`, with this request. -/
inductive Reaches (db : DB) : Entry → Ai.Request → Prop where
  | endpoint {enterpriseId dataSourceId : Uuid} (introspected : Introspected db enterpriseId dataSourceId) :
      Reaches db (.mappingSuggestions enterpriseId dataSourceId) (suggestionRequest enterpriseId)
  | suggestion {job : Job} {kind : job.kind = "suggest_mapping"} {enterpriseId dataSourceId : Uuid}
      (enterprise : job.payload.enterpriseId = some enterpriseId) (source : job.payload.dataSourceId = some dataSourceId)
      (introspected : Introspected db enterpriseId dataSourceId) :
      Reaches db (.suggestMapping job kind) (suggestionRequest enterpriseId)
  | explanation {job : Job} {kind : job.kind = "generate_explanation"} {enterpriseId riskFindingId : Uuid}
      {finding : RiskFinding} (enterprise : job.payload.enterpriseId = some enterpriseId)
      (subject : job.payload.riskFindingId = some riskFindingId)
      (found : db.riskFinding.find? riskFindingId = some finding) (own : finding.enterpriseId = enterpriseId) :
      Reaches db (.generateExplanation job kind) (Analysis.explanationRequest enterpriseId)

/-- What `generate_structured` makes of the provider that the entry meets. -/
def Entry.generated (now : Timestamp) (outside : Outside) (request : Ai.Request) (db : DB) :
    Entry → EStateM.Result Error DB PUnit
  | .mappingSuggestions _ _ | .suggestMapping _ _ =>
      (do let _ ← Ai.generateStructured now outside.suggestions request : Session PUnit) db
  | .generateExplanation _ _ => (do let _ ← Ai.generateStructured now outside.explanation request : Session PUnit) db

/-- The state that the caller leaves. -/
def Entry.completed (runtime : Runtime) (now : Timestamp) (outside : Outside) (db : DB) : Entry → DB
  | .mappingSuggestions enterpriseId dataSourceId =>
      (Api.mappingSuggestions now outside.suggestions enterpriseId dataSourceId db).2
  | .suggestMapping job _ | .generateExplanation job _ => (runJob runtime (handlers fun _ => outside) now job db).2

/-- The gap of the capability is open, and the failure is on record. -/
structure Durable (request : Ai.Request) (before after : DB) : Prop where
  gap : (aiUnavailable request.enterpriseId request.capabilityKey).isOpen after = true
  record : ∃ entry ∈ after.auditRecord.rows, entry ∉ before.auditRecord.rows ∧
    entry.enterpriseId = request.enterpriseId ∧ entry.eventType = "ai_unavailable" ∧
    entry.capabilityKey = some request.capabilityKey

/-- Every attempt failed in a way that the retry loop handles. -/
def Exhausted {α : Type} (provider : Ai.Provider α) : Prop :=
  ∃ lastError, Ai.retry provider (List.range Ai.defaultAttempts) "unknown" = .ok (.error lastError)

def Entry.exhausted (outside : Outside) : Entry → Prop
  | .mappingSuggestions _ _ | .suggestMapping _ _ => Exhausted outside.suggestions
  | .generateExplanation _ _ => Exhausted outside.explanation

def Entry.rolledBack : Entry → Prop
  | .suggestMapping _ _ => True
  | _ => False

section Failures

variable {now : Timestamp} {request : Ai.Request} {before after db : DB} {α : Type} {provider : Ai.Provider α}
variable {reason : Error} {message : String}

/-- A generation that fails writes the fail-safe, or nothing. -/
theorem generateStructured_fails (attempts : request.attempts = Ai.defaultAttempts)
    (ran : Ai.generateStructured now provider request before = .error reason after) :
    (∃ message, reason = .llmUnavailable message ∧ Ai.FailSafe request before after ∧ Exhausted provider ∧
        ((aiUnavailable request.enterpriseId request.capabilityKey).openGaps before).length ≤ 1) ∨
      (after.auditRecord = before.auditRecord ∧ ¬ (Exhausted provider ∧
        ((aiUnavailable request.enterpriseId request.capabilityKey).openGaps before).length ≤ 1)) := by
  simp only [Ai.generateStructured, attempts, bind_eq_error, lift_eq_error, lift_eq_ok] at ran
  rcases ran with ⟨raised, rfl⟩ | ⟨tried, _, ⟨retried, rfl⟩, ran⟩
  · refine .inr ⟨rfl, ?_⟩
    rintro ⟨⟨lastError, exhausted⟩, _⟩
    rw [raised] at exhausted
    cases exhausted
  · cases tried with
    | ok value => simp at ran
    | error lastError =>
        simp only [bind_eq_error, raise_eq_error] at ran
        rcases ran with failing | ⟨_, _, written, rfl, rfl⟩
        · obtain ⟨rfl, several⟩ := Ai.failSafe_raised failing
          exact .inr ⟨rfl, fun both => several both.2⟩
        · exact .inl ⟨_, rfl, Ai.failSafe_ok written, ⟨lastError, retried⟩, Ai.failSafe_met written⟩

theorem Durable.of_failSafe (written : Ai.FailSafe request before after) : Durable request before after := by
  obtain ⟨entry, records, own, type, key⟩ := written.record
  refine ⟨?_, before.auditRecord.newRow entry, ?_, Table.newRow_not_mem _ _, own, type, key⟩
  · rw [← Bool.not_eq_false, isOpen_eq_false_iff, ← List.length_eq_zero_iff, written.gap]
    exact Nat.one_ne_zero
  · rw [records]
    exact List.mem_append_right _ (List.mem_singleton_self _)

theorem not_durable_of_same (same : after.auditRecord = before.auditRecord) : ¬ Durable request before after := by
  rintro ⟨_, entry, member, fresh, _⟩
  exact fresh (same ▸ member)

/-- Which writes survive does not depend on the rest of the database. -/
theorem Durable.congr (durable : Durable request before db) (gaps : after.observabilityGap = db.observabilityGap)
    (records : after.auditRecord = db.auditRecord) : Durable request before after := by
  obtain ⟨gap, record⟩ := durable
  refine ⟨?_, records ▸ record⟩
  rwa [GapKey.isOpen, gaps]

end Failures

/-! ## The callers -/

section Callers

variable {runtime : Runtime} {now : Timestamp} {outside : Outside} {db after : DB} {job : Job} {reason : Error}
variable {enterpriseId dataSourceId riskFindingId : Uuid} {finding : RiskFinding}

theorem required_given (field : String) (id : Uuid) : (lift (required field (some id)) : Session Uuid) db = .ok id db := rfl

theorem recover_records (runtime : Runtime) (now : Timestamp) (job : Job) (reason : Error) (committed : DB) :
    (recover runtime now job reason committed).2.auditRecord = committed.auditRecord := by
  unfold recover
  split
  · rfl
  · split
    · rfl
    · rfl

theorem suggestMappingsForSource_raises (introspected : Introspected db enterpriseId dataSourceId)
    (raised : Ai.generateStructured now outside.suggestions (suggestionRequest enterpriseId) db = .error reason after) :
    Integration.suggestMappingsForSource now outside.suggestions enterpriseId dataSourceId db = .error reason after := by
  obtain ⟨source, found, fields⟩ := introspected.found
  have nonempty : (Integration.fieldsOf source.id db).isEmpty = false := by simpa using fields
  unfold Integration.suggestMappingsForSource
  rw [bind_of_ok found, bind_of_ok (read_eq_ok.mpr ⟨rfl, rfl⟩), nonempty, if_neg Bool.false_ne_true]
  exact bind_of_error raised

theorem explainRisk_raises (found : db.riskFinding.find? riskFindingId = some finding)
    (own : finding.enterpriseId = enterpriseId)
    (raised : Ai.generateStructured now outside.explanation (Analysis.explanationRequest enterpriseId) db = .error reason after) :
    ∃ marked, marked.observabilityGap = after.observabilityGap ∧ marked.auditRecord = after.auditRecord ∧
      Analysis.explainRisk now outside.explanation enterpriseId riskFindingId db = .error reason marked := by
  unfold Analysis.explainRisk
  rw [bind_of_ok (read_eq_ok.mpr ⟨rfl, rfl⟩), found]
  have foreign : ¬ finding.enterpriseId ≠ enterpriseId := not_not.mpr own
  simp only [if_neg foreign]
  rw [bind_of_ok (read_eq_ok.mpr ⟨rfl, rfl⟩)]
  have generates : ∃ marked, marked.observabilityGap = after.observabilityGap ∧ marked.auditRecord = after.auditRecord ∧
      Analysis.generateExplanation now outside.explanation enterpriseId riskFindingId db = .error reason marked := by
    unfold Analysis.generateExplanation handle
    rw [raised]
    cases reason with
    | llmUnavailable message =>
        exact ⟨{ after with
          riskFinding := after.riskFinding.update riskFindingId (Analysis.withAiStatus now .unavailable) },
          rfl, rfl, rfl⟩
    | _ => exact ⟨after, rfl, rfl, rfl⟩
  obtain ⟨marked, gaps, records, generated⟩ := generates
  exact ⟨marked, gaps, records, bind_of_error generated⟩

/-- The endpoint commits what it finds written when the AI is unavailable. -/
theorem mappingSuggestions_durable (introspected : Introspected db enterpriseId dataSourceId)
    (raised : Ai.generateStructured now outside.suggestions (suggestionRequest enterpriseId) db = .error reason after) :
    Durable (suggestionRequest enterpriseId) db (Api.mappingSuggestions now outside.suggestions enterpriseId dataSourceId db).2 ↔
      Exhausted outside.suggestions ∧
        ((aiUnavailable enterpriseId Integration.mappingCapabilityKey).openGaps db).length ≤ 1 := by
  have raises := suggestMappingsForSource_raises introspected raised
  rcases generateStructured_fails rfl raised with ⟨message, rfl, written, exhausted, single⟩ | ⟨records, unmet⟩
  · refine iff_of_true ?_ ⟨exhausted, single⟩
    rw [Api.mappingSuggestions, raises]
    exact .of_failSafe written
  · refine iff_of_false (not_durable_of_same ?_) unmet
    unfold Api.mappingSuggestions
    rw [raises]
    cases reason <;> first | exact records | rfl

/-- The worker rolls back the handler that raises. -/
theorem suggestMapping_not_durable (request : Ai.Request) (kind : job.kind = "suggest_mapping")
    (enterprise : job.payload.enterpriseId = some enterpriseId) (source : job.payload.dataSourceId = some dataSourceId)
    (introspected : Introspected db enterpriseId dataSourceId)
    (raised : Ai.generateStructured now outside.suggestions (suggestionRequest enterpriseId) db = .error reason after) :
    ¬ Durable request db (runJob runtime (handlers fun _ => outside) now job db).2 := by
  have raises : suggestMappingHandler outside now job db = .error reason after := by
    unfold suggestMappingHandler
    rw [enterprise, source, bind_of_ok (required_given _ _), bind_of_ok (required_given _ _)]
    exact bind_of_error (suggestMappingsForSource_raises introspected raised)
  refine not_durable_of_same ?_
  have registered : handlers (fun _ => outside) job.kind = some (derivingHandler
      (fun now job => suggestMappingHandler outside now job) fun now job => suggestMappingHandler_derives _ now job) := by
    rw [kind]
    rfl
  simp only [runJob, registered, derivingHandler, raises]
  exact recover_records ..

/-- The handler of explanations swallows an unavailable AI, so that the worker
commits. -/
theorem generateExplanation_durable (kind : job.kind = "generate_explanation")
    (enterprise : job.payload.enterpriseId = some enterpriseId) (subject : job.payload.riskFindingId = some riskFindingId)
    (found : db.riskFinding.find? riskFindingId = some finding) (own : finding.enterpriseId = enterpriseId)
    (raised : Ai.generateStructured now outside.explanation (Analysis.explanationRequest enterpriseId) db = .error reason after) :
    Durable (Analysis.explanationRequest enterpriseId) db (runJob runtime (handlers fun _ => outside) now job db).2 ↔
      Exhausted outside.explanation ∧
        ((aiUnavailable enterpriseId Analysis.explanationCapabilityKey).openGaps db).length ≤ 1 := by
  obtain ⟨marked, gaps, records, explained⟩ := explainRisk_raises found own raised
  have body : (do
      let enterpriseId ← lift (required "enterprise_id" job.payload.enterpriseId)
      let riskFindingId ← lift (required "risk_finding_id" job.payload.riskFindingId)
      let _ ← Analysis.explainRisk now outside.explanation enterpriseId riskFindingId : Session PUnit) db =
      .error reason marked := by
    rw [enterprise, subject, bind_of_ok (required_given _ _), bind_of_ok (required_given _ _)]
    exact bind_of_error explained
  have registered : handlers (fun _ => outside) job.kind = some (derivingHandler
      (fun now job => generateExplanationHandler outside now job) fun now job => generateExplanationHandler_derives _ now job) := by
    rw [kind]
    rfl
  simp only [runJob, registered, derivingHandler, generateExplanationHandler, handle, body]
  rcases generateStructured_fails rfl raised with ⟨message, rfl, written, exhausted, single⟩ | ⟨unwritten, unmet⟩
  · exact iff_of_true ((Durable.of_failSafe written).congr gaps records) ⟨exhausted, single⟩
  · refine iff_of_false (not_durable_of_same ?_) unmet
    cases reason with
    | llmUnavailable message => exact records.trans unwritten
    | _ => exact recover_records ..

/-- However an entry fails in `generate_structured`, its fail-safe is committed
exactly if it is not a job that the worker rolls back, and the fail-safe was
reached and could be written. -/
theorem durable_iff (runtime : Runtime) (now : Timestamp) (outside : Outside) {db : DB} {entry : Entry} {request : Ai.Request}
    (reaches : Reaches db entry request) (fails : returned (entry.generated now outside request db) = false) :
    Durable request db (entry.completed runtime now outside db) ↔
      ¬ entry.rolledBack ∧ entry.exhausted outside ∧
        ((aiUnavailable request.enterpriseId request.capabilityKey).openGaps db).length ≤ 1 := by
  have raised {α : Type} {body : Session α} (fails : returned ((do let _ ← body : Session PUnit) db) = false) :
      ∃ reason after, body db = .error reason after := by
    cases ran : body db with
    | ok value after =>
        rw [bind_of_ok ran] at fails
        cases fails
    | error reason after => exact ⟨reason, after, rfl⟩
  cases reaches with
  | endpoint introspected =>
      obtain ⟨reason, after, ran⟩ := raised fails
      exact (mappingSuggestions_durable introspected ran).trans (by simp [Entry.rolledBack, Entry.exhausted, suggestionRequest])
  | @suggestion job kind _ _ enterprise source introspected =>
      obtain ⟨reason, after, ran⟩ := raised fails
      exact iff_of_false (suggestMapping_not_durable _ kind enterprise source introspected ran) fun met => met.1 trivial
  | @explanation job kind _ _ _ enterprise subject found own =>
      obtain ⟨reason, after, ran⟩ := raised fails
      exact (generateExplanation_durable kind enterprise subject found own ran).trans
        (by simp [Entry.rolledBack, Entry.exhausted, Analysis.explanationRequest])

end Callers

/-! ## An offline provider -/

/-- A sheet whose only field is known. -/
def introspectedSheet : DB :=
  { Integration.sheetWithSource with sourceField := Table.empty.insert ⟨0, 1, "sku"⟩ }

def suggestionJob : Job :=
  newJob 0 "suggest_mapping" { enterpriseId := some 1, dataSourceId := some 1 } none (some 1) defaultMaxAttempts

theorem introspectedSheet_introspected : Introspected introspectedSheet 1 1 :=
  ⟨_, rfl, by decide⟩

theorem suggestions_durable_at_endpoint :
    Durable (suggestionRequest 1) introspectedSheet
      ((Entry.mappingSuggestions 1 1).completed (runtime true) 0 offline introspectedSheet) := by
  refine (durable_iff (runtime true) 0 offline (.endpoint introspectedSheet_introspected) (by decide)).mpr ⟨id, ⟨_, rfl⟩, ?_⟩
  decide

/-- The job meets the same outage, and nothing of it is committed. -/
theorem suggestion_job_not_durable :
    Reaches introspectedSheet (.suggestMapping suggestionJob rfl) (suggestionRequest 1) ∧
      returned ((Entry.suggestMapping suggestionJob rfl).generated 0 offline (suggestionRequest 1) introspectedSheet) = false ∧
      ¬ Durable (suggestionRequest 1) introspectedSheet
        ((Entry.suggestMapping suggestionJob rfl).completed (runtime true) 0 offline introspectedSheet) := by
  refine ⟨.suggestion rfl rfl introspectedSheet_introspected, by decide, ?_⟩
  rintro ⟨gap, _⟩
  revert gap
  decide

end SmartProcurement.Worker
