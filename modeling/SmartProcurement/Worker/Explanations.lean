import SmartProcurement.Worker.Batches
import SmartProcurement.Api.Risks
import SmartProcurement.Analysis.RiskRuns
import SmartProcurement.Transition.Runs

namespace SmartProcurement.Worker.Explanations

open Relational Transaction Transition Jobs Analysis

/-! # The explanation of a finding

A detection asks for an explanation, the worker runs the job that gives it, and
a person may dismiss the finding meanwhile.  The finding's `ai_status`, its job
and its explanation are written in different transactions and agree after each.
-/

inductive Event where
  | detectRisks (now : Timestamp) (enterpriseId : Uuid)
  | dismissRisk (now : Timestamp) (user : Api.CurrentUser) (riskId : Uuid) (body : Api.DismissIn)
  | claimDue (now : Timestamp) (workerId : String) (limit : Nat)
  | runJob (outside : Job → Outside) (now : Timestamp) (jobId : Uuid)

def step (runtime : Runtime) (db : DB) : Event → DB
  | .detectRisks now enterpriseId => (transact (Analysis.detectRisks now enterpriseId) db).2
  | .dismissRisk now user riskId body => (transact (Api.dismissRisk now user riskId body) db).2
  | .claimDue now workerId limit => (transact (Jobs.claimDue now workerId limit) db).2
  | .runJob outside now jobId =>
      match db.job.find? jobId with
      | none => db
      | some job => if job.status = .running then (Worker.runJob runtime (handlers outside) now job db).2 else db

/-! ## The invariant -/

def explanationKind : String := "generate_explanation"

/-- The job is to explain the finding and is not finished. -/
def Asks (job : Job) (findingId : Uuid) : Prop :=
  job.kind = explanationKind ∧ job.payload.riskFindingId = some findingId ∧
    (job.status = .pending ∨ job.status = .running)

instance (job : Job) (findingId : Uuid) : Decidable (Asks job findingId) :=
  inferInstanceAs (Decidable (_ ∧ _ ∧ _))

def explanationsOf (db : DB) (findingId : Uuid) : List Explanation :=
  db.explanation.rows.filter (·.subjectId = findingId)

/-- A finding is explained once, and exactly when it says so. -/
structure Lifecycle (db : DB) : Prop where
  oneJob : ∀ findingId, ∀ first ∈ db.job.rows, ∀ second ∈ db.job.rows,
    Asks first findingId → Asks second findingId → first = second
  ready : ∀ finding ∈ db.riskFinding.rows,
    (explanationsOf db finding.id).length = if finding.aiStatus = .ready then 1 else 0
  cited : ∀ explanation ∈ db.explanation.rows, explanation.dataUsed ≠ []

/-- What carries the lifecycle from one transaction to the next. -/
structure Invariant (db : DB) : Prop extends Lifecycle db where
  unready : ∀ job ∈ db.job.rows, ∀ findingId, Asks job findingId →
    ∃ finding ∈ db.riskFinding.rows, finding.id = findingId ∧ finding.aiStatus ≠ .ready
  about : ∀ explanation ∈ db.explanation.rows, ∃ finding ∈ db.riskFinding.rows, finding.id = explanation.subjectId

section Steps

variable {before after : DB} {job : Job} {finding : RiskFinding} {now : Timestamp} {findingId : Uuid}

/-- Every job that asks asked before. -/
def AsksLess (before after : Table Job) : Prop :=
  ∀ job ∈ after.rows, ∀ findingId, Asks job findingId → ∃ old ∈ before.rows, old.id = job.id ∧ Asks old findingId

theorem Invariant.jobs (invariant : Invariant before) {jobs : Table Job} (less : AsksLess before.job jobs) :
    Invariant { before with job := jobs } := by
  refine ⟨⟨fun findingId first firstMember second secondMember firstAsks secondAsks => ?_, invariant.ready,
    invariant.cited⟩, fun job member findingId asks => ?_, invariant.about⟩
  · obtain ⟨oldFirst, oldFirstMember, sameFirst, oldFirstAsks⟩ := less first firstMember findingId firstAsks
    obtain ⟨oldSecond, oldSecondMember, sameSecond, oldSecondAsks⟩ := less second secondMember findingId secondAsks
    have same := invariant.oneJob findingId oldFirst oldFirstMember oldSecond oldSecondMember oldFirstAsks oldSecondAsks
    exact Table.eq_of_key_eq firstMember secondMember (sameFirst.symm.trans ((congrArg _ same).trans sameSecond))
  · obtain ⟨old, oldMember, _, oldAsks⟩ := less job member findingId asks
    exact invariant.unready old oldMember findingId oldAsks

theorem Invariant.congr (invariant : Invariant before) (jobs : after.job = before.job)
    (findings : after.riskFinding = before.riskFinding) (explanations : after.explanation = before.explanation) :
    Invariant after := by
  obtain ⟨⟨oneJob, ready, cited⟩, unready, about⟩ := invariant
  refine ⟨⟨?_, ?_, ?_⟩, ?_, ?_⟩
  · rwa [jobs]
  · unfold explanationsOf
    rwa [findings, explanations]
  · rwa [explanations]
  · rwa [jobs, findings]
  · rwa [explanations, findings]

theorem Invariant.findings (invariant : Invariant before) {id : Uuid} {change : RiskFinding → RiskFinding}
    (kept : ∀ row, (change row).id = row.id ∧ (change row).aiStatus = row.aiStatus) :
    Invariant { before with riskFinding := before.riskFinding.update id change } := by
  have still (row : RiskFinding) (member : row ∈ before.riskFinding.rows) :
      ∃ later ∈ (before.riskFinding.update id change).rows, later.id = row.id ∧ later.aiStatus = row.aiStatus := by
    refine ⟨_, Table.mem_updateWhere.mpr ⟨row, member, rfl⟩, ?_⟩
    split
    · exact ⟨rfl, (kept row).2⟩
    · exact ⟨rfl, rfl⟩
  refine ⟨⟨invariant.oneJob, fun row member => ?_, invariant.cited⟩, fun job member findingId asks => ?_,
    fun explanation member => ?_⟩
  · rcases Table.mem_update.mp member with ⟨old, oldMember, _, rfl⟩ | ⟨old, _⟩
    · have status : (Table.assign change old).aiStatus = old.aiStatus := (kept old).2
      rw [status]
      exact invariant.ready old oldMember
    · exact invariant.ready row old
  · obtain ⟨finding, findingMember, same, unready⟩ := invariant.unready job member findingId asks
    obtain ⟨later, laterMember, sameId, sameStatus⟩ := still finding findingMember
    exact ⟨later, laterMember, sameId.trans same, sameStatus ▸ unready⟩
  · obtain ⟨finding, findingMember, same⟩ := invariant.about explanation member
    obtain ⟨later, laterMember, sameId, _⟩ := still finding findingMember
    exact ⟨later, laterMember, sameId.trans same⟩

theorem Invariant.newFinding (invariant : Invariant before) (unexplained : finding.aiStatus ≠ .ready) :
    Invariant { before with riskFinding := before.riskFinding.insert finding } := by
  have kept {row : RiskFinding} (member : row ∈ before.riskFinding.rows) :
      row ∈ (before.riskFinding.insert finding).rows := List.mem_append_left _ member
  refine ⟨⟨invariant.oneJob, fun row member => ?_, invariant.cited⟩, fun job member findingId asks => ?_,
    fun explanation member => ?_⟩
  · rcases List.mem_append.mp member with old | new
    · exact invariant.ready row old
    · rw [List.mem_singleton.mp new]
      have status : (before.riskFinding.newRow finding).aiStatus = finding.aiStatus := rfl
      rw [status, if_neg unexplained, List.length_eq_zero_iff]
      refine List.filter_eq_nil_iff.mpr fun explanation isStored same => ?_
      obtain ⟨subject, subjectMember, isSubject⟩ := invariant.about explanation isStored
      have below : subject.id < before.riskFinding.freshKey := Table.key_lt_freshKey subjectMember
      rw [isSubject, of_decide_eq_true same] at below
      exact Nat.lt_irrefl _ below
  · obtain ⟨subject, subjectMember, rest⟩ := invariant.unready job member findingId asks
    exact ⟨subject, kept subjectMember, rest⟩
  · obtain ⟨subject, subjectMember, rest⟩ := invariant.about explanation member
    exact ⟨subject, kept subjectMember, rest⟩

/-! ## Detection -/

theorem not_asks_of_unqueued (unqueued : explanationQueued finding before = false) :
    ∀ job ∈ before.job.rows, ¬ Asks job finding.id := by
  intro job member asks
  have queued : explanationQueued finding before = true :=
    List.any_eq_true.mpr ⟨job, member, by simpa [Asks, explanationKind] using asks⟩
  rw [unqueued] at queued
  cases queued

theorem Invariant.requested (invariant : Invariant before) (member : finding ∈ before.riskFinding.rows)
    (requested : Requested now finding before after) : Invariant after := by
  cases requested with
  | already _ => exact invariant
  | enqueued missing =>
      obtain ⟨unready, unqueued⟩ := not_or.mp missing
      have nobody := not_asks_of_unqueued (Bool.eq_false_iff.mpr unqueued)
      have only {findingId : Uuid} (asks : Asks (before.job.newRow (explanationJob now finding)) findingId) :
          findingId = finding.id := (Option.some.inj asks.2.1).symm
      refine ⟨⟨fun findingId first firstMember second secondMember firstAsks secondAsks => ?_, invariant.ready,
        invariant.cited⟩, fun job jobMember findingId asks => ?_, invariant.about⟩
      · rcases List.mem_append.mp firstMember with firstOld | firstNew
        · rcases List.mem_append.mp secondMember with secondOld | secondNew
          · exact invariant.oneJob findingId first firstOld second secondOld firstAsks secondAsks
          · obtain rfl := only (List.mem_singleton.mp secondNew ▸ secondAsks)
            exact absurd firstAsks (nobody first firstOld)
        · rcases List.mem_append.mp secondMember with secondOld | secondNew
          · obtain rfl := only (List.mem_singleton.mp firstNew ▸ firstAsks)
            exact absurd secondAsks (nobody second secondOld)
          · exact (List.mem_singleton.mp firstNew).trans (List.mem_singleton.mp secondNew).symm
      · rcases List.mem_append.mp jobMember with old | new
        · exact invariant.unready job old findingId asks
        · obtain rfl := only (List.mem_singleton.mp new ▸ asks)
          exact ⟨finding, member, rfl, unready⟩

theorem Invariant.applied (invariant : Invariant before) {enterpriseId : Uuid} {candidate : RiskCandidate}
    {itemId supplierId : Option Uuid}
    (applied : Applied now enterpriseId candidate itemId supplierId before finding after) : Invariant after := by
  obtain ⟨middle, first, requested⟩ := applied.steps
  obtain ⟨ids, same, _⟩ := withEvidence_eq candidate finding itemId supplierId middle
  rw [same] at requested
  have found : Invariant middle := by
    cases first with
    | found _ => exact invariant
    | created _ => exact invariant.newFinding nofun
  have linked : Invariant (addLinks finding ids middle) := found.congr rfl rfl rfl
  exact linked.requested first.member requested

theorem Invariant.detected (invariant : Invariant before) {enterpriseId : Uuid} {results : List RiskFinding}
    (ran : Analysis.detectRisks now enterpriseId before = .ok results after) : Invariant after := by
  rw [detectRisks_eq] at ran
  refine foldlM_ok_invariant (fun _ db => Invariant db) (fun _ probe _ _ _ invariant ran => ?_) invariant ran
  cases runProbe_ok ran with
  | quiet _ => exact invariant
  | applied _ step => exact invariant.applied step

/-! ## Explanations -/

theorem Invariant.unexplained (invariant : Invariant before) (member : job ∈ before.job.rows)
    (asks : Asks job findingId) : explanationsOf before findingId = [] := by
  obtain ⟨finding, findingMember, rfl, unready⟩ := invariant.unready job member findingId asks
  have count := invariant.ready finding findingMember
  rwa [if_neg unready, List.length_eq_zero_iff] at count

theorem Invariant.asks_others (invariant : Invariant before) (member : job ∈ before.job.rows)
    (asks : Asks job findingId) {other : Job} {otherId : Uuid}
    (otherMember : other ∈ (before.job.update job.id done).rows) (otherAsks : Asks other otherId) :
    other ∈ before.job.rows ∧ otherId ≠ findingId := by
  rcases Table.mem_update.mp otherMember with ⟨old, _, _, rfl⟩ | ⟨old, different⟩
  · obtain ⟨_, _, pending | running⟩ := otherAsks
    · cases pending
    · cases running
  · refine ⟨old, ?_⟩
    rintro rfl
    exact different (congrArg _ (invariant.oneJob otherId other old job member otherAsks asks))

theorem Invariant.settled (invariant : Invariant before) (member : job ∈ before.job.rows) (asks : Asks job findingId)
    {aiStatus : AiStatus} {explanations : Table Explanation}
    (count : (explanations.rows.filter (·.subjectId = findingId)).length = if aiStatus = .ready then 1 else 0)
    (others : ∀ id, id ≠ findingId → explanations.rows.filter (·.subjectId = id) = explanationsOf before id)
    (cited : ∀ explanation ∈ explanations.rows, explanation.dataUsed ≠ [])
    (about : ∀ explanation ∈ explanations.rows, ∃ finding ∈ before.riskFinding.rows,
      finding.id = explanation.subjectId) :
    Invariant { before with
      explanation := explanations
      riskFinding := before.riskFinding.update findingId (withAiStatus now aiStatus)
      job := before.job.update job.id done } := by
  have still (row : RiskFinding) (rowMember : row ∈ before.riskFinding.rows) :
      ∃ later ∈ (before.riskFinding.update findingId (withAiStatus now aiStatus)).rows, later.id = row.id ∧
        (row.id ≠ findingId → later = row) := by
    by_cases hit : row.id = findingId
    · exact ⟨_, Table.mem_update.mpr (.inl ⟨row, rowMember, hit, rfl⟩), rfl, fun different => absurd hit different⟩
    · exact ⟨row, Table.mem_update.mpr (.inr ⟨rowMember, hit⟩), rfl, fun _ => rfl⟩
  refine ⟨⟨fun id first firstMember second secondMember firstAsks secondAsks => ?_, fun row rowMember => ?_, cited⟩,
    fun other otherMember otherId otherAsks => ?_, fun explanation isStored => ?_⟩
  · obtain ⟨firstOld, _⟩ := invariant.asks_others member asks firstMember firstAsks
    obtain ⟨secondOld, _⟩ := invariant.asks_others member asks secondMember secondAsks
    exact invariant.oneJob id first firstOld second secondOld firstAsks secondAsks
  · rcases Table.mem_update.mp rowMember with ⟨old, _, hit, rfl⟩ | ⟨old, different⟩
    · have key : (Table.assign (withAiStatus now aiStatus) old).id = findingId := hit
      have status : (Table.assign (withAiStatus now aiStatus) old).aiStatus = aiStatus := withAiStatus_aiStatus now aiStatus old
      rw [key, status]
      exact count
    · change (explanations.rows.filter (·.subjectId = row.id)).length = _
      rw [others row.id different]
      exact invariant.ready row old
  · obtain ⟨old, different⟩ := invariant.asks_others member asks otherMember otherAsks
    obtain ⟨finding, findingMember, same, unready⟩ := invariant.unready other old otherId otherAsks
    obtain ⟨later, laterMember, sameId, unchanged⟩ := still finding findingMember
    exact ⟨later, laterMember, sameId.trans same, unchanged (same.trans_ne different) ▸ unready⟩
  · obtain ⟨finding, findingMember, same⟩ := about explanation isStored
    obtain ⟨later, laterMember, sameId, _⟩ := still finding findingMember
    exact ⟨later, laterMember, sameId.trans same⟩

/-! ## Jobs -/

theorem asksLess_done (jobs : Table Job) (jobId : Uuid) : AsksLess jobs (jobs.update jobId done) := by
  intro job member findingId asks
  rcases Table.mem_update.mp member with ⟨old, _, _, rfl⟩ | ⟨old, _⟩
  · obtain ⟨_, _, pending | running⟩ := asks
    · cases pending
    · cases running
  · exact ⟨job, old, rfl, asks⟩

theorem asksLess_failed {jobs : Table Job} (stored : jobs.find? job.id = some job) (running : job.status = .running)
    (error : String) : AsksLess jobs (jobs.update job.id fun _ => failedOrRetried now error job) := by
  intro changed member findingId asks
  rcases Table.mem_update.mp member with ⟨old, oldMember, hit, rfl⟩ | ⟨old, _⟩
  · have same : Table.assign (fun _ => failedOrRetried now error job) old = failedOrRetried now error job :=
      Table.assign_eq (failedOrRetried_id.trans hit.symm)
    rw [same] at asks ⊢
    exact ⟨job, (Table.find?_some stored).1, failedOrRetried_id.symm, failedOrRetried_kind ▸ asks.1,
      failedOrRetried_payload ▸ asks.2.1, .inr running⟩
  · exact ⟨changed, old, rfl, asks⟩

theorem asksLess_claimed (jobs : Table Job) (workerId : String) (limit : Nat) :
    AsksLess jobs (claimRows jobs workerId now limit) := by
  intro job member findingId asks
  obtain ⟨old, oldMember, rfl⟩ := mem_claimRows.mp member
  by_cases isDue : old ∈ dueJobs jobs now limit
  · rw [if_pos isDue] at asks ⊢
    exact ⟨old, oldMember, rfl, asks.1, asks.2.1, .inl (due_iff.mp (mem_of_mem_dueJobs isDue).2).1⟩
  · rw [if_neg isDue] at asks ⊢
    exact ⟨old, oldMember, rfl, asks⟩

/-- Findings and explanations stay, and nobody asks for an explanation. -/
def unasking : Frame DB :=
  (Frame.fixes fun db : DB => (db.riskFinding, db.explanation)).both (adds fun job => job.kind ≠ explanationKind)

theorem unasking_of_same (findings : after.riskFinding = before.riskFinding)
    (explanations : after.explanation = before.explanation) (jobs : after.job = before.job) :
    unasking.rel before after :=
  ⟨Prod.ext findings explanations, adds_of_same jobs⟩

theorem Invariant.unasked (invariant : Invariant before) (frame : unasking.rel before after) : Invariant after := by
  obtain ⟨same, added, rows, kinds⟩ := frame
  obtain ⟨findings, explanations⟩ := Prod.mk.inj same
  have less : AsksLess before.job after.job := by
    intro job member findingId asks
    rw [rows] at member
    rcases List.mem_append.mp member with old | new
    · exact ⟨job, old, rfl, asks⟩
    · exact absurd asks.1 (kinds job new)
  exact (invariant.jobs less).congr rfl findings explanations

/-! ## Handlers -/

theorem newJob_other (table : Table Job) (now : Timestamp) {kind : String} (other : kind ≠ explanationKind)
    (payload : Payload) (runAt : Option Timestamp) (enterpriseId : Option Uuid) (maxAttempts : Int) :
    (table.newRow (newJob now kind payload runAt enterpriseId maxAttempts)).kind ≠ explanationKind := other

theorem unasking_enqueue {kind : String} {payload : Payload} {runAt : Option Timestamp} {enterpriseId : Option Uuid}
    {maxAttempts : Int} (other : kind ≠ explanationKind) :
    Follows unasking (enqueue now kind payload runAt enterpriseId maxAttempts) :=
  follows_write fun before =>
    ⟨rfl, adds_insert (newJob_other before.job now other payload runAt enterpriseId maxAttempts) rfl⟩

theorem unasking_sync (dataSourceId : Uuid) : Integration.SyncFrame dataSourceId unasking where
  signal _ _ := unasking_of_same rfl rfl rfl
  insert _ _ _ _ := unasking_of_same rfl rfl rfl
  update _ _ _ _ _ := unasking_of_same rfl rfl rfl
  source _ _ _ := unasking_of_same rfl rfl rfl
  gaps _ _ := unasking_of_same rfl rfl rfl
  job db now enterpriseId progress := ⟨rfl, adds_insert (newJob_other db.job now (by decide) _ none _ _) rfl⟩

theorem suggestMappingHandler_unasking (outside : Outside) (now : Timestamp) (job : Job) :
    Follows unasking (suggestMappingHandler outside now job) := by
  have allowed : Integration.SuggestionFrame unasking :=
    ⟨fun _ _ => unasking_of_same rfl rfl rfl, fun _ _ => unasking_of_same rfl rfl rfl,
      fun _ _ _ => unasking_of_same rfl rfl rfl⟩
  exact (follows_lift _).bind fun enterpriseId => (follows_lift _).bind fun dataSourceId =>
    (Integration.suggestMappingsForSource_follows allowed now _ enterpriseId dataSourceId).bind fun _ =>
      follows_pure _

theorem recomputeAggregatesHandler_unasking (now : Timestamp) (job : Job) :
    Follows unasking (recomputeAggregatesHandler now job) := by
  have writes (enterpriseId : Uuid) :
      Follows unasking (Observation.recomputeAggregates now enterpriseId job.payload.itemIds) := by
    intro before
    obtain ⟨table, same⟩ := Observation.recomputeAggregates_follows job.payload.itemIds before
    rw [same]
    exact unasking_of_same rfl rfl rfl
  exact (follows_lift _).bind fun enterpriseId => (writes enterpriseId).bind fun _ =>
    unasking_enqueue (by decide)

theorem observeSourceHandler_unasking {outside : Outside} {done : PUnit}
    (ran : observeSourceHandler outside now job before = .ok done after) : unasking.rel before after := by
  simp only [observeSourceHandler, bind_eq_ok, lift_eq_ok, read_eq_ok] at ran
  obtain ⟨enterpriseId, _, ⟨_, rfl⟩, dataSourceId, _, ⟨_, rfl⟩, _, synced, syncRan, found, _, ⟨_, rfl⟩, ran⟩ := ran
  refine unasking.trans (Integration.syncSource_frame (unasking_sync dataSourceId) syncRan) ?_
  cases found with
  | none => exact (pure_eq_ok.mp ran).2 ▸ unasking.refl _
  | some source => exact (unasking_enqueue (by decide)).ok ran

theorem handlers_unasking {outside : Job → Outside} {kind : String} {handler : Handler}
    (registered : handlers outside kind = some handler) (noExplanation : kind ≠ explanationKind)
    (noDetection : kind ≠ "detect_risks") (ran : handler.run now job before = .ok ⟨⟩ after) :
    unasking.rel before after := by
  unfold handlers at registered
  split at registered
  · obtain rfl := Option.some.inj registered
    exact (pure_eq_ok.mp ran).2 ▸ unasking.refl _
  · obtain rfl := Option.some.inj registered
    exact (suggestMappingHandler_unasking _ now job).ok ran
  · obtain rfl := Option.some.inj registered
    exact observeSourceHandler_unasking ran
  · obtain rfl := Option.some.inj registered
    exact (recomputeAggregatesHandler_unasking now job).ok ran
  · exact absurd rfl noDetection
  · exact absurd rfl noExplanation
  · cases registered

/-! ## Running a job -/

/-- What a job that explains a finding leaves: an explanation that cites evidence
of the finding, or the mark that the AI is unavailable. -/
inductive ExplanationRun (now : Timestamp) (findingId : Uuid) (before : DB) : DB → Prop where
  | explained {finding : RiskFinding} {stored : Explanation}
      (found : before.riskFinding.find? findingId = some finding) (subject : stored.subjectId = findingId)
      (some : stored.dataUsed ≠ []) (grounded : ∀ ref ∈ stored.dataUsed, ref ∈ evidencePayloads finding before) :
      ExplanationRun now findingId before { before with
        explanation := before.explanation.insert stored
        riskFinding := before.riskFinding.update findingId (withAiStatus now .ready) }
  | unavailable {middle : DB} (reported : reportsOnly.rel before middle) :
      ExplanationRun now findingId before { middle with
        riskFinding := middle.riskFinding.update findingId (withAiStatus now .unavailable) }

theorem generateExplanationHandler_ok {outside : Outside} {done : PUnit}
    (ran : generateExplanationHandler outside now job before = .ok done after) :
    ∃ findingId, job.payload.riskFindingId = some findingId ∧ ExplanationRun now findingId before after := by
  have named {ref : Option Uuid} {field : String} {id : Uuid} (given : required field ref = .ok id) : ref = some id := by
    cases ref with
    | none => cases given
    | some other => rw [Except.ok.inj given]
  unfold generateExplanationHandler handle at ran
  split at ran
  · next body value middle bodyRan =>
    cases ran
    simp only [bind_eq_ok, lift_eq_ok, pure_eq_ok] at bodyRan
    obtain ⟨enterpriseId, _, ⟨_, rfl⟩, findingId, _, ⟨given, rfl⟩, explanation, _, explained, _, rfl⟩ := bodyRan
    obtain ⟨finding, stored, found, subject, some, grounded, rfl⟩ := explainRisk_ok explained
    exact ⟨findingId, named given, .explained found subject some grounded⟩
  · next body reason middle bodyRan =>
    cases reason with
    | llmUnavailable message =>
        obtain ⟨_, rfl⟩ := pure_eq_ok.mp ran
        simp only [bind_eq_error, lift_eq_error, lift_eq_ok, pure_eq_error, and_false, exists_false, or_false] at bodyRan
        rcases bodyRan with ⟨missing, _⟩ | ⟨enterpriseId, _, ⟨_, rfl⟩, ⟨missing, _⟩ | ⟨findingId, _, ⟨given, rfl⟩, failed⟩⟩
        · cases enterprise : job.payload.enterpriseId <;> simp [required, enterprise] at missing
        · cases finding : job.payload.riskFindingId <;> simp [required, finding] at missing
        · obtain ⟨finding, middle, _, reported, rfl⟩ := explainRisk_unavailable failed
          exact ⟨findingId, named given, .unavailable reported⟩
    | _ => simp at ran

/-- The ways in which a claimed job leaves the committed state. -/
inductive Ran (now : Timestamp) (job : Job) (before : DB) : DB → Prop where
  | requeued {jobs : Table Job} (less : AsksLess before.job jobs) : Ran now job before { before with job := jobs }
  | unasked {middle : DB} (frame : unasking.rel before middle) :
      Ran now job before { middle with job := middle.job.update job.id done }
  | detected {enterpriseId : Uuid} {results : List RiskFinding} {middle : DB} (kind : job.kind ≠ explanationKind)
      (ran : Analysis.detectRisks now enterpriseId before = .ok results middle) :
      Ran now job before { middle with job := middle.job.update job.id done }
  | explained {findingId : Uuid} {middle : DB} (asks : Asks job findingId)
      (ran : ExplanationRun now findingId before middle) :
      Ran now job before { middle with job := middle.job.update job.id done }

theorem handler_ran {outside : Job → Outside} {handler : Handler} (running : job.status = .running)
    (registered : handlers outside job.kind = some handler) (ran : handler.run now job before = .ok ⟨⟩ after) :
    Ran now job before { after with job := after.job.update job.id done } := by
  by_cases explains : job.kind = explanationKind
  · rw [explains] at registered
    obtain rfl := Option.some.inj registered
    obtain ⟨findingId, named, explained⟩ := generateExplanationHandler_ok ran
    exact .explained ⟨explains, named, .inr running⟩ explained
  · by_cases detects : job.kind = "detect_risks"
    · rw [detects] at registered
      obtain rfl := Option.some.inj registered
      have body : detectRisksHandler now job before = .ok ⟨⟩ after := ran
      simp only [detectRisksHandler, bind_eq_ok, lift_eq_ok, pure_eq_ok] at body
      obtain ⟨enterpriseId, _, ⟨_, rfl⟩, results, _, detected, _, rfl⟩ := body
      exact .detected explains detected
    · exact .unasked (handlers_unasking registered explains detects ran)

theorem runJob_ran {runtime : Runtime} {outside : Job → Outside} (stored : before.job.find? job.id = some job)
    (running : job.status = .running) :
    Ran now job before (Worker.runJob runtime (handlers outside) now job before).2 := by
  have ended : JobRun runtime (handlers outside) now job before _ := runJob_cases stored
  generalize Worker.runJob runtime (handlers outside) now job before = result at ended ⊢
  cases ended with
  | unknown _ error => exact .requeued (asksLess_failed stored running error)
  | finished registered ran => exact handler_ran running registered ran
  | failed _ _ _ error => exact .requeued (asksLess_failed stored running error)
  | escaped _ _ _ => exact .requeued fun job member findingId asks => ⟨job, member, rfl, asks⟩

theorem Invariant.ran (invariant : Invariant before) (stored : before.job.find? job.id = some job)
    (ran : Ran now job before after) : Invariant after := by
  have member := (Table.find?_some stored).1
  cases ran with
  | requeued less => exact invariant.jobs less
  | unasked frame => exact (invariant.unasked frame).jobs (asksLess_done _ _)
  | detected _ ran => exact (invariant.detected ran).jobs (asksLess_done _ _)
  | @explained findingId _ asks ran =>
      have none := invariant.unexplained member asks
      cases ran with
      | @explained finding stored found subject some grounded =>
          have added (id : Uuid) : (before.explanation.insert stored).rows.filter (·.subjectId = id) =
              explanationsOf before id ++ if findingId = id then [before.explanation.newRow stored] else [] := by
            have about : (before.explanation.newRow stored).subjectId = findingId := subject
            rw [Table.filter_insert]
            simp only [about, decide_eq_true_eq]
            rfl
          refine invariant.settled member asks ?_ (fun id different => ?_) (fun explanation isStored => ?_)
            fun explanation isStored => ?_
          · rw [added, none, if_pos rfl]
            rfl
          · rw [added, if_neg different.symm, List.append_nil]
          · rcases List.mem_append.mp isStored with old | new
            · exact invariant.cited explanation old
            · rw [List.mem_singleton.mp new]
              exact some
          · rcases List.mem_append.mp isStored with old | new
            · exact invariant.about explanation old
            · obtain ⟨findingMember, key⟩ := Table.find?_some found
              rw [List.mem_singleton.mp new]
              exact ⟨finding, findingMember, key.trans subject.symm⟩
      | unavailable reported =>
          obtain ⟨gaps, records, rfl⟩ := reported
          have count : (before.explanation.rows.filter (·.subjectId = findingId)).length =
              if AiStatus.unavailable = .ready then 1 else 0 := congrArg List.length none
          exact (invariant.settled member asks count (fun _ _ => rfl) invariant.cited invariant.about).congr rfl rfl rfl

/-! ## What one event writes -/

/-- A new explanation cites evidence that its finding had when it was written. -/
def Grounded (before after : DB) : Prop :=
  ∀ explanation ∈ after.explanation.rows, explanation ∈ before.explanation.rows ∨
    ∃ finding ∈ before.riskFinding.rows, explanation.subjectId = finding.id ∧
      ∀ ref ∈ explanation.dataUsed, ref ∈ evidencePayloads finding before

/-- A finding apart from its `ai_status`. -/
def withoutStatus (finding : RiskFinding) : RiskFinding := { finding with aiStatus := .pending }

/-- A finding apart from its `ai_status` and its `updated_at`. -/
def withoutUpdate (finding : RiskFinding) : RiskFinding := { finding with aiStatus := .pending, updatedAt := 0 }

/-- The findings are the same as far as they are looked at. -/
def Unchanged (view : RiskFinding → RiskFinding) (before after : DB) : Prop :=
  after.riskFinding.rows.map view = before.riskFinding.rows.map view

theorem grounded_of_same (same : after.explanation = before.explanation) : Grounded before after :=
  fun _ member => .inl (same ▸ member)

theorem withoutUpdate_withAiStatus (now : Timestamp) (aiStatus : AiStatus) (row : RiskFinding) :
    withoutUpdate (withAiStatus now aiStatus row) = withoutUpdate row := by
  unfold withAiStatus
  split <;> rfl

theorem unchanged_update (findings : Table RiskFinding) (now : Timestamp) (id : Uuid) (aiStatus : AiStatus) :
    (findings.update id (withAiStatus now aiStatus)).rows.map withoutUpdate = findings.rows.map withoutUpdate := by
  rw [Table.update, Table.updateWhere, List.map_map]
  refine List.map_congr_left fun row _ => ?_
  simp only [Function.comp_apply]
  split
  · have assigned : Table.assign (withAiStatus now aiStatus) row = withAiStatus now aiStatus row :=
      Table.assign_eq (withAiStatus_id now aiStatus row)
    rw [assigned, withoutUpdate_withAiStatus]
  · rfl

theorem Ran.grounded (ran : Ran now job before after) : Grounded before after := by
  cases ran with
  | requeued _ => exact grounded_of_same rfl
  | unasked frame => exact grounded_of_same (Prod.mk.inj frame.1).2
  | detected _ ran =>
      obtain ⟨_, _, _, rfl⟩ := (detectRisks_ok ran).only
      exact grounded_of_same rfl
  | @explained findingId _ asks ran =>
      cases ran with
      | @explained finding stored found subject _ grounded =>
          intro explanation member
          rcases List.mem_append.mp member with old | new
          · exact .inl old
          · obtain ⟨findingMember, key⟩ := Table.find?_some found
            rw [List.mem_singleton.mp new]
            exact .inr ⟨finding, findingMember, subject.trans key.symm, grounded⟩
      | unavailable reported =>
          obtain ⟨gaps, records, rfl⟩ := reported
          exact grounded_of_same rfl

theorem Ran.unchanged (ran : Ran now job before after) (explains : job.kind = explanationKind) :
    Unchanged withoutUpdate before after := by
  cases ran with
  | requeued _ => rfl
  | unasked frame => exact congrArg (fun findings => findings.rows.map withoutUpdate) (Prod.mk.inj frame.1).1
  | detected other _ => exact absurd explains other
  | explained _ ran =>
      cases ran with
      | explained _ _ _ _ => exact unchanged_update _ _ _ _
      | unavailable reported =>
          obtain ⟨gaps, records, rfl⟩ := reported
          exact unchanged_update _ _ _ _

end Steps

/-! ## Events -/

/-- The event runs a job that is to explain a finding. -/
def Explains (db : DB) (event : Event) : Prop :=
  ∃ outside now jobId job, event = .runJob outside now jobId ∧ db.job.find? jobId = some job ∧
    job.kind = explanationKind

/-- What an event may write of explanations. -/
structure WritesExplanations (before : DB) (event : Event) (after : DB) : Prop where
  grounded : Grounded before after
  statusOnly : Explains before event → Unchanged withoutUpdate before after

section Events

variable {runtime : Runtime} {before : DB}

theorem Invariant.step (invariant : Invariant before) (event : Event) :
    Invariant (Explanations.step runtime before event) := by
  cases event with
  | detectRisks now enterpriseId => exact transact_preserves invariant fun _ _ ran => invariant.detected ran
  | dismissRisk now user riskId body =>
      refine transact_preserves invariant fun _ _ ran => ?_
      obtain ⟨_, records, rfl⟩ := Api.dismissRisk_ok ran
      have kept (row : RiskFinding) : (Api.dismissed now user body.reason row).id = row.id ∧
          (Api.dismissed now user body.reason row).aiStatus = row.aiStatus := ⟨rfl, rfl⟩
      exact (invariant.findings kept).congr rfl rfl rfl
  | claimDue now workerId limit => exact invariant.jobs (asksLess_claimed before.job workerId limit)
  | runJob outside now jobId =>
      simp only [Explanations.step]
      split
      · exact invariant
      · next job found =>
        obtain rfl : job.id = jobId := (Table.find?_some found).2
        split
        · next running => exact invariant.ran found (runJob_ran found running)
        · exact invariant

theorem step_writes (runtime : Runtime) (before : DB) (event : Event) :
    WritesExplanations before event (step runtime before event) := by
  cases event with
  | detectRisks now enterpriseId =>
      refine ⟨?_, fun ⟨_, _, _, _, isRun, _⟩ => nomatch isRun⟩
      refine transact_preserves (grounded_of_same rfl) fun _ _ ran => ?_
      obtain ⟨_, _, _, rfl⟩ := (detectRisks_ok ran).only
      exact grounded_of_same rfl
  | dismissRisk now user riskId body =>
      refine ⟨?_, fun ⟨_, _, _, _, isRun, _⟩ => nomatch isRun⟩
      refine transact_preserves (grounded_of_same rfl) fun _ _ ran => ?_
      obtain ⟨_, records, rfl⟩ := Api.dismissRisk_ok ran
      exact grounded_of_same rfl
  | claimDue now workerId limit =>
      exact ⟨grounded_of_same rfl, fun ⟨_, _, _, _, isRun, _⟩ => nomatch isRun⟩
  | runJob outside now jobId =>
      simp only [step]
      split
      · next missing => exact ⟨grounded_of_same rfl, fun _ => rfl⟩
      · next job found =>
        obtain rfl : job.id = jobId := (Table.find?_some found).2
        split
        · next running =>
          have ran : Ran now job before (Worker.runJob runtime (handlers outside) now job before).2 :=
            runJob_ran found running
          refine ⟨ran.grounded, ?_⟩
          rintro ⟨_, _, _, stored, ⟨⟩, isStored, explains⟩
          obtain rfl := Option.some.inj (found.symm.trans isStored)
          exact ran.unchanged explains
        · exact ⟨grounded_of_same rfl, fun _ => rfl⟩

/-! ## One call of `process_once` -/

theorem step_runJob {outside : Job → Outside} {now : Timestamp} {job : Job} {db : DB}
    (stored : db.job.find? job.id = some job) (running : job.status = .running) :
    step runtime db (.runJob outside now job.id) = (Worker.runJob runtime (handlers outside) now job db).2 := by
  simp only [step, stored, if_pos running]

theorem processJobs_events {outside : Job → Outside} {clock : Clock} {jobs : List Job} {db : DB}
    (holds : Holds clock jobs db) (running : ∀ job ∈ jobs, job.status = .running) (kind : Option String)
    (processed : Nat) :
    ∃ events : List Event, (processJobs runtime (handlers outside) clock kind jobs processed db).2 =
      events.foldl (step runtime) db := by
  induction jobs generalizing processed db with
  | nil => exact ⟨[], rfl⟩
  | cons job rest ih =>
      have stored := holds.stored job List.mem_cons_self
      have others (other : Job) (member : other ∈ rest) := running other (List.mem_cons_of_mem _ member)
      rw [processJobs]
      split
      · exact ih (holds.sublist (List.sublist_cons_self _ _)) others processed
      · have ran : step runtime db (.runJob outside (clock.run job.id) job.id) =
            (Worker.runJob runtime (handlers outside) (clock.run job.id) job db).2 :=
          step_runJob stored (running job List.mem_cons_self)
        have later : Holds clock rest (Worker.runJob runtime (handlers outside) (clock.run job.id) job db).2 :=
          holds.next
        rw [stored]
        simp only
        generalize Worker.runJob runtime (handlers outside) (clock.run job.id) job db = result at ran later ⊢
        obtain ⟨ended, after⟩ := result
        cases ended with
        | error reason => exact ⟨[.runJob outside (clock.run job.id) job.id], ran.symm⟩
        | ok done =>
            obtain ⟨events, same⟩ := ih later others (processed + 1)
            refine ⟨.runJob outside (clock.run job.id) job.id :: events, ?_⟩
            rw [List.foldl_cons, ran]
            exact same

theorem processOnce_events (runtime : Runtime) (outside : Job → Outside) (clock : Clock) (workerId : String)
    (kind : Option String) (limit : Nat) (db : DB) :
    ∃ events : List Event, (processOnce runtime (handlers outside) clock workerId kind limit db).2 =
      events.foldl (step runtime) db := by
  have running (job : Job) (member : job ∈ batch clock workerId limit db) : job.status = .running := by
    obtain ⟨old, _, rfl⟩ := mem_batch.mp member
    rfl
  obtain ⟨events, same⟩ := processJobs_events (batch_holds clock workerId limit db) running kind 0
  exact ⟨.claimDue clock.claim workerId limit :: events, same⟩

end Events

/-- Nothing has been detected yet. -/
structure Undetected (db : DB) : Prop where
  findings : db.riskFinding.rows = []
  explanations : db.explanation.rows = []
  jobs : ∀ job ∈ db.job.rows, job.kind ≠ explanationKind

theorem Undetected.invariant {db : DB} (undetected : Undetected db) : Invariant db := by
  refine ⟨⟨fun findingId first member _ _ asks _ => absurd asks.1 (undetected.jobs first member), ?_, ?_⟩,
    fun job member findingId asks => absurd asks.1 (undetected.jobs job member), ?_⟩
  · simp [undetected.findings]
  · simp [undetected.explanations]
  · simp [undetected.explanations]

/-- After any events each finding has one explanation when it is ready and none
otherwise, and at most one job to explain it; every explanation cites what was
evidence when it was written, and writing it changes no finding but its status and
the time of its update. -/
theorem lifecycle_of_events (runtime : Runtime) (initial : DB) (undetected : Undetected initial)
    (events : List Event) :
    Lifecycle (events.foldl (step runtime) initial) ∧
      Along (step runtime) (fun before event => WritesExplanations before event (step runtime before event)) initial
        events := by
  refine ⟨?_, along_of_forall (step_writes runtime)⟩
  have invariant : Invariant (events.foldl (step runtime) initial) := by
    generalize reached : events.foldl (step runtime) initial = db
    have run := run_foldl (step runtime) initial events
    rw [reached] at run
    refine run.invariant Invariant undetected.invariant ?_
    rintro before event _ invariant rfl
    exact invariant.step event
  exact invariant.toLifecycle

def cites (ref : EvidenceRef) : Outside :=
  { offline with
    explanation := fun _ => .usable {
      what := "price doubled"
      why := "the last two prices"
      dataUsed := [ref]
      dataUsedNonempty := List.cons_ne_nil _ _
      factors := []
      confidence := 1
      confidenceRange := by decide } }

/-- The doubled price, with the signal that reported it. -/
def signalledJump : DB :=
  { priceJump with
    observationSignal := Table.empty.insert {
      id := 0
      enterpriseId := 1
      dataSourceId := 1
      signalType := .priceChange
      itemId := some 1
      supplierId := none
      payload := { entity := .price, attr := "price", old := some (.finite 1), new := some (.finite 2) }
      observedAt := 0
      ingestedAt := 0 } }

/-- The first explanation cites a signal that does not exist; after a second
detection another job cites the one that does. -/
theorem lifecycle_of_priceJump :
    let events := [Event.detectRisks 0 1, .claimDue 1 "worker" 5, .runJob (fun _ => cites ⟨.observationSignal, .id 9⟩) 2 1,
      .detectRisks 3 1, .claimDue 4 "worker" 5, .runJob (fun _ => cites ⟨.observationSignal, .id 1⟩) 5 2]
    let db := events.foldl (step (runtime true)) signalledJump
    (db.riskFinding.rows.map (·.aiStatus) = [.ready] ∧ db.job.rows.map (·.status) = [.done, .done] ∧
      db.explanation.rows.length = 1) ∧
    Lifecycle db ∧
      Along (step (runtime true)) (fun before event => WritesExplanations before event (step (runtime true) before event))
        signalledJump events :=
  ⟨by decide +kernel, lifecycle_of_events _ _ ⟨rfl, rfl, fun _ member => absurd member List.not_mem_nil⟩ _⟩

/-- The explanation of a finding moves its `updated_at`. -/
theorem explanation_moves_updatedAt :
    let event := Event.runJob (fun _ => cites ⟨.observationSignal, .id 1⟩) 2 1
    let db := [Event.detectRisks 0 1, .claimDue 1 "worker" 5].foldl (step (runtime true)) signalledJump
    Explains db event ∧ ¬ Unchanged withoutStatus db (step (runtime true) db event) := by
  intro event db
  have claimed : (db.job.find? 1).map (·.kind) = some explanationKind := by decide +kernel
  obtain ⟨job, found, kind⟩ := Option.map_eq_some_iff.mp claimed
  refine ⟨⟨_, _, _, job, rfl, found, kind⟩, ?_⟩
  unfold Unchanged
  decide +kernel

end SmartProcurement.Worker.Explanations
