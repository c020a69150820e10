import SmartProcurement.Analysis.Explain
import SmartProcurement.Integration.MappingAi

namespace SmartProcurement.Jobs

open Relational Transaction

/-! # Job handlers

A handler runs inside the worker's transaction and never commits.  The registry
binds each kind of job to its handler.
-/

/-- The outside of the process as one job meets it. -/
structure Outside where
  connectors : Integration.Connectors
  suggestions : Ai.Provider Ai.MappingSuggestionSet
  explanation : Ai.Provider Ai.RiskExplanation

/-- A handler that returns has at most added jobs to the queue. -/
structure Handler where
  run : Timestamp → Job → Session PUnit
  adds : ∀ {now job before after}, run now job before = .ok ⟨⟩ after →
    (Jobs.adds Unclaimed).rel before after

/-- `HANDLERS`, as `register` fills it. -/
abbrev Registry := String → Option Handler

/-- `uuid.UUID(payload[field])`. -/
def required (field : String) : Option Uuid → Except Error Uuid
  | none => .error (.other ("KeyError('" ++ field ++ "')"))
  | some id => .ok id

/-! ## The bodies -/

def noop : Session PUnit := return ⟨⟩

def suggestMappingHandler (outside : Outside) (now : Timestamp) (job : Job) : Session PUnit := do
  let enterpriseId ← lift (required "enterprise_id" job.payload.enterpriseId)
  let dataSourceId ← lift (required "data_source_id" job.payload.dataSourceId)
  let _ ← Integration.suggestMappingsForSource now outside.suggestions enterpriseId dataSourceId

/-- The next run of an observation, if its source still exists. -/
def reobserve (now : Timestamp) (job : Job) (enterpriseId : Uuid) : Option DataSource → Session PUnit
  | none => return ⟨⟩
  | some source =>
      rescheduleRecurring now "observe_source" source.observationIntervalSeconds job.payload (some enterpriseId)

def observeSourceHandler (outside : Outside) (now : Timestamp) (job : Job) : Session PUnit := do
  let enterpriseId ← lift (required "enterprise_id" job.payload.enterpriseId)
  let dataSourceId ← lift (required "data_source_id" job.payload.dataSourceId)
  let _ ← Integration.syncSource now outside.connectors enterpriseId dataSourceId
  reobserve now job enterpriseId (← read fun db => db.dataSource.find? dataSourceId)

def recomputeAggregatesHandler (now : Timestamp) (job : Job) : Session PUnit := do
  let enterpriseId ← lift (required "enterprise_id" job.payload.enterpriseId)
  let _ ← Observation.recomputeAggregates now enterpriseId job.payload.itemIds
  enqueue now "detect_risks" { enterpriseId := some enterpriseId } none (some enterpriseId) defaultMaxAttempts

def detectRisksHandler (now : Timestamp) (job : Job) : Session PUnit := do
  let enterpriseId ← lift (required "enterprise_id" job.payload.enterpriseId)
  let _ ← Analysis.detectRisks now enterpriseId

/-- An unavailable AI is swallowed, so that the worker commits its fail-safe. -/
def generateExplanationHandler (outside : Outside) (now : Timestamp) (job : Job) : Session PUnit :=
  handle
    (do
      let enterpriseId ← lift (required "enterprise_id" job.payload.enterpriseId)
      let riskFindingId ← lift (required "risk_finding_id" job.payload.riskFindingId)
      let _ ← Analysis.explainRisk now outside.explanation enterpriseId riskFindingId)
    fun
      | .llmUnavailable _ => return ⟨⟩
      | reason => raise reason

/-! ## What the handlers add to the queue -/

/-- A new job of another kind than an observation. -/
structure Derived (job : Job) : Prop extends Unclaimed job where
  kind : job.kind ≠ "observe_source"

theorem newJob_derived (table : Table Job) (now : Timestamp) {kind : String} (other : kind ≠ "observe_source")
    (payload : Payload) (runAt : Option Timestamp) (enterpriseId : Option Uuid) (maxAttempts : Int) :
    Derived (table.newRow (newJob now kind payload runAt enterpriseId maxAttempts)) :=
  ⟨newJob_unclaimed .., other⟩

/-- The frame of every handler but the observation: the data sources stay, and
only derived jobs are added. -/
def derives : Frame DB := (Frame.fixes (·.dataSource)).both (adds Derived)

theorem derives_of_same {before after : DB} (sources : after.dataSource = before.dataSource)
    (jobs : after.job = before.job) : derives.rel before after := ⟨sources, adds_of_same jobs⟩

theorem derives_enqueue {now : Timestamp} {kind : String} {payload : Payload} {runAt : Option Timestamp}
    {enterpriseId : Option Uuid} {maxAttempts : Int} (other : kind ≠ "observe_source") :
    Follows derives (enqueue now kind payload runAt enterpriseId maxAttempts) :=
  follows_write fun before =>
    ⟨rfl, adds_insert (newJob_derived before.job now other payload runAt enterpriseId maxAttempts) rfl⟩

theorem suggestMappingHandler_follows {frame : Frame DB} (allowed : Integration.SuggestionFrame frame)
    (outside : Outside) (now : Timestamp) (job : Job) : Follows frame (suggestMappingHandler outside now job) :=
  (follows_lift _).bind fun enterpriseId => (follows_lift _).bind fun dataSourceId =>
    (Integration.suggestMappingsForSource_follows allowed now _ enterpriseId dataSourceId).bind fun _ =>
      follows_pure _

theorem suggestMappingHandler_derives (outside : Outside) (now : Timestamp) (job : Job) :
    Follows derives (suggestMappingHandler outside now job) :=
  suggestMappingHandler_follows
    ⟨fun _ _ => derives_of_same rfl rfl, fun _ _ => derives_of_same rfl rfl,
      fun _ _ _ => derives_of_same rfl rfl⟩ outside now job

theorem recomputeAggregatesHandler_derives (now : Timestamp) (job : Job) :
    Follows derives (recomputeAggregatesHandler now job) := by
  have writes (enterpriseId : Uuid) :
      Follows derives (Observation.recomputeAggregates now enterpriseId job.payload.itemIds) := by
    intro before
    obtain ⟨table, same⟩ := Observation.recomputeAggregates_follows job.payload.itemIds before
    rw [same]
    exact derives_of_same rfl rfl
  exact (follows_lift _).bind fun enterpriseId => (writes enterpriseId).bind fun _ =>
    derives_enqueue (by decide)

theorem detectRisksHandler_follows {frame : Frame DB} (allowed : Analysis.DetectionFrame frame)
    (now : Timestamp) (job : Job) : Follows frame (detectRisksHandler now job) :=
  (follows_lift _).bind fun enterpriseId =>
    (Analysis.detectRisks_follows allowed now enterpriseId).bind fun _ => follows_pure _

theorem detectRisksHandler_derives (now : Timestamp) (job : Job) :
    Follows derives (detectRisksHandler now job) :=
  detectRisksHandler_follows
    ⟨fun _ _ => derives_of_same rfl rfl, fun _ _ => derives_of_same rfl rfl,
      fun _ _ _ => derives_enqueue (by decide)⟩ now job

theorem generateExplanationHandler_follows {frame : Frame DB} (allowed : Analysis.ExplanationFrame frame)
    (outside : Outside) (now : Timestamp) (job : Job) :
    Follows frame (generateExplanationHandler outside now job) := by
  refine Follows.handle ?_ fun reason => ?_
  · exact (follows_lift _).bind fun enterpriseId => (follows_lift _).bind fun riskFindingId =>
      (Analysis.explainRisk_follows allowed now _ enterpriseId riskFindingId).bind fun _ => follows_pure _
  · cases reason with
    | llmUnavailable message => exact follows_pure _
    | _ => exact follows_raise _

theorem generateExplanationHandler_derives (outside : Outside) (now : Timestamp) (job : Job) :
    Follows derives (generateExplanationHandler outside now job) :=
  generateExplanationHandler_follows
    ⟨fun _ _ => derives_of_same rfl rfl, fun _ _ => derives_of_same rfl rfl,
      fun _ _ _ _ => derives_of_same rfl rfl, fun _ _ => derives_of_same rfl rfl⟩ outside now job

/-- Syncing keeps every data source and adds derived jobs only. -/
def keepsSources : Frame DB :=
  Frame.both
    { rel := fun before after => ∀ id, (after.dataSource.find? id).isSome = (before.dataSource.find? id).isSome
      refl := fun _ _ => rfl
      trans := fun first second id => (second id).trans (first id) }
    (adds Derived)

theorem keepsSources_sync (dataSourceId : Uuid) : Integration.SyncFrame dataSourceId keepsSources where
  signal _ _ := ⟨fun _ => rfl, adds_of_same rfl⟩
  insert _ _ _ _ := ⟨fun _ => rfl, adds_of_same rfl⟩
  update _ _ _ _ _ := ⟨fun _ => rfl, adds_of_same rfl⟩
  source db id change := by
    refine ⟨fun other => ?_, adds_of_same rfl⟩
    simp only [Table.update, Table.find?_updateWhere, Option.isSome_map]
  gaps _ _ := ⟨fun _ => rfl, adds_of_same rfl⟩
  job db now enterpriseId progress :=
    ⟨fun _ => rfl, adds_insert (newJob_derived db.job now (by decide) _ none _ _) rfl⟩

/-- An observation that returns synced its source and queued its next run. -/
theorem observeSourceHandler_ok {outside : Outside} {now : Timestamp} {job : Job} {before after : DB}
    {done : PUnit} (ran : observeSourceHandler outside now job before = .ok done after) :
    ∃ enterpriseId dataSourceId source synced,
      job.payload.enterpriseId = some enterpriseId ∧ job.payload.dataSourceId = some dataSourceId ∧
      Nonempty (Integration.Synced now outside.connectors enterpriseId dataSourceId before synced) ∧
      keepsSources.rel before synced ∧ synced.dataSource.find? dataSourceId = some source ∧
      after = { synced with
        job := synced.job.insert (newJob now "observe_source" job.payload
          (some (now + seconds source.observationIntervalSeconds)) (some enterpriseId) defaultMaxAttempts) } := by
  have given {field : String} {ref : Option Uuid} {id : Uuid} (found : required field ref = .ok id) :
      ref = some id := by
    cases ref with
    | none => cases found
    | some other => rw [Except.ok.inj found]
  simp only [observeSourceHandler, bind_eq_ok, lift_eq_ok, read_eq_ok] at ran
  obtain ⟨enterpriseId, _, ⟨enterprise, rfl⟩, dataSourceId, _, ⟨named, rfl⟩, _, synced, syncRan, found, _,
    ⟨looked, rfl⟩, ran⟩ := ran
  obtain ⟨run⟩ := Integration.syncSource_ok syncRan
  have kept := Integration.syncSource_frame (keepsSources_sync dataSourceId) syncRan
  cases found with
  | none =>
      have still := kept.1 dataSourceId
      rw [looked, run.found] at still
      cases still
  | some source =>
      rw [reobserve, rescheduleRecurring, enqueue, write_eq_ok] at ran
      exact ⟨enterpriseId, dataSourceId, source, synced, given enterprise, given named, ⟨run⟩, kept, looked,
        ran.symm⟩

/-! ## The registry -/

def derivingHandler (run : Timestamp → Job → Session PUnit) (follows : ∀ now job, Follows derives (run now job)) :
    Handler where
  run
  adds {now job _ _} ran := adds_weaken (fun _ isNew => isNew.toUnclaimed) ((follows now job).ok ran).2

def observing (outside : Job → Outside) : Handler where
  run now job := observeSourceHandler (outside job) now job
  adds {now job before after} ran := by
    obtain ⟨enterpriseId, _, source, synced, _, _, _, kept, _, rfl⟩ := observeSourceHandler_ok ran
    refine (Jobs.adds Unclaimed).trans (adds_weaken (fun _ isNew => isNew.toUnclaimed) kept.2) ?_
    exact adds_insert (newJob_unclaimed ..) rfl

/-- The registry once every feature module is loaded; each job meets its own outside. -/
def handlers (outside : Job → Outside) : Registry
  | "noop" => some (derivingHandler (fun _ _ => noop) fun _ _ => follows_pure _)
  | "suggest_mapping" => some (derivingHandler (fun now job => suggestMappingHandler (outside job) now job)
      fun now job => suggestMappingHandler_derives _ now job)
  | "observe_source" => some (observing outside)
  | "recompute_aggregates" => some (derivingHandler recomputeAggregatesHandler recomputeAggregatesHandler_derives)
  | "detect_risks" => some (derivingHandler detectRisksHandler detectRisksHandler_derives)
  | "generate_explanation" => some (derivingHandler (fun now job => generateExplanationHandler (outside job) now job)
      fun now job => generateExplanationHandler_derives _ now job)
  | _ => none

theorem handlers_derives {outside : Job → Outside} {kind : String} {handler : Handler}
    (registered : handlers outside kind = some handler) (other : kind ≠ "observe_source") :
    ∀ now job, Follows derives (handler.run now job) := by
  have derived {run : Timestamp → Job → Session PUnit} {follows : ∀ now job, Follows derives (run now job)}
      (same : some (derivingHandler run follows) = some handler) :
      ∀ now job, Follows derives (handler.run now job) := by
    obtain rfl := Option.some.inj same
    exact follows
  unfold handlers at registered
  split at registered
  · exact derived registered
  · exact derived registered
  · exact absurd rfl other
  · exact derived registered
  · exact derived registered
  · exact derived registered
  · cases registered

end SmartProcurement.Jobs
