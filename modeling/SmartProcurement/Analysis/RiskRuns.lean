import SmartProcurement.Analysis.DetectionSound
import SmartProcurement.Api.Risks
import SmartProcurement.Integration.SyncSteps
import SmartProcurement.Transition.Runs

namespace SmartProcurement.Analysis

open Relational Transaction Transition Integration Observation Api

/-! # Risk findings over whole runs

The services that touch risks, their inputs or their evidence, one transaction
after another.
-/

inductive RiskCall where
  | syncSource (now : Timestamp) (connectors : Connectors) (enterpriseId dataSourceId : Uuid)
  | recomputeAggregates (now : Timestamp) (enterpriseId : Uuid) (itemIds : Option (List Uuid))
  | detectRisks (now : Timestamp) (enterpriseId : Uuid)
  | dismissRisk (now : Timestamp) (user : CurrentUser) (riskId : Uuid) (body : DismissIn)

def RiskCall.commit (db : DB) : RiskCall → DB
  | .syncSource now connectors enterpriseId dataSourceId =>
      (transact (Integration.syncSource now connectors enterpriseId dataSourceId) db).2
  | .recomputeAggregates now enterpriseId itemIds =>
      (transact (Observation.recomputeAggregates now enterpriseId itemIds) db).2
  | .detectRisks now enterpriseId => (transact (Analysis.detectRisks now enterpriseId) db).2
  | .dismissRisk now user riskId body => (transact (Api.dismissRisk now user riskId body) db).2

def RiskStep (before : DB) (call : RiskCall) (after : DB) : Prop := call.commit before = after

/-! ## The invariant -/

/-- Findings and links are left alone, and no signal is lost. -/
def findingsFrame : Frame DB where
  rel before after := after.riskFinding = before.riskFinding ∧
    after.riskSignalLink = before.riskSignalLink ∧
    ∀ signal ∈ before.observationSignal.rows, signal ∈ after.observationSignal.rows
  refl _ := ⟨rfl, rfl, fun _ member => member⟩
  trans first second := ⟨second.1.trans first.1, second.2.1.trans first.2.1,
    fun signal member => second.2.2 signal (first.2.2 signal member)⟩

theorem findingsFrame_sync (dataSourceId : Uuid) : SyncFrame dataSourceId findingsFrame where
  signal _ _ := ⟨rfl, rfl, fun _ member => List.mem_append_left _ member⟩
  insert _ _ _ _ := ⟨rfl, rfl, fun _ member => member⟩
  update _ _ _ _ _ := ⟨rfl, rfl, fun _ member => member⟩
  source _ _ _ := ⟨rfl, rfl, fun _ member => member⟩
  gaps _ _ := ⟨rfl, rfl, fun _ member => member⟩
  job _ _ _ _ := ⟨rfl, rfl, fun _ member => member⟩

theorem FindingsSound.of_frame {before after : DB} (sound : FindingsSound before)
    (frame : findingsFrame.rel before after) : FindingsSound after := by
  obtain ⟨findings, links, signals⟩ := frame
  refine ⟨?_, ?_, ?_⟩
  · rw [findings]
    exact sound.single
  · rw [links]
    exact sound.linkedOnce
  · rw [links, findings]
    intro link member
    obtain ⟨finding, findingMember, signal, signalMember, rest⟩ := sound.grounded link member
    exact ⟨finding, findingMember, signal, signals signal signalMember, rest⟩

theorem FindingsSound.dismissed {before after : DB} {now : Timestamp} {user : CurrentUser} {riskId : Uuid}
    {body : DismissIn} {finding : RiskFinding} (sound : FindingsSound before)
    (ran : Api.dismissRisk now user riskId body before = .ok finding after) : FindingsSound after := by
  obtain ⟨_, records, rfl⟩ := dismissRisk_ok ran
  have origin : ∀ row ∈ (before.riskFinding.update riskId (Api.dismissed now user body.reason)).rows,
      row.status.terminal = false → row ∈ before.riskFinding.rows := by
    intro row member ongoing
    obtain ⟨old, oldMember, same⟩ := Table.mem_updateWhere.mp member
    by_cases hit : Keyed.key old == riskId
    · rw [if_pos hit] at same
      subst same
      cases ongoing
    · rw [if_neg hit] at same
      exact same ▸ oldMember
  refine ⟨?_, sound.linkedOnce, ?_⟩
  · intro first firstMember second secondMember firstOngoing secondOngoing
    exact sound.single first (origin first firstMember firstOngoing) second
      (origin second secondMember secondOngoing) firstOngoing secondOngoing
  · intro link member
    obtain ⟨ground, groundMember, signal, signalMember, sameFinding, sameSignal, evidence⟩ :=
      sound.grounded link member
    refine ⟨if Keyed.key ground == riskId then Table.assign (Api.dismissed now user body.reason) ground
      else ground, Table.mem_updateWhere.mpr ⟨ground, groundMember, rfl⟩, signal, signalMember, ?_,
      sameSignal, ?_⟩
    · split
      · exact sameFinding
      · exact sameFinding
    · split
      · exact ⟨evidence.enterprise, evidence.type, evidence.item, evidence.supplier⟩
      · exact evidence

theorem RiskCall.sound {before : DB} (call : RiskCall) (sound : FindingsSound before) :
    FindingsSound (call.commit before) := by
  cases call with
  | syncSource now connectors enterpriseId dataSourceId =>
      exact transact_preserves sound fun _ _ ran => sound.of_frame (syncSource_frame (findingsFrame_sync _) ran)
  | recomputeAggregates now enterpriseId itemIds =>
      refine transact_preserves sound fun _ _ ran => ?_
      obtain ⟨table, rfl⟩ := (recomputeAggregates_ok ran).1
      exact ⟨sound.single, sound.linkedOnce, sound.grounded⟩
  | detectRisks now enterpriseId =>
      exact transact_preserves sound fun _ _ ran => (detectRisks_ok ran).sound sound
  | dismissRisk now user riskId body =>
      exact transact_preserves sound fun _ _ ran => sound.dismissed ran

/-- Every link names a finding that exists. -/
def linksReferToFindings (db : DB) : Prop :=
  ∀ link ∈ db.riskSignalLink.rows, (db.riskFinding.find? link.riskFindingId).isSome

theorem findingsSound_initial {initial : DB} (none : initial.riskFinding.rows = [])
    (references : linksReferToFindings initial) : FindingsSound initial := by
  have unlinked : initial.riskSignalLink.rows = [] := by
    refine List.eq_nil_iff_forall_not_mem.mpr fun link member => ?_
    have found := references link member
    simp [Table.find?, none] at found
  refine ⟨?_, ?_, ?_⟩
  · simp [none]
  · simp [unlinked]
  · simp [unlinked]

theorem findingsSound_of_run {initial db : DB} {calls : List RiskCall} (none : initial.riskFinding.rows = [])
    (references : linksReferToFindings initial) (run : Run RiskStep initial calls db) :
    FindingsSound db := by
  refine run.invariant FindingsSound (findingsSound_initial none references) ?_
  rintro before call _ sound rfl
  exact call.sound sound

/-- What can be relied on in a committed state: ongoing conditions are
deduplicated and links are grounded, so the lookup of an ongoing finding sees at
most one row; a detection leaves terminal findings alone and a second one at the
same time changes nothing. -/
structure RiskGuarantees (db : DB) : Prop where
  sound : FindingsSound db
  lookup : ∀ enterpriseId candidate, ∃ found, findNonTerminal enterpriseId candidate db = .ok found db
  unambiguous : ∀ now enterpriseId reason after,
    detectRisks now enterpriseId db = .error reason after → reason ≠ .multipleResultsFound
  terminal : ∀ now enterpriseId, terminalFrame.rel db (transact (detectRisks now enterpriseId) db).2
  idempotent : ∀ now enterpriseId results after, detectRisks now enterpriseId db = .ok results after →
    ∃ again, detectRisks now enterpriseId after = .ok again after

theorem riskGuarantees_of_run {initial db : DB} {calls : List RiskCall}
    (none : initial.riskFinding.rows = []) (references : linksReferToFindings initial)
    (run : Run RiskStep initial calls db) : RiskGuarantees db := by
  have sound := findingsSound_of_run none references run
  refine ⟨sound, findNonTerminal_of_unique sound.unique, ?_, ?_, ?_⟩
  · intro now enterpriseId reason after raised
    obtain ⟨signal, rfl⟩ := detectRisks_guarded.error sound raised
    simp
  · intro now enterpriseId
    exact transact_preserves (terminalFrame.refl db) fun _ _ ran => (detectRisks_ok ran).terminal
  · intro now enterpriseId results after ran
    exact detectRisks_again ran

/-- An enterprise with one item whose price has doubled. -/
def priceJump : DB :=
  { (default : DB) with
    enterprise := [1]
    skuAggregate := Table.empty.insert {
      id := 0
      enterpriseId := 1
      itemId := 1
      warehouseId := none
      values := {
        avgDailyConsumption := none
        daysOfCover := none
        nextExpectedDeliveryAt := none
        lastPrice := some (.finite 2)
        priceTrend := some (.finite 1)
        avgSupplierDelayDays := none }
      computedAt := 0 } }

/-- The anomaly is found, dismissed, and found again as a new finding. -/
theorem riskGuarantees_after_priceJump :
    let found := (RiskCall.detectRisks 0 1).commit priceJump
    let dismissed := (RiskCall.dismissRisk 5 ⟨9, 1⟩ 1 ⟨"known", by decide⟩).commit found
    let db := (RiskCall.detectRisks 10 1).commit dismissed
    db.riskFinding.rows.map (·.status) = [.dismissed, .open] ∧ RiskGuarantees db :=
  ⟨by decide +kernel, riskGuarantees_of_run rfl (by intro link member; cases member)
    (((Run.start.next rfl).next rfl).next rfl)⟩

end SmartProcurement.Analysis
