import SmartProcurement.Analysis.Detection
import SmartProcurement.Relational.Identity

namespace SmartProcurement.Analysis

open Relational Transaction Numeric Observation

/-! # What detection preserves

One application of a candidate is described by three small steps: the finding is
found or created, the missing links are added, an explanation is requested.  The
invariant of the finding and link tables, the frame of terminal findings and the
idempotence of a whole detection all follow from these three.
-/

/-- Which of the two identifiers a risk type is deduplicated by. -/
def Identified : RiskType → Option Uuid → Option Uuid → Prop
  | .systematicSupplierDelay, itemId, supplierId => itemId = none ∧ supplierId ≠ none
  | .qualityDegradation, itemId, supplierId => itemId ≠ none ∧ supplierId ≠ none
  | _, itemId, supplierId => itemId ≠ none ∧ supplierId = none

theorem Identified.item {riskType : RiskType} {itemId supplierId : Option Uuid}
    (identified : Identified riskType itemId supplierId) (evidence : evidenceSignalTypes riskType ≠ []) :
    itemId ≠ none := by
  cases riskType with
  | systematicSupplierDelay => simp [evidenceSignalTypes] at evidence
  | _ => exact identified.1

/-- The candidate is applied under its own identifiers. -/
structure Suits (candidate : RiskCandidate) (itemId supplierId : Option Uuid) : Prop where
  item : candidate.itemId = itemId
  supplier : candidate.supplierId = supplierId
  identified : Identified candidate.riskType itemId supplierId

/-- The signal is evidence that the finding may rest on. -/
structure Evidence (finding : RiskFinding) (signal : ObservationSignal) : Prop where
  enterprise : signal.enterpriseId = finding.enterpriseId
  type : signal.signalType ∈ evidenceSignalTypes finding.riskType
  item : signal.itemId = finding.itemId
  supplier : finding.riskType = .qualityDegradation → signal.supplierId = finding.supplierId

structure FindingsSound (db : DB) : Prop where
  single : ∀ first ∈ db.riskFinding.rows, ∀ second ∈ db.riskFinding.rows,
    first.status.terminal = false → second.status.terminal = false →
    first.enterpriseId = second.enterpriseId → first.riskType = second.riskType →
    first.itemId = second.itemId → first.supplierId = second.supplierId → first = second
  linkedOnce : ∀ first ∈ db.riskSignalLink.rows, ∀ second ∈ db.riskSignalLink.rows,
    first.riskFindingId = second.riskFindingId → first.observationSignalId = second.observationSignalId →
    first = second
  grounded : ∀ link ∈ db.riskSignalLink.rows, ∃ finding ∈ db.riskFinding.rows,
    ∃ signal ∈ db.observationSignal.rows, finding.id = link.riskFindingId ∧
      signal.id = link.observationSignalId ∧ Evidence finding signal

/-- Findings, links and jobs are all that detection writes. -/
def risksOnly : Frame DB where
  rel before after := ∃ findings links jobs,
    after = { before with riskFinding := findings, riskSignalLink := links, job := jobs }
  refl db := ⟨db.riskFinding, db.riskSignalLink, db.job, rfl⟩
  trans := by
    rintro _ _ _ ⟨_, _, _, rfl⟩ ⟨findings, links, jobs, rfl⟩
    exact ⟨findings, links, jobs, rfl⟩

section Steps

variable {now : Timestamp} {enterpriseId : Uuid} {candidate other : RiskCandidate}
variable {finding : RiskFinding} {itemId supplierId : Option Uuid} {before after db : DB}

theorem matchesCandidate_iff : matchesCandidate enterpriseId candidate finding = true ↔
    finding.enterpriseId = enterpriseId ∧ finding.riskType = candidate.riskType ∧
      finding.status.terminal = false ∧ finding.itemId = candidate.itemId ∧
      finding.supplierId = candidate.supplierId := by
  simp [matchesCandidate]

abbrev FindingKey := Uuid × RiskType × Option Uuid × Option Uuid

/-- What an ongoing finding is deduplicated by. -/
def ongoingKey (finding : RiskFinding) : Option FindingKey :=
  if finding.status.terminal then none
  else some (finding.enterpriseId, finding.riskType, finding.itemId, finding.supplierId)

def keyOf (enterpriseId : Uuid) (candidate : RiskCandidate) : FindingKey :=
  (enterpriseId, candidate.riskType, candidate.itemId, candidate.supplierId)

theorem matchesCandidate_iff_key :
    matchesCandidate enterpriseId candidate finding = true ↔ ongoingKey finding = some (keyOf enterpriseId candidate) := by
  rw [matchesCandidate_iff, ongoingKey, keyOf]
  cases terminal : finding.status.terminal with
  | true => simp
  | false => simp

theorem filter_matchesCandidate (rows : List RiskFinding) (enterpriseId : Uuid) (candidate : RiskCandidate) :
    rows.filter (matchesCandidate enterpriseId candidate) =
      rows.filter fun row => ongoingKey row = some (keyOf enterpriseId candidate) :=
  List.filter_congr fun _ _ => Bool.eq_iff_iff.mpr (matchesCandidate_iff_key.trans decide_eq_true_iff.symm)

theorem FindingsSound.unique (sound : FindingsSound db) : Unique ongoingKey db.riskFinding := by
  intro first firstMember second secondMember key firstHas secondHas
  simp only [ongoingKey, Option.ite_none_left_eq_some, Option.some.injEq, Bool.not_eq_true] at firstHas secondHas
  have same := firstHas.2.trans secondHas.2.symm
  simp only [Prod.mk.injEq] at same
  obtain ⟨enterprise, type, item, supplier⟩ := same
  exact sound.single first firstMember second secondMember firstHas.1 secondHas.1 enterprise type item supplier

theorem matchesCandidate_congr (left : matchesCandidate enterpriseId candidate finding = true)
    (right : matchesCandidate enterpriseId other finding = true) :
    matchesCandidate enterpriseId candidate = matchesCandidate enterpriseId other := by
  rw [matchesCandidate_iff] at left right
  funext row
  simp only [matchesCandidate, ← left.2.1, ← right.2.1, ← left.2.2.2.1, ← right.2.2.2.1,
    ← left.2.2.2.2, ← right.2.2.2.2]

@[simp] theorem matches_newFinding (now : Timestamp) (enterpriseId id : Uuid) (candidate : RiskCandidate) :
    matchesCandidate enterpriseId candidate { newFinding now enterpriseId candidate with id } = true := by
  simp [matchesCandidate, newFinding, RiskStatus.terminal]

/-! ## The finding -/

/-- The row that `findOrCreate` adds when the condition is not known yet. -/
def withFinding (now : Timestamp) (enterpriseId : Uuid) (candidate : RiskCandidate) (db : DB) : DB :=
  { db with riskFinding := db.riskFinding.insert (newFinding now enterpriseId candidate) }

inductive FoundOrCreated (now : Timestamp) (enterpriseId : Uuid) (candidate : RiskCandidate) (before : DB) :
    RiskFinding → DB → Prop where
  | found {finding : RiskFinding}
      (only : before.riskFinding.rows.filter (matchesCandidate enterpriseId candidate) = [finding]) :
      FoundOrCreated now enterpriseId candidate before finding before
  | created (unknown : before.riskFinding.rows.filter (matchesCandidate enterpriseId candidate) = []) :
      FoundOrCreated now enterpriseId candidate before
        (before.riskFinding.newRow (newFinding now enterpriseId candidate))
        (withFinding now enterpriseId candidate before)

theorem findOrCreate_ok (ran : findOrCreate now enterpriseId candidate before = .ok finding after) :
    FoundOrCreated now enterpriseId candidate before finding after := by
  simp only [findOrCreate, findNonTerminal, bind_eq_ok, scalarOrNone_eq_ok] at ran
  obtain ⟨found, _, ⟨single, rfl⟩, ran⟩ := ran
  have rows := scalarOneOrNone_ok single
  cases found with
  | some row =>
      obtain ⟨rfl, rfl⟩ := pure_eq_ok.mp ran
      exact .found (by simpa using rows)
  | none =>
      simp only [bind_eq_ok, read_eq_ok, write_eq_ok, pure_eq_ok] at ran
      obtain ⟨_, _, ⟨rfl, rfl⟩, _, _, rfl, rfl, rfl⟩ := ran
      exact .created (by simpa using rows)

theorem findOrCreate_of_known
    (only : db.riskFinding.rows.filter (matchesCandidate enterpriseId candidate) = [finding]) :
    findOrCreate now enterpriseId candidate db = .ok finding db := by
  simp only [findOrCreate, findNonTerminal, bind_eq_ok, scalarOrNone_eq_ok]
  exact ⟨some finding, db, ⟨by rw [only]; rfl, rfl⟩, rfl⟩

theorem FoundOrCreated.matched
    (step : FoundOrCreated now enterpriseId candidate before finding after) :
    matchesCandidate enterpriseId candidate finding = true := by
  cases step with
  | found only =>
      have member : finding ∈ before.riskFinding.rows.filter (matchesCandidate enterpriseId candidate) := by
        simp [only]
      exact (List.mem_filter.mp member).2
  | created unknown => exact matches_newFinding ..

/-- Afterwards the finding is the only one that matches. -/
theorem FoundOrCreated.known (step : FoundOrCreated now enterpriseId candidate before finding after) :
    after.riskFinding.rows.filter (matchesCandidate enterpriseId candidate) = [finding] := by
  have matched := step.matched
  cases step with
  | found only => exact only
  | created unknown =>
      refine (Table.filter_insert ..).trans ?_
      rw [unknown, if_pos matched]
      rfl

theorem FoundOrCreated.member (step : FoundOrCreated now enterpriseId candidate before finding after) :
    finding ∈ after.riskFinding.rows := by
  have member : finding ∈ after.riskFinding.rows.filter (matchesCandidate enterpriseId candidate) := by
    simp [step.known]
  exact (List.mem_filter.mp member).1

theorem FoundOrCreated.keeps_known {known : RiskFinding}
    (step : FoundOrCreated now enterpriseId candidate before finding after)
    (only : before.riskFinding.rows.filter (matchesCandidate enterpriseId other) = [known]) :
    after.riskFinding.rows.filter (matchesCandidate enterpriseId other) = [known] := by
  have matched := step.matched
  cases step with
  | found _ => exact only
  | created unknown =>
      refine (Table.filter_insert ..).trans ?_
      by_cases matchesOther : matchesCandidate enterpriseId other
          (before.riskFinding.newRow (newFinding now enterpriseId candidate)) = true
      · rw [matchesCandidate_congr matched matchesOther] at unknown
        rw [unknown] at only
        cases only
      · rw [if_neg matchesOther, List.append_nil]
        exact only

/-! ## The links -/

def insertLinks (finding : RiskFinding) (signalIds : List Uuid) (links : Table RiskSignalLink) :
    Table RiskSignalLink :=
  signalIds.foldl (fun links id => links.insert (linkOf finding id)) links

theorem mem_insertLinks {signalIds : List Uuid} {links : Table RiskSignalLink} {link : RiskSignalLink}
    (member : link ∈ (insertLinks finding signalIds links).rows) :
    link ∈ links.rows ∨ (link.riskFindingId = finding.id ∧ link.observationSignalId ∈ signalIds) := by
  induction signalIds generalizing links with
  | nil => exact .inl member
  | cons first rest ih =>
      rcases ih member with old | ⟨sameFinding, signal⟩
      · rcases List.mem_append.mp old with old | added
        · exact .inl old
        · have same : link = links.newRow (linkOf finding first) := by simpa using added
          subst same
          exact .inr ⟨rfl, by simp [Table.newRow, Keyed.withKey, linkOf]⟩
      · exact .inr ⟨sameFinding, List.mem_cons_of_mem _ signal⟩

theorem subset_insertLinks (finding : RiskFinding) (signalIds : List Uuid) (links : Table RiskSignalLink) :
    ∀ link ∈ links.rows, link ∈ (insertLinks finding signalIds links).rows := by
  induction signalIds generalizing links with
  | nil => exact fun _ member => member
  | cons first rest ih =>
      intro link member
      exact ih (links.insert (linkOf finding first)) link (by simp [member])

theorem inserted_insertLinks {signalIds : List Uuid} (links : Table RiskSignalLink) {signalId : Uuid}
    (listed : signalId ∈ signalIds) :
    ∃ link ∈ (insertLinks finding signalIds links).rows,
      link.riskFindingId = finding.id ∧ link.observationSignalId = signalId := by
  induction signalIds generalizing links with
  | nil => cases listed
  | cons first rest ih =>
      rcases List.mem_cons.mp listed with rfl | listed
      · refine ⟨links.newRow (linkOf finding signalId), ?_, rfl, rfl⟩
        exact subset_insertLinks finding rest _ _ (by simp)
      · exact ih (links.insert (linkOf finding first)) listed

/-- No link occurs twice, given that only unlinked signals are linked, each once. -/
theorem insertLinks_once {signalIds : List Uuid} {links : Table RiskSignalLink} (distinct : signalIds.Nodup)
    (unlinked : ∀ id ∈ signalIds, ∀ link ∈ links.rows, link.riskFindingId = finding.id →
      link.observationSignalId ≠ id)
    (once : ∀ first ∈ links.rows, ∀ second ∈ links.rows, first.riskFindingId = second.riskFindingId →
      first.observationSignalId = second.observationSignalId → first = second) :
    ∀ first ∈ (insertLinks finding signalIds links).rows,
      ∀ second ∈ (insertLinks finding signalIds links).rows,
      first.riskFindingId = second.riskFindingId →
      first.observationSignalId = second.observationSignalId → first = second := by
  induction signalIds generalizing links with
  | nil => exact once
  | cons added rest ih =>
      obtain ⟨fresh, distinct⟩ := List.nodup_cons.mp distinct
      refine ih distinct ?_ ?_
      · intro id listed link member sameFinding
        rcases List.mem_append.mp member with old | new
        · exact unlinked id (List.mem_cons_of_mem _ listed) link old sameFinding
        · have same : link = links.newRow (linkOf finding added) := by simpa using new
          rw [same]
          exact fun equal => fresh (show added ∈ rest from (show added = id from equal) ▸ listed)
      · have clash : ∀ link ∈ links.rows, link.riskFindingId = finding.id →
            link.observationSignalId = added → False := fun link member sameFinding sameSignal =>
          unlinked added (by simp) link member sameFinding sameSignal
        intro first firstMember second secondMember sameFinding sameSignal
        rcases List.mem_append.mp firstMember with firstOld | firstNew
        · rcases List.mem_append.mp secondMember with secondOld | secondNew
          · exact once first firstOld second secondOld sameFinding sameSignal
          · have same : second = links.newRow (linkOf finding added) := by simpa using secondNew
            subst same
            exact (clash first firstOld sameFinding sameSignal).elim
        · have same : first = links.newRow (linkOf finding added) := by simpa using firstNew
          subst same
          rcases List.mem_append.mp secondMember with secondOld | secondNew
          · exact (clash second secondOld sameFinding.symm sameSignal.symm).elim
          · exact (by simpa using secondNew : second = _).symm

theorem supports_iff {signal : ObservationSignal} : supports finding itemId supplierId signal = true ↔
    signal.enterpriseId = finding.enterpriseId ∧
      signal.signalType ∈ evidenceSignalTypes finding.riskType ∧
      (itemId = none ∨ signal.itemId = itemId) ∧ (supplierId = none ∨ signal.supplierId = supplierId) := by
  simp [supports]

theorem mem_newEvidence {signalId : Uuid} (listed : signalId ∈ newEvidence finding itemId supplierId db) :
    linked finding db signalId = false ∧ ∃ signal ∈ db.observationSignal.rows, signal.id = signalId ∧
      supports finding itemId supplierId signal = true := by
  simp only [newEvidence, List.mem_filter, List.mem_map, Bool.not_eq_true'] at listed
  obtain ⟨⟨signal, ⟨member, supported⟩, rfl⟩, unlinked⟩ := listed
  exact ⟨unlinked, signal, member, rfl, supported⟩

theorem newEvidence_nodup : (newEvidence finding itemId supplierId db).Nodup :=
  (List.Nodup.sublist (List.filter_sublist.map _) db.observationSignal.distinct).filter _

theorem newEvidence_eq_nil : newEvidence finding itemId supplierId db = [] ↔
    ∀ signal ∈ db.observationSignal.rows, supports finding itemId supplierId signal = true →
      linked finding db signal.id = true := by
  simp only [newEvidence, List.filter_eq_nil_iff, List.mem_map, List.mem_filter, Bool.not_eq_true',
    Bool.not_eq_false]
  constructor
  · intro nothing signal member supported
    exact nothing signal.id ⟨signal, ⟨member, supported⟩, rfl⟩
  · rintro all _ ⟨signal, ⟨member, supported⟩, rfl⟩
    exact all signal member supported

theorem linked_iff {signalId : Uuid} : linked finding db signalId = true ↔
    ∃ link ∈ db.riskSignalLink.rows, link.riskFindingId = finding.id ∧
      link.observationSignalId = signalId := by
  simp [linked]

theorem linked_addLinks_of_linked {signalIds : List Uuid} {signalId : Uuid} (added : RiskFinding)
    (already : linked finding db signalId = true) :
    linked finding (addLinks added signalIds db) signalId = true := by
  obtain ⟨link, member, same⟩ := linked_iff.mp already
  exact linked_iff.mpr ⟨link, subset_insertLinks added signalIds _ link member, same⟩

theorem newEvidence_addLinks :
    newEvidence finding itemId supplierId
      (addLinks finding (newEvidence finding itemId supplierId db) db) = [] := by
  rw [newEvidence_eq_nil]
  intro signal member supported
  by_cases already : linked finding db signal.id = true
  · exact linked_addLinks_of_linked finding already
  · have listed : signal.id ∈ newEvidence finding itemId supplierId db := by
      simp only [newEvidence, List.mem_filter, List.mem_map]
      exact ⟨⟨signal, ⟨member, supported⟩, rfl⟩, by simpa using already⟩
    exact linked_iff.mpr (inserted_insertLinks _ listed)

/-! ## The explanation job -/

def explanationJob (now : Timestamp) (finding : RiskFinding) : Job :=
  Jobs.newJob now "generate_explanation"
    { enterpriseId := some finding.enterpriseId, riskFindingId := some finding.id }
    none (some finding.enterpriseId) Jobs.defaultMaxAttempts

def explained (finding : RiskFinding) (db : DB) : Prop :=
  finding.aiStatus = .ready ∨ explanationQueued finding db = true

inductive Requested (now : Timestamp) (finding : RiskFinding) (before : DB) : DB → Prop where
  | already (explained : explained finding before) : Requested now finding before before
  | enqueued (missing : ¬ explained finding before) :
      Requested now finding before { before with job := before.job.insert (explanationJob now finding) }

theorem maybeEnqueueExplanation_ok {done : PUnit}
    (ran : maybeEnqueueExplanation now finding before = .ok done after) :
    Requested now finding before after := by
  unfold maybeEnqueueExplanation at ran
  by_cases ready : finding.aiStatus = .ready
  · rw [if_pos ready] at ran
    obtain ⟨_, rfl⟩ := pure_eq_ok.mp ran
    exact .already (.inl ready)
  · simp only [if_neg ready, bind_eq_ok, read_eq_ok] at ran
    obtain ⟨queued, _, ⟨rfl, rfl⟩, ran⟩ := ran
    by_cases queued : explanationQueued finding before = true
    · rw [if_pos queued] at ran
      obtain ⟨_, rfl⟩ := pure_eq_ok.mp ran
      exact .already (.inr queued)
    · rw [if_neg queued, Jobs.enqueue, write_eq_ok] at ran
      subst ran
      exact .enqueued fun explained => explained.elim ready queued

theorem maybeEnqueueExplanation_of_explained (known : explained finding db) :
    maybeEnqueueExplanation now finding db = .ok ⟨⟩ db := by
  unfold maybeEnqueueExplanation
  by_cases ready : finding.aiStatus = .ready
  · rw [if_pos ready]
    exact pure_eq_ok.mpr ⟨rfl, rfl⟩
  · have queued : explanationQueued finding db = true := known.resolve_left ready
    simp only [if_neg ready, bind_eq_ok, read_eq_ok]
    exact ⟨true, db, ⟨queued, rfl⟩, rfl⟩

theorem explained_of_jobs_grow {findings : Table RiskFinding} {links : Table RiskSignalLink}
    {jobs : Table Job} (grow : ∀ job ∈ db.job.rows, job ∈ jobs.rows) (known : explained finding db) :
    explained finding { db with riskFinding := findings, riskSignalLink := links, job := jobs } := by
  refine known.imp id fun queued => ?_
  obtain ⟨job, member, isQueued⟩ := List.any_eq_true.mp queued
  exact List.any_eq_true.mpr ⟨job, grow job member, isQueued⟩

theorem Requested.explained (step : Requested now finding before after) : explained finding after := by
  cases step with
  | already known => exact known
  | enqueued _ =>
      refine .inr (List.any_eq_true.mpr ⟨before.job.newRow (explanationJob now finding), by simp, ?_⟩)
      simp [explanationJob, Jobs.newJob, Table.newRow, Keyed.withKey]

theorem Requested.jobs (step : Requested now finding before after) :
    ∃ jobs : Table Job, after = { before with job := jobs } ∧ ∀ job ∈ before.job.rows, job ∈ jobs.rows := by
  cases step with
  | already _ => exact ⟨before.job, rfl, fun _ member => member⟩
  | enqueued _ => exact ⟨_, rfl, fun job member => by simp [member]⟩

/-! ## One application -/

/-- The links added for a candidate, if its risk type has evidence at all. -/
def withEvidence (candidate : RiskCandidate) (finding : RiskFinding) (itemId supplierId : Option Uuid)
    (db : DB) : DB :=
  if evidenceSignalTypes candidate.riskType = [] then db
  else addLinks finding (newEvidence finding itemId supplierId db) db

structure Applied (now : Timestamp) (enterpriseId : Uuid) (candidate : RiskCandidate)
    (itemId supplierId : Option Uuid) (before : DB) (finding : RiskFinding) (after : DB) : Prop where
  steps : ∃ middle, FoundOrCreated now enterpriseId candidate before finding middle ∧
    Requested now finding (withEvidence candidate finding itemId supplierId middle) after

theorem applyCandidate_ok
    (ran : applyCandidate now enterpriseId candidate itemId supplierId before = .ok finding after) :
    Applied now enterpriseId candidate itemId supplierId before finding after := by
  simp only [applyCandidate, bind_eq_ok] at ran
  obtain ⟨found, middle, first, _, linkedState, linking, _, _, requested, ran⟩ := ran
  obtain ⟨rfl, rfl⟩ := pure_eq_ok.mp ran
  refine ⟨middle, findOrCreate_ok first, ?_⟩
  have same : linkedState = withEvidence candidate found itemId supplierId middle := by
    unfold withEvidence
    unfold linkEvidenceOf at linking
    by_cases none : evidenceSignalTypes candidate.riskType = []
    · rw [if_pos none] at linking ⊢
      exact (pure_eq_ok.mp linking).2.symm
    · simp only [if_neg none, linkNewEvidence, bind_eq_ok, read_eq_ok, write_eq_ok] at linking ⊢
      obtain ⟨_, _, ⟨rfl, rfl⟩, rfl⟩ := linking
      rfl
  rw [← same]
  exact maybeEnqueueExplanation_ok requested

theorem withEvidence_eq (candidate : RiskCandidate) (finding : RiskFinding) (itemId supplierId : Option Uuid)
    (db : DB) : ∃ ids, withEvidence candidate finding itemId supplierId db = addLinks finding ids db ∧
      (ids = [] ∨ ids = newEvidence finding itemId supplierId db) := by
  unfold withEvidence
  split
  · exact ⟨[], rfl, .inl rfl⟩
  · exact ⟨_, rfl, .inr rfl⟩

end Steps

end SmartProcurement.Analysis
