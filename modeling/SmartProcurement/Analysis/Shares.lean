import SmartProcurement.Analysis.DetectionSound
import SmartProcurement.Relational.Renumbering

namespace SmartProcurement.Analysis

open Relational Transaction Observation

/-! # The share of an enterprise

A recomputation and a detection concern one enterprise, yet most of their queries
select by item or by finding alone.  Its share of the database is what they may read
and write, and the references within the share are what confines them to it.
-/

/-! ## The rows of an enterprise -/

def ownedRows (enterpriseId : Uuid) (db : DB) (entity : Entity) : List Row :=
  (db.canonical entity).rows.filter (·.enterpriseId = enterpriseId)

def signalsOf (enterpriseId : Uuid) (db : DB) : List ObservationSignal :=
  db.observationSignal.rows.filter (·.enterpriseId = enterpriseId)

def findingsOf (enterpriseId : Uuid) (db : DB) : List RiskFinding :=
  db.riskFinding.rows.filter (·.enterpriseId = enterpriseId)

def isFindingOf (enterpriseId : Uuid) (db : DB) (id : Uuid) : Bool :=
  (findingsOf enterpriseId db).any (·.id = id)

/-- The link belongs to a finding of the enterprise. -/
def linkOfShare (enterpriseId : Uuid) (db : DB) (link : RiskSignalLink) : Bool :=
  isFindingOf enterpriseId db link.riskFindingId

/-- The job is about a finding of the enterprise. -/
def jobOfShare (enterpriseId : Uuid) (db : DB) (job : Job) : Bool :=
  job.payload.riskFindingId.any (isFindingOf enterpriseId db)

def linksOf (enterpriseId : Uuid) (db : DB) : List RiskSignalLink :=
  db.riskSignalLink.rows.filter (linkOfShare enterpriseId db)

def jobsAbout (enterpriseId : Uuid) (db : DB) : List Job :=
  db.job.rows.filter (jobOfShare enterpriseId db)

/-! ## The same share in two states -/

/-- Where the ids of the rows of one state are found in another. -/
structure Ids where
  aggregate : Uuid → Uuid
  finding : Uuid → Uuid
  link : Uuid → Uuid
  job : Uuid → Uuid

namespace Ids

def same : Ids := ⟨id, id, id, id⟩

def ofAggregate (ids : Ids) (row : SkuAggregate) : SkuAggregate := { row with id := ids.aggregate row.id }

def ofFinding (ids : Ids) (finding : RiskFinding) : RiskFinding := { finding with id := ids.finding finding.id }

def ofLink (ids : Ids) (link : RiskSignalLink) : RiskSignalLink :=
  { link with id := ids.link link.id, riskFindingId := ids.finding link.riskFindingId }

def ofJob (ids : Ids) (job : Job) : Job :=
  { job with
    id := ids.job job.id
    payload := { job.payload with riskFindingId := job.payload.riskFindingId.map ids.finding } }

/-- The ids that the state has given are found where they were found before. -/
structure Extends (later earlier : Ids) (db : DB) : Prop where
  aggregate : ∀ id < db.skuAggregate.freshKey, later.aggregate id = earlier.aggregate id
  finding : ∀ id < db.riskFinding.freshKey, later.finding id = earlier.finding id
  link : ∀ id < db.riskSignalLink.freshKey, later.link id = earlier.link id
  job : ∀ id < db.job.freshKey, later.job id = earlier.job id

end Ids

/-- The enterprise has the same rows in both states, up to the ids: in the order in
which the tables enumerate them. -/
structure Mirrors (enterpriseId : Uuid) (ids : Ids) (left right : DB) : Prop where
  rows : ∀ entity, ownedRows enterpriseId right entity = ownedRows enterpriseId left entity
  signals : signalsOf enterpriseId right = signalsOf enterpriseId left
  aggregates : aggregatesOf enterpriseId right = (aggregatesOf enterpriseId left).map ids.ofAggregate
  findings : findingsOf enterpriseId right = (findingsOf enterpriseId left).map ids.ofFinding
  links : linksOf enterpriseId right = (linksOf enterpriseId left).map ids.ofLink
  jobs : jobsAbout enterpriseId right = (jobsAbout enterpriseId left).map ids.ofJob

/-- Two states agree on every row of the enterprise. -/
abbrev Agree (enterpriseId : Uuid) (left right : DB) : Prop := Mirrors enterpriseId .same left right

/-! ## References within the share -/

def IsItemOf (enterpriseId : Uuid) (db : DB) (itemId : Uuid) : Prop :=
  ∃ item ∈ (db.canonical .item).rows, item.id = itemId ∧ item.enterpriseId = enterpriseId

/-- Every row of the domain refers only to rows of its own enterprise. -/
def RowsReferOwn (db : DB) : Prop :=
  ∀ entity, ∀ row ∈ (db.canonical entity).rows, ∀ column ∈ ownColumns entity, ∀ target ∈ column.references,
    ∀ id ∈ row.uuid? column.name,
      ∃ master ∈ (db.canonical target).rows, master.id = id ∧ master.enterpriseId = row.enterpriseId

/-- Every aggregate is one of an item of its own enterprise. -/
def AggregatesReferOwn (db : DB) : Prop :=
  ∀ row ∈ db.skuAggregate.rows, IsItemOf row.enterpriseId db row.itemId

/-- No link and no job names a finding that is still to come. -/
structure Issued (db : DB) : Prop where
  links : ∀ link ∈ db.riskSignalLink.rows, link.riskFindingId < db.riskFinding.freshKey
  jobs : ∀ job ∈ db.job.rows, ∀ id ∈ job.payload.riskFindingId, id < db.riskFinding.freshKey

/-- What is not of the share stays as it is. -/
structure Elsewhere (enterpriseId : Uuid) (before after : DB) : Prop where
  only : ∃ aggregates findings links jobs, after = { before with
    skuAggregate := aggregates, riskFinding := findings, riskSignalLink := links, job := jobs }
  aggregates : after.skuAggregate.rows.filter (·.enterpriseId ≠ enterpriseId) =
    before.skuAggregate.rows.filter (·.enterpriseId ≠ enterpriseId)
  findings : after.riskFinding.rows.filter (·.enterpriseId ≠ enterpriseId) =
    before.riskFinding.rows.filter (·.enterpriseId ≠ enterpriseId)
  links : after.riskSignalLink.rows.filter (fun link => !linkOfShare enterpriseId after link) =
    before.riskSignalLink.rows.filter fun link => !linkOfShare enterpriseId before link
  jobs : after.job.rows.filter (fun job => !jobOfShare enterpriseId after job) =
    before.job.rows.filter fun job => !jobOfShare enterpriseId before job

/-- What a step within the share does to a state. -/
structure Confined (enterpriseId : Uuid) (before after : DB) : Prop where
  elsewhere : Elsewhere enterpriseId before after
  aggregateIds : before.skuAggregate.freshKey ≤ after.skuAggregate.freshKey
  findingIds : before.riskFinding.freshKey ≤ after.riskFinding.freshKey
  linkIds : before.riskSignalLink.freshKey ≤ after.riskSignalLink.freshKey
  jobIds : before.job.freshKey ≤ after.job.freshKey

structure SharesSound (db : DB) : Prop where
  rows : RowsReferOwn db
  aggregates : AggregatesReferOwn db
  issued : Issued db

section Shares

variable {enterpriseId itemId : Uuid} {ids later last : Ids} {before middle after left right db : DB}

theorem Elsewhere.trans (first : Elsewhere enterpriseId before middle) (second : Elsewhere enterpriseId middle after) :
    Elsewhere enterpriseId before after where
  only := by
    obtain ⟨_, _, _, _, rfl⟩ := first.only
    obtain ⟨aggregates, findings, links, jobs, rfl⟩ := second.only
    exact ⟨aggregates, findings, links, jobs, rfl⟩
  aggregates := second.aggregates.trans first.aggregates
  findings := second.findings.trans first.findings
  links := second.links.trans first.links
  jobs := second.jobs.trans first.jobs

theorem elsewhere_refl (enterpriseId : Uuid) (db : DB) : Elsewhere enterpriseId db db :=
  ⟨⟨db.skuAggregate, db.riskFinding, db.riskSignalLink, db.job, rfl⟩, rfl, rfl, rfl, rfl⟩

theorem Confined.trans (first : Confined enterpriseId before middle) (second : Confined enterpriseId middle after) :
    Confined enterpriseId before after where
  elsewhere := first.elsewhere.trans second.elsewhere
  aggregateIds := first.aggregateIds.trans second.aggregateIds
  findingIds := first.findingIds.trans second.findingIds
  linkIds := first.linkIds.trans second.linkIds
  jobIds := first.jobIds.trans second.jobIds

theorem confined_refl (enterpriseId : Uuid) (db : DB) : Confined enterpriseId db db :=
  ⟨elsewhere_refl enterpriseId db, Nat.le_refl _, Nat.le_refl _, Nat.le_refl _, Nat.le_refl _⟩

theorem Confined.canonical (confined : Confined enterpriseId before after) : after.canonical = before.canonical := by
  obtain ⟨_, _, _, _, rfl⟩ := confined.elsewhere.only
  rfl

theorem Ids.extends_refl (ids : Ids) (db : DB) : ids.Extends ids db :=
  ⟨fun _ _ => rfl, fun _ _ => rfl, fun _ _ => rfl, fun _ _ => rfl⟩

/-- What is kept for all ids of the later state is kept for those of the earlier one. -/
theorem Ids.Extends.trans (first : later.Extends ids before) (second : last.Extends later after)
    (confined : Confined enterpriseId before after) : last.Extends ids before where
  aggregate id given := (second.aggregate id (given.trans_le confined.aggregateIds)).trans (first.aggregate id given)
  finding id given := (second.finding id (given.trans_le confined.findingIds)).trans (first.finding id given)
  link id given := (second.link id (given.trans_le confined.linkIds)).trans (first.link id given)
  job id given := (second.job id (given.trans_le confined.jobIds)).trans (first.job id given)

/-! ### Reading within the share -/

theorem mem_findingsOf {finding : RiskFinding} : finding ∈ findingsOf enterpriseId db ↔
    finding ∈ db.riskFinding.rows ∧ finding.enterpriseId = enterpriseId := by
  simp [findingsOf]

theorem isFindingOf_iff {id : Uuid} : isFindingOf enterpriseId db id = true ↔
    ∃ finding ∈ findingsOf enterpriseId db, finding.id = id := by
  simp [isFindingOf]

theorem refers_itemId {entity : Entity}
    (listed : entity ∈ [Entity.stockLevel, .price, .leadTime, .consumption, .productionDemand, .purchaseOrder]) :
    ∃ column ∈ ownColumns entity, column.name = "item_id" ∧ column.references = some .item := by
  simp only [List.mem_cons, List.not_mem_nil, or_false] at listed
  rcases listed with rfl | rfl | rfl | rfl | rfl | rfl
  · exact ⟨itemFk, by simp [ownColumns], rfl, rfl⟩
  · exact ⟨itemFk, by simp [ownColumns], rfl, rfl⟩
  · exact ⟨itemFk, by simp [ownColumns], rfl, rfl⟩
  · exact ⟨itemFk, by simp [ownColumns], rfl, rfl⟩
  · exact ⟨itemFk, by simp [ownColumns], rfl, rfl⟩
  · exact ⟨{ itemFk with nullable := true }, by simp [ownColumns], rfl, rfl⟩

/-- The trusted rows of an item of the enterprise are rows of the enterprise. -/
theorem trustedRows_of_share (refer : RowsReferOwn db) (isItem : IsItemOf enterpriseId db itemId) {entity : Entity}
    (listed : entity ∈ [Entity.stockLevel, .price, .leadTime, .consumption, .productionDemand, .purchaseOrder]) :
    trustedRows db entity itemId =
      (ownedRows enterpriseId db entity).filter fun row => row.uuid? "item_id" = some itemId ∧ row.trusted := by
  rw [trustedRows, ownedRows, List.filter_filter]
  refine List.filter_congr fun row member => ?_
  by_cases concerns : row.uuid? "item_id" = some itemId
  · obtain ⟨column, ofEntity, named, references⟩ := refers_itemId listed
    obtain ⟨item, itemMember, itemIs, sameEnterprise⟩ := refer entity row member column ofEntity .item references itemId
      (by rw [named]; exact concerns)
    obtain ⟨own, ownMember, ownIs, owner⟩ := isItem
    obtain rfl : item = own := Table.eq_of_key_eq itemMember ownMember (itemIs.trans ownIs.symm)
    simp [concerns, sameEnterprise.symm.trans owner]
  · simp [concerns]

theorem isItemOf_iff : IsItemOf enterpriseId db itemId ↔ itemId ∈ (ownedRows enterpriseId db .item).map (·.id) := by
  simp only [IsItemOf, ownedRows, List.mem_map, List.mem_filter, decide_eq_true_eq]
  constructor
  · rintro ⟨item, member, isItem, owner⟩
    exact ⟨item, ⟨member, owner⟩, isItem⟩
  · rintro ⟨item, ⟨member, owner⟩, isItem⟩
    exact ⟨item, member, isItem, owner⟩

theorem IsItemOf.unique {other : Uuid} (isItem : IsItemOf enterpriseId db itemId) (again : IsItemOf other db itemId) :
    other = enterpriseId := by
  obtain ⟨item, member, itemIs, rfl⟩ := isItem
  obtain ⟨twin, twinMember, twinIs, rfl⟩ := again
  rw [Table.eq_of_key_eq twinMember member (twinIs.trans itemIs.symm)]

/-- The item-level rows of an item of the enterprise are aggregates of the enterprise. -/
theorem itemRows_of_share (refer : AggregatesReferOwn db) (isItem : IsItemOf enterpriseId db itemId) :
    itemRows db itemId = (aggregatesOf enterpriseId db).filter (itemLevel itemId) := by
  rw [itemRows, aggregatesOf, List.filter_filter]
  refine List.filter_congr fun row member => ?_
  by_cases hit : itemLevel itemId row = true
  · have sameItem : row.itemId = itemId := by
      simp only [itemLevel, decide_eq_true_eq] at hit
      exact hit.1
    have owner := isItem.unique (sameItem ▸ refer row member)
    simp [hit, owner]
  · simp [hit]

theorem matching_of_share (db : DB) (enterpriseId : Uuid) (candidate : RiskCandidate) :
    db.riskFinding.rows.filter (matchesCandidate enterpriseId candidate) =
      (findingsOf enterpriseId db).filter (matchesCandidate enterpriseId candidate) := by
  rw [findingsOf, List.filter_filter]
  refine List.filter_congr fun finding _ => ?_
  by_cases hit : matchesCandidate enterpriseId candidate finding = true
  · simp [hit, (matchesCandidate_iff.mp hit).1]
  · simp [hit]

theorem linked_of_share {finding : RiskFinding} (member : finding ∈ findingsOf enterpriseId db) (signalId : Uuid) :
    linked finding db signalId = (linksOf enterpriseId db).any fun link =>
      link.riskFindingId = finding.id ∧ link.observationSignalId = signalId := by
  rw [linked, linksOf, List.any_filter]
  refine List.any_congr rfl fun link => ?_
  by_cases hit : link.riskFindingId = finding.id
  · have ofShare : linkOfShare enterpriseId db link = true := isFindingOf_iff.mpr ⟨finding, member, hit.symm⟩
    simp [ofShare]
  · simp [hit]

theorem explanationQueued_of_share {finding : RiskFinding} (member : finding ∈ findingsOf enterpriseId db) :
    explanationQueued finding db = (jobsAbout enterpriseId db).any fun job =>
      job.kind = "generate_explanation" ∧ job.payload.riskFindingId = some finding.id ∧
        (job.status = .pending ∨ job.status = .running) := by
  rw [explanationQueued, jobsAbout, List.any_filter]
  refine List.any_congr rfl fun job => ?_
  by_cases hit : job.payload.riskFindingId = some finding.id
  · have ofShare : jobOfShare enterpriseId db job = true := by
      rw [jobOfShare, hit, Option.any_some]
      exact isFindingOf_iff.mpr ⟨finding, member, rfl⟩
    simp [ofShare]
  · simp [hit]

/-! ### Reading in both states -/

section Mirrored

variable (mirrors : Mirrors enterpriseId ids left right)

include mirrors

theorem Mirrors.isItemOf (isItem : IsItemOf enterpriseId left itemId) : IsItemOf enterpriseId right itemId := by
  rw [isItemOf_iff, mirrors.rows, ← isItemOf_iff]
  exact isItem

theorem Mirrors.trustedRows (leftSound : SharesSound left) (rightSound : SharesSound right)
    (isItem : IsItemOf enterpriseId left itemId) {entity : Entity}
    (listed : entity ∈ [Entity.stockLevel, .price, .leadTime, .consumption, .productionDemand, .purchaseOrder]) :
    trustedRows right entity itemId = trustedRows left entity itemId := by
  rw [trustedRows_of_share rightSound.rows (mirrors.isItemOf isItem) listed, mirrors.rows,
    ← trustedRows_of_share leftSound.rows isItem listed]

theorem Mirrors.itemRows (leftSound : SharesSound left) (rightSound : SharesSound right)
    (isItem : IsItemOf enterpriseId left itemId) :
    itemRows right itemId = (itemRows left itemId).map ids.ofAggregate := by
  rw [itemRows_of_share rightSound.aggregates (mirrors.isItemOf isItem), mirrors.aggregates, List.filter_map,
    itemRows_of_share leftSound.aggregates isItem]
  rfl

theorem Mirrors.matching (candidate : RiskCandidate) :
    right.riskFinding.rows.filter (matchesCandidate enterpriseId candidate) =
      (left.riskFinding.rows.filter (matchesCandidate enterpriseId candidate)).map ids.ofFinding := by
  rw [matching_of_share, mirrors.findings, List.filter_map, matching_of_share left]
  rfl

theorem Mirrors.member {finding : RiskFinding} (member : finding ∈ findingsOf enterpriseId left) :
    ids.ofFinding finding ∈ findingsOf enterpriseId right := by
  rw [mirrors.findings]
  exact List.mem_map_of_mem member

/-- Two findings of the enterprise do not get one id. -/
theorem Mirrors.injective {first second : Uuid} (firstOf : isFindingOf enterpriseId left first = true)
    (secondOf : isFindingOf enterpriseId left second = true) (same : ids.finding first = ids.finding second) :
    first = second := by
  obtain ⟨finding, member, rfl⟩ := isFindingOf_iff.mp firstOf
  obtain ⟨other, otherMember, rfl⟩ := isFindingOf_iff.mp secondOf
  have distinct : ((findingsOf enterpriseId right).map (·.id)).Nodup :=
    right.riskFinding.distinct.sublist (List.filter_sublist.map _)
  rw [mirrors.findings, List.map_map] at distinct
  rw [List.inj_on_of_nodup_map distinct member otherMember same]

theorem Mirrors.linked {finding : RiskFinding} (member : finding ∈ findingsOf enterpriseId left) (signalId : Uuid) :
    linked (ids.ofFinding finding) right signalId = linked finding left signalId := by
  rw [linked_of_share (mirrors.member member), mirrors.links, linked_of_share member]
  refine any_map_congr fun link linkMember => ?_
  have same : ids.finding link.riskFindingId = ids.finding finding.id ↔ link.riskFindingId = finding.id :=
    ⟨mirrors.injective (List.mem_filter.mp linkMember).2 (isFindingOf_iff.mpr ⟨finding, member, rfl⟩),
      congrArg ids.finding⟩
  simp [Ids.ofLink, Ids.ofFinding, same]

theorem Mirrors.newEvidence {finding : RiskFinding} (member : finding ∈ findingsOf enterpriseId left)
    (itemId supplierId : Option Uuid) :
    newEvidence (ids.ofFinding finding) itemId supplierId right = newEvidence finding itemId supplierId left := by
  have owner : finding.enterpriseId = enterpriseId := (mem_findingsOf.mp member).2
  have ofShare (db : DB) : db.observationSignal.rows.filter (supports finding itemId supplierId) =
      (signalsOf enterpriseId db).filter (supports finding itemId supplierId) := by
    rw [signalsOf, List.filter_filter]
    refine List.filter_congr fun signal _ => ?_
    by_cases hit : supports finding itemId supplierId signal = true
    · simp [hit, (supports_iff.mp hit).1.trans owner]
    · simp [hit]
  have unlinked : (fun signalId => !Analysis.linked (ids.ofFinding finding) right signalId) =
      fun signalId => !Analysis.linked finding left signalId :=
    funext fun signalId => congrArg not (mirrors.linked member signalId)
  have supported : right.observationSignal.rows.filter (supports (ids.ofFinding finding) itemId supplierId) =
      left.observationSignal.rows.filter (supports finding itemId supplierId) := by
    refine (ofShare right).trans ?_
    rw [mirrors.signals, ofShare left]
  rw [Analysis.newEvidence, supported, unlinked, Analysis.newEvidence]

theorem Mirrors.explanationQueued {finding : RiskFinding} (member : finding ∈ findingsOf enterpriseId left) :
    explanationQueued (ids.ofFinding finding) right = explanationQueued finding left := by
  rw [explanationQueued_of_share (mirrors.member member), mirrors.jobs, explanationQueued_of_share member]
  refine any_map_congr fun job jobMember => ?_
  have same : job.payload.riskFindingId.map ids.finding = some (ids.finding finding.id) ↔
      job.payload.riskFindingId = some finding.id := by
    have ofShare := (List.mem_filter.mp jobMember).2
    rw [jobOfShare] at ofShare
    cases named : job.payload.riskFindingId with
    | none => simp
    | some id =>
        rw [named, Option.any_some] at ofShare
        simp only [Option.map_some, Option.some.injEq]
        exact ⟨mirrors.injective ofShare (isFindingOf_iff.mpr ⟨finding, member, rfl⟩), congrArg ids.finding⟩
  simp [Ids.ofJob, Ids.ofFinding, same]

end Mirrored

end Shares

end SmartProcurement.Analysis
