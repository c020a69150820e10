import SmartProcurement.Analysis.ShareWrites
import SmartProcurement.Observation.Inputs
import SmartProcurement.Transaction.Lockstep

namespace SmartProcurement.Analysis

open Relational Transaction Observation

/-! # Isolation of enterprises

A recomputation and the detection after it, run in two states with the same share
of the enterprise, take the same course and leave two states with the same share;
what is not of the share they leave as it is.
-/

/-- The two runs have come from `left` and `right`. -/
structure Joint (enterpriseId : Uuid) (left right after later : DB) : Prop where
  first : Stays enterpriseId left after
  second : Stays enterpriseId right later
  follow : Follow enterpriseId .same left after later

/-- The two runs stand at these states. -/
def At (left right : DB) (before other : DB) : Prop := before = left ∧ other = right

section Runs

variable {now : Timestamp} {enterpriseId itemId : Uuid} {ids : Ids} {left right after later : DB}

theorem joint_refl (leftSound : SharesSound left) (rightSound : SharesSound right)
    (agree : Agree enterpriseId left right) :
    Joint enterpriseId left right left right :=
  ⟨stays_refl enterpriseId leftSound, stays_refl enterpriseId rightSound, follow_refl agree⟩

theorem Joint.step (joint : Joint enterpriseId left right after later) {next following : DB}
    (leftStays : Stays enterpriseId after next) (rightStays : Stays enterpriseId later following)
    (follows : ∀ ids, Mirrors enterpriseId ids after later → Follow enterpriseId ids after next following) :
    Joint enterpriseId left right next following := by
  refine ⟨joint.first.trans leftStays, joint.second.trans rightStays, ?_⟩
  obtain ⟨ids, kept, mirrors⟩ := joint.follow
  obtain ⟨last, keptAfter, mirrorsAfter⟩ := follows ids mirrors
  exact ⟨last, kept.trans keptAfter joint.first.confined, mirrorsAfter⟩

/-- A query whose rows are the same up to the ids. -/
theorem lockstep_scalarOrNone {α : Type} (query : DB → List α) {renumber : α → α}
    (same : query right = (query left).map renumber) :
    Lockstep (fun found other => query left = found.toList ∧ other = found.map renumber) (At left right) (At left right)
      (scalarOrNone query) (scalarOrNone query) := by
  rintro before other ⟨rfl, rfl⟩
  change Matched _ _ (lift (scalarOneOrNone Error.multipleResultsFound (query before)) before)
    (lift (scalarOneOrNone Error.multipleResultsFound (query other)) other)
  rw [same, scalarOneOrNone_map]
  cases single : scalarOneOrNone Error.multipleResultsFound (query before) with
  | error reason => exact .error
  | ok found => exact .ok ⟨scalarOneOrNone_ok single, rfl⟩ ⟨rfl, rfl⟩

/-! ## The recomputation -/

theorem Mirrors.aggregateValues (mirrors : Mirrors enterpriseId ids left right) (leftSound : SharesSound left)
    (rightSound : SharesSound right) (isItem : IsItemOf enterpriseId left itemId) :
    aggregateValues right itemId = aggregateValues left itemId := by
  refine aggregateValues_congr fun entity listed => ?_
  have concerns : entity ∈ [Entity.stockLevel, .price, .leadTime, .consumption, .productionDemand, .purchaseOrder] := by
    revert entity
    decide
  rw [SameReading, mirrors.trustedRows leftSound rightSound isItem concerns]

theorem upsertAggregate_lockstep (values : AggregateValues) (joint : Joint enterpriseId left right after later)
    (isItem : IsItemOf enterpriseId after itemId) :
    Lockstep (fun _ _ => True) (At after later) (Joint enterpriseId left right)
      (upsertAggregate now enterpriseId itemId values) (upsertAggregate now enterpriseId itemId values) := by
  obtain ⟨ids, _, mirrors⟩ := joint.follow
  have rows := mirrors.itemRows joint.first.sound joint.second.sound isItem
  have isItemLater := mirrors.isItemOf isItem
  refine (lockstep_scalarOrNone (fun db => itemRows db itemId) rows).bind fun existing other found => ?_
  obtain ⟨sole, rfl⟩ := found
  refine (lockstep_lift (alike_refl (storedValues values))).bind fun stored _ same => ?_
  subst same
  cases existing with
  | none =>
      rintro before other ⟨rfl, rfl⟩
      refine .ok trivial (joint.step (withAggregate_stays joint.first.sound rfl isItem)
        (withAggregate_stays joint.second.sound rfl isItemLater) fun ids mirrors => withAggregate_follow mirrors rfl)
  | some old =>
      rintro before other ⟨rfl, rfl⟩
      have counterpart : itemRows other itemId = [ids.ofAggregate old] := by
        rw [rows, sole]
        rfl
      have written (db : DB) (row : SkuAggregate) (only : itemRows db itemId = [row]) :
          { db with skuAggregate := db.skuAggregate.update row.id (refreshed now stored) } =
            withRefreshed now itemId stored db := by
        rw [withRefreshed, ← Table.update_of_sole only]
        rfl
      have moved := joint.step (withRefreshed_stays now stored joint.first.sound isItem)
        (withRefreshed_stays now stored joint.second.sound isItemLater)
        fun ids mirrors => withRefreshed_follow mirrors
      rw [← written before old sole, ← written other _ counterpart] at moved
      exact .ok trivial moved

theorem Joint.isItemOf (joint : Joint enterpriseId left right after later) :
    IsItemOf enterpriseId after itemId ↔ IsItemOf enterpriseId left itemId := by
  rw [IsItemOf, IsItemOf, joint.first.confined.canonical]

theorem recomputeOne_lockstep (isItem : IsItemOf enterpriseId left itemId) :
    Lockstep (fun _ _ => True) (Joint enterpriseId left right) (Joint enterpriseId left right)
      (recomputeOne now enterpriseId itemId) (recomputeOne now enterpriseId itemId) := by
  intro after later joint
  obtain ⟨ids, _, mirrors⟩ := joint.follow
  have isItemAfter := joint.isItemOf.mpr isItem
  have derived := mirrors.aggregateValues joint.first.sound joint.second.sound isItemAfter
  have reads : Lockstep Eq (At after later) (At after later)
      (read fun db => aggregateValues db itemId : Session _) (read fun db => aggregateValues db itemId) := by
    refine lockstep_query ?_
    rintro _ _ ⟨rfl, rfl⟩
    exact derived.symm
  refine (reads.bind fun computed _ same => ?_) after later ⟨rfl, rfl⟩
  subst same
  refine (lockstep_lift (alike_refl computed)).bind fun values _ same => ?_
  subst same
  cases values with
  | none =>
      rintro _ _ ⟨rfl, rfl⟩
      exact .ok trivial joint
  | some values => exact (upsertAggregate_lockstep values joint isItemAfter).bind fun _ _ _ => lockstep_pure trivial

theorem mem_itemsInScope {itemIds : Option (List Uuid)} (member : itemId ∈ itemsInScope enterpriseId itemIds left) :
    IsItemOf enterpriseId left itemId := by
  have owned (listed : itemId ∈ (ownedRows enterpriseId left .item).map (·.id)) : IsItemOf enterpriseId left itemId :=
    isItemOf_iff.mpr listed
  unfold itemsInScope at member
  split at member
  · exact owned member
  · exact owned member
  · exact owned (List.mem_filter.mp member).1

theorem Mirrors.itemsInScope (mirrors : Mirrors enterpriseId ids left right) (itemIds : Option (List Uuid)) :
    itemsInScope enterpriseId itemIds right = itemsInScope enterpriseId itemIds left := by
  have owned : (right.canonical .item).rows.filter (·.enterpriseId = enterpriseId) =
      (left.canonical .item).rows.filter (·.enterpriseId = enterpriseId) := mirrors.rows .item
  simp only [Observation.itemsInScope, owned]

theorem recomputeAggregates_lockstep (itemIds : Option (List Uuid)) :
    Lockstep (fun _ _ => True) (Joint enterpriseId left right) (Joint enterpriseId left right)
      (recomputeAggregates now enterpriseId itemIds) (recomputeAggregates now enterpriseId itemIds) := by
  have scopes : Lockstep (fun scope other => other = scope ∧ ∀ itemId ∈ scope, IsItemOf enterpriseId left itemId)
      (Joint enterpriseId left right) (Joint enterpriseId left right)
      (read (itemsInScope enterpriseId itemIds) : Session _) (read (itemsInScope enterpriseId itemIds)) := by
    refine lockstep_read fun after later joint => ?_
    obtain ⟨ids, _, mirrors⟩ := joint.follow
    exact ⟨mirrors.itemsInScope itemIds, fun itemId member => joint.isItemOf.mp (mem_itemsInScope member)⟩
  refine scopes.bind fun _ scope same => ?_
  obtain ⟨rfl, owned⟩ := same
  have lists : List.Forall₂ (fun itemId other => other = itemId ∧ IsItemOf enterpriseId left itemId) scope scope :=
    List.forall₂_same.mpr fun itemId member => ⟨rfl, owned itemId member⟩
  refine Lockstep.foldlM lists (fun _ _ itemId _ _ same => ?_) trivial
  obtain ⟨rfl, isItem⟩ := same
  exact (recomputeOne_lockstep isItem).bind fun _ _ _ => lockstep_pure trivial

/-! ## The rules -/

theorem Mirrors.trustedOf (mirrors : Mirrors enterpriseId ids left right) (entity : Entity) :
    trustedOf right entity enterpriseId = trustedOf left entity enterpriseId := by
  have ofShare (db : DB) :
      Analysis.trustedOf db entity enterpriseId = (ownedRows enterpriseId db entity).filter (·.trusted) := by
    rw [Analysis.trustedOf, ownedRows, List.filter_filter]
    exact List.filter_congr fun row _ => by simp [Bool.and_comm]
  rw [ofShare, mirrors.rows, ← ofShare]

/-- The rules in their order, but for the ids of the aggregates, which no rule reads. -/
theorem Mirrors.probes (mirrors : Mirrors enterpriseId ids left right) :
    probes now enterpriseId right = probes now enterpriseId left := by
  have aggregates : (aggregatesOf enterpriseId right).flatMap (aggregateProbes now) =
      (aggregatesOf enterpriseId left).flatMap (aggregateProbes now) := by
    rw [mirrors.aggregates, List.flatMap_map]
    rfl
  have delays : supplierDelaySamples enterpriseId right = supplierDelaySamples enterpriseId left := by
    rw [supplierDelaySamples, mirrors.trustedOf, ← supplierDelaySamples]
  have qualities : qualitySamples enterpriseId right = qualitySamples enterpriseId left := by
    rw [qualitySamples, mirrors.trustedOf, ← qualitySamples]
  rw [Analysis.probes, aggregates, delays, qualities, ← Analysis.probes]

/-- A rule of the enterprise computes the same in both runs, in whatever state they have come to. -/
theorem Joint.evaluate {before other : DB} (start : Joint enterpriseId left right before other) {probe : Probe}
    (member : probe ∈ probes now enterpriseId before) (joint : Joint enterpriseId left right after later) :
    probe.evaluate later = probe.evaluate after := by
  obtain ⟨ids, _, mirrors⟩ := joint.follow
  rcases List.mem_append.mp member with aggregate | rest
  · obtain ⟨row, rowMember, member⟩ := List.mem_flatMap.mp aggregate
    obtain ⟨stored, owner⟩ := List.mem_filter.mp rowMember
    have isItem : IsItemOf enterpriseId before row.itemId :=
      of_decide_eq_true owner ▸ start.first.sound.aggregates row stored
    have still := joint.isItemOf.mpr (start.isItemOf.mp isItem)
    have leadTimes := mirrors.trustedRows joint.first.sound joint.second.sound still (by decide : Entity.leadTime ∈ _)
    have demands := mirrors.trustedRows joint.first.sound joint.second.sound still
      (by decide : Entity.productionDemand ∈ _)
    simp only [aggregateProbes, List.mem_cons, List.not_mem_nil, or_false] at member
    rcases member with rfl | rfl | rfl | rfl
    · have latest : latestLeadTimeDays later row.itemId = latestLeadTimeDays after row.itemId := by
        rw [latestLeadTimeDays, leadTimes, ← latestLeadTimeDays]
      simp only [latest]
    · rfl
    · have same : productionDemands later row.itemId = productionDemands after row.itemId := by
        rw [productionDemands, demands, ← productionDemands]
      simp only [same]
    · rfl
  · rcases List.mem_append.mp rest with delay | quality
    · obtain ⟨sample, _, rfl⟩ := List.mem_map.mp delay
      rfl
    · obtain ⟨sample, _, rfl⟩ := List.mem_map.mp quality
      rfl

/-! ## The candidates -/

theorem FoundOrCreated.stays {candidate : RiskCandidate} {finding : RiskFinding}
    (step : FoundOrCreated now enterpriseId candidate left finding after) (sound : SharesSound left) :
    Stays enterpriseId left after := by
  cases step with
  | found _ => exact stays_refl enterpriseId sound
  | created _ => exact withFinding_stays candidate sound

theorem FoundOrCreated.follow {candidate : RiskCandidate} {finding other : RiskFinding}
    (step : FoundOrCreated now enterpriseId candidate left finding after)
    (again : FoundOrCreated now enterpriseId candidate right other later)
    (mirrors : Mirrors enterpriseId ids left right)
    (leftSound : SharesSound left) (rightSound : SharesSound right) :
    ∃ next : Ids, next.Extends ids left ∧ Paired enterpriseId next finding other after later := by
  have matching := mirrors.matching candidate
  cases step with
  | found only =>
      rw [only] at matching
      cases again with
      | found onlyAgain =>
          refine ⟨ids, ids.extends_refl left, mirrors, ?_, List.singleton_inj.mp (onlyAgain.symm.trans matching)⟩
          obtain ⟨member, matched⟩ := List.mem_filter.mp (only ▸ List.mem_singleton_self finding)
          exact mem_findingsOf.mpr ⟨member, (matchesCandidate_iff.mp matched).1⟩
      | created unknown =>
          rw [unknown] at matching
          cases matching
  | created unknown =>
      rw [unknown] at matching
      cases again with
      | found onlyAgain =>
          rw [onlyAgain] at matching
          cases matching
      | created _ => exact withFinding_follow candidate mirrors leftSound rightSound

theorem addLinks_stays {finding : RiskFinding} (signalIds : List Uuid) {db : DB} (sound : SharesSound db)
    (member : finding ∈ findingsOf enterpriseId db) : Stays enterpriseId db (addLinks finding signalIds db) := by
  induction signalIds generalizing db with
  | nil => exact stays_refl enterpriseId sound
  | cons signalId rest ih =>
      have first := withLink_stays sound member signalId
      exact first.trans (ih first.sound member)

theorem Paired.addLinks {finding other : RiskFinding} (signalIds : List Uuid) (leftSound : SharesSound left)
    (paired : Paired enterpriseId ids finding other left right) :
    ∃ next : Ids, next.Extends ids left ∧
      Paired enterpriseId next finding other (addLinks finding signalIds left) (addLinks other signalIds right) := by
  induction signalIds generalizing ids left right with
  | nil => exact ⟨ids, ids.extends_refl left, paired⟩
  | cons signalId rest ih =>
      have first := withLink_stays leftSound paired.member signalId
      obtain ⟨next, kept, linked⟩ := withLink_follow paired signalId
      obtain ⟨last, keptAfter, all⟩ := ih first.sound linked
      exact ⟨last, kept.trans keptAfter first.confined, all⟩

theorem withEvidence_stays {finding : RiskFinding} (candidate : RiskCandidate) (itemId supplierId : Option Uuid)
    (sound : SharesSound left) (member : finding ∈ findingsOf enterpriseId left) :
    Stays enterpriseId left (withEvidence candidate finding itemId supplierId left) := by
  obtain ⟨signalIds, same, _⟩ := withEvidence_eq candidate finding itemId supplierId left
  rw [same]
  exact addLinks_stays signalIds sound member

theorem Paired.withEvidence {finding other : RiskFinding} (candidate : RiskCandidate) (itemId supplierId : Option Uuid)
    (leftSound : SharesSound left) (paired : Paired enterpriseId ids finding other left right) :
    ∃ next : Ids, next.Extends ids left ∧ Paired enterpriseId next finding other
      (withEvidence candidate finding itemId supplierId left) (withEvidence candidate other itemId supplierId right) := by
  unfold Analysis.withEvidence
  by_cases none : evidenceSignalTypes candidate.riskType = []
  · rw [if_pos none, if_pos none]
    exact ⟨ids, ids.extends_refl left, paired⟩
  · have same : newEvidence other itemId supplierId right = newEvidence finding itemId supplierId left := by
      rw [paired.counterpart, paired.mirrors.newEvidence paired.member]
    rw [if_neg none, if_neg none, same]
    exact paired.addLinks _ leftSound

theorem Requested.stays {finding : RiskFinding} (step : Requested now finding left after) (sound : SharesSound left)
    (member : finding ∈ findingsOf enterpriseId left) : Stays enterpriseId left after := by
  cases step with
  | already _ => exact stays_refl enterpriseId sound
  | enqueued _ => exact withJob_stays sound member

theorem Requested.follow {finding other : RiskFinding} (step : Requested now finding left after)
    (again : Requested now other right later) (paired : Paired enterpriseId ids finding other left right) :
    Follow enterpriseId ids left after later := by
  have same : Analysis.explained other right ↔ Analysis.explained finding left := by
    rw [Analysis.explained, Analysis.explained, paired.counterpart, paired.mirrors.explanationQueued paired.member]
    rfl
  cases step with
  | already known =>
      cases again with
      | already _ => exact follow_refl paired.mirrors
      | enqueued missing => exact absurd (same.mpr known) missing
  | enqueued missing =>
      cases again with
      | already known => exact absurd (same.mp known) missing
      | enqueued _ => exact withJob_follow paired

/-- Both applications find or create the finding, link the same signals to it and ask for it alike. -/
theorem Applied.joint {candidate : RiskCandidate} {itemId supplierId : Option Uuid} {finding other : RiskFinding}
    {before counterpart : DB} (joint : Joint enterpriseId left right before counterpart)
    (step : Applied now enterpriseId candidate itemId supplierId before finding after)
    (again : Applied now enterpriseId candidate itemId supplierId counterpart other later) :
    Joint enterpriseId left right after later := by
  obtain ⟨middle, found, requested⟩ := step.steps
  obtain ⟨mate, foundAgain, requestedAgain⟩ := again.steps
  have owned {db : DB} {row : RiskFinding} {reached : DB} (step : FoundOrCreated now enterpriseId candidate db row reached) :
      row ∈ findingsOf enterpriseId reached :=
    mem_findingsOf.mpr ⟨step.member, (matchesCandidate_iff.mp step.matched).1⟩
  have first := found.stays joint.first.sound
  have firstAgain := foundAgain.stays joint.second.sound
  have linked := withEvidence_stays candidate itemId supplierId first.sound (owned found)
  have linkedAgain := withEvidence_stays candidate itemId supplierId firstAgain.sound (owned foundAgain)
  have keeps {db : DB} {row : RiskFinding} (member : row ∈ findingsOf enterpriseId db) :
      row ∈ findingsOf enterpriseId (withEvidence candidate row itemId supplierId db) := by
    obtain ⟨signalIds, same, _⟩ := withEvidence_eq candidate row itemId supplierId db
    rw [same]
    exact member
  have asked := requested.stays linked.sound (keeps (owned found))
  have askedAgain := requestedAgain.stays linkedAgain.sound (keeps (owned foundAgain))
  refine joint.step ((first.trans linked).trans asked) ((firstAgain.trans linkedAgain).trans askedAgain) fun ids mirrors => ?_
  obtain ⟨next, kept, paired⟩ := found.follow foundAgain mirrors joint.first.sound joint.second.sound
  obtain ⟨last, keptAfter, paired⟩ := paired.withEvidence candidate itemId supplierId first.sound
  obtain ⟨final, keptLast, mirrors⟩ := requested.follow requestedAgain paired
  exact ⟨final, (kept.trans keptAfter first.confined).trans keptLast (first.confined.trans linked.confined), mirrors⟩

theorem applyCandidate_lockstep (candidate : RiskCandidate) (itemId supplierId : Option Uuid) :
    Lockstep (fun _ _ => True) (Joint enterpriseId left right) (Joint enterpriseId left right)
      (applyCandidate now enterpriseId candidate itemId supplierId)
      (applyCandidate now enterpriseId candidate itemId supplierId) := by
  intro after later joint
  obtain ⟨ids, _, mirrors⟩ := joint.follow
  have looks := lockstep_scalarOrNone (fun db => db.riskFinding.rows.filter (matchesCandidate enterpriseId candidate))
    (mirrors.matching candidate)
  rcases (looks after later ⟨rfl, rfl⟩).cases with ⟨_, _, _, _, looked, lookedAgain, _, rfl, rfl⟩ |
    ⟨_, _, _, _, raised, raisedAgain⟩
  · obtain ⟨finding, next, ran⟩ := applyCandidate_of_looked now looked itemId supplierId
    obtain ⟨other, following, ranAgain⟩ := applyCandidate_of_looked now lookedAgain itemId supplierId
    rw [ran, ranAgain]
    exact .ok trivial (Applied.joint joint (applyCandidate_ok ran) (applyCandidate_ok ranAgain))
  · have fails {db reached : DB} {reason : Error}
        (raised : findNonTerminal enterpriseId candidate db = .error reason reached) :
        applyCandidate now enterpriseId candidate itemId supplierId db = .error reason reached :=
      bind_of_error (bind_of_error raised)
    rw [fails raised, fails raisedAgain]
    exact .error

theorem runProbe_lockstep {probe : Probe}
    (reads : ∀ after later, Joint enterpriseId left right after later → probe.evaluate later = probe.evaluate after)
    (findings others : List RiskFinding) :
    Lockstep (fun _ _ => True) (Joint enterpriseId left right) (Joint enterpriseId left right)
      (runProbe now enterpriseId findings probe) (runProbe now enterpriseId others probe) := by
  refine (lockstep_query fun after later joint => (reads after later joint).symm).bind fun computed _ same => ?_
  subst same
  refine (lockstep_lift (alike_refl computed)).bind fun found _ same => ?_
  subst same
  cases found with
  | none => exact lockstep_pure trivial
  | some candidate => exact (applyCandidate_lockstep candidate _ _).bind fun _ _ _ => lockstep_pure trivial

theorem detectRisks_lockstep :
    Lockstep (fun _ _ => True) (Joint enterpriseId left right) (Joint enterpriseId left right)
      (detectRisks now enterpriseId) (detectRisks now enterpriseId) := by
  intro before other joint
  obtain ⟨ids, _, mirrors⟩ := joint.follow
  rw [detectRisks_eq, detectRisks_eq, mirrors.probes]
  have lists : List.Forall₂ (fun probe twin => twin = probe ∧ probe ∈ probes now enterpriseId before)
      (probes now enterpriseId before) (probes now enterpriseId before) :=
    List.forall₂_same.mpr fun probe member => ⟨rfl, member⟩
  refine Lockstep.foldlM lists (fun findings others _ probe _ same => ?_) trivial before other joint
  obtain ⟨rfl, member⟩ := same
  exact runProbe_lockstep (fun after later reached => joint.evaluate member reached) findings others

end Runs

/-! ## Both, one after the other -/

/-- `recompute_aggregates` followed by `detect_risks`. -/
def recomputeAndDetect (recomputedAt detectedAt : Timestamp) (enterpriseId : Uuid) (itemIds : Option (List Uuid)) :
    Session (List RiskFinding) := do
  let _ ← recomputeAggregates recomputedAt enterpriseId itemIds
  detectRisks detectedAt enterpriseId

/-- The recomputation and the detection after it raise in both states or return in both.
Where they return, the enterprise has the same rows again, up to the ids of the new
ones, and what is not of its share is as it was. -/
def Isolated (recomputedAt detectedAt : Timestamp) (enterpriseId : Uuid) (itemIds : Option (List Uuid))
    (left right : DB) : Prop :=
  Matched (fun _ _ => True)
    (fun after later => Elsewhere enterpriseId left after ∧ Elsewhere enterpriseId right later ∧
      ∃ ids : Ids, ids.Extends .same left ∧ Mirrors enterpriseId ids after later)
    (recomputeAndDetect recomputedAt detectedAt enterpriseId itemIds left)
    (recomputeAndDetect recomputedAt detectedAt enterpriseId itemIds right)

theorem detection_isolated {recomputedAt detectedAt : Timestamp} {enterpriseId : Uuid} {itemIds : Option (List Uuid)}
    {left right : DB} (leftSound : SharesSound left) (rightSound : SharesSound right)
    (agree : Agree enterpriseId left right) : Isolated recomputedAt detectedAt enterpriseId itemIds left right := by
  have both : Lockstep (fun _ _ => True) (Joint enterpriseId left right) (Joint enterpriseId left right)
      (recomputeAndDetect recomputedAt detectedAt enterpriseId itemIds)
      (recomputeAndDetect recomputedAt detectedAt enterpriseId itemIds) :=
    (recomputeAggregates_lockstep itemIds).bind fun _ _ _ => detectRisks_lockstep
  unfold Isolated
  rcases (both left right (joint_refl leftSound rightSound agree)).cases with
    ⟨_, _, after, later, ran, ranAgain, _, joint⟩ | ⟨_, _, _, _, raised, raisedAgain⟩
  · rw [ran, ranAgain]
    exact .ok trivial ⟨joint.first.confined.elsewhere, joint.second.confined.elsewhere, joint.follow⟩
  · rw [raised, raisedAgain]
    exact .error

def stockIn (enterpriseId itemId : Uuid) (quantity : ℚ) : Row :=
  .ofColumns enterpriseId .fresh none [("item_id", .uuid itemId), ("quantity", .decimal (.finite quantity))]

def priced (enterpriseId itemId : Uuid) : SkuAggregate where
  id := 0
  enterpriseId
  itemId
  warehouseId := none
  values := ⟨none, none, none, some (.finite 3), none, none⟩
  computedAt := 0

/-- Two enterprises with an item each; the second has a stock and an aggregate. -/
def twoShops (quantity : ℚ) (aggregate : SkuAggregate) : DB :=
  { (default : DB) with
    enterprise := [1, 2]
    canonical := fun
      | .item => (Table.empty.insert (.ofColumns 1 .fresh none [("sku", .text "bolt")])).insert
          (.ofColumns 2 .fresh none [("sku", .text "nut")])
      | .stockLevel => (Table.empty.insert (stockIn 1 1 5)).insert (stockIn 2 2 quantity)
      | _ => .empty
    skuAggregate := Table.empty.insert aggregate }

theorem twoShops_refer (quantity : ℚ) (aggregate : SkuAggregate) : RowsReferOwn (twoShops quantity aggregate) := by
  intro entity row member column listed target references id named
  cases entity with
  | item =>
      have plain : ∀ column ∈ ownColumns .item, column.references = none := by
        simp [ownColumns, emptyText, flag]
      rw [plain column listed] at references
      cases references
  | stockLevel =>
      have refers : ∀ column ∈ ownColumns .stockLevel,
          column = itemFk ∨ column.references = none ∨ column.name = "warehouse_id" := by
        simp [ownColumns, zeroQuantity, warehouseFk]
      rcases refers column listed with rfl | plain | warehouse
      · obtain rfl : Entity.item = target := Option.some.inj references
        rcases List.mem_pair.mp member with rfl | rfl
        · obtain rfl : 1 = id := Option.some.inj named
          exact ⟨_, List.mem_cons_self, rfl, rfl⟩
        · obtain rfl : 2 = id := Option.some.inj named
          exact ⟨_, List.mem_cons_of_mem _ (List.mem_singleton_self _), rfl, rfl⟩
      · rw [plain] at references
        cases references
      · rw [warehouse] at named
        rcases List.mem_pair.mp member with rfl | rfl
        · cases named
        · cases named
  | _ => cases member

theorem twoShops_sound (quantity : ℚ) : SharesSound (twoShops quantity (priced 2 2)) where
  rows := twoShops_refer quantity _
  aggregates := by
    intro row member
    obtain rfl := List.mem_singleton.mp member
    exact ⟨_, List.mem_cons_of_mem _ (List.mem_singleton_self _), rfl, rfl⟩
  issued := ⟨fun _ member => absurd member List.not_mem_nil, fun _ member => absurd member List.not_mem_nil⟩

/-- What the second enterprise has in stock is nothing to the first. -/
theorem detection_isolated_twoShops :
    Isolated 10 20 1 none (twoShops 7 (priced 2 2)) (twoShops 9 (priced 2 2)) := by
  refine detection_isolated (twoShops_sound 7) (twoShops_sound 9) ⟨fun entity => ?_, rfl, rfl, rfl, rfl, rfl⟩
  cases entity <;> rfl

/-- An aggregate that the second enterprise keeps for the item of the first is taken for the item's own row. -/
theorem foreign_aggregate_refreshed :
    RowsReferOwn (twoShops 7 (priced 2 1)) ∧ Issued (twoShops 7 (priced 2 1)) ∧
      Agree 1 (twoShops 7 (priced 2 1)) (twoShops 7 (priced 2 1)) ∧
      ¬ Isolated 10 20 1 none (twoShops 7 (priced 2 1)) (twoShops 7 (priced 2 1)) := by
  have issued : Issued (twoShops 7 (priced 2 1)) :=
    ⟨fun _ member => absurd member List.not_mem_nil, fun _ member => absurd member List.not_mem_nil⟩
  refine ⟨twoShops_refer 7 _, issued, ⟨fun _ => rfl, rfl, rfl, rfl, rfl, rfl⟩, fun isolated => ?_⟩
  have returns : returned (recomputeAndDetect 10 20 1 none (twoShops 7 (priced 2 1))) = true := by decide +kernel
  have overwritten : (state (recomputeAndDetect 10 20 1 none (twoShops 7 (priced 2 1)))).skuAggregate.rows.filter
      (·.enterpriseId ≠ 1) ≠ (twoShops 7 (priced 2 1)).skuAggregate.rows.filter (·.enterpriseId ≠ 1) := by decide +kernel
  obtain ⟨findings, ran⟩ := exists_of_returned returns
  rcases Matched.cases isolated with ⟨_, _, after, _, ok, _, _, elsewhere, _⟩ | ⟨_, _, _, _, raised, _⟩
  · rw [ok] at overwritten
    exact overwritten elsewhere.aggregates
  · cases raised.symm.trans ran

end SmartProcurement.Analysis
