import SmartProcurement.Analysis.Shares

namespace SmartProcurement.Analysis

open Relational Transaction Observation

/-! # Writing within the share

The writes of a recomputation and of a detection, one by one: each keeps to the
share of the enterprise, and made in two states with the same share it leaves two
states with the same share.
-/

structure Stays (enterpriseId : Uuid) (before after : DB) : Prop where
  sound : SharesSound after
  confined : Confined enterpriseId before after

/-- The same share after both steps, with the ids of before where they were. -/
def Follow (enterpriseId : Uuid) (ids : Ids) (left after later : DB) : Prop :=
  ∃ next : Ids, next.Extends ids left ∧ Mirrors enterpriseId next after later

section Writes

variable {enterpriseId itemId : Uuid} {ids : Ids} {db left right : DB} {now : Timestamp}

theorem Stays.trans {before middle after : DB} (first : Stays enterpriseId before middle)
    (second : Stays enterpriseId middle after) : Stays enterpriseId before after :=
  ⟨second.sound, first.confined.trans second.confined⟩

theorem stays_refl (enterpriseId : Uuid) (sound : SharesSound db) : Stays enterpriseId db db :=
  ⟨sound, confined_refl enterpriseId db⟩

theorem follow_refl (mirrors : Mirrors enterpriseId ids left right) : Follow enterpriseId ids left left right :=
  ⟨ids, ids.extends_refl left, mirrors⟩

/-! ## Aggregates -/

def withAggregate (row : SkuAggregate) (db : DB) : DB :=
  { db with skuAggregate := db.skuAggregate.insert row }

def withRefreshed (now : Timestamp) (itemId : Uuid) (stored : AggregateValues) (db : DB) : DB :=
  { db with skuAggregate := db.skuAggregate.updateWhere (itemLevel itemId) (refreshed now stored) }

theorem withAggregate_stays {row : SkuAggregate} (sound : SharesSound db) (owner : row.enterpriseId = enterpriseId)
    (isItem : IsItemOf enterpriseId db row.itemId) : Stays enterpriseId db (withAggregate row db) where
  sound := by
    refine ⟨sound.rows, fun added member => ?_, sound.issued.links, sound.issued.jobs⟩
    rcases List.mem_append.mp member with old | new
    · exact sound.aggregates added old
    · obtain rfl := List.mem_singleton.mp new
      have isOwn : IsItemOf row.enterpriseId db row.itemId := owner.symm ▸ isItem
      exact isOwn
  confined := by
    refine ⟨⟨⟨_, _, _, _, rfl⟩, ?_, rfl, rfl, rfl⟩, (Table.freshKey_lt_insert _ _).le, Nat.le_refl _, Nat.le_refl _,
      Nat.le_refl _⟩
    have inside : ¬ (decide ((db.skuAggregate.newRow row).enterpriseId ≠ enterpriseId) = true) := by
      simp [Table.newRow, Keyed.withKey, owner]
    exact (Table.filter_insert ..).trans (by rw [if_neg inside, List.append_nil])

theorem withAggregate_follow {row : SkuAggregate} (mirrors : Mirrors enterpriseId ids left right)
    (owner : row.enterpriseId = enterpriseId) :
    Follow enterpriseId ids left (withAggregate row left) (withAggregate row right) := by
  refine ⟨{ ids with aggregate := withNext left.skuAggregate right.skuAggregate ids.aggregate },
    ⟨fun id given => withNext_of_lt _ given, fun _ _ => rfl, fun _ _ => rfl, fun _ _ => rfl⟩,
    mirrors.rows, mirrors.signals, ?_, mirrors.findings, mirrors.links, mirrors.jobs⟩
  have added (db : DB) : aggregatesOf enterpriseId (withAggregate row db) =
      aggregatesOf enterpriseId db ++ [db.skuAggregate.newRow row] := by
    refine (Table.filter_insert ..).trans ?_
    rw [if_pos (by simp [Table.newRow, Keyed.withKey, owner])]
    rfl
  rw [added, added]
  refine map_append_new mirrors.aggregates (fun old member => ?_) ?_
  · have given : old.id < left.skuAggregate.freshKey := Table.key_lt_freshKey (List.mem_filter.mp member).1
    simp only [Ids.ofAggregate, withNext_of_lt _ given]
  · simp [Ids.ofAggregate, Table.newRow, Keyed.withKey]

theorem withRefreshed_stays (now : Timestamp) (stored : AggregateValues) (sound : SharesSound db)
    (isItem : IsItemOf enterpriseId db itemId) : Stays enterpriseId db (withRefreshed now itemId stored db) where
  sound := by
    refine ⟨sound.rows, fun changed member => ?_, sound.issued.links, sound.issued.jobs⟩
    obtain ⟨old, oldMember, rfl⟩ := Table.mem_updateWhere.mp member
    have refers := sound.aggregates old oldMember
    split
    · exact refers
    · exact refers
  confined := by
    refine ⟨⟨⟨_, _, _, _, rfl⟩, ?_, rfl, rfl, rfl⟩, ?_, Nat.le_refl _, Nat.le_refl _, Nat.le_refl _⟩
    · refine Table.filter_updateWhere_of_not fun row member hit => ?_
      simp only [itemLevel, decide_eq_true_eq] at hit
      have owner := isItem.unique (hit.1 ▸ sound.aggregates row member)
      simp [owner, refreshed, Table.assign, Keyed.withKey]
    · exact (Table.freshKey_congr (Table.updateWhere_keys ..)).ge

theorem withRefreshed_follow {stored : AggregateValues} (mirrors : Mirrors enterpriseId ids left right) :
    Follow enterpriseId ids left (withRefreshed now itemId stored left) (withRefreshed now itemId stored right) := by
  refine ⟨ids, ids.extends_refl left, mirrors.rows, mirrors.signals, ?_, mirrors.findings, mirrors.links, mirrors.jobs⟩
  have changed (db : DB) : aggregatesOf enterpriseId (withRefreshed now itemId stored db) =
      (aggregatesOf enterpriseId db).map fun row =>
        if itemLevel itemId row then Table.assign (refreshed now stored) row else row :=
    Table.filter_updateWhere fun row _ _ => rfl
  rw [changed, changed, mirrors.aggregates, List.map_map, List.map_map]
  refine List.map_congr_left fun row _ => ?_
  have level : itemLevel itemId (ids.ofAggregate row) = itemLevel itemId row := rfl
  simp only [Function.comp_apply, level]
  split
  · rfl
  · rfl

/-! ## Findings -/

theorem findingsOf_withFinding (db : DB) (enterpriseId : Uuid) (candidate : RiskCandidate) :
    findingsOf enterpriseId (withFinding now enterpriseId candidate db) =
      findingsOf enterpriseId db ++ [db.riskFinding.newRow (newFinding now enterpriseId candidate)] := by
  refine (Table.filter_insert ..).trans ?_
  rw [if_pos (by simp [Table.newRow, Keyed.withKey, newFinding])]
  rfl

/-- A new finding is not one that a link or a job named before. -/
theorem isFindingOf_withFinding {id : Uuid} (candidate : RiskCandidate) (given : id < db.riskFinding.freshKey) :
    isFindingOf enterpriseId (withFinding now enterpriseId candidate db) id = isFindingOf enterpriseId db id := by
  rw [isFindingOf, findingsOf_withFinding, List.any_append, isFindingOf]
  have different : db.riskFinding.freshKey ≠ id := (Nat.ne_of_lt given).symm
  simp [Table.newRow, Keyed.withKey, different]

theorem linkOfShare_withFinding (issued : Issued db) (candidate : RiskCandidate) :
    ∀ link ∈ db.riskSignalLink.rows,
      linkOfShare enterpriseId (withFinding now enterpriseId candidate db) link = linkOfShare enterpriseId db link :=
  fun link member => isFindingOf_withFinding candidate (issued.links link member)

theorem jobOfShare_withFinding (issued : Issued db) (candidate : RiskCandidate) :
    ∀ job ∈ db.job.rows,
      jobOfShare enterpriseId (withFinding now enterpriseId candidate db) job = jobOfShare enterpriseId db job := by
  intro job member
  rw [jobOfShare, jobOfShare]
  cases named : job.payload.riskFindingId with
  | none => rfl
  | some id => exact isFindingOf_withFinding candidate (issued.jobs job member id named)

theorem withFinding_stays (candidate : RiskCandidate) (sound : SharesSound db) :
    Stays enterpriseId db (withFinding now enterpriseId candidate db) where
  sound := by
    have grown := Table.freshKey_lt_insert db.riskFinding (newFinding now enterpriseId candidate)
    exact ⟨sound.rows, sound.aggregates, fun link member => (sound.issued.links link member).trans grown,
      fun job member id named => (sound.issued.jobs job member id named).trans grown⟩
  confined := by
    refine ⟨⟨⟨_, _, _, _, rfl⟩, rfl, ?_, ?_, ?_⟩, Nat.le_refl _, (Table.freshKey_lt_insert _ _).le, Nat.le_refl _,
      Nat.le_refl _⟩
    · refine (Table.filter_insert ..).trans ?_
      rw [if_neg (by simp [Table.newRow, Keyed.withKey, newFinding]), List.append_nil]
    · exact List.filter_congr fun link member => congrArg not (linkOfShare_withFinding sound.issued candidate link member)
    · exact List.filter_congr fun job member => congrArg not (jobOfShare_withFinding sound.issued candidate job member)

/-- The same finding in two states with the same share. -/
structure Paired (enterpriseId : Uuid) (ids : Ids) (finding other : RiskFinding) (left right : DB) : Prop where
  mirrors : Mirrors enterpriseId ids left right
  member : finding ∈ findingsOf enterpriseId left
  counterpart : other = ids.ofFinding finding

theorem withFinding_follow (candidate : RiskCandidate) (mirrors : Mirrors enterpriseId ids left right)
    (leftSound : SharesSound left) (rightSound : SharesSound right) :
    ∃ next : Ids, next.Extends ids left ∧
      Paired enterpriseId next (left.riskFinding.newRow (newFinding now enterpriseId candidate))
        (right.riskFinding.newRow (newFinding now enterpriseId candidate))
        (withFinding now enterpriseId candidate left) (withFinding now enterpriseId candidate right) := by
  refine ⟨{ ids with finding := withNext left.riskFinding right.riskFinding ids.finding },
    ⟨fun _ _ => rfl, fun id given => withNext_of_lt _ given, fun _ _ => rfl, fun _ _ => rfl⟩,
    ⟨mirrors.rows, mirrors.signals, mirrors.aggregates, ?_, ?_, ?_⟩, ?_, ?_⟩
  · rw [findingsOf_withFinding, findingsOf_withFinding]
    refine map_append_new mirrors.findings (fun old member => ?_) ?_
    · have given : old.id < left.riskFinding.freshKey := Table.key_lt_freshKey (mem_findingsOf.mp member).1
      simp only [Ids.ofFinding, withNext_of_lt _ given]
    · simp [Ids.ofFinding, Table.newRow, Keyed.withKey]
  · have kept (db : DB) (sound : SharesSound db) :
        linksOf enterpriseId (withFinding now enterpriseId candidate db) = linksOf enterpriseId db :=
      List.filter_congr (linkOfShare_withFinding sound.issued candidate)
    rw [kept left leftSound, kept right rightSound, mirrors.links]
    refine List.map_congr_left fun link member => ?_
    have given := leftSound.issued.links link (List.mem_filter.mp member).1
    simp only [Ids.ofLink, withNext_of_lt _ given]
  · have kept (db : DB) (sound : SharesSound db) :
        jobsAbout enterpriseId (withFinding now enterpriseId candidate db) = jobsAbout enterpriseId db :=
      List.filter_congr (jobOfShare_withFinding sound.issued candidate)
    rw [kept left leftSound, kept right rightSound, mirrors.jobs]
    refine List.map_congr_left fun job member => ?_
    have given := leftSound.issued.jobs job (List.mem_filter.mp member).1
    have named : job.payload.riskFindingId.map ids.finding =
        job.payload.riskFindingId.map (withNext left.riskFinding right.riskFinding ids.finding) :=
      Option.map_congr fun id isNamed => (withNext_of_lt _ (given id isNamed)).symm
    simp only [Ids.ofJob, named]
  · rw [findingsOf_withFinding]
    exact List.mem_append_right _ (List.mem_singleton_self _)
  · simp [Ids.ofFinding, Table.newRow, Keyed.withKey]

theorem Paired.after {next : Ids} {finding other : RiskFinding}
    (paired : Paired enterpriseId ids finding other left right)
    (extends_ : next.Extends ids left) {after later : DB} (findings : after.riskFinding = left.riskFinding)
    (mirrors : Mirrors enterpriseId next after later) : Paired enterpriseId next finding other after later where
  mirrors := mirrors
  member := by
    rw [findingsOf, findings]
    exact paired.member
  counterpart := by
    have given : finding.id < left.riskFinding.freshKey := Table.key_lt_freshKey (mem_findingsOf.mp paired.member).1
    rw [paired.counterpart, Ids.ofFinding, Ids.ofFinding, extends_.finding _ given]

/-! ## Links -/

def withLink (finding : RiskFinding) (signalId : Uuid) (db : DB) : DB :=
  { db with riskSignalLink := db.riskSignalLink.insert (linkOf finding signalId) }

theorem linksOf_withLink {finding : RiskFinding} (member : finding ∈ findingsOf enterpriseId db) (signalId : Uuid) :
    linksOf enterpriseId (withLink finding signalId db) =
      linksOf enterpriseId db ++ [db.riskSignalLink.newRow (linkOf finding signalId)] := by
  have ofShare : linkOfShare enterpriseId db (db.riskSignalLink.newRow (linkOf finding signalId)) = true :=
    isFindingOf_iff.mpr ⟨finding, member, rfl⟩
  refine (Table.filter_insert ..).trans ?_
  change List.filter (linkOfShare enterpriseId db) _ ++ (if linkOfShare enterpriseId db _ = true then _ else _) = _
  rw [if_pos ofShare]
  rfl

theorem withLink_stays {finding : RiskFinding} (sound : SharesSound db) (member : finding ∈ findingsOf enterpriseId db)
    (signalId : Uuid) : Stays enterpriseId db (withLink finding signalId db) where
  sound := by
    refine ⟨sound.rows, sound.aggregates, fun link linkMember => ?_, sound.issued.jobs⟩
    rcases List.mem_append.mp linkMember with old | new
    · exact sound.issued.links link old
    · obtain rfl := List.mem_singleton.mp new
      exact Table.key_lt_freshKey (mem_findingsOf.mp member).1
  confined := by
    refine ⟨⟨⟨_, _, _, _, rfl⟩, rfl, rfl, ?_, rfl⟩, Nat.le_refl _, Nat.le_refl _, (Table.freshKey_lt_insert _ _).le,
      Nat.le_refl _⟩
    have ofShare : linkOfShare enterpriseId db (db.riskSignalLink.newRow (linkOf finding signalId)) = true :=
      isFindingOf_iff.mpr ⟨finding, member, rfl⟩
    refine (Table.filter_insert ..).trans ?_
    change _ ++ (if (!linkOfShare enterpriseId db _) = true then _ else _) = _
    rw [if_neg (by simp [ofShare]), List.append_nil]
    rfl

theorem withLink_follow {finding other : RiskFinding} (paired : Paired enterpriseId ids finding other left right)
    (signalId : Uuid) :
    ∃ next : Ids, next.Extends ids left ∧
      Paired enterpriseId next finding other (withLink finding signalId left) (withLink other signalId right) := by
  have mirrors := paired.mirrors
  have extends_ : Ids.Extends { ids with link := withNext left.riskSignalLink right.riskSignalLink ids.link } ids left :=
    ⟨fun _ _ => rfl, fun _ _ => rfl, fun id given => withNext_of_lt _ given, fun _ _ => rfl⟩
  refine ⟨_, extends_, paired.after extends_ rfl ⟨mirrors.rows, mirrors.signals, mirrors.aggregates, mirrors.findings,
    ?_, mirrors.jobs⟩⟩
  have counterpartMember : other ∈ findingsOf enterpriseId right := paired.counterpart ▸ mirrors.member paired.member
  rw [linksOf_withLink paired.member, linksOf_withLink counterpartMember]
  refine map_append_new mirrors.links (fun old member => ?_) ?_
  · have given : old.id < left.riskSignalLink.freshKey := Table.key_lt_freshKey (List.mem_filter.mp member).1
    simp only [Ids.ofLink, withNext_of_lt _ given]
  · simp [Ids.ofLink, Table.newRow, Keyed.withKey, linkOf, paired.counterpart, Ids.ofFinding]

/-! ## Jobs -/

def withJob (now : Timestamp) (finding : RiskFinding) (db : DB) : DB :=
  { db with job := db.job.insert (explanationJob now finding) }

theorem jobOfShare_explanationJob {finding : RiskFinding} (member : finding ∈ findingsOf enterpriseId db) :
    jobOfShare enterpriseId db (db.job.newRow (explanationJob now finding)) = true :=
  isFindingOf_iff.mpr ⟨finding, member, rfl⟩

theorem jobsAbout_withJob {finding : RiskFinding} (member : finding ∈ findingsOf enterpriseId db) :
    jobsAbout enterpriseId (withJob now finding db) =
      jobsAbout enterpriseId db ++ [db.job.newRow (explanationJob now finding)] := by
  refine (Table.filter_insert ..).trans ?_
  change List.filter (jobOfShare enterpriseId db) _ ++ (if jobOfShare enterpriseId db _ = true then _ else _) = _
  rw [if_pos (jobOfShare_explanationJob member)]
  rfl

theorem withJob_stays {finding : RiskFinding} (sound : SharesSound db) (member : finding ∈ findingsOf enterpriseId db) :
    Stays enterpriseId db (withJob now finding db) where
  sound := by
    refine ⟨sound.rows, sound.aggregates, sound.issued.links, fun job jobMember id named => ?_⟩
    rcases List.mem_append.mp jobMember with old | new
    · exact sound.issued.jobs job old id named
    · obtain rfl := List.mem_singleton.mp new
      obtain rfl : finding.id = id := Option.some.inj named
      exact Table.key_lt_freshKey (mem_findingsOf.mp member).1
  confined := by
    refine ⟨⟨⟨_, _, _, _, rfl⟩, rfl, rfl, rfl, ?_⟩, Nat.le_refl _, Nat.le_refl _, Nat.le_refl _,
      (Table.freshKey_lt_insert _ _).le⟩
    refine (Table.filter_insert ..).trans ?_
    change _ ++ (if (!jobOfShare enterpriseId db _) = true then _ else _) = _
    rw [if_neg (by simp [jobOfShare_explanationJob member]), List.append_nil]
    rfl

theorem withJob_follow {finding other : RiskFinding} (paired : Paired enterpriseId ids finding other left right) :
    Follow enterpriseId ids left (withJob now finding left) (withJob now other right) := by
  have mirrors := paired.mirrors
  refine ⟨{ ids with job := withNext left.job right.job ids.job },
    ⟨fun _ _ => rfl, fun _ _ => rfl, fun _ _ => rfl, fun id given => withNext_of_lt _ given⟩,
    mirrors.rows, mirrors.signals, mirrors.aggregates, mirrors.findings, mirrors.links, ?_⟩
  have counterpartMember : other ∈ findingsOf enterpriseId right := paired.counterpart ▸ mirrors.member paired.member
  rw [jobsAbout_withJob paired.member, jobsAbout_withJob counterpartMember]
  refine map_append_new mirrors.jobs (fun old member => ?_) ?_
  · have given : old.id < left.job.freshKey := Table.key_lt_freshKey (List.mem_filter.mp member).1
    simp only [Ids.ofJob, withNext_of_lt _ given]
  · simp [Ids.ofJob, Table.newRow, Keyed.withKey, explanationJob, Jobs.newJob, paired.counterpart, Ids.ofFinding]

end Writes

end SmartProcurement.Analysis
