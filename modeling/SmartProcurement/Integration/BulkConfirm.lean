import SmartProcurement.Integration.MappingService

namespace SmartProcurement.Integration

open Relational Transaction

/-! # A bulk confirmation is single ones

The candidates are looked up once and their status is read in the loop.  As the
requested ids are distinct, no iteration changes what a later one reads.
-/

/-- The id is of a mapping of the source that waits for a human. -/
def eligible (dataSourceId : Uuid) (db : DB) (mappingId : Uuid) : Bool :=
  (db.fieldMapping.find? mappingId).any fun mapping =>
    mapping.dataSourceId = dataSourceId ∧ mapping.status = .suggested

/-- The state after the confirmation of one mapping. -/
def confirmStep (now : Timestamp) (actorId : Uuid) (db : DB) (mappingId : Uuid) : DB :=
  match db.fieldMapping.find? mappingId with
  | none => db
  | some mapping => recorded db (db.fieldMapping.update mappingId (confirmed now actorId))
      (changeEvent now (Table.assign (confirmed now actorId) mapping) .confirmed (some actorId) (some (snapshot mapping)))

/-- `confirm_mapping` for one id after the other, each at its own time. -/
def confirmEach (clock : Uuid → Timestamp) (enterpriseId actorId : Uuid) (mappingIds : List Uuid) : Session PUnit :=
  mappingIds.forM fun mappingId => do
    let _ ← confirmMapping (clock mappingId) enterpriseId mappingId actorId

def untimed (mapping : FieldMapping) : FieldMapping := { mapping with confirmedAt := mapping.confirmedAt.map fun _ => 0 }

def untimedEvent (event : MappingChangeEvent) : MappingChangeEvent := { event with at_ := 0 }

/-- The database but for the mappings and their events. -/
def unmapped (db : DB) : DB := { db with fieldMapping := .empty, mappingChangeEvent := .empty }

/-- The states differ in times only. -/
structure UpToTimes (left right : DB) : Prop where
  mappings : left.fieldMapping.rows.map untimed = right.fieldMapping.rows.map untimed
  events : left.mappingChangeEvent.rows.map untimedEvent = right.mappingChangeEvent.rows.map untimedEvent
  others : unmapped left = unmapped right

/-- The `confirmed` event of a mapping as it was before. -/
structure IsConfirmation (now : Timestamp) (actorId : Uuid) (db : DB) (event : MappingChangeEvent) (mappingId : Uuid) :
    Prop where
  mapping : event.fieldMappingId = mappingId
  action : event.action = .confirmed
  actor : event.actorId = some actorId
  time : event.at_ = now
  before : event.before = (db.fieldMapping.find? mappingId).map snapshot
  after : event.after = (db.fieldMapping.find? mappingId).map fun mapping => snapshot (confirmed now actorId mapping)

/-- What a bulk confirmation of an owned source returns and leaves. -/
structure BulkConfirmed (now : Timestamp) (enterpriseId dataSourceId : Uuid) (mappingIds : List Uuid) (actorId : Uuid)
    (result : BulkConfirmResult) (before after : DB) : Prop where
  source : result.dataSourceId = dataSourceId
  requested : result.requested = mappingIds.eraseDups
  confirmed : result.confirmed = mappingIds.eraseDups.filter (eligible dataSourceId before)
  failed : result.failed.map Prod.fst = mappingIds.eraseDups.filter fun mappingId => !eligible dataSourceId before mappingId
  mappings : after.fieldMapping =
    before.fieldMapping.updateWhere (fun mapping => mapping.id ∈ result.confirmed) (Integration.confirmed now actorId)
  events : ∃ events, after.mappingChangeEvent.rows = before.mappingChangeEvent.rows ++ events ∧
    List.Forall₂ (IsConfirmation now actorId before) events result.confirmed
  others : unmapped after = unmapped before
  singly : ∀ clock, ∃ each, confirmEach clock enterpriseId actorId result.confirmed before = .ok ⟨⟩ each ∧
    UpToTimes after each

section Steps

variable {now later : Timestamp} {enterpriseId dataSourceId mappingId other actorId : Uuid} {db before : DB}
variable {mapping : FieldMapping} {candidates : List Uuid} {acc : BulkConfirmResult} {mappingIds : List Uuid}

theorem eligible_iff : eligible dataSourceId db mappingId = true ↔ ∃ mapping,
    db.fieldMapping.find? mappingId = some mapping ∧ mapping.dataSourceId = dataSourceId ∧ mapping.status = .suggested := by
  simp [eligible, Option.any_eq_true]

theorem confirmStep_of_found (found : db.fieldMapping.find? mappingId = some mapping) :
    confirmStep now actorId db mappingId = recorded db (db.fieldMapping.update mappingId (confirmed now actorId))
      (changeEvent now (Table.assign (confirmed now actorId) mapping) .confirmed (some actorId) (some (snapshot mapping))) := by
  simp only [confirmStep, found]

theorem applyConfirm_run (found : db.fieldMapping.find? mappingId = some mapping) :
    applyConfirm now actorId mapping db =
      .ok (Table.assign (confirmed now actorId) mapping) (confirmStep now actorId db mappingId) := by
  obtain rfl : mapping.id = mappingId := (Table.find?_some found).2
  rw [confirmStep_of_found found]
  rfl

theorem confirmMapping_run (found : db.fieldMapping.find? mappingId = some mapping) (owned : Owns db enterpriseId mapping)
    (suggested : mapping.status = .suggested) :
    confirmMapping now enterpriseId mappingId actorId db =
      .ok (Table.assign (confirmed now actorId) mapping) (confirmStep now actorId db mappingId) := by
  have got : getMapping enterpriseId mappingId db = .ok mapping db := getMapping_eq_ok.mpr ⟨⟨found, owned⟩, rfl⟩
  rw [confirmMapping, bind_of_ok got, if_neg (by rw [suggested]; decide)]
  exact applyConfirm_run found

/-- What an id meets in the loop. -/
def candidate? (candidates : List Uuid) (db : DB) (mappingId : Uuid) : Option FieldMapping :=
  if mappingId ∈ candidates then db.fieldMapping.find? mappingId else none

theorem confirmOne_confirms (found : candidate? candidates db mappingId = some mapping)
    (suggested : mapping.status = .suggested) : confirmOne now actorId candidates acc mappingId db =
      .ok { acc with confirmed := acc.confirmed ++ [mappingId] } (confirmStep now actorId db mappingId) := by
  have looked : (read fun db => candidate? candidates db mappingId : Session _) db = .ok (some mapping) db :=
    read_eq_ok.mpr ⟨found, rfl⟩
  have stored : db.fieldMapping.find? mappingId = some mapping := by
    unfold candidate? at found
    split at found
    · exact found
    · cases found
  refine (bind_of_ok looked).trans ?_
  dsimp only
  rw [if_neg (not_not.mpr suggested), bind_of_ok (applyConfirm_run stored)]
  rfl

theorem confirmOne_fails (ineligible : ∀ mapping, candidate? candidates db mappingId = some mapping →
    mapping.status ≠ .suggested) :
    ∃ reason, confirmOne now actorId candidates acc mappingId db = .ok (acc.fail mappingId reason) db := by
  have looked : (read fun db => candidate? candidates db mappingId : Session _) db =
      .ok (candidate? candidates db mappingId) db := read_eq_ok.mpr ⟨rfl, rfl⟩
  cases found : candidate? candidates db mappingId with
  | none =>
      rw [found] at looked
      exact ⟨_, bind_of_ok looked⟩
  | some mapping =>
      rw [found] at looked
      refine ⟨"status is " ++ shownStatus mapping.status ++ ", not 'suggested'", (bind_of_ok looked).trans ?_⟩
      dsimp only
      rw [if_pos (ineligible mapping found)]
      rfl

theorem confirmStep_find?_other (different : other ≠ mappingId) :
    (confirmStep now actorId db mappingId).fieldMapping.find? other = db.fieldMapping.find? other := by
  unfold confirmStep
  split
  · rfl
  · exact Table.find?_update_other _ _ different

theorem unmapped_confirmStep : unmapped (confirmStep now actorId db mappingId) = unmapped db := by
  unfold confirmStep
  split
  · rfl
  · rfl

theorem dataSource_confirmStep : (confirmStep now actorId db mappingId).dataSource = db.dataSource := by
  unfold confirmStep
  split
  · rfl
  · rfl

theorem confirmStep_fieldMapping : (confirmStep now actorId db mappingId).fieldMapping =
    db.fieldMapping.update mappingId (confirmed now actorId) := by
  unfold confirmStep
  split
  · next missing =>
    refine (Table.updateWhere_eq_self fun row member hit => ?_).symm
    exact absurd (beq_iff_eq.mp hit) (Table.find?_none missing row member)
  · rfl

theorem eligible_confirmStep (different : other ≠ mappingId) :
    eligible dataSourceId (confirmStep now actorId db mappingId) other = eligible dataSourceId db other := by
  rw [eligible, confirmStep_find?_other different, eligible]

end Steps

/-! ## The loop -/

theorem nodup_eraseDups {α : Type} [BEq α] [LawfulBEq α] (values : List α) : values.eraseDups.Nodup := by
  induction length : values.length using Nat.strong_induction_on generalizing values with
  | _ length ih =>
      subst length
      cases values with
      | nil => exact .nil
      | cons first rest =>
          rw [List.eraseDups_cons, List.nodup_cons]
          refine ⟨by simp, ih _ ?_ _ rfl⟩
          exact Nat.lt_succ_of_le (List.length_filter_le _ rest)

/-- The state after the confirmations, each at its own time. -/
def confirmAll (clock : Uuid → Timestamp) (actorId : Uuid) (mappingIds : List Uuid) (db : DB) : DB :=
  mappingIds.foldl (fun db mappingId => confirmStep (clock mappingId) actorId db mappingId) db

section Loop

variable {now : Timestamp} {clock : Uuid → Timestamp} {enterpriseId dataSourceId actorId other : Uuid} {db after : DB}
variable {candidates mappingIds : List Uuid} {acc : BulkConfirmResult}

theorem bulkConfirm_loop (now : Timestamp) (actorId : Uuid) (db : DB) (acc : BulkConfirmResult) (distinct : mappingIds.Nodup)
    (agree : ∀ mappingId ∈ mappingIds, eligible dataSourceId db mappingId = true ↔
      ∃ mapping, candidate? candidates db mappingId = some mapping ∧ mapping.status = .suggested) :
    ∃ failed, failed.map Prod.fst = mappingIds.filter (fun mappingId => !eligible dataSourceId db mappingId) ∧
      mappingIds.foldlM (confirmOne now actorId candidates) acc db = .ok
        { acc with
          confirmed := acc.confirmed ++ mappingIds.filter (eligible dataSourceId db)
          failed := acc.failed ++ failed }
        (confirmAll (fun _ => now) actorId (mappingIds.filter (eligible dataSourceId db)) db) := by
  induction mappingIds generalizing acc db with
  | nil => exact ⟨[], rfl, by simp only [List.filter_nil, List.append_nil]; rfl⟩
  | cons mappingId rest ih =>
      obtain ⟨fresh, distinct⟩ := List.nodup_cons.mp distinct
      rw [List.foldlM_cons]
      cases isEligible : eligible dataSourceId db mappingId with
      | true =>
          obtain ⟨mapping, found, suggested⟩ := (agree mappingId List.mem_cons_self).mp isEligible
          have differs (other : Uuid) (member : other ∈ rest) : other ≠ mappingId := ne_of_mem_of_not_mem member fresh
          have same (other : Uuid) (member : other ∈ rest) :
              eligible dataSourceId (confirmStep now actorId db mappingId) other = eligible dataSourceId db other :=
            eligible_confirmStep (differs other member)
          obtain ⟨failed, failedIds, looped⟩ := ih (confirmStep now actorId db mappingId)
            { acc with confirmed := acc.confirmed ++ [mappingId] } distinct (by
              intro other member
              rw [same other member, candidate?, confirmStep_find?_other (differs other member)]
              exact agree other (List.mem_cons_of_mem _ member))
          rw [List.filter_congr same] at looped
          rw [List.filter_congr fun other member => congrArg not (same other member)] at failedIds
          refine ⟨failed, ?_, ?_⟩
          · rw [List.filter_cons_of_neg (by simp [isEligible])]
            exact failedIds
          · rw [bind_of_ok (confirmOne_confirms found suggested), looped, List.filter_cons_of_pos isEligible,
              List.append_assoc]
            rfl
      | false =>
          obtain ⟨reason, ran⟩ : ∃ reason,
              confirmOne now actorId candidates acc mappingId db = .ok (acc.fail mappingId reason) db := by
            refine confirmOne_fails fun mapping found suggested => ?_
            rw [(agree mappingId List.mem_cons_self).mpr ⟨mapping, found, suggested⟩] at isEligible
            cases isEligible
          obtain ⟨failed, failedIds, looped⟩ := ih db (acc.fail mappingId reason) distinct fun other member =>
            agree other (List.mem_cons_of_mem _ member)
          refine ⟨(mappingId, reason) :: failed, ?_, ?_⟩
          · rw [List.filter_cons_of_pos (by simp [isEligible]), List.map_cons, failedIds]
          · rw [bind_of_ok ran, looped, List.filter_cons_of_neg (by simp [isEligible])]
            simp [BulkConfirmResult.fail]

theorem confirmAll_cons {mappingId : Uuid} : confirmAll clock actorId (mappingId :: mappingIds) db =
    confirmAll clock actorId mappingIds (confirmStep (clock mappingId) actorId db mappingId) := rfl

theorem unmapped_confirmAll : unmapped (confirmAll clock actorId mappingIds db) = unmapped db := by
  induction mappingIds generalizing db with
  | nil => rfl
  | cons mappingId rest ih => exact ih.trans unmapped_confirmStep

theorem dataSource_confirmAll : (confirmAll clock actorId mappingIds db).dataSource = db.dataSource := by
  induction mappingIds generalizing db with
  | nil => rfl
  | cons mappingId rest ih => exact ih.trans dataSource_confirmStep

theorem find?_confirmAll (others : other ∉ mappingIds) :
    (confirmAll clock actorId mappingIds db).fieldMapping.find? other = db.fieldMapping.find? other := by
  induction mappingIds generalizing db with
  | nil => rfl
  | cons mappingId rest ih =>
      rw [List.mem_cons, not_or] at others
      exact (ih others.2).trans (confirmStep_find?_other others.1)

/-- A mapping that is confirmed is changed once. -/
theorem confirmAll_fieldMapping (distinct : mappingIds.Nodup) :
    (confirmAll (fun _ => now) actorId mappingIds db).fieldMapping =
      db.fieldMapping.updateWhere (fun mapping => mapping.id ∈ mappingIds) (confirmed now actorId) := by
  induction mappingIds generalizing db with
  | nil => exact (Table.updateWhere_eq_self fun _ _ hit => by simp at hit).symm
  | cons mappingId rest ih =>
      obtain ⟨fresh, distinct⟩ := List.nodup_cons.mp distinct
      refine (ih distinct).trans (Table.ext ?_)
      rw [confirmStep_fieldMapping]
      change List.map _ (List.map _ db.fieldMapping.rows) = List.map _ db.fieldMapping.rows
      rw [List.map_map]
      refine List.map_congr_left fun row _ => ?_
      by_cases hit : row.id = mappingId
      · have later : (Table.assign (confirmed now actorId) row).id ∉ rest := by
          rw [show (Table.assign (confirmed now actorId) row).id = mappingId from hit]
          exact fresh
        simp [Keyed.key, hit, later]
      · simp [Keyed.key, hit]

theorem not_eligible_confirmAll (distinct : mappingIds.Nodup)
    (all : eligible dataSourceId db other = true → other ∈ mappingIds) :
    ¬ eligible dataSourceId (confirmAll (fun _ => now) actorId mappingIds db) other = true := by
  by_cases confirms : other ∈ mappingIds
  · rw [eligible_iff, confirmAll_fieldMapping distinct, Table.find?_updateWhere]
    rintro ⟨mapping, found, _, suggested⟩
    obtain ⟨row, stored, rfl⟩ := Option.map_eq_some_iff.mp found
    have key : row.id = other := (Table.find?_some stored).2
    rw [if_pos (by simpa [key] using confirms)] at suggested
    cases suggested
  · rw [eligible, find?_confirmAll confirms]
    exact fun isEligible => confirms (all isEligible)

theorem confirmStep_events (now : Timestamp) (actorId : Uuid) {mappingId : Uuid} {mapping : FieldMapping}
    (found : db.fieldMapping.find? mappingId = some mapping) :
    ∃ event, (confirmStep now actorId db mappingId).mappingChangeEvent.rows = db.mappingChangeEvent.rows ++ [event] ∧
      IsConfirmation now actorId db event mappingId := by
  rw [confirmStep_of_found found]
  refine ⟨_, Table.insert_rows .., (Table.find?_some found).2, rfl, rfl, rfl, ?_, ?_⟩
  · rw [found]
    rfl
  · rw [found]
    rfl

theorem IsConfirmation.of_same {event : MappingChangeEvent} {mappingId : Uuid}
    (isConfirmation : IsConfirmation now actorId db event mappingId)
    (same : db.fieldMapping.find? mappingId = after.fieldMapping.find? mappingId) :
    IsConfirmation now actorId after event mappingId :=
  { isConfirmation with
    before := same ▸ isConfirmation.before
    after := same ▸ isConfirmation.after }

/-- Each confirmation finds its mapping as it was before the loop. -/
theorem confirmAll_events {before : DB} (distinct : mappingIds.Nodup)
    (stored : ∀ mappingId ∈ mappingIds, ∃ mapping, db.fieldMapping.find? mappingId = some mapping)
    (same : ∀ mappingId ∈ mappingIds, db.fieldMapping.find? mappingId = before.fieldMapping.find? mappingId) :
    ∃ events, (confirmAll (fun _ => now) actorId mappingIds db).mappingChangeEvent.rows =
        db.mappingChangeEvent.rows ++ events ∧
      List.Forall₂ (IsConfirmation now actorId before) events mappingIds := by
  induction mappingIds generalizing db with
  | nil => exact ⟨[], (List.append_nil _).symm, .nil⟩
  | cons mappingId rest ih =>
      obtain ⟨fresh, distinct⟩ := List.nodup_cons.mp distinct
      obtain ⟨mapping, found⟩ := stored mappingId List.mem_cons_self
      obtain ⟨event, appended, isConfirmation⟩ := confirmStep_events now actorId found
      have kept (other : Uuid) (member : other ∈ rest) :
          (confirmStep now actorId db mappingId).fieldMapping.find? other = db.fieldMapping.find? other :=
        confirmStep_find?_other (ne_of_mem_of_not_mem member fresh)
      obtain ⟨events, rows, matching⟩ := ih distinct
        (fun other member => (kept other member).symm ▸ stored other (List.mem_cons_of_mem _ member))
        (fun other member => (kept other member).trans (same other (List.mem_cons_of_mem _ member)))
      refine ⟨event :: events, ?_, .cons (isConfirmation.of_same (same mappingId List.mem_cons_self)) matching⟩
      rw [confirmAll_cons, rows, appended, List.append_assoc]
      rfl

/-- One by one, the mappings of the enterprise are confirmed just so. -/
theorem confirmEach_run (distinct : mappingIds.Nodup) (owned : ∀ mappingId ∈ mappingIds, ∃ mapping,
      db.fieldMapping.find? mappingId = some mapping ∧ Owns db enterpriseId mapping ∧ mapping.status = .suggested) :
    confirmEach clock enterpriseId actorId mappingIds db = .ok ⟨⟩ (confirmAll clock actorId mappingIds db) := by
  induction mappingIds generalizing db with
  | nil => rfl
  | cons mappingId rest ih =>
      obtain ⟨fresh, distinct⟩ := List.nodup_cons.mp distinct
      obtain ⟨mapping, found, owns, suggested⟩ := owned mappingId List.mem_cons_self
      have first : (do let _ ← confirmMapping (clock mappingId) enterpriseId mappingId actorId : Session PUnit) db =
          .ok ⟨⟩ (confirmStep (clock mappingId) actorId db mappingId) := by
        rw [bind_of_ok (confirmMapping_run found owns suggested)]
        rfl
      refine (bind_of_ok first).trans (ih distinct fun other member => ?_)
      obtain ⟨mapping, found, owns, suggested⟩ := owned other (List.mem_cons_of_mem _ member)
      refine ⟨mapping, (confirmStep_find?_other (ne_of_mem_of_not_mem member fresh)).trans found, ?_, suggested⟩
      rw [Owns, dataSource_confirmStep]
      exact owns

end Loop

/-! ## Times -/

section Times

variable {left right : DB} {now later : Timestamp} {clock other : Uuid → Timestamp} {actorId mappingId : Uuid}
variable {mappingIds : List Uuid}

theorem UpToTimes.refl (db : DB) : UpToTimes db db := ⟨rfl, rfl, rfl⟩

theorem UpToTimes.find? (same : UpToTimes left right) (mappingId : Uuid) :
    (left.fieldMapping.find? mappingId).map untimed = (right.fieldMapping.find? mappingId).map untimed := by
  have searched (db : DB) : (db.fieldMapping.find? mappingId).map untimed =
      (db.fieldMapping.rows.map untimed).find? fun mapping => mapping.id == mappingId := by
    rw [List.find?_map]
    rfl
  rw [searched left, searched right, same.mappings]

theorem untimed_update (db : DB) : (db.fieldMapping.update mappingId (confirmed now actorId)).rows.map untimed =
    (db.fieldMapping.rows.map untimed).map fun mapping =>
      if mapping.id == mappingId then Table.assign (confirmed 0 actorId) mapping else mapping := by
  change List.map untimed (List.map _ db.fieldMapping.rows) = _
  rw [List.map_map, List.map_map]
  refine List.map_congr_left fun row _ => ?_
  change untimed (if row.id == mappingId then _ else _) = if row.id == mappingId then _ else _
  split
  · rfl
  · rfl

theorem untimed_insert (db : DB) (event : MappingChangeEvent) :
    (db.mappingChangeEvent.insert event).rows.map untimedEvent =
      db.mappingChangeEvent.rows.map untimedEvent ++
        [{ untimedEvent event with id := (((db.mappingChangeEvent.rows.map untimedEvent).map (·.id)).foldr max 0) + 1 }] := by
  rw [Table.insert_rows, List.map_append, List.map_map]
  rfl

/-- The event reads nothing of a time but its own. -/
theorem untimedEvent_changeEvent (mapping : FieldMapping) :
    untimedEvent (changeEvent now (Table.assign (confirmed now actorId) mapping) .confirmed (some actorId)
      (some (snapshot mapping))) =
    changeEvent 0 (Table.assign (confirmed 0 actorId) (untimed mapping)) .confirmed (some actorId)
      (some (snapshot (untimed mapping))) := rfl

theorem UpToTimes.confirmStep (same : UpToTimes left right) :
    UpToTimes (confirmStep now actorId left mappingId) (confirmStep later actorId right mappingId) := by
  have found := same.find? mappingId
  cases inLeft : left.fieldMapping.find? mappingId with
  | none =>
      cases inRight : right.fieldMapping.find? mappingId with
      | none => simpa only [Integration.confirmStep, inLeft, inRight] using same
      | some _ => simp [inLeft, inRight] at found
  | some mapping =>
      cases inRight : right.fieldMapping.find? mappingId with
      | none => simp [inLeft, inRight] at found
      | some twin =>
          rw [inLeft, inRight, Option.map_some, Option.map_some, Option.some_inj] at found
          rw [confirmStep_of_found inLeft, confirmStep_of_found inRight]
          constructor
          · change List.map untimed (Table.update ..).rows = List.map untimed (Table.update ..).rows
            rw [untimed_update, untimed_update, same.mappings]
          · change List.map untimedEvent (Table.insert ..).rows = List.map untimedEvent (Table.insert ..).rows
            rw [untimed_insert, untimed_insert, same.events, untimedEvent_changeEvent, untimedEvent_changeEvent, found]
          · exact same.others

theorem UpToTimes.confirmAll (same : UpToTimes left right) :
    UpToTimes (confirmAll clock actorId mappingIds left) (confirmAll other actorId mappingIds right) := by
  induction mappingIds generalizing left right with
  | nil => exact same
  | cons mappingId rest ih => exact ih same.confirmStep

end Times

/-! ## The call -/

section Call

variable {now : Timestamp} {enterpriseId dataSourceId actorId mappingId : Uuid} {mappingIds requested : List Uuid}
variable {before : DB} {source : DataSource} {mapping : FieldMapping}

theorem owns_of_source (found : before.dataSource.find? dataSourceId = some source)
    (owned : source.enterpriseId = enterpriseId) (ofSource : mapping.dataSourceId = dataSourceId) :
    Owns before enterpriseId mapping := by
  obtain ⟨member, key⟩ := Table.find?_some found
  exact ⟨source, member, key.trans ofSource.symm, owned⟩

theorem mem_bulkCandidates (found : before.dataSource.find? dataSourceId = some source)
    (owned : source.enterpriseId = enterpriseId) (asked : mappingId ∈ requested) :
    mappingId ∈ bulkCandidates enterpriseId dataSourceId requested before ↔
      ∃ mapping, before.fieldMapping.find? mappingId = some mapping ∧ mapping.dataSourceId = dataSourceId := by
  rw [bulkCandidates, List.mem_map]
  constructor
  · rintro ⟨mapping, member, rfl⟩
    obtain ⟨stored, selected⟩ := List.mem_filter.mp member
    exact ⟨mapping, Table.find?_of_mem stored, (of_decide_eq_true selected).2.1⟩
  · rintro ⟨mapping, stored, ofSource⟩
    obtain ⟨member, rfl⟩ := Table.find?_some stored
    have selected := decide_eq_true (And.intro asked (And.intro ofSource (owns_of_source found owned ofSource)))
    exact ⟨mapping, List.mem_filter.mpr ⟨member, selected⟩, rfl⟩

/-- The candidates that wait are the eligible mappings. -/
theorem eligible_iff_candidate (found : before.dataSource.find? dataSourceId = some source)
    (owned : source.enterpriseId = enterpriseId) (asked : mappingId ∈ requested) :
    eligible dataSourceId before mappingId = true ↔ ∃ mapping,
      candidate? (bulkCandidates enterpriseId dataSourceId requested before) before mappingId = some mapping ∧
        mapping.status = .suggested := by
  rw [eligible_iff, candidate?]
  by_cases isCandidate : mappingId ∈ bulkCandidates enterpriseId dataSourceId requested before
  · rw [if_pos isCandidate]
    obtain ⟨mapping, stored, ofSource⟩ := (mem_bulkCandidates found owned asked).mp isCandidate
    simp [stored, ofSource]
  · rw [if_neg isCandidate]
    refine iff_of_false ?_ (by simp)
    rintro ⟨mapping, stored, ofSource, _⟩
    exact isCandidate ((mem_bulkCandidates found owned asked).mpr ⟨mapping, stored, ofSource⟩)

theorem confirmMappingsBulk_run (now : Timestamp) (actorId : Uuid) (mappingIds : List Uuid)
    (found : before.dataSource.find? dataSourceId = some source) (owned : source.enterpriseId = enterpriseId) :
    ∃ result, result.dataSourceId = dataSourceId ∧ result.requested = mappingIds.eraseDups ∧
      result.confirmed = mappingIds.eraseDups.filter (eligible dataSourceId before) ∧
      result.failed.map Prod.fst = mappingIds.eraseDups.filter (fun mappingId => !eligible dataSourceId before mappingId) ∧
      confirmMappingsBulk now enterpriseId dataSourceId mappingIds actorId before =
        .ok result (confirmAll (fun _ => now) actorId result.confirmed before) := by
  have got := getDataSource_of_found found owned
  obtain ⟨failed, failedIds, looped⟩ := bulkConfirm_loop now actorId before
    { dataSourceId, requested := mappingIds.eraseDups, confirmed := [], failed := [] } (nodup_eraseDups mappingIds)
    fun mappingId asked => eligible_iff_candidate found owned asked
  refine ⟨{
    dataSourceId, requested := mappingIds.eraseDups, failed
    confirmed := mappingIds.eraseDups.filter (eligible dataSourceId before) }, rfl, rfl, rfl, failedIds, ?_⟩
  refine (bind_of_ok got).trans ((bind_of_ok (read_eq_ok.mpr ⟨rfl, rfl⟩)).trans ?_)
  exact looped

theorem confirmMappingsBulk_exact (now : Timestamp) (enterpriseId dataSourceId : Uuid) (mappingIds : List Uuid)
    (actorId : Uuid) (before : DB) :
    ((∃ source, before.dataSource.find? dataSourceId = some source ∧ source.enterpriseId = enterpriseId) →
      ∃ result after, confirmMappingsBulk now enterpriseId dataSourceId mappingIds actorId before = .ok result after ∧
        BulkConfirmed now enterpriseId dataSourceId mappingIds actorId result before after ∧
        ∀ later, ∃ again, confirmMappingsBulk later enterpriseId dataSourceId mappingIds actorId after = .ok again after ∧
          again.confirmed = []) ∧
    ((¬ ∃ source, before.dataSource.find? dataSourceId = some source ∧ source.enterpriseId = enterpriseId) →
      confirmMappingsBulk now enterpriseId dataSourceId mappingIds actorId before =
        .error (.notFound "data source not found") before) := by
  constructor
  · rintro ⟨source, found, owned⟩
    obtain ⟨result, sameSource, requested, confirms, fails, ran⟩ :=
      confirmMappingsBulk_run now actorId mappingIds found owned
    have distinct : result.confirmed.Nodup := confirms ▸ (nodup_eraseDups mappingIds).filter _
    have waiting (mappingId : Uuid) (member : mappingId ∈ result.confirmed) : ∃ mapping,
        before.fieldMapping.find? mappingId = some mapping ∧ Owns before enterpriseId mapping ∧
          mapping.status = .suggested := by
      rw [confirms] at member
      obtain ⟨mapping, stored, ofSource, suggested⟩ := eligible_iff.mp (List.mem_filter.mp member).2
      exact ⟨mapping, stored, owns_of_source found owned ofSource, suggested⟩
    have stored (mappingId : Uuid) (member : mappingId ∈ result.confirmed) : ∃ mapping,
        before.fieldMapping.find? mappingId = some mapping := by
      obtain ⟨mapping, stored, _⟩ := waiting mappingId member
      exact ⟨mapping, stored⟩
    refine ⟨result, _, ran, {
      source := sameSource
      requested
      confirmed := confirms
      failed := fails
      mappings := confirmAll_fieldMapping distinct
      events := confirmAll_events distinct stored fun _ _ => rfl
      others := unmapped_confirmAll
      singly := fun clock => ⟨_, confirmEach_run distinct waiting, (UpToTimes.refl before).confirmAll⟩ }, fun later => ?_⟩
    have foundAgain : (confirmAll (fun _ => now) actorId result.confirmed before).dataSource.find? dataSourceId =
        some source := by
      rw [dataSource_confirmAll]
      exact found
    obtain ⟨again, _, _, confirmsAgain, _, ranAgain⟩ :=
      confirmMappingsBulk_run later actorId mappingIds foundAgain owned
    have nothing : again.confirmed = [] := by
      rw [confirmsAgain]
      refine List.filter_eq_nil_iff.mpr fun mappingId asked => ?_
      refine not_eligible_confirmAll distinct fun isEligible => ?_
      rw [confirms]
      exact List.mem_filter.mpr ⟨asked, isEligible⟩
    refine ⟨again, ?_, nothing⟩
    rw [ranAgain, nothing]
    rfl
  · intro foreign
    exact bind_of_error (getDataSource_of_missing foreign)

end Call

def waitingMapping : NewMapping where
  sourceFieldPath := "name"
  canonicalEntity := "item"
  canonicalAttribute := "name"
  transform := none

/-- A sheet with three confirmed mappings and one that waits. -/
def waitingSheet : DB :=
  { sheetWithSource with fieldMapping := sheetWithSource.fieldMapping.insert (newMapping 1 waitingMapping .item) }

theorem confirmMappingsBulk_exact_waitingSheet :
    [4, 1, 9].filter (eligible 1 waitingSheet) = [4] ∧
      ∃ result after, confirmMappingsBulk 0 1 1 [4, 1, 4, 9] 7 waitingSheet = .ok result after ∧
        BulkConfirmed 0 1 1 [4, 1, 4, 9] 7 result waitingSheet after ∧
        ∀ later, ∃ again, confirmMappingsBulk later 1 1 [4, 1, 4, 9] 7 after = .ok again after ∧ again.confirmed = [] :=
  ⟨by decide +kernel, (confirmMappingsBulk_exact 0 1 1 [4, 1, 4, 9] 7 waitingSheet).1 ⟨_, rfl, rfl⟩⟩

end SmartProcurement.Integration
