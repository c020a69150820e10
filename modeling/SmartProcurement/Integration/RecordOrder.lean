import SmartProcurement.Integration.Baselines
import SmartProcurement.Integration.KnownRows
import SmartProcurement.Integration.SourceHealth

namespace SmartProcurement.Integration

open Relational Transaction Observation

/-! # The order of the records

The records of a batch are merged into rows, entity by entity.  Records that agree
leave the same rows in any order, up to the ids of the new ones.
-/

/-- No write of the call raises a database error. -/
def SyncCall.Clean (call : SyncCall) (before : DB) : Prop :=
  ∀ violation after, call.session before ≠ .error (.database violation) after

/-- The batch leaves the same rows in every order of its records, and in every order its
records refer to the masters that they name. -/
def RecordOrderFree (batch : FetchBatch) (enterpriseId dataSourceId : Uuid) (now : Timestamp) (before : DB) : Prop :=
  ∀ (others : List Record) (later : Timestamp), batch.records.Perm others →
    (SyncCall.delivery batch enterpriseId dataSourceId now).Clean before →
    (SyncCall.delivery { batch with records := others } enterpriseId dataSourceId later).Clean before →
      (∃ rename, SameRows rename before ((SyncCall.delivery batch enterpriseId dataSourceId now).commit before)
        ((SyncCall.delivery { batch with records := others } enterpriseId dataSourceId later).commit before)) ∧
      (returned ((SyncCall.delivery { batch with records := others } enterpriseId dataSourceId later).session before) = true →
        Linked enterpriseId (confirmedMappings dataSourceId before) others
          ((SyncCall.delivery { batch with records := others } enterpriseId dataSourceId later).commit before))

theorem SameRows.refl (db : DB) : SameRows (fun _ id => id) db db db := by
  have renamed (entity : Entity) (row : Row) : RowRenamed (fun _ id => id) entity row row := by
    refine ⟨rfl, rfl, rfl, rfl, funext fun name => ?_⟩
    unfold Renaming.attributes Renaming.column
    split
    · next value => exact value
    · rfl
  exact ⟨fun _ _ _ => rfl, fun _ _ member _ otherMember same => Table.eq_of_key_eq member otherMember same,
    fun entity row member => ⟨row, member, renamed entity row⟩, fun entity row member => ⟨row, member, renamed entity row⟩⟩

/-- The loops of the call come to a record that they accept and that is so. -/
def SyncCall.Meets (call : SyncCall) (so : Accepted → DB → Prop) (before : DB) : Prop :=
  ∃ step accepted, call.Reaches before step ∧ step.accepted = some accepted ∧ so accepted step.db

/-- A transform refuses a value of the batch, or the call would fail without it: over a
source that is not there or not the caller's, or over two open gaps of it. -/
def Barred (batch : FetchBatch) (enterpriseId dataSourceId : Uuid) (before : DB) : Prop :=
  (∃ next ∈ schedule (confirmedMappings dataSourceId before) batch.records, ∃ reason,
    extract next.2 (mappingsOf (confirmedMappings dataSourceId before) next.1) = .error reason) ∨
  ¬ ∃ source, before.dataSource.find? dataSourceId = some source ∧ source.enterpriseId = enterpriseId ∧
    ((sourceUnavailable enterpriseId source.id).openGaps before).length ≤ 1

/-- What is asked of the records of a batch, in any order: they agree on the rows that
they share and leave the rows to their enterprise, and they know no id beforehand. -/
structure Presentable (batch : FetchBatch) (enterpriseId dataSourceId : Uuid) (now : Timestamp) (before : DB) : Prop where
  agreeing : ∀ (others : List Record) (later : Timestamp), batch.records.Perm others →
    Accepted.Agreeing ((SyncCall.delivery { batch with records := others } enterpriseId dataSourceId later).accepted before)
  stays : ∀ (others : List Record) (later : Timestamp), batch.records.Perm others →
    ¬ (SyncCall.delivery { batch with records := others } enterpriseId dataSourceId later).Meets Accepted.Moves before
  unguessed : ∀ record ∈ batch.records, Unguessed (confirmedMappings dataSourceId before) before
    ((SyncCall.delivery batch enterpriseId dataSourceId now).commit before) record

section Sessions

variable {batch : FetchBatch} {enterpriseId dataSourceId : Uuid} {now later : Timestamp} {before after : DB}
variable {result : SyncResult} {others : List Record}

theorem syncSource_of_error {source : DataSource} {reason : Error} (found : before.dataSource.find? dataSourceId = some source)
    (owned : source.enterpriseId = enterpriseId)
    (raised : syncBatch { now, enterpriseId, dataSourceId, fetchedAt := batch.fetchedAt }
      (confirmedMappings dataSourceId before) batch.records before = .error reason after) :
    syncSource now (delivering batch) enterpriseId dataSourceId before = .error reason after := by
  unfold syncSource
  refine (bind_of_ok (ownedSource_of_found found owned)).trans ?_
  refine (bind_of_ok (lift_eq_ok.mpr ⟨rfl, rfl⟩)).trans ?_
  refine (bind_of_ok (read_eq_ok.mpr ⟨rfl, rfl⟩)).trans ?_
  exact bind_of_error raised

/-- What a delivery that returns has done. -/
structure DeliveredBatch (batch : FetchBatch) (enterpriseId dataSourceId : Uuid) (now : Timestamp) (before after : DB) where
  source : DataSource
  progress : Progress
  batched : DB
  found : before.dataSource.find? dataSourceId = some source
  owned : source.enterpriseId = enterpriseId
  ran : (schedule (confirmedMappings dataSourceId before) batch.records).foldlM
    (syncNext { now, enterpriseId, dataSourceId, fetchedAt := batch.fetchedAt } (confirmedMappings dataSourceId before))
      .start before = .ok progress batched
  single : ((sourceUnavailable enterpriseId source.id).openGaps before).length ≤ 1
  final : after.canonical = batched.canonical

theorem fixesGaps_batch (dataSourceId : Uuid) : BatchFrame dataSourceId (Frame.fixes (·.observabilityGap)) where
  signal _ _ := rfl
  insert _ _ _ _ := rfl
  update _ _ _ _ _ := rfl

theorem delivered_batch (ran : (SyncCall.delivery batch enterpriseId dataSourceId now).session before = .ok result after) :
    Nonempty (DeliveredBatch batch enterpriseId dataSourceId now before after) := by
  obtain ⟨synced⟩ := syncSource_ok ran
  obtain ⟨source, _, _, _, _, found, _, batchRan, closing, _⟩ := syncSource_settled ran
  obtain rfl := Option.some.inj (synced.found.symm.trans found)
  have isBatch : synced.batch = batch := (Except.ok.inj synced.fetched).symm
  have returned := synced.ran
  rw [isBatch, syncBatch_schedule] at returned
  have single := closeGap_single closing
  have gaps : _ = before.observabilityGap := syncBatch_frame (fixesGaps_batch dataSourceId) batchRan
  refine ⟨⟨synced.source, synced.progress, synced.batched, synced.found, synced.owned, returned, ?_, synced.canonical⟩⟩
  rw [GapKey.openGaps, ← gaps]
  exact single

/-- The steps of a delivery are those of its batch. -/
theorem meets_delivery_iff {so : Accepted → DB → Prop} {source : DataSource}
    (found : before.dataSource.find? dataSourceId = some source) :
    (SyncCall.delivery batch enterpriseId dataSourceId now).Meets so before ↔ ∃ next acc reached accepted,
      Transaction.Reaches (syncNext { now, enterpriseId, dataSourceId, fetchedAt := batch.fetchedAt }
        (confirmedMappings dataSourceId before)) (schedule (confirmedMappings dataSourceId before) batch.records) .start before
        next acc reached ∧
      acceptedOf { now, enterpriseId, dataSourceId, fetchedAt := batch.fetchedAt } (confirmedMappings dataSourceId before) acc
        next reached = some accepted ∧ so accepted reached := by
  constructor
  · rintro ⟨step, accepted, ⟨fetched, ⟨_, _, isFetched⟩, isContext, isMappings, reaches⟩, accepts, isSo⟩
    obtain rfl : batch = fetched := Except.ok.inj isFetched
    refine ⟨(step.entity, step.record), step.progress, step.db, accepted, reaches, ?_, isSo⟩
    rw [RecordStep.accepted, isContext, isMappings] at accepts
    exact (acceptedOf_mappingsOf ..).symm.trans accepts
  · rintro ⟨next, acc, reached, accepted, reaches, accepts, isSo⟩
    exact ⟨⟨_, mappingsOf (confirmedMappings dataSourceId before) next.1, next.1, next.2, acc, reached⟩, accepted,
      ⟨batch, ⟨source, found, rfl⟩, rfl, rfl, reaches⟩, (acceptedOf_mappingsOf ..).trans accepts, isSo⟩

theorem stay_of_meets {source : DataSource} (found : before.dataSource.find? dataSourceId = some source)
    (stays : ¬ (SyncCall.delivery batch enterpriseId dataSourceId now).Meets Accepted.Moves before) :
    Stay { now, enterpriseId, dataSourceId, fetchedAt := batch.fetchedAt } (confirmedMappings dataSourceId before)
      (schedule (confirmedMappings dataSourceId before) batch.records) .start before :=
  fun next acc reached accepted reaches accepts moves =>
    stays ((meets_delivery_iff found).mpr ⟨next, acc, reached, accepted, reaches, accepts, moves⟩)

theorem barred_perm_iff (reordered : batch.records.Perm others) :
    Barred { batch with records := others } enterpriseId dataSourceId before ↔ Barred batch enterpriseId dataSourceId before := by
  unfold Barred
  simp only [(schedule_reordered _ reordered).mem_iff]

/-- Whether a delivery returns is a matter of its records, unless the database refuses them. -/
theorem delivery_returned_iff (mapped : Mapped before)
    (clean : (SyncCall.delivery batch enterpriseId dataSourceId now).Clean before)
    (stays : ¬ (SyncCall.delivery batch enterpriseId dataSourceId now).Meets Accepted.Moves before) :
    returned ((SyncCall.delivery batch enterpriseId dataSourceId now).session before) = true ↔
      ¬ Barred batch enterpriseId dataSourceId before ∧
        ¬ (SyncCall.delivery batch enterpriseId dataSourceId now).Meets Accepted.Faulty before := by
  let context : SyncContext := { now, enterpriseId, dataSourceId, fetchedAt := batch.fetchedAt }
  constructor
  · intro returns
    cases ran : (SyncCall.delivery batch enterpriseId dataSourceId now).session before with
    | error reason after =>
        rw [ran] at returns
        cases returns
    | ok result after =>
        obtain ⟨delivered⟩ := delivered_batch ran
        refine ⟨?_, fun meets => ?_⟩
        · rintro (⟨next, listed, reason, refused⟩ | missing)
          · obtain ⟨attrs, extracted⟩ := extract_of_ran delivered.ran next listed
            cases extracted.symm.trans refused
          · exact missing ⟨delivered.source, delivered.found, delivered.owned, delivered.single⟩
        · obtain ⟨next, acc, reached, accepted, reaches, accepts, faulty⟩ := (meets_delivery_iff delivered.found).mp meets
          obtain ⟨_, _, _, stepped, _⟩ := reaches.ran delivered.ran
          exact syncNext_sound stepped accepts faulty
  · rintro ⟨free, sound⟩
    obtain ⟨source, found, owned, single⟩ := by_contra fun missing => free (.inr missing)
    have stay := stay_of_meets found stays
    have isBatch := syncBatch_schedule context (confirmedMappings dataSourceId before) batch.records
    cases ran : (schedule (confirmedMappings dataSourceId before) batch.records).foldlM
        (syncNext context (confirmedMappings dataSourceId before)) .start before with
    | ok progress batched =>
        have batchRan := (congrFun isBatch before).trans ran
        have gaps : batched.observabilityGap = before.observabilityGap :=
          syncBatch_frame (fixesGaps_batch dataSourceId) batchRan
        obtain ⟨result, after, returns⟩ := syncSource_returns found owned batchRan (by rwa [GapKey.openGaps, gaps])
        have returns : (SyncCall.delivery batch enterpriseId dataSourceId now).session before = .ok result after := returns
        rw [returns]
        rfl
    | error reason state =>
        exfalso
        have batchRan := (congrFun isBatch before).trans ran
        have raises := run_raises mapped stay (fun next acc reached accepted reaches accepts faulty =>
          sound ((meets_delivery_iff found).mpr ⟨next, acc, reached, accepted, reaches, accepts, faulty⟩)) reason state ran
        rcases raises with ⟨violation, rfl⟩ | ⟨next, listed, failed⟩
        · exact clean violation state (syncSource_of_error found owned batchRan)
        · exact free (.inl ⟨next, listed, reason, failed⟩)

theorem DeliveredBatch.twoRuns (first : DeliveredBatch batch enterpriseId dataSourceId now before after) {last : DB}
    (second : DeliveredBatch { batch with records := others } enterpriseId dataSourceId later before last)
    (reordered : batch.records.Perm others) (mapped : Mapped before) (referring : Referring before)
    (presentable : Presentable batch enterpriseId dataSourceId now before)
    (committed : ((SyncCall.delivery batch enterpriseId dataSourceId now).commit before).canonical = first.batched.canonical)
    (agreeing : Accepted.Agreeing (acceptedAlong { now, enterpriseId, dataSourceId, fetchedAt := batch.fetchedAt }
      (confirmedMappings dataSourceId before) (schedule (confirmedMappings dataSourceId before) batch.records) .start before)) :
    TwoRuns { now, enterpriseId, dataSourceId, fetchedAt := batch.fetchedAt }
      { now := later, enterpriseId, dataSourceId, fetchedAt := batch.fetchedAt } (confirmedMappings dataSourceId before)
      batch.records others before first.batched second.batched where
  enterprise := rfl
  stamps _ := rfl
  reordered
  mapped
  referring
  firstStay := stay_of_meets first.found (presentable.stays batch.records now (.refl _))
  secondStay := stay_of_meets second.found (presentable.stays others later reordered)
  unguessed record listed := by
    have free := presentable.unguessed record listed
    unfold Unguessed at free ⊢
    rwa [committed] at free
  firstRan := ⟨first.progress, first.ran⟩
  secondRan := ⟨second.progress, second.ran⟩
  agreeing

end Sessions

/-! ## The same rows as before -/

section Unchanged

variable {rename : Renaming} {before first second : DB}

theorem column_decimal_iff {entity : Entity} {name : String} {value : Value} {number : Numeric.Decimal} :
    rename.column entity name value = .decimal number ↔ value = .decimal number := by
  cases references : references? entity name with
  | none => rw [Renaming.column_of_plain references]
  | some target =>
      unfold Renaming.column
      rw [references]
      cases value <;> simp

/-- Old rows that stay leave no room for new ones. -/
theorem SameRows.old_of_first (same : SameRows rename before first before)
    (persists : ∀ entity, ∀ old ∈ (before.canonical entity).rows, ∃ row ∈ (first.canonical entity).rows, row.id = old.id) :
    NothingNew before first := by
  intro entity row member
  obtain ⟨old, oldMember, renamed⟩ := same.twin entity row member
  obtain ⟨kept, keptMember, id⟩ := persists entity old oldMember
  have sameId : rename entity row.id = rename entity kept.id := by rw [← renamed.id, id, same.keeps entity old oldMember]
  obtain rfl := same.injective entity row member kept keptMember sameId
  refine ⟨old, oldMember, id.symm, fun name number isNumber => ?_⟩
  rw [renamed.columns]
  exact column_decimal_iff.mpr isNumber

theorem SameRows.old_of_second (same : SameRows rename before before second) : NothingNew before second := by
  intro entity row member
  obtain ⟨old, oldMember, renamed⟩ := same.onto entity row member
  refine ⟨old, oldMember, (renamed.id.trans (same.keeps entity old oldMember)).symm, fun name number isNumber => ?_⟩
  rw [renamed.columns] at isNumber
  exact column_decimal_iff.mp isNumber

end Unchanged

theorem SameRows.congr {rename : Renaming} {before first second one two : DB} (same : SameRows rename before one two)
    (firstTables : first.canonical = one.canonical) (secondTables : second.canonical = two.canonical) :
    SameRows rename before first second := by
  obtain ⟨keeps, injective, twin, onto⟩ := same
  rw [← firstTables] at injective twin onto
  rw [← secondTables] at twin onto
  exact ⟨keeps, injective, twin, onto⟩

theorem Linked.congr {enterpriseId : Uuid} {mappings : List FieldMapping} {records : List Record} {db other : DB}
    (linked : Linked enterpriseId mappings records db) (tables : other.canonical = db.canonical) :
    Linked enterpriseId mappings records other := by
  have names : naming enterpriseId other = naming enterpriseId db := by
    unfold naming
    rw [tables]
  unfold Linked
  rw [names, tables]
  exact linked

section Orders

variable {batch : FetchBatch} {enterpriseId dataSourceId : Uuid} {now later : Timestamp} {before after : DB} {others : List Record}
variable {result : SyncResult} {rename : Renaming}

theorem commit_canonical (ran : (SyncCall.delivery batch enterpriseId dataSourceId now).session before = .ok result after)
    (delivered : DeliveredBatch batch enterpriseId dataSourceId now before after) :
    ((SyncCall.delivery batch enterpriseId dataSourceId now).commit before).canonical = delivered.batched.canonical :=
  (congrArg (fun ended => (Prod.snd ended).canonical) (transact_of_ok ran)).trans delivered.final

theorem commit_of_failed {call : SyncCall} (failed : returned (call.session before) ≠ true) : call.commit before = before := by
  cases ran : call.session before with
  | ok result after =>
      rw [ran] at failed
      exact absurd rfl failed
  | error reason after => exact congrArg Prod.snd (transact_of_error ran)

/-- A delivery that returns and leaves the rows as they were meets nothing faulty in another order. -/
theorem DeliveredBatch.sound (delivered : DeliveredBatch batch enterpriseId dataSourceId now before after) (mapped : Mapped before)
    (stays : ¬ (SyncCall.delivery batch enterpriseId dataSourceId now).Meets Accepted.Moves before)
    (agreeing : Accepted.Agreeing (acceptedAlong { now, enterpriseId, dataSourceId, fetchedAt := batch.fetchedAt }
      (confirmedMappings dataSourceId before) (schedule (confirmedMappings dataSourceId before) batch.records) .start before))
    (old : NothingNew before delivered.batched)
    (reordered : batch.records.Perm others) :
    ¬ (SyncCall.delivery { batch with records := others } enterpriseId dataSourceId later).Meets Accepted.Faulty before := by
  have leaves : LeavesRows { now, enterpriseId, dataSourceId, fetchedAt := batch.fetchedAt } (confirmedMappings dataSourceId before)
      (schedule (confirmedMappings dataSourceId before) batch.records) before delivered.batched :=
    ⟨mapped, schedule_mastersFirst _ _, stay_of_meets delivered.found stays, ⟨_, delivered.ran⟩, agreeing, old⟩
  intro meets
  obtain ⟨next, acc, reached, accepted, reaches, accepts, faulty⟩ := (meets_delivery_iff delivered.found).mp meets
  refine leaves.sound (by rfl) (fun next listed => ?_) reaches accepts faulty
  exact (schedule_reordered _ reordered).mem_iff.mpr listed

/-- Two deliveries that fail leave the rows as they were. -/
theorem sameRows_of_failed {call other : SyncCall} (fails : returned (call.session before) ≠ true)
    (otherFails : returned (other.session before) ≠ true) :
    ∃ rename, SameRows rename before (call.commit before) (other.commit before) := by
  rw [commit_of_failed fails, commit_of_failed otherFails]
  exact ⟨_, .refl before⟩

theorem sameRows_of_returned (mapped : Mapped before) (referring : Referring before)
    (presentable : Presentable batch enterpriseId dataSourceId now before) (reordered : batch.records.Perm others)
    (returns : returned ((SyncCall.delivery batch enterpriseId dataSourceId now).session before) = true)
    (otherReturns : returned ((SyncCall.delivery { batch with records := others } enterpriseId dataSourceId later).session before) =
      true) :
    (∃ rename, SameRows rename before ((SyncCall.delivery batch enterpriseId dataSourceId now).commit before)
      ((SyncCall.delivery { batch with records := others } enterpriseId dataSourceId later).commit before)) ∧
    Linked enterpriseId (confirmedMappings dataSourceId before) others
      ((SyncCall.delivery { batch with records := others } enterpriseId dataSourceId later).commit before) := by
  obtain ⟨result, ran⟩ := exists_of_returned returns
  obtain ⟨otherResult, otherRan⟩ := exists_of_returned otherReturns
  obtain ⟨one⟩ := delivered_batch ran
  obtain ⟨two⟩ := delivered_batch otherRan
  have agreeing := presentable.agreeing batch.records now (.refl _)
  rw [SyncCall.accepted_delivery ran] at agreeing
  have runs := one.twoRuns two reordered mapped referring presentable (commit_canonical ran one) agreeing
  exact ⟨⟨_, runs.sameRows.congr (commit_canonical ran one) (commit_canonical otherRan two)⟩,
    runs.secondLinked.congr (commit_canonical otherRan two)⟩

/-- A delivery that leaves nothing new returns in any order. -/
theorem returned_of_nothingNew {other : FetchBatch} (mapped : Mapped before)
    (agreeing : Accepted.Agreeing ((SyncCall.delivery batch enterpriseId dataSourceId now).accepted before))
    (stays : ¬ (SyncCall.delivery batch enterpriseId dataSourceId now).Meets Accepted.Moves before)
    (otherStays : ¬ (SyncCall.delivery other enterpriseId dataSourceId later).Meets Accepted.Moves before)
    (reordered : batch.records.Perm other.records) (fetched : other.fetchedAt = batch.fetchedAt)
    (free : ¬ Barred other enterpriseId dataSourceId before)
    (clean : (SyncCall.delivery other enterpriseId dataSourceId later).Clean before)
    (returns : returned ((SyncCall.delivery batch enterpriseId dataSourceId now).session before) = true)
    (old : NothingNew before ((SyncCall.delivery batch enterpriseId dataSourceId now).commit before)) :
    returned ((SyncCall.delivery other enterpriseId dataSourceId later).session before) = true := by
  obtain ⟨result, ran⟩ := exists_of_returned returns
  obtain ⟨delivered⟩ := delivered_batch ran
  rw [SyncCall.accepted_delivery ran] at agreeing
  have old : NothingNew before delivered.batched := by
    unfold NothingNew at old ⊢
    rwa [commit_canonical ran delivered] at old
  obtain ⟨others, fetchedAt⟩ := other
  obtain rfl : fetchedAt = batch.fetchedAt := fetched
  exact (delivery_returned_iff mapped clean otherStays).mpr ⟨free, delivered.sound mapped stays agreeing old reordered⟩

theorem commit_persists (stays : ¬ (SyncCall.delivery batch enterpriseId dataSourceId now).Meets Accepted.Moves before)
    (returns : returned ((SyncCall.delivery batch enterpriseId dataSourceId now).session before) = true) :
    ∀ entity, ∀ old ∈ (before.canonical entity).rows,
      ∃ row ∈ (((SyncCall.delivery batch enterpriseId dataSourceId now).commit before).canonical entity).rows, row.id = old.id := by
  obtain ⟨result, ran⟩ := exists_of_returned returns
  obtain ⟨delivered⟩ := delivered_batch ran
  have touched := acceptedAlong_touched (run_ownTenant (stay_of_meets delivered.found stays) delivered.ran) delivered.ran
  intro entity old member
  obtain ⟨row, rowMember, id, _⟩ := touched.persists entity old member
  rw [commit_canonical ran delivered]
  exact ⟨row, rowMember, id⟩

end Orders

/-- Agreeing records leave the same rows in any order exactly when the records that the
constructor or the comparison refuses are met in every order or in none. -/
theorem recordOrderFree_iff (batch : FetchBatch) (enterpriseId dataSourceId : Uuid) (now : Timestamp) (before : DB)
    (mapped : Mapped before) (referring : Referring before)
    (presentable : Presentable batch enterpriseId dataSourceId now before) :
    RecordOrderFree batch enterpriseId dataSourceId now before ↔
      Barred batch enterpriseId dataSourceId before ∨ ∀ (others : List Record) (later : Timestamp), batch.records.Perm others →
        (SyncCall.delivery batch enterpriseId dataSourceId now).Clean before →
        (SyncCall.delivery { batch with records := others } enterpriseId dataSourceId later).Clean before →
          ((SyncCall.delivery batch enterpriseId dataSourceId now).Meets Accepted.Faulty before ↔
            (SyncCall.delivery { batch with records := others } enterpriseId dataSourceId later).Meets Accepted.Faulty before) := by
  have stays := presentable.stays batch.records now (.refl _)
  have agreeing := presentable.agreeing batch.records now (.refl _)
  constructor
  · refine fun orderFree => or_iff_not_imp_left.mpr fun free others later reordered clean otherClean => ?_
    have otherStays := presentable.stays others later reordered
    have otherFree : ¬ Barred { batch with records := others } enterpriseId dataSourceId before :=
      fun barred => free ((barred_perm_iff reordered).mp barred)
    obtain ⟨⟨rename, same⟩, _⟩ := orderFree others later reordered clean otherClean
    have both : returned ((SyncCall.delivery batch enterpriseId dataSourceId now).session before) = true ↔
        returned ((SyncCall.delivery { batch with records := others } enterpriseId dataSourceId later).session before) = true := by
      constructor
      · intro returns
        by_contra fails
        rw [commit_of_failed fails] at same
        exact fails (returned_of_nothingNew mapped agreeing stays otherStays reordered rfl otherFree otherClean returns
          (same.old_of_first (commit_persists stays returns)))
      · intro returns
        by_contra fails
        rw [commit_of_failed fails] at same
        exact fails (returned_of_nothingNew mapped (presentable.agreeing others later reordered) otherStays stays reordered.symm
          rfl free clean returns same.old_of_second)
    rw [delivery_returned_iff mapped clean stays, delivery_returned_iff mapped otherClean otherStays, and_iff_right free,
      and_iff_right otherFree] at both
    exact not_iff_not.mp both
  · intro fair others later reordered clean otherClean
    have otherStays := presentable.stays others later reordered
    have both : returned ((SyncCall.delivery batch enterpriseId dataSourceId now).session before) = true ↔
        returned ((SyncCall.delivery { batch with records := others } enterpriseId dataSourceId later).session before) = true := by
      rw [delivery_returned_iff mapped clean stays, delivery_returned_iff mapped otherClean otherStays]
      rw [barred_perm_iff reordered]
      rcases fair with isBarred | same
      · exact iff_of_false (fun free => free.1 isBarred) fun free => free.1 isBarred
      · rw [same others later reordered clean otherClean]
    by_cases returns : returned ((SyncCall.delivery batch enterpriseId dataSourceId now).session before) = true
    · obtain ⟨same, linked⟩ := sameRows_of_returned mapped referring presentable reordered returns (both.mp returns)
      exact ⟨same, fun _ => linked⟩
    · have otherFails := fun otherReturns => returns (both.mpr otherReturns)
      exact ⟨sameRows_of_failed returns otherFails, fun otherReturns => absurd otherReturns otherFails⟩

theorem mapped_empty (db : DB) (empty : ∀ entity, (db.canonical entity).rows = []) : Mapped db ∧ Referring db := by
  refine ⟨⟨fun entity row member => ?_, fun entity row member => ?_⟩, fun entity row member => ?_⟩
  all_goals
    rw [empty entity] at member
    cases member

/-! ## Batches with one record a table -/

/-- The record has something for the entity, and what names a row of it. -/
def names (mappings : List FieldMapping) (next : Entity × Record) : Bool :=
  match extract next.2 (mappingsOf mappings next.1) with
  | .error _ => false
  | .ok attrs => !attrs.entries.isEmpty &&
      (requiredIdentity next.1).all fun name => endsWithId name || (attrs.lookup name).isSome

section Names

variable {context : SyncContext} {mappings : List FieldMapping} {accepted : Accepted} {next : Entity × Record} {acc : Progress}
variable {db before : DB}

theorem names_of_accepted (accepts : acceptedOf context mappings acc next db = some accepted) : names mappings next = true := by
  obtain ⟨attrs, resolved, ⟨extracted, filled, ⟨cache, resolving⟩, identified⟩, _⟩ := upserting_of_acceptedOf accepts
  have outside : ∀ name ∈ requiredIdentity next.1, endsWithId name = false →
      ∀ reference ∈ (specs next.1).refs, name ≠ reference.attr ∧ name ≠ foreignKey reference.target := by
    cases next.1 <;> decide
  have extracted : extract next.2 (mappingsOf mappings next.1) = .ok attrs := extracted
  unfold names
  rw [extracted]
  dsimp only
  rw [filled, Bool.not_false, Bool.true_and, List.all_eq_true]
  intro name required
  cases suffix : endsWithId name with
  | true => rfl
  | false =>
      have kept : resolved.lookup name = attrs.lookup name := resolveRefs_other resolving rfl (outside name required suffix)
      rw [Bool.false_or, ← kept]
      cases found : resolved.lookup name with
      | some raw => rfl
      | none =>
          have lacks : lacksIdentity next.1 resolved = true := List.any_eq_true.mpr ⟨name, required, by rw [found]⟩
          cases lacks.symm.trans identified

theorem acceptedAlong_entities (steps : List (Entity × Record)) (progress : Progress) :
    ((acceptedAlong context mappings steps progress db).map Accepted.entity).Sublist ((steps.filter (names mappings)).map Prod.fst) := by
  induction steps generalizing progress db with
  | nil => exact List.Sublist.slnil
  | cons next rest ih =>
      have joined (tail : List Accepted) (later : (tail.map Accepted.entity).Sublist ((rest.filter (names mappings)).map Prod.fst)) :
          (((acceptedOf context mappings progress next db).toList ++ tail).map Accepted.entity).Sublist
            (((next :: rest).filter (names mappings)).map Prod.fst) := by
        rw [List.map_append]
        cases accepts : acceptedOf context mappings progress next db with
        | none => exact later.trans (((List.sublist_cons_self next rest).filter _).map _)
        | some accepted =>
            obtain ⟨_, _, _, rfl⟩ := upserting_of_acceptedOf accepts
            rw [List.filter_cons_of_pos (names_of_accepted accepts)]
            exact later.cons_cons next.1
      cases stepped : syncNext context mappings progress next db with
      | ok later after =>
          rw [acceptedAlong_cons stepped]
          exact joined _ (ih later)
      | error reason after =>
          rw [acceptedAlong, stepped]
          exact joined [] (List.nil_sublist _)

/-- One record a table agrees with all others. -/
theorem agreeing_of_names {batch : FetchBatch} {enterpriseId dataSourceId : Uuid} {now : Timestamp} {others : List Record}
    (single : (((schedule (confirmedMappings dataSourceId before) batch.records).filter
      (names (confirmedMappings dataSourceId before))).map Prod.fst).Nodup) (reordered : batch.records.Perm others) :
    Accepted.Agreeing ((SyncCall.delivery { batch with records := others } enterpriseId dataSourceId now).accepted before) := by
  cases ran : (SyncCall.delivery { batch with records := others } enterpriseId dataSourceId now).session before with
  | error reason after =>
      unfold SyncCall.accepted
      rw [ran]
      exact List.forall_mem_nil _
  | ok result after =>
      rw [SyncCall.accepted_delivery ran]
      have distinct := (((schedule_reordered (confirmedMappings dataSourceId before) reordered).filter
        (names (confirmedMappings dataSourceId before))).map Prod.fst).nodup_iff.mp single
      intro accepted member other otherMember entity _ name value otherValue given otherGiven
      obtain rfl := List.inj_on_of_nodup_map ((acceptedAlong_entities _ _).nodup distinct) otherMember member entity
      exact Option.some.inj (given.symm.trans otherGiven)

end Names

/-- A sheet with the stock in other lines than the items, and a name that is no column. -/
def splitSheet : DB :=
  { sheetWithSource with
    fieldMapping := (((Table.empty.insert (confirmedMapping "sku" .item "sku")).insert
      (confirmedMapping "stock" .stockLevel "item_sku")).insert (confirmedMapping "qty" .stockLevel "quantity")).insert
        (confirmedMapping "foo" .item "foo_id") }

/-- The line with the strange name is about no item. -/
def stockFirst : FetchBatch where
  records := [Dict.ofList [("stock", .text "bolt"), ("qty", .text "10")], Dict.ofList [("foo", .text "x")],
    Dict.ofList [("sku", .text "bolt")]]
  fetchedAt := 0

theorem recordOrderFree_stockFirst : RecordOrderFree stockFirst 1 1 0 splitSheet := by
  obtain ⟨mapped, referring⟩ := mapped_empty splitSheet fun _ => rfl
  have sound (others : List Record) (later : Timestamp) (reordered : stockFirst.records.Perm others) :
      ¬ (SyncCall.delivery { stockFirst with records := others } 1 1 later).Meets Accepted.Faulty splitSheet := by
    intro meets
    obtain ⟨source, found⟩ : ∃ source, splitSheet.dataSource.find? 1 = some source := ⟨_, rfl⟩
    obtain ⟨next, acc, reached, accepted, reaches, accepts, faulty⟩ := (meets_delivery_iff found).mp meets
    have plain : ∀ next ∈ schedule (confirmedMappings 1 splitSheet) stockFirst.records, names (confirmedMappings 1 splitSheet) next = true →
        Spelled (confirmedMappings 1 splitSheet) next.2 ∧ Comparable (confirmedMappings 1 splitSheet) next.2 := by decide +kernel
    obtain ⟨done, remaining, split, _⟩ := reaches
    have listed := split ▸ List.mem_append_right done (List.mem_cons_self (a := next) (l := remaining))
    obtain ⟨spelled, comparable⟩ := plain next ((schedule_reordered _ reordered).mem_iff.mpr listed) (names_of_accepted accepts)
    exact sound_of_spelled spelled comparable accepts faulty
  refine (recordOrderFree_iff stockFirst 1 1 0 splitSheet mapped referring ⟨?_, ?_, ?_⟩).mpr (.inr ?_)
  · exact fun others later => agreeing_of_names (by decide +kernel)
  · rintro others later reordered ⟨step, accepted, ⟨batch, _, _, isMappings, _⟩, accepts, _, value, other, given, _⟩
    have tenantless : Tenantless (confirmedMappings 1 splitSheet) := by
      unfold Tenantless
      decide +kernel
    rw [RecordStep.accepted, isMappings] at accepts
    have accepts := (acceptedOf_mappingsOf ..).symm.trans accepts
    cases (acceptedOf_tenantless tenantless accepts).symm.trans given
  · have free : ∀ mapping ∈ confirmedMappings 1 splitSheet,
        references? mapping.canonicalEntity mapping.canonicalAttribute = none := by decide +kernel
    intro record _ mapping member target references
    rw [free mapping member] at references
    cases references
  · exact fun others later reordered _ _ => iff_of_false (sound stockFirst.records 0 (.refl _)) (sound others later reordered)

/-- A mapping to a name that looks like a foreign key and is none. -/
def straySheet : DB :=
  { sheetWithSource with
    fieldMapping := (Table.empty.insert (confirmedMapping "sku" .item "sku")).insert (confirmedMapping "foo" .item "foo_id") }

def strayLast : FetchBatch where
  records := [Dict.ofList [("sku", .text "bolt")], Dict.ofList [("sku", .text "bolt"), ("foo", .text "x")]]
  fetchedAt := 0

/-- The constructor of a row refuses the attribute that an update takes. -/
theorem stray_attribute_depends_on_order :
    Mapped straySheet ∧ Referring straySheet ∧
      Accepted.Agreeing ((SyncCall.delivery strayLast 1 1 0).accepted straySheet) ∧
        ¬ RecordOrderFree strayLast 1 1 0 straySheet := by
  obtain ⟨mapped, referring⟩ := mapped_empty straySheet fun _ => rfl
  refine ⟨mapped, referring, by decide +kernel, fun free => ?_⟩
  have clean (batch : FetchBatch) (noDatabase : (match (SyncCall.delivery batch 1 1 0).session straySheet with
      | .error (.database _) _ => false
      | _ => true) = true) : (SyncCall.delivery batch 1 1 0).Clean straySheet := by
    intro violation after raised
    rw [raised] at noDatabase
    cases noDatabase
  obtain ⟨⟨rename, same⟩, _⟩ := free strayLast.records.reverse 0 strayLast.records.reverse_perm.symm
    (clean _ (by decide +kernel)) (clean _ (by decide +kernel))
  have created : (((SyncCall.delivery strayLast 1 1 0).commit straySheet).canonical .item).rows ≠ [] := by decide +kernel
  have nothing : (((SyncCall.delivery { strayLast with records := strayLast.records.reverse } 1 1 0).commit straySheet).canonical
      .item).rows = [] := by decide +kernel
  obtain ⟨row, member⟩ := List.exists_mem_of_ne_nil _ created
  obtain ⟨other, otherMember, _⟩ := same.twin .item row member
  rw [nothing] at otherMember
  cases otherMember

end SmartProcurement.Integration
