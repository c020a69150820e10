import SmartProcurement.Integration.TenantFrame
import SmartProcurement.Integration.WatchedChanges
import SmartProcurement.Jobs.Handlers
import SmartProcurement.Observation.Inputs
import SmartProcurement.Transition.Runs

namespace SmartProcurement.Integration

open Relational Transaction Transition Observation

/-! # Scoped recomputation after a batch

The recomputation that a batch enqueues covers the items of its signals.  It is
as good as one of the whole enterprise for an item whose other inputs stay.
-/

/-! ## Batches and their jobs -/

/-- A sync and the later moment at which its recomputation runs. -/
structure Batch where
  call : SyncCall
  recomputedAt : Timestamp

def Batch.synced (batch : Batch) (before : DB) : DB := (transact batch.call.session before).2

def Batch.jobs (batch : Batch) (before : DB) : List Job :=
  (batch.synced before).job.rows.filter fun job =>
    job.kind = "recompute_aggregates" ∧ job ∉ before.job.rows

/-- A batch of the enterprise, followed by the recomputation it enqueued, if any. -/
def BatchStep (enterpriseId : Uuid) (before : DB) (batch : Batch) (after : DB) : Prop :=
  batch.call.enterpriseId = enterpriseId ∧
    (batch.jobs before).forM (Jobs.recomputeAggregatesHandler batch.recomputedAt) (batch.synced before) =
      .ok ⟨⟩ after

/-- The enqueued recomputation has the item in its scope. -/
def Batch.Covers (batch : Batch) (before : DB) (itemId : Uuid) : Prop :=
  ∃ job ∈ batch.jobs before,
    itemId ∈ itemsInScope batch.call.enterpriseId job.payload.itemIds (batch.synced before)

/-- What the derivation reads of a row besides its watched attribute. -/
def unwatchedColumns (entity : Entity) : List String :=
  (aggregateColumns entity).filter fun name => (signalWatch entity).all fun watch => watch.1 != name

def unwatched (entity : Entity) (row : Row) : Uuid × Timestamp × List Value :=
  (row.id, row.createdAt, (unwatchedColumns entity).map row.col)

/-- The item and its trusted rows are the same, up to watched attributes. -/
def OnlyWatchedChanges (itemId : Uuid) (before after : DB) : Prop :=
  ((before.canonical .item).find? itemId).isSome ∧ ∀ entity ∈ aggregateEntities,
    (trustedRows after entity itemId).map (unwatched entity) =
      (trustedRows before entity itemId).map (unwatched entity)

/-! ## Agreement -/

/-- An aggregate row apart from `computed_at`. -/
def undated (row : SkuAggregate) : SkuAggregate := { row with computedAt := 0 }

/-- Recomputing the whole enterprise now would leave the item's row as it is. -/
def Agrees (enterpriseId itemId : Uuid) (db : DB) : Prop :=
  ∀ now, (itemRows (transact (recomputeAggregates now enterpriseId none) db).2 itemId).map undated =
    (itemRows db itemId).map undated

/-- The item's row has the values that are derived from the item's rows now. -/
def UpToDate (itemId : Uuid) (db : DB) : Prop :=
  ∀ values stored, aggregateValues db itemId = .ok (some values) → storedValues values = .ok stored →
    ∃ row, itemRows db itemId = [row] ∧ row.values = stored

section Agreement

variable {now : Timestamp} {enterpriseId itemId : Uuid} {before after db : DB}

theorem UpToDate.congr (current : UpToDate itemId before)
    (values : aggregateValues after itemId = aggregateValues before itemId)
    (rows : itemRows after itemId = itemRows before itemId) : UpToDate itemId after := by
  intro computed stored derived kept
  rw [values] at derived
  rw [rows]
  exact current computed stored derived kept

theorem upToDate_of_recomputed (only : aggregatesOnly.rel before after)
    (recomputed : Recomputed now itemId before after) : UpToDate itemId after := by
  intro values stored derived kept
  rw [aggregateValues_of_aggregatesOnly only] at derived
  cases recomputed with
  | untrusted none _ =>
      rw [none] at derived
      cases derived
  | upserted computed keeps upserted =>
      rw [computed, Except.ok.injEq, Option.some.injEq] at derived
      subst derived
      obtain rfl := Except.ok.inj (keeps.symm.trans kept)
      obtain ⟨row, rows, same, _⟩ := upserted.current
      exact ⟨row, rows, same⟩

theorem recomputeAggregates_upToDate {itemIds : Option (List Uuid)} {results : List SkuAggregate}
    (ran : recomputeAggregates now enterpriseId itemIds before = .ok results after)
    (inScope : itemId ∈ itemsInScope enterpriseId itemIds before) : UpToDate itemId after := by
  obtain ⟨only, recomputed, _⟩ := recomputeAggregates_ok ran
  exact upToDate_of_recomputed only (recomputed itemId inScope)

theorem UpToDate.agrees (current : itemId ∈ itemsInScope enterpriseId none db → UpToDate itemId db) :
    Agrees enterpriseId itemId db := by
  intro now
  cases ran : recomputeAggregates now enterpriseId none db with
  | error reason after => rw [transact_of_error ran]
  | ok results after =>
      rw [transact_of_ok ran]
      obtain ⟨only, recomputed, others⟩ := recomputeAggregates_ok ran
      by_cases inScope : itemId ∈ itemsInScope enterpriseId none db
      · cases recomputed itemId inScope with
        | untrusted _ same => rw [same.itemRows]
        | upserted computed kept upserted =>
            obtain ⟨row, rows, same⟩ := current inScope _ _ computed kept
            rw [upserted.inPlace row (by simp [rows]), rows, ← same]
            rfl
      · rw [(others itemId inScope).itemRows]

end Agreement

/-! ## What the sync of a batch changes -/

theorem map_congr_of_map_eq {α β γ : Type} {f : α → β} {g : α → γ} {left right : List α}
    (same : left.map f = right.map f) (finer : ∀ a ∈ left, ∀ b ∈ right, f a = f b → g a = g b) :
    left.map g = right.map g := by
  induction left generalizing right with
  | nil => cases right with
    | nil => rfl
    | cons _ _ => cases same
  | cons first rest ih =>
      cases right with
      | nil => cases same
      | cons other others =>
          obtain ⟨head, tail⟩ := List.cons.inj same
          rw [List.map_cons, List.map_cons, finer first (by simp) other (by simp) head,
            ih tail fun a inRest b inOthers => finer a (by simp [inRest]) b (by simp [inOthers])]

theorem unwatchedColumns_or {entity : Entity} {name : String} (reads : name ∈ aggregateColumns entity) :
    name ∈ unwatchedColumns entity ∨ ∃ signalType, signalWatch entity = some (name, signalType) := by
  cases watched : signalWatch entity with
  | none => exact .inl (List.mem_filter.mpr ⟨reads, by simp [watched]⟩)
  | some watch =>
      by_cases same : watch.1 = name
      · exact .inr ⟨watch.2, by rw [← same]⟩
      · exact .inl (List.mem_filter.mpr ⟨reads, by simpa [watched] using same⟩)

section Synced

variable {batch : Batch} {itemId : Uuid} {before after : DB} {result : SyncResult}

/-- Every watched value is as its column stores it. -/
def StoredNumbers (db : DB) : Prop :=
  ∀ entity attr signalType, signalWatch entity = some (attr, signalType) →
    ∀ row ∈ (db.canonical entity).rows, StoredNumber attr row

/-- The batch leaves the queue and the aggregates alone. -/
def batchFrame : Frame DB := (Frame.fixes (·.job)).both (Frame.fixes (·.skuAggregate))

theorem batchFrame_allowed (dataSourceId : Uuid) : BatchFrame dataSourceId batchFrame where
  signal _ _ := ⟨rfl, rfl⟩
  insert _ _ _ _ := ⟨rfl, rfl⟩
  update _ _ _ _ _ := ⟨rfl, rfl⟩

/-- A sync that returns, as the recomputation after it sees it. -/
structure Delivered (batch : Batch) (before : DB) where
  progress : Progress
  aggregates : (batch.synced before).skuAggregate = before.skuAggregate
  tracked : ∀ entity attr signalType, signalWatch entity = some (attr, signalType) →
    (∀ row ∈ (before.canonical entity).rows, StoredNumber attr row) →
      Tracked entity attr before progress (batch.synced before)
  counted : progress.signalsCreated = 0 → progress.touchedItemIds = []
  jobs : batch.jobs before = if progress.signalsCreated = 0 then []
    else [before.job.newRow (recomputeJob batch.call.now batch.call.enterpriseId progress)]
  foreign : ForeignWithin batch.call.enterpriseId before (batch.synced before)

theorem recomputeJob_kind (now : Timestamp) (enterpriseId : Uuid) (progress : Progress) (table : Table Job) :
    (table.newRow (recomputeJob now enterpriseId progress)).kind = "recompute_aggregates" := rfl

theorem delivered (ran : batch.call.session before = .ok result after) : Nonempty (Delivered batch before) := by
  obtain ⟨synced⟩ := syncSource_ok ran
  have middle : batch.synced before = after := by rw [Batch.synced, transact_of_ok ran]
  obtain ⟨queue, aggregates⟩ := syncBatch_frame (batchFrame_allowed batch.call.dataSourceId) synced.ran
  refine ⟨⟨synced.progress, ?_, ?_, syncBatch_counted synced.ran, ?_, ?_⟩⟩
  · have fields := congrArg DB.skuAggregate synced.final
    rw [middle]
    exact fields.trans aggregates
  · intro entity attr signalType watched numbers
    have tracked := syncBatch_tracked watched numbers synced.ran
    rw [middle]
    exact tracked.same (by rw [synced.canonical]) fun _ member => member
  · have fields : after.job = if synced.progress.signalsCreated = 0 then synced.batched.job
        else synced.batched.job.insert (recomputeJob batch.call.now batch.call.enterpriseId synced.progress) := by
      have fields := congrArg DB.job synced.final
      exact fields
    have known : (before.job.rows.filter fun job =>
        job.kind = "recompute_aggregates" ∧ job ∉ before.job.rows) = [] := by
      refine List.filter_eq_nil_iff.mpr fun job member => ?_
      simp [member]
    rw [show synced.batched.job = before.job from queue] at fields
    rw [Batch.jobs, middle, fields]
    split
    · exact known
    · rw [Table.filter_insert, known, if_pos]
      · rfl
      · simp only [decide_eq_true_eq]
        exact ⟨recomputeJob_kind .., Table.newRow_not_mem _ _⟩
  · rw [middle]
    exact batch.call.foreignKept ran

theorem synced_of_error {reason : Error} (ran : batch.call.session before = .error reason after) :
    batch.synced before = before ∧ batch.jobs before = [] := by
  have same : batch.synced before = before := by rw [Batch.synced, transact_of_error ran]
  refine ⟨same, List.filter_eq_nil_iff.mpr fun job member => ?_⟩
  rw [same] at member
  simp [member]

end Synced

/-! ## One step -/

section Steps

variable {enterpriseId itemId : Uuid} {batch : Batch} {before after : DB}

/-- The item of the enterprise that a delivery does not cover was not touched by it. -/
theorem Delivered.untouched (delivered : Delivered batch before)
    (inScope : itemId ∈ itemsInScope batch.call.enterpriseId none (batch.synced before))
    (uncovered : ¬ batch.Covers before itemId) : itemId ∉ delivered.progress.touchedItemIds := by
  intro touched
  have enqueued := delivered.jobs
  split at enqueued
  · next silent =>
    rw [delivered.counted silent] at touched
    cases touched
  · refine uncovered ⟨_, by rw [enqueued]; exact List.mem_singleton_self _, ?_⟩
    change itemId ∈ itemsInScope _ (some delivered.progress.touchedItemIds) _
    cases scope : delivered.progress.touchedItemIds with
    | nil => exact inScope
    | cons first rest =>
        rw [scope] at touched
        exact List.mem_filter.mpr ⟨inScope, by simpa using touched⟩

theorem Delivered.sameReading (delivered : Delivered batch before) (numbers : StoredNumbers before)
    (untouched : itemId ∉ delivered.progress.touchedItemIds)
    (only : OnlyWatchedChanges itemId before (batch.synced before)) (entity : Entity)
    (listed : entity ∈ aggregateEntities) : SameReading entity itemId before (batch.synced before) := by
  refine map_congr_of_map_eq (only.2 entity listed) fun row rowMember old oldMember same => ?_
  obtain ⟨id, rest⟩ := Prod.mk.inj same
  obtain ⟨created, columns⟩ := Prod.mk.inj rest
  have reads (name : String) (listed : name ∈ aggregateColumns entity) : row.col name = old.col name := by
    rcases unwatchedColumns_or listed with unwatched | ⟨signalType, watched⟩
    · exact List.map_inj_left.mp columns name unwatched
    · have tracked := delivered.tracked entity name signalType watched (numbers entity name signalType watched)
      obtain ⟨oldStored, named, _⟩ := mem_trustedRows.mp oldMember
      obtain ⟨current, currentMember, currentId, _, value⟩ := tracked.rows old oldStored
      obtain rfl := Table.eq_of_key_eq (mem_trustedRows.mp rowMember).1 currentMember (id.trans currentId.symm)
      exact value.resolve_right fun touches => untouched (touches itemId named)
  have cols : (fun name => if name ∈ aggregateColumns entity then row.col name else Value.null) =
      fun name => if name ∈ aggregateColumns entity then old.col name else Value.null := by
    funext name
    by_cases listed : name ∈ aggregateColumns entity
    · rw [if_pos listed, if_pos listed, reads name listed]
    · rw [if_neg listed, if_neg listed]
  unfold reduced
  rw [created, cols]

theorem Delivered.numbers (delivered : Delivered batch before) (numbers : StoredNumbers before) :
    StoredNumbers (batch.synced before) := fun entity attr signalType watched =>
  (delivered.tracked entity attr signalType watched (numbers entity attr signalType watched)).numbers

theorem Delivered.inScope_before (delivered : Delivered batch before)
    (known : ((before.canonical .item).find? itemId).isSome)
    (inScope : itemId ∈ itemsInScope batch.call.enterpriseId none (batch.synced before)) :
    itemId ∈ itemsInScope batch.call.enterpriseId none before := by
  obtain ⟨old, found⟩ := Option.isSome_iff_exists.mp known
  obtain ⟨row, current, owner⟩ := mem_itemsInScope_none.mp inScope
  refine mem_itemsInScope_none.mpr ⟨old, found, ?_⟩
  by_contra foreign
  obtain ⟨oldMember, oldId⟩ := Table.find?_some found
  obtain ⟨rowMember, rowId⟩ := Table.find?_some current
  have kept := delivered.foreign .item old oldMember foreign
  rw [Table.eq_of_key_eq kept rowMember (oldId.trans rowId.symm)] at foreign
  exact foreign owner

/-- Without a recomputation in its scope, an item whose other inputs stay is as
up to date after the sync as before. -/
theorem Delivered.upToDate (delivered : Delivered batch before) (numbers : StoredNumbers before)
    (current : itemId ∈ itemsInScope batch.call.enterpriseId none before → UpToDate itemId before)
    (uncovered : ¬ batch.Covers before itemId) (only : OnlyWatchedChanges itemId before (batch.synced before))
    (inScope : itemId ∈ itemsInScope batch.call.enterpriseId none (batch.synced before)) :
    UpToDate itemId (batch.synced before) := by
  have untouched := delivered.untouched inScope uncovered
  refine (current (delivered.inScope_before only.1 inScope)).congr
    (aggregateValues_congr (delivered.sameReading numbers untouched only)) ?_
  rw [itemRows, delivered.aggregates, ← itemRows]

theorem recomputeAggregatesHandler_ok {now : Timestamp} {job : Job} {before after : DB}
    (owner : job.payload.enterpriseId = some enterpriseId)
    (ran : Jobs.recomputeAggregatesHandler now job before = .ok ⟨⟩ after) :
    ∃ results middle, recomputeAggregates now enterpriseId job.payload.itemIds before = .ok results middle ∧
      after.canonical = middle.canonical ∧ after.skuAggregate = middle.skuAggregate := by
  simp only [Jobs.recomputeAggregatesHandler, bind_eq_ok, lift_eq_ok, owner, Jobs.required, Except.ok.injEq,
    Jobs.enqueue, write_eq_ok] at ran
  obtain ⟨_, _, ⟨rfl, rfl⟩, results, middle, recomputed, rfl⟩ := ran
  exact ⟨results, middle, recomputed, rfl, rfl⟩

/-- What every batch keeps: stored numbers, and the item's row up to date. -/
structure Ready (enterpriseId itemId : Uuid) (db : DB) : Prop where
  numbers : StoredNumbers db
  current : itemId ∈ itemsInScope enterpriseId none db → UpToDate itemId db

theorem Ready.step (ready : Ready enterpriseId itemId before) (step : BatchStep enterpriseId before batch after)
    (allowed : batch.Covers before itemId ∨ OnlyWatchedChanges itemId before (batch.synced before)) :
    Ready enterpriseId itemId after := by
  obtain ⟨rfl, ran⟩ := step
  cases sync : batch.call.session before with
  | error reason state =>
      obtain ⟨same, none⟩ := synced_of_error sync
      rw [none, same] at ran
      obtain ⟨_, rfl⟩ := pure_eq_ok.mp ran
      exact ready
  | ok result state =>
      obtain ⟨delivered⟩ := delivered sync
      have numbers := delivered.numbers ready.numbers
      have uncoveredCurrent (uncovered : ¬ batch.Covers before itemId) :=
        delivered.upToDate ready.numbers ready.current uncovered (allowed.resolve_left uncovered)
      have enqueued := delivered.jobs
      split at enqueued
      · rw [enqueued] at ran
        obtain ⟨_, rfl⟩ := pure_eq_ok.mp ran
        refine ⟨numbers, uncoveredCurrent fun ⟨job, member, _⟩ => ?_⟩
        rw [enqueued] at member
        cases member
      · rw [enqueued] at ran
        obtain ⟨_, final, handled, done⟩ := bind_eq_ok.mp ran
        obtain ⟨_, rfl⟩ := pure_eq_ok.mp done
        obtain ⟨results, middle, recomputed, canonical, aggregates⟩ := recomputeAggregatesHandler_ok rfl handled
        obtain ⟨only, _, others⟩ := recomputeAggregates_ok recomputed
        have sameRows : middle.canonical = (batch.synced before).canonical := by
          obtain ⟨_, rfl⟩ := only
          rfl
        refine ⟨?_, fun inScope => ?_⟩
        · unfold StoredNumbers at numbers ⊢
          rwa [canonical, sameRows]
        · rw [itemsInScope, canonical, sameRows] at inScope
          have values : aggregateValues final itemId = aggregateValues middle itemId :=
            aggregateValues_of_canonical canonical
          have rows : itemRows final itemId = itemRows middle itemId := by rw [itemRows, aggregates, ← itemRows]
          by_cases covered : itemId ∈ itemsInScope batch.call.enterpriseId
              (some delivered.progress.touchedItemIds) (batch.synced before)
          · exact (recomputeAggregates_upToDate recomputed covered).congr values rows
          · have uncovered : ¬ batch.Covers before itemId := by
              rintro ⟨job, member, scope⟩
              rw [enqueued, List.mem_singleton] at member
              subst member
              exact covered scope
            refine ((uncoveredCurrent uncovered inScope).congr
              (aggregateValues_of_aggregatesOnly only itemId) ?_).congr values rows
            exact (others itemId covered).itemRows

end Steps

/-- Batches that change nothing else of an item than watched attributes, or that
cover it, leave its row as a recomputation of the enterprise would. -/
theorem agrees_after_batches {enterpriseId itemId : Uuid} {initial db : DB} {batches : List Batch}
    (numbers : StoredNumbers initial) (current : UpToDate itemId initial)
    (run : Run (fun before batch after => BatchStep enterpriseId before batch after ∧
      (batch.Covers before itemId ∨ OnlyWatchedChanges itemId before (batch.synced before)))
      initial batches db) : Agrees enterpriseId itemId db := by
  have ready : Ready enterpriseId itemId db := by
    refine run.invariant (Ready enterpriseId itemId) ⟨numbers, fun _ => current⟩ ?_
    rintro before batch after ready ⟨step, allowed⟩
    exact ready.step step allowed
  exact UpToDate.agrees ready.current

/-! ## A first batch and a later one -/

def sheetBatch (now : Timestamp) (quantity : String) : Batch where
  call := { now, connectors := flaky quantity, enterpriseId := 1, dataSourceId := 1 }
  recomputedAt := now

/-- The first delivery creates the item and its stock without any signal. -/
theorem first_batch_disagrees :
    ∃ db, Run (BatchStep 1) sheetWithSource [sheetBatch 1 "10"] db ∧ ¬ Agrees 1 1 db := by
  have none : (sheetBatch 1 "10").jobs sheetWithSource = [] := by decide +kernel
  refine ⟨_, Run.start.next ⟨rfl, by rw [none]; rfl⟩, fun agrees => ?_⟩
  have lengths := congrArg List.length (agrees 2)
  exact absurd lengths (by decide +kernel)

def stockedSheet : DB :=
  (transact (recomputeAggregates 2 1 none) ((sheetBatch 1 "10").synced sheetWithSource)).2

theorem stockedSheet_upToDate : UpToDate 1 stockedSheet := by
  have returns : returned (recomputeAggregates 2 1 none ((sheetBatch 1 "10").synced sheetWithSource)) = true := by
    decide +kernel
  unfold stockedSheet
  cases ran : recomputeAggregates 2 1 none ((sheetBatch 1 "10").synced sheetWithSource) with
  | ok results after =>
      rw [transact_of_ok ran]
      exact recomputeAggregates_upToDate ran (by decide +kernel)
  | error _ _ =>
      rw [ran] at returns
      cases returns

theorem stockedSheet_numbers : StoredNumbers stockedSheet := by
  intro entity attr signalType watched
  cases entity <;> cases watched <;> (unfold StoredNumber; decide +kernel)

/-- The second delivery changes the quantity and the job it enqueues follows. -/
def restocked : DB :=
  state (((sheetBatch 3 "5").jobs stockedSheet).forM (Jobs.recomputeAggregatesHandler 3)
    ((sheetBatch 3 "5").synced stockedSheet))

theorem agrees_after_second_batch : Agrees 1 1 restocked := by
  have step : BatchStep 1 stockedSheet (sheetBatch 3 "5") restocked :=
    ⟨rfl, eq_ok_of_returned (by decide +kernel)⟩
  have only : OnlyWatchedChanges 1 stockedSheet ((sheetBatch 3 "5").synced stockedSheet) :=
    ⟨by decide +kernel, by decide +kernel⟩
  exact agrees_after_batches stockedSheet_numbers stockedSheet_upToDate (Run.start.next ⟨step, .inr only⟩)

end SmartProcurement.Integration
