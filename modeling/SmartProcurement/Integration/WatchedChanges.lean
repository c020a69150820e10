import SmartProcurement.Integration.UpsertedRows

namespace SmartProcurement.Integration

open Relational Transaction

/-! # Changes of watched attributes

An update that changes the watched attribute of a row signals it, and the run
remembers the item of the row.  So a row whose item the run did not touch still
has its old value.
-/

/-- The watched attribute of an entity: a numeric column outside the identity of
a row that belongs to an item. -/
structure WatchedColumn (entity : Entity) (attr : String) (column : Column) : Prop where
  own : ownColumn? entity attr = some column
  type : column.type = .numeric
  free : attr ∉ (specs entity).identity
  item : KeyColumn entity "item_id" itemFk
  itemIdentity : "item_id" ∈ (specs entity).identity
  required : "item_id" ∈ requiredIdentity entity

theorem signalWatch_column {entity : Entity} {attr : String} {signalType : SignalType}
    (watched : signalWatch entity = some (attr, signalType)) : ∃ column, WatchedColumn entity attr column := by
  have item : ownColumn? entity "item_id" = some itemFk := by
    cases entity <;> first | rfl | cases watched
  cases entity <;> cases watched <;>
    exact ⟨_, rfl, rfl, by decide, ⟨item, rfl, rfl, by decide, by decide, by decide⟩, by decide, by decide⟩

/-- The watched value is as its column stores it. -/
def StoredNumber (attr : String) (row : Row) : Prop :=
  ColumnType.numeric.bind attr (row.col attr) = .ok (row.col attr)

section Updates

variable {context : SyncContext} {entity : Entity} {attr : String} {column : Column} {signalType : SignalType}
variable {existing changed stored : Row} {resolved : Dict Raw} {provenance : Provenance}
variable {identity : List (String × Value)} {signal : Option ObservationSignal} {before middle db : DB}

theorem storedNumber_of_storeRow {row : Row} (watch : WatchedColumn entity attr column)
    (kept : storeRow db entity row = .ok stored) :
    ColumnType.numeric.bind attr (row.col attr) = .ok (stored.col attr) ∧ StoredNumber attr stored := by
  obtain ⟨member, named⟩ := ownColumn?_some watch.own
  have stores := (storeRow_ok kept).2.2.1 column member
  rw [watch.type, named] at stores
  exact ⟨stores, ColumnType.bind_idem stores⟩

theorem required_given (required : "item_id" ∈ requiredIdentity entity)
    (identified : lacksIdentity entity resolved = false) : ∃ raw, resolved.lookup "item_id" = some raw := by
  have given := List.any_eq_false.mp identified "item_id" required
  cases found : resolved.lookup "item_id" with
  | none => simp [found] at given
  | some raw => exact ⟨raw, rfl⟩

theorem signalKey_item {raw : Raw} {item found : Option Uuid} (given : resolved.lookup "item_id" = some raw)
    (bound : bindUuid "item_id" (.ofRaw raw) = .ok found) (key : signalKey db .item resolved = .ok item) :
    item = found := by
  unfold signalKey at key
  rw [show foreignKey .item = "item_id" from rfl, given] at key
  simp only [except_bind_eq_ok] at key
  obtain ⟨value, again, key⟩ := key
  rw [bound, Except.ok.injEq] at again
  subst again
  cases found with
  | none => exact (except_pure_eq_ok.mp key).symm
  | some id =>
      change (if ((db.canonical .item).find? id).isNone then _ else pure (some id)) = _ at key
      split at key
      · cases key
      · exact (Except.ok.inj key).symm

/-- What an update does to a row of a watched entity. -/
structure WatchedUpdate (attr : String) (existing stored : Row) (signal : Option ObservationSignal) : Prop where
  item : stored.col "item_id" = existing.col "item_id"
  silent : signal = none → StoredNumber attr existing → stored.col attr = existing.col attr
  signalled : ∀ emitted, signal = some emitted → emitted.itemId = existing.uuid? "item_id"

theorem watchedUpdate (watched : signalWatch entity = some (attr, signalType))
    (given : lacksIdentity entity resolved = false)
    (identified : identityValues entity (coerced entity resolved) = .ok identity)
    (only : (before.canonical entity).rows.filter (hasIdentity context.enterpriseId identity) = [existing])
    (diffed : Diffed context entity existing (coerced entity resolved) resolved before signal middle)
    (assigned : assignAttrs entity existing (coerced entity resolved) = .ok changed)
    (kept : storeRow middle entity
      { changed with sourceProvenance := some provenance, observability := .fresh } = .ok stored) :
    WatchedUpdate attr existing stored signal := by
  obtain ⟨column, watch⟩ := signalWatch_column watched
  have assigned := assignAttrs_ok assigned
  obtain ⟨raw, found⟩ := required_given watch.required given
  have itemBound : ColumnType.uuid.bind "item_id" (.ofRaw raw) = .ok (existing.col "item_id") := by
    have bound := (existing_identity identified only).2.2 "item_id" watch.itemIdentity
    rwa [lookup_coerced_key watch.item, found, watch.item.typed] at bound
  refine ⟨?_, ?_, ?_⟩
  · have stores := storeRow_key watch.item kept
    change ColumnType.uuid.bind "item_id" (changed.col "item_id") = _ at stores
    rw [assigned.identity _ watch.itemIdentity, ColumnType.bind_idem itemBound] at stores
    exact (Except.ok.inj stores).symm
  · rintro rfl number
    have stores := (storedNumber_of_storeRow watch kept).1
    have same : changed.col attr = existing.col attr := by
      cases new : (coerced entity resolved).lookup attr with
      | none => exact assigned.absent attr new
      | some value =>
          rw [assigned.given attr value watch.free (by simp [watch.own]) new]
          cases diffed with
          | silent compared => exact (sameValue_true (compared (attr, signalType) watched value new)).symm
    change ColumnType.numeric.bind attr (changed.col attr) = _ at stores
    rw [same, number] at stores
    exact (Except.ok.inj stores).symm
  · rintro emitted rfl
    cases diffed with
    | emitted _ _ item _ _ =>
        refine signalKey_item found ?_ item
        rw [bindUuid, itemBound]
        rfl

end Updates

/-! ## Over a batch -/

theorem mem_record_touched {progress : Progress} {entity : Entity} {created : Bool}
    {signal : Option ObservationSignal} {item : Uuid} :
    item ∈ (progress.record entity created signal).touchedItemIds ↔
      item ∈ progress.touchedItemIds ∨ ∃ emitted, signal = some emitted ∧ emitted.itemId = some item := by
  cases signal with
  | none => simp [Progress.record]
  | some emitted =>
      cases named : emitted.itemId with
      | none => simp [Progress.record, named]
      | some id => simp [Progress.record, named, or_comm, eq_comm]

/-- The rows of before still belong to their items, and have their watched value
unless the run has touched the item. -/
structure Tracked (entity : Entity) (attr : String) (before : DB) (progress : Progress) (db : DB) : Prop where
  rows : ∀ row ∈ (before.canonical entity).rows, ∃ current ∈ (db.canonical entity).rows,
    current.id = row.id ∧ current.col "item_id" = row.col "item_id" ∧
      (current.col attr = row.col attr ∨
        ∀ item, row.uuid? "item_id" = some item → item ∈ progress.touchedItemIds)
  numbers : ∀ row ∈ (db.canonical entity).rows, StoredNumber attr row

section Batches

variable {context : SyncContext} {entity other : Entity} {attr : String} {signalType : SignalType}
variable {resolved : Dict Raw} {provenance : Provenance} {signal : Option ObservationSignal}
variable {before db after : DB} {progress next : Progress}

theorem syncBatch_counted {mappings : List FieldMapping} {records : List Record}
    (ran : syncBatch context mappings records before = .ok progress after)
    (silent : progress.signalsCreated = 0) : progress.touchedItemIds = [] := by
  refine syncBatch_invariant (fun progress _ => progress.signalsCreated = 0 → progress.touchedItemIds = [])
    ?_ (fun _ => rfl) ran silent
  intro other record progress db next after counted step
  cases step with
  | empty _ _ => exact counted
  | skipped _ _ _ => exact counted
  | @upserted _ _ _ signal _ _ _ _ _ _ _ =>
      cases signal with
      | none => exact counted
      | some emitted =>
          intro none
          cases none

theorem Tracked.same (tracked : Tracked entity attr before progress db)
    (rows : (after.canonical entity).rows = (db.canonical entity).rows)
    (touched : ∀ item ∈ progress.touchedItemIds, item ∈ next.touchedItemIds) :
    Tracked entity attr before next after := by
  refine ⟨fun row member => ?_, fun row member => tracked.numbers row (rows ▸ member)⟩
  obtain ⟨current, currentMember, id, item, value⟩ := tracked.rows row member
  exact ⟨current, rows ▸ currentMember, id, item, value.imp_right fun touches item named =>
    touched item (touches item named)⟩

theorem Tracked.upserted (watched : signalWatch entity = some (attr, signalType))
    (tracked : Tracked entity attr before progress db) (given : lacksIdentity other resolved = false)
    (step : Upserted context other resolved provenance db signal after) :
    Tracked entity attr before (progress.record other true signal) after := by
  have touched (item : Uuid) (member : item ∈ progress.touchedItemIds) :
      item ∈ (progress.record other true signal).touchedItemIds := mem_record_touched.mpr (.inl member)
  by_cases same : entity = other
  · subst same
    obtain ⟨column, watch⟩ := signalWatch_column watched
    cases step with
    | @inserted _ row stored _ _ _ kept =>
        refine ⟨fun row member => ?_, fun row member => ?_⟩
        · obtain ⟨current, currentMember, rest⟩ := tracked.rows row member
          rw [DB.setCanonical_self]
          exact ⟨current, List.mem_append_left _ currentMember, rest⟩
        · rw [DB.setCanonical_self] at member
          rcases List.mem_append.mp member with old | new
          · exact tracked.numbers row old
          · rw [List.mem_singleton.mp new]
            exact (storedNumber_of_storeRow watch kept).2
    | @updated _ existing changed stored _ middle identified only diffed assigned kept =>
        have update := watchedUpdate watched given identified only diffed assigned kept
        have member := (existing_identity identified only).1
        have same : stored.id = existing.id := (storeRow_ok kept).2.1.id.trans (assignAttrs_ok assigned).id
        have unsignalled := diffed.canonical
        refine ⟨fun row rowMember => ?_, fun row rowMember => ?_⟩
        · obtain ⟨current, currentMember, id, item, value⟩ := tracked.rows row rowMember
          rw [DB.setCanonical_self, unsignalled]
          by_cases hit : current.id = existing.id
          · obtain rfl := Table.eq_of_key_eq currentMember member hit
            refine ⟨stored, (Table.mem_update_const member same).mpr (.inr rfl), same.trans id,
              update.item.trans item, ?_⟩
            cases signal with
            | none =>
                rw [update.silent rfl (tracked.numbers _ member)]
                exact value.imp_right fun touches item named => touched item (touches item named)
            | some emitted =>
                refine .inr fun touchedItem named => mem_record_touched.mpr (.inr ⟨emitted, rfl, ?_⟩)
                rw [update.signalled emitted rfl, Row.uuid?, item]
                exact named
          · exact ⟨current, (Table.mem_update_const member same).mpr (.inl ⟨currentMember, hit⟩), id, item,
              value.imp_right fun touches item named => touched item (touches item named)⟩
        · rw [DB.setCanonical_self, unsignalled] at rowMember
          rcases (Table.mem_update_const member same).mp rowMember with ⟨old, _⟩ | rfl
          · exact tracked.numbers row old
          · exact (storedNumber_of_storeRow watch kept).2
  · refine tracked.same ?_ touched
    rw [step.written.2 entity same]

theorem syncBatch_tracked {mappings : List FieldMapping} {records : List Record}
    (watched : signalWatch entity = some (attr, signalType))
    (numbers : ∀ row ∈ (before.canonical entity).rows, StoredNumber attr row)
    (ran : syncBatch context mappings records before = .ok progress after) :
    Tracked entity attr before progress after := by
  refine syncBatch_invariant (fun progress db => Tracked entity attr before progress db) ?_ ?_ ran
  · intro other record progress db next after tracked step
    cases step with
    | empty _ _ => exact tracked
    | skipped _ _ _ => exact tracked.same rfl fun _ member => member
    | @upserted _ _ resolution _ _ _ _ _ _ identified stored =>
        have cached : Tracked entity attr before { progress with cache := resolution.cache } db :=
          tracked.same rfl fun _ member => member
        exact cached.upserted watched identified stored
  · exact ⟨fun row member => ⟨row, member, rfl, rfl, .inl rfl⟩, numbers⟩

end Batches

end SmartProcurement.Integration
