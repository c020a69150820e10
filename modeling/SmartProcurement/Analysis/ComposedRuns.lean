import SmartProcurement.Analysis.FittingAggregates
import SmartProcurement.Integration.ScopedRecompute

namespace SmartProcurement.Analysis

open Relational Transaction Transition Numeric Observation Integration

/-! # Recomputations of several scopes

A recomputation sets the item-level rows of its items to what the domain rows
determine, and touches nothing else.  Doing so twice, or in another order, comes
to the same table.
-/

/-- A call of `recompute_aggregates` for some items. -/
structure Recomputation where
  now : Timestamp
  itemIds : List Uuid

namespace Recomputation

def perform (run : Recomputation) (enterpriseId : Uuid) : Session (List SkuAggregate) :=
  recomputeAggregates run.now enterpriseId (some run.itemIds)

/-- The rows that a call returns: one for each of its items with trustworthy stock. -/
structure Returns (run : Recomputation) (enterpriseId : Uuid) (before after : DB) (results : List SkuAggregate) : Prop where
  items : ∀ itemId, itemId ∈ results.map (·.itemId) ↔
    itemId ∈ run.itemIds ∧ ownsItem enterpriseId before itemId ∧ hasTrustedStock before itemId
  once : (results.map (·.itemId)).Nodup
  current : ∀ row ∈ results, itemRows after row.itemId = [row]

/-- A call that returns these rows and leaves at most one item-level row per item. -/
def Step (enterpriseId : Uuid) (before : DB) (run : Recomputation) (after : DB) : Prop :=
  ∃ results, run.perform enterpriseId before = .ok results after ∧ run.Returns enterpriseId before after results ∧
    SingleRows after

end Recomputation

/-- The items of all calls. -/
def union (runs : List Recomputation) : List Uuid := runs.flatMap (·.itemIds)

/-- An aggregate row apart from its id and `computed_at`.  Its `created_at` and `updated_at`
are the database's own timestamps and, like `computed_at`, are left out. -/
def contents (row : SkuAggregate) : SkuAggregate := { row with id := 0, computedAt := 0 }

def SameRows (left right : DB) : Prop :=
  (left.skuAggregate.rows.map contents).Perm (right.skuAggregate.rows.map contents)

/-- In every order the calls return and leave the table of one call for all their items. -/
def Compose (enterpriseId : Uuid) (runs : List Recomputation) (db : DB) : Prop :=
  ∀ ordered, ordered.Perm runs → ∀ now, ∃ after rows whole,
    Run (fun before run after => run.Step enterpriseId before after) db ordered after ∧
    (Recomputation.mk now (union runs)).perform enterpriseId db = .ok rows whole ∧ SameRows after whole ∧
    ∀ itemId ∉ union runs, leaves itemId db after

/-- The values of every item in scope fit.  No calls at all have the empty list as their
union, which stands for the whole enterprise: there the rows have to be up to date. -/
structure Composable (enterpriseId : Uuid) (runs : List Recomputation) (db : DB) : Prop where
  moderate : ∀ itemId ∈ itemsInScope enterpriseId (some (union runs)) db, hasTrustedStock db itemId → Moderate db itemId
  current : runs = [] → ∀ itemId ∈ itemsInScope enterpriseId none db, UpToDate itemId db

/-! ## Tables by item -/

section Tables

variable {left right : DB} {itemId : Uuid} {rows : List SkuAggregate}

/-- The rows of a warehouse stay as they are. -/
def leavesWarehouses (before after : DB) : Prop :=
  ∀ select : SkuAggregate → Bool, (∀ row, select row = true → row.warehouseId ≠ none) →
    after.skuAggregate.rows.filter select = before.skuAggregate.rows.filter select

def itemContents (db : DB) (itemId : Uuid) : List SkuAggregate := (itemRows db itemId).map contents

theorem filter_contents (select : SkuAggregate → Bool) (blind : ∀ row, select (contents row) = select row)
    (rows : List SkuAggregate) : (rows.map contents).filter select = (rows.filter select).map contents := by
  rw [List.filter_map]
  exact congrArg _ (List.filter_congr fun row _ => blind row)

/-- Tables with the same rows for each warehouse and, item by item, without one are the same. -/
theorem sameRows_iff (warehouses : leavesWarehouses left right) :
    SameRows left right ↔ ∀ itemId, (itemContents left itemId).Perm (itemContents right itemId) := by
  constructor
  · intro same itemId
    have rows := same.filter (itemLevel itemId)
    rwa [filter_contents _ fun _ => rfl, filter_contents _ fun _ => rfl] at rows
  · intro items
    refine List.perm_iff_count.mpr fun row => ?_
    cases warehouse : row.warehouseId with
    | none =>
        have listed : itemLevel row.itemId row = true := by simp [itemLevel, warehouse]
        have count := (items row.itemId).count_eq row
        rw [itemContents, itemContents, itemRows, itemRows, ← filter_contents _ fun _ => rfl,
          ← filter_contents _ fun _ => rfl, List.count_filter listed, List.count_filter listed] at count
        exact count
    | some place =>
        let placed : SkuAggregate → Bool := fun row => row.warehouseId.isSome
        have listed : placed row = true := by simp [placed, warehouse]
        have kept := warehouses placed fun other some none => by simp [placed, none] at some
        have count (db : DB) : (db.skuAggregate.rows.map contents).count row =
            ((db.skuAggregate.rows.filter placed).map contents).count row := by
          rw [← filter_contents placed fun _ => rfl, List.count_filter listed]
        rw [count, count, kept]

theorem leavesWarehouses.trans {middle : DB} (first : leavesWarehouses left middle) (second : leavesWarehouses middle right) :
    leavesWarehouses left right :=
  fun select selects => (second select selects).trans (first select selects)

theorem itemContents_of_leaves (same : leaves itemId left right) : itemContents right itemId = itemContents left itemId := by
  rw [itemContents, same.itemRows, itemContents]

end Tables

/-! ## What one item's recomputation writes -/

/-- The enterprise of the item's row, or the one that gets a new row. -/
def owner (enterpriseId : Uuid) (rows : List SkuAggregate) : Uuid := (rows.head?.map (·.enterpriseId)).getD enterpriseId

/-- The values that the item's row is to have. -/
def storedAggregate (db : DB) (itemId : Uuid) : Option AggregateValues :=
  match aggregateValues db itemId with
  | .ok (some values) => (storedValues values).toOption
  | _ => none

def written (enterpriseId itemId : Uuid) (rows : List SkuAggregate) : Option AggregateValues → List SkuAggregate
  | none => rows
  | some values => [⟨0, owner enterpriseId rows, itemId, none, values, 0⟩]

/-- Writing a second time changes nothing. -/
theorem written_written (enterpriseId itemId : Uuid) (rows : List SkuAggregate) (values : Option AggregateValues) :
    written enterpriseId itemId (written enterpriseId itemId rows values) values = written enterpriseId itemId rows values := by
  cases values <;> rfl

/-- The items have what is determined for them, and nothing else is touched. -/
structure Refreshed (enterpriseId : Uuid) (ids : List Uuid) (before after : DB) : Prop where
  only : aggregatesOnly.rel before after
  inside : ∀ itemId ∈ ids, itemContents after itemId =
    written enterpriseId itemId (itemContents before itemId) (storedAggregate before itemId)
  outside : ∀ itemId ∉ ids, leaves itemId before after
  warehouses : leavesWarehouses before after

/-- What the recomputation of one item comes to. -/
structure Wrote (enterpriseId itemId : Uuid) (before after : DB) (result : Option SkuAggregate) : Prop where
  refreshed : Refreshed enterpriseId [itemId] before after
  returned : result.isSome = true ↔ hasTrustedStock before itemId
  current : ∀ row ∈ result, itemRows after itemId = [row]

section Writes

variable {now : Timestamp} {enterpriseId itemId : Uuid} {before after : DB} {values : AggregateValues} {row : SkuAggregate}

theorem upsertAggregate_writes (ran : upsertAggregate now enterpriseId itemId values before = .ok row after) :
    leavesWarehouses before after ∧ row ∈ after.skuAggregate.rows ∧
      row.itemId = itemId ∧ row.warehouseId = none ∧ row.enterpriseId = owner enterpriseId (itemContents before itemId) := by
  simp only [upsertAggregate, bind_eq_ok, scalarOrNone_eq_ok, lift_eq_ok] at ran
  obtain ⟨existing, _, ⟨single, rfl⟩, stored, _, ⟨_, rfl⟩, ran⟩ := ran
  have rows := scalarOneOrNone_ok single
  cases existing with
  | none =>
      have missing : itemRows before itemId = [] := by simpa using rows
      simp only [bind_eq_ok, read_eq_ok, write_eq_ok, pure_eq_ok] at ran
      obtain ⟨_, _, ⟨rfl, rfl⟩, _, _, rfl, rfl, rfl⟩ := ran
      refine ⟨fun select selects => ?_, by simp, rfl, rfl, by simp [owner, itemContents, missing, Table.newRow, Keyed.withKey]⟩
      rw [Table.filter_insert, if_neg fun selected => selects _ selected rfl, List.append_nil]
  | some old =>
      have found : itemRows before itemId = [old] := by simpa using rows
      obtain ⟨member, isItem, noWarehouse⟩ := mem_itemRows.mp (found ▸ List.mem_singleton_self old)
      simp only [bind_eq_ok, write_eq_ok, pure_eq_ok] at ran
      obtain ⟨_, _, rfl, rfl, rfl⟩ := ran
      refine ⟨fun select selects => Table.filter_updateWhere_of_not fun row rowMember hit => ?_,
        Table.mem_update.mpr (.inl ⟨old, member, rfl, rfl⟩), isItem, noWarehouse,
          by simp [owner, itemContents, found, contents, refreshed]⟩
      have same : row = old := Table.eq_of_key_eq rowMember member (beq_iff_eq.mp hit)
      subst same
      have skipped (row : SkuAggregate) (level : row.warehouseId = none) : select row = false :=
        Bool.eq_false_iff.mpr fun selected => selects row selected level
      exact ⟨skipped _ noWarehouse, skipped _ noWarehouse⟩

theorem storedAggregate_of_aggregatesOnly (only : aggregatesOnly.rel before after) (itemId : Uuid) :
    storedAggregate after itemId = storedAggregate before itemId := by
  rw [storedAggregate, aggregateValues_of_aggregatesOnly only]
  rfl

theorem Refreshed.refl (enterpriseId : Uuid) (db : DB) : Refreshed enterpriseId [] db db :=
  ⟨aggregatesOnly.refl db, by simp, fun _ _ _ _ => rfl, fun _ _ => rfl⟩

/-- Settling some items and then some more settles them all. -/
theorem Refreshed.trans {first second : List Uuid} {middle : DB} (earlier : Refreshed enterpriseId first before middle)
    (later : Refreshed enterpriseId second middle after) : Refreshed enterpriseId (first ++ second) before after where
  only := aggregatesOnly.trans earlier.only later.only
  inside itemId member := by
    have same := storedAggregate_of_aggregatesOnly earlier.only itemId
    by_cases inSecond : itemId ∈ second
    · rw [later.inside itemId inSecond, same]
      by_cases inFirst : itemId ∈ first
      · rw [earlier.inside itemId inFirst, written_written]
      · rw [itemContents_of_leaves (earlier.outside itemId inFirst)]
    · have inFirst := (List.mem_append.mp member).resolve_right inSecond
      rw [itemContents_of_leaves (later.outside itemId inSecond), earlier.inside itemId inFirst]
  outside itemId outside := by
    rw [List.mem_append, not_or] at outside
    exact leaves.trans (earlier.outside itemId outside.1) (later.outside itemId outside.2)
  warehouses := earlier.warehouses.trans later.warehouses

theorem Refreshed.single {ids : List Uuid} (refreshed : Refreshed enterpriseId ids before after) (single : SingleRows before) :
    SingleRows after := by
  have short (db : DB) (itemId : Uuid) : (itemContents db itemId).length = (itemRows db itemId).length := List.length_map _
  intro itemId
  rw [← short after]
  by_cases inside : itemId ∈ ids
  · rw [refreshed.inside itemId inside]
    cases storedAggregate before itemId with
    | none => exact (short before itemId).trans_le (single itemId)
    | some values => exact le_rfl
  · rw [itemContents_of_leaves (refreshed.outside itemId inside), short]
    exact single itemId

theorem recomputeOne_wrote {result : Option SkuAggregate}
    (ran : recomputeOne now enterpriseId itemId before = .ok result after) :
    Wrote enterpriseId itemId before after result := by
  have others (other : Uuid) (outside : other ∉ [itemId]) : leaves other before after :=
    (recomputeOne_ok ran).2.1.leaves (by simpa using outside)
  simp only [recomputeOne, bind_eq_ok, read_eq_ok, lift_eq_ok] at ran
  obtain ⟨_, _, ⟨rfl, rfl⟩, values, _, ⟨computed, rfl⟩, ran⟩ := ran
  have derived : hasTrustedStock before itemId ↔ values ≠ none := by
    rw [hasTrustedStock_iff, ← not_iff_not, not_not, not_not, ← aggregateValues_eq_none, computed, Except.ok.injEq]
  cases values with
  | none =>
      obtain ⟨rfl, rfl⟩ := pure_eq_ok.mp ran
      refine ⟨⟨aggregatesOnly.refl _, ?_, others, fun _ _ => rfl⟩, by simp [derived], by simp⟩
      simp [storedAggregate, computed, written]
  | some values =>
      simp only [bind_eq_ok, pure_eq_ok] at ran
      obtain ⟨row, _, ran, rfl, rfl⟩ := ran
      obtain ⟨stored, kept, only, _, upserted⟩ := upsertAggregate_ok ran
      obtain ⟨warehouses, member, isItem, level, ofOwner⟩ := upsertAggregate_writes ran
      obtain ⟨current, rows, isStored, _⟩ := upserted.current
      have same : row = current := by simpa [rows] using mem_itemRows.mpr ⟨member, isItem, level⟩
      subst same
      have values : storedAggregate before itemId = some stored := by
        simp only [storedAggregate, computed, kept]
        rfl
      refine ⟨⟨only, ?_, others, warehouses⟩, by simp [derived], by simpa using rows⟩
      intro item member
      rw [List.mem_singleton] at member
      rw [member, itemContents, rows, values]
      simp [written, contents, isItem, level, isStored, ofOwner]

theorem hasTrustedStock_of_aggregatesOnly (only : aggregatesOnly.rel before after) (itemId : Uuid) :
    hasTrustedStock after itemId ↔ hasTrustedStock before itemId := by
  obtain ⟨_, rfl⟩ := only
  exact .rfl

end Writes

/-! ## What a call writes and returns -/

structure Swept (enterpriseId : Uuid) (ids : List Uuid) (before after : DB) (results : List SkuAggregate) : Prop where
  refreshed : Refreshed enterpriseId ids before after
  items : ∀ itemId, itemId ∈ results.map (·.itemId) ↔ itemId ∈ ids ∧ hasTrustedStock before itemId
  once : (results.map (·.itemId)).Nodup
  current : ∀ row ∈ results, itemRows after row.itemId = [row]

section Calls

variable {now : Timestamp} {enterpriseId itemId : Uuid} {itemIds : Option (List Uuid)} {ids : List Uuid} {before after : DB}
variable {results final : List SkuAggregate}

theorem sweep_swept (distinct : ids.Nodup) (ran : ids.foldlM (sweep now enterpriseId) results before = .ok final after) :
    ∃ added, final = results ++ added ∧ Swept enterpriseId ids before after added := by
  induction ids generalizing results before with
  | nil =>
      obtain ⟨rfl, rfl⟩ := pure_eq_ok.mp ran
      exact ⟨[], by simp, .refl _ _, by simp, by simp, by simp⟩
  | cons first rest ih =>
      simp only [List.foldlM_cons, sweep, bind_eq_ok, pure_eq_ok] at ran
      obtain ⟨_, middle, ⟨result, _, one, rfl, rfl⟩, ran⟩ := ran
      obtain ⟨fresh, distinct⟩ := List.nodup_cons.mp distinct
      have wrote := recomputeOne_wrote one
      obtain ⟨added, rfl, swept⟩ := ih distinct ran
      have isFirst (row : SkuAggregate) (isResult : row ∈ result) : row.itemId = first :=
        (mem_itemRows.mp (wrote.current row isResult ▸ List.mem_singleton_self row)).2.1
      refine ⟨result.toList ++ added, by simp, wrote.refreshed.trans swept.refreshed, ?_, ?_, ?_⟩
      · intro itemId
        rw [List.map_append, List.mem_append, swept.items, hasTrustedStock_of_aggregatesOnly wrote.refreshed.only, List.mem_cons,
          or_and_right]
        refine or_congr_left ?_
        cases result with
        | none => simpa using fun same => same ▸ (not_iff_not.mpr wrote.returned).mp (by simp)
        | some row =>
            have trusted := wrote.returned.mp rfl
            simp only [Option.toList_some, List.map_singleton, List.mem_singleton, isFirst row rfl]
            exact ⟨fun same => ⟨same, same ▸ trusted⟩, And.left⟩
      · rw [List.map_append, List.nodup_append]
        refine ⟨by cases result <;> simp, swept.once, ?_⟩
        intro itemId earlier other later same
        obtain ⟨row, isResult, rfl⟩ := List.mem_map.mp earlier
        have inRest := ((swept.items other).mp later).1
        rw [← same, isFirst row (by simpa using isResult)] at inRest
        exact fresh inRest
      · intro row member
        rcases List.mem_append.mp member with isResult | later
        · have isResult : row ∈ result := by simpa using isResult
          rw [isFirst row isResult, leaves.itemRows (swept.refreshed.outside first fresh)]
          exact wrote.current row isResult
        · exact swept.current row later

theorem recomputeAggregates_swept (ran : recomputeAggregates now enterpriseId itemIds before = .ok results after) :
    Swept enterpriseId (itemsInScope enterpriseId itemIds before) before after results := by
  simp only [recomputeAggregates, bind_eq_ok, read_eq_ok] at ran
  obtain ⟨_, _, ⟨rfl, rfl⟩, ran⟩ := ran
  obtain ⟨added, rfl, swept⟩ := sweep_swept (itemsInScope_nodup ..) ran
  exact swept

theorem mem_itemsInScope_some {scope : List Uuid} (nonempty : scope ≠ []) :
    itemId ∈ itemsInScope enterpriseId (some scope) before ↔ itemId ∈ scope ∧ ownsItem enterpriseId before itemId := by
  cases scope with
  | nil => exact absurd rfl nonempty
  | cons first rest =>
      rw [and_comm, ownsItem, ← mem_itemsInScope_none]
      simp only [itemsInScope, List.mem_filter, decide_eq_true_eq]

end Calls

/-! ## Which calls return -/

section Returning

variable {now : Timestamp} {enterpriseId itemId : Uuid} {itemIds : Option (List Uuid)} {db after : DB}
variable {results : List SkuAggregate}

theorem moderate_of_stored {values stored : AggregateValues} (admitted : Admitted db itemId)
    (computed : aggregateValues db itemId = .ok (some values)) (kept : storedValues values = .ok stored) : Moderate db itemId := by
  have stock : trustedRows db .stockLevel itemId ≠ [] := fun none => by
    rw [aggregateValues_eq_none.mpr none] at computed
    cases computed
  rw [aggregateValues_finite admitted stock] at computed
  cases computed
  exact (fits_iff admitted).mp ((storedValues_returns (finiteValues_quiet db itemId)).mp ⟨stored, kept⟩)

theorem writable_iff (admitted : Admitted db itemId) (trusted : hasTrustedStock db itemId) :
    Writable db itemId ↔ Moderate db itemId := by
  constructor
  · rintro ⟨values, stored, computed, kept⟩
    exact moderate_of_stored admitted computed kept
  · intro moderate
    obtain ⟨stored, kept⟩ := (storedValues_returns (finiteValues_quiet db itemId)).mpr ((fits_iff admitted).mpr moderate)
    exact ⟨_, stored, aggregateValues_finite admitted (hasTrustedStock_iff.mp trusted), kept⟩

/-- A call on finite numbers returns exactly if the values of its items fit. -/
theorem recomputeAggregates_returns_iff (single : SingleRows db) (admitted : ∀ itemId, Admitted db itemId) :
    (∃ results after, recomputeAggregates now enterpriseId itemIds db = .ok results after) ↔
      ∀ itemId ∈ itemsInScope enterpriseId itemIds db, hasTrustedStock db itemId → Moderate db itemId :=
  (exists_recomputation_iff single).trans
    (forall₃_congr fun itemId _ trusted => writable_iff (admitted itemId) trusted)

end Returning

/-! ## Several calls -/

section Several

variable {enterpriseId itemId : Uuid} {runs ordered : List Recomputation} {run : Recomputation} {db after whole : DB}

/-- The items that a call recomputes. -/
def Recomputation.ids (run : Recomputation) (enterpriseId : Uuid) (db : DB) : List Uuid :=
  itemsInScope enterpriseId (some run.itemIds) db

theorem mem_ids (nonempty : ∀ run ∈ runs, run.itemIds ≠ []) (called : runs ≠ []) :
    itemId ∈ runs.flatMap (·.ids enterpriseId db) ↔ itemId ∈ itemsInScope enterpriseId (some (union runs)) db := by
  have union_ne : union runs ≠ [] := by
    obtain ⟨run, member⟩ := List.exists_mem_of_ne_nil runs called
    obtain ⟨itemId, listed⟩ := List.exists_mem_of_ne_nil _ (nonempty run member)
    exact List.ne_nil_of_mem (List.mem_flatMap.mpr ⟨run, member, listed⟩)
  rw [mem_itemsInScope_some union_ne, union]
  simp only [List.mem_flatMap, Recomputation.ids]
  constructor
  · rintro ⟨run, member, inScope⟩
    obtain ⟨listed, owned⟩ := (mem_itemsInScope_some (nonempty run member)).mp inScope
    exact ⟨⟨run, member, listed⟩, owned⟩
  · rintro ⟨⟨run, member, listed⟩, owned⟩
    exact ⟨run, member, (mem_itemsInScope_some (nonempty run member)).mpr ⟨listed, owned⟩⟩

theorem Recomputation.step (nonempty : run.itemIds ≠ []) (single : SingleRows db) (admitted : ∀ itemId, Admitted db itemId)
    (moderate : ∀ itemId ∈ run.ids enterpriseId db, hasTrustedStock db itemId → Moderate db itemId) :
    ∃ after, run.Step enterpriseId db after ∧ Refreshed enterpriseId (run.ids enterpriseId db) db after := by
  obtain ⟨results, after, ran⟩ : ∃ results after,
      recomputeAggregates run.now enterpriseId (some run.itemIds) db = .ok results after :=
    (recomputeAggregates_returns_iff single admitted).mpr moderate
  have swept := recomputeAggregates_swept ran
  refine ⟨after, ⟨results, ran, ⟨fun itemId => ?_, swept.once, swept.current⟩, swept.refreshed.single single⟩, swept.refreshed⟩
  rw [swept.items, mem_itemsInScope_some nonempty, and_assoc]

theorem admitted_of_aggregatesOnly (only : aggregatesOnly.rel db after) (admitted : Admitted db itemId) :
    Admitted after itemId := by
  obtain ⟨_, rfl⟩ := only
  exact ⟨admitted.stock, admitted.consumption, admitted.prices, admitted.orders⟩

theorem moderate_of_aggregatesOnly (only : aggregatesOnly.rel db after) (moderate : Moderate db itemId) :
    Moderate after itemId := by
  obtain ⟨_, rfl⟩ := only
  exact ⟨moderate.cover, moderate.change⟩

theorem itemsInScope_of_aggregatesOnly (only : aggregatesOnly.rel db after) (itemIds : Option (List Uuid)) :
    itemsInScope enterpriseId itemIds after = itemsInScope enterpriseId itemIds db := by
  obtain ⟨_, rfl⟩ := only
  rfl

/-- Calls that return one by one also do so one after the other. -/
theorem run_of_moderate (nonempty : ∀ run ∈ runs, run.itemIds ≠ []) (single : SingleRows db)
    (admitted : ∀ itemId, Admitted db itemId)
    (moderate : ∀ itemId ∈ runs.flatMap (·.ids enterpriseId db), hasTrustedStock db itemId → Moderate db itemId) :
    ∃ after, Run (fun before run after => run.Step enterpriseId before after) db runs after ∧
      Refreshed enterpriseId (runs.flatMap (·.ids enterpriseId db)) db after := by
  induction runs using List.reverseRecOn with
  | nil => exact ⟨db, .start, .refl enterpriseId db⟩
  | append_singleton earlier run ih =>
      rw [List.flatMap_append] at moderate ⊢
      obtain ⟨middle, performed, refreshed⟩ := ih (fun run member => nonempty run (List.mem_append_left _ member))
        fun itemId member => moderate itemId (List.mem_append_left _ member)
      -- the domain rows are the same in every state of the run
      have only := refreshed.only
      have ids : run.ids enterpriseId middle = run.ids enterpriseId db := itemsInScope_of_aggregatesOnly only _
      obtain ⟨after, step, later⟩ := run.step (nonempty run (by simp)) (refreshed.single single)
        (fun itemId => admitted_of_aggregatesOnly only (admitted itemId)) fun itemId member trusted => by
          rw [ids] at member
          rw [hasTrustedStock_of_aggregatesOnly only] at trusted
          exact moderate_of_aggregatesOnly only (moderate itemId (by simp [member]) trusted)
      refine ⟨after, performed.next step, ?_⟩
      rw [List.flatMap_singleton, ← ids]
      exact refreshed.trans later

theorem storedAggregate_eq_some {stored : AggregateValues} : storedAggregate db itemId = some stored ↔
    ∃ values, aggregateValues db itemId = .ok (some values) ∧ storedValues values = .ok stored := by
  unfold storedAggregate
  split
  · next values computed =>
    simp only [computed, Except.ok.injEq, Option.some.injEq, exists_eq_left']
    cases storedValues values <;> simp [Except.toOption]
  · next other =>
    simp only [reduceCtorEq, false_iff, not_exists, not_and]
    exact fun values computed => absurd computed (other values)

theorem upToDate_iff : UpToDate itemId db ↔
    written enterpriseId itemId (itemContents db itemId) (storedAggregate db itemId) = itemContents db itemId := by
  constructor
  · intro current
    cases derived : storedAggregate db itemId with
    | none => rfl
    | some stored =>
        obtain ⟨values, computed, kept⟩ := storedAggregate_eq_some.mp derived
        obtain ⟨row, rows, same⟩ := current values stored computed kept
        obtain ⟨_, isItem, level⟩ := mem_itemRows.mp (rows ▸ List.mem_singleton_self row)
        simp [written, itemContents, rows, owner, contents, same, isItem, level]
  · intro same values stored computed kept
    rw [storedAggregate_eq_some.mpr ⟨values, computed, kept⟩] at same
    obtain ⟨row, rows, isRow⟩ := List.map_eq_singleton_iff.mp same.symm
    exact ⟨row, rows, (congrArg (·.values) isRow :)⟩

theorem compose_iff (nonempty : ∀ run ∈ runs, run.itemIds ≠ []) (single : SingleRows db)
    (admitted : ∀ itemId, Admitted db itemId) : Compose enterpriseId runs db ↔ Composable enterpriseId runs db := by
  constructor
  · intro composes
    obtain ⟨after, rows, whole, performed, ran, same, _⟩ := composes runs (.refl runs) 0
    refine ⟨(recomputeAggregates_returns_iff single admitted).mp ⟨rows, whole, ran⟩, fun none itemId owned => ?_⟩
    subst none
    obtain rfl := performed.eq_of_nil
    have refreshed := (recomputeAggregates_swept ran).refreshed
    have perm := (sameRows_iff refreshed.warehouses).mp same itemId
    rw [refreshed.inside itemId owned] at perm
    refine upToDate_iff.mpr (?_ : written enterpriseId itemId _ _ = _)
    cases derived : storedAggregate after itemId with
    | none => rfl
    | some values =>
        rw [derived] at perm
        exact (List.perm_singleton.mp perm).symm
  · intro composable ordered perm now
    have members (itemId : Uuid) : itemId ∈ ordered.flatMap (·.ids enterpriseId db) ↔
      itemId ∈ runs.flatMap (·.ids enterpriseId db) :=
      (perm.flatMap_right _).mem_iff
    have moderate : ∀ itemId ∈ ordered.flatMap (·.ids enterpriseId db), hasTrustedStock db itemId → Moderate db itemId := by
      intro itemId member
      rw [members] at member
      have called : runs ≠ [] := by
        rintro rfl
        cases member
      exact composable.moderate itemId ((mem_ids nonempty called).mp member)
    obtain ⟨after, performed, refreshed⟩ :=
      run_of_moderate (fun run member => nonempty run (perm.mem_iff.mp member)) single admitted moderate
    obtain ⟨rows, whole, ran⟩ : ∃ rows whole, recomputeAggregates now enterpriseId (some (union runs)) db = .ok rows whole :=
      (recomputeAggregates_returns_iff single admitted).mpr composable.moderate
    have atOnce := (recomputeAggregates_swept ran).refreshed
    refine ⟨after, rows, whole, performed, ran, (sameRows_iff fun select selects =>
      (atOnce.warehouses select selects).trans (refreshed.warehouses select selects).symm).mpr fun itemId => ?_,
      fun itemId outside => ?_⟩
    · refine .of_eq ?_
      by_cases called : runs = []
      · subst called
        obtain rfl := perm.eq_nil
        obtain rfl := performed.eq_of_nil
        by_cases owned : itemId ∈ itemsInScope enterpriseId none after
        · rw [atOnce.inside itemId owned, upToDate_iff.mp (composable.current rfl itemId owned)]
        · rw [itemContents_of_leaves (atOnce.outside itemId owned)]
      · by_cases inside : itemId ∈ ordered.flatMap (·.ids enterpriseId db)
        · rw [refreshed.inside itemId inside, atOnce.inside itemId ((mem_ids nonempty called).mp ((members itemId).mp inside))]
        · rw [itemContents_of_leaves (refreshed.outside itemId inside),
            itemContents_of_leaves (atOnce.outside itemId fun inScope =>
              inside ((members itemId).mpr ((mem_ids nonempty called).mpr inScope)))]
    · refine refreshed.outside itemId fun inside => outside ?_
      obtain ⟨run, member, inScope⟩ := List.mem_flatMap.mp ((members itemId).mp inside)
      exact List.mem_flatMap.mpr ⟨run, member, ((mem_itemsInScope_some (nonempty run member)).mp inScope).1⟩

end Several

theorem hoardedItem_single (stock used : ℚ) : SingleRows (hoardedItem stock used) := fun itemId => by
  simp [itemRows, hoardedItem, default]

theorem compose_hoardedItem : Compose 1 [⟨10, [1, 7]⟩, ⟨20, [1]⟩] (hoardedItem 1000 (1 / 10000)) := by
  refine (compose_iff (by simp) (hoardedItem_single _ _)
    (hoardedItem_admitted ⟨by decide +kernel, by norm_num⟩ ⟨by decide +kernel, by norm_num⟩)).mpr
      ⟨fun itemId inScope _ => ?_, by simp⟩
  have isItem : ∀ itemId ∈ itemsInScope 1 (some (union [⟨10, [1, 7]⟩, ⟨20, [1]⟩])) (hoardedItem 1000 (1 / 10000)), itemId = 1 := by
    decide +kernel
  obtain rfl := isItem itemId inScope
  exact ⟨by decide +kernel, nofun⟩

/-- A cover that overflows ends the only call. -/
theorem overflowing_call_does_not_return :
    SingleRows (hoardedItem (10 ^ 9) (1 / 10000)) ∧ (∀ itemId, Admitted (hoardedItem (10 ^ 9) (1 / 10000)) itemId) ∧
      ¬ Compose 1 [⟨0, [1]⟩] (hoardedItem (10 ^ 9) (1 / 10000)) := by
  refine ⟨hoardedItem_single _ _,
    hoardedItem_admitted ⟨by decide +kernel, by norm_num⟩ ⟨by decide +kernel, by norm_num⟩, fun composes => ?_⟩
  obtain ⟨_, rows, whole, _, ran, _⟩ := composes _ (.refl _) 0
  have raises : (transact ((Recomputation.mk 0 (union [⟨0, [1]⟩])).perform 1) (hoardedItem (10 ^ 9) (1 / 10000))).1 =
      .error (.database (.numericOverflow "days_of_cover")) := by decide +kernel
  rw [transact_of_ok ran] at raises
  cases raises

end SmartProcurement.Analysis
