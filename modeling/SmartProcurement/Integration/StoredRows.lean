import SmartProcurement.Integration.Identities

namespace SmartProcurement.Integration

open Relational Transaction

/-! # Rows that are stored again

What a flush stores it stores again unchanged, as long as the rows that it refers
to are still there.
-/

/-- A bound value that the constraints of its column allow. -/
structure Admitted (db : DB) (column : Column) (value : Value) : Prop where
  filled : value.isNull = true → column.nullable = true
  allowed : (checkAllowed column value : Except Error Unit) = .ok ()
  refers : (checkReference db column value : Except Error Unit) = .ok ()

section Columns

variable {db : DB} {entity : Entity} {row stored : Row} {column : Column} {list : List Column}

theorem storeColumn_eq_ok : storeColumn db row column = .ok stored ↔
    ∃ value, column.type.bind column.name (row.col column.name) = .ok value ∧ Admitted db column value ∧
      stored = row.set column.name value := by
  simp only [storeColumn, except_bind_eq_ok]
  constructor
  · rintro ⟨value, bound, kept⟩
    split at kept
    · cases kept
    · next filled =>
      simp only [except_bind_eq_ok, except_pure_eq_ok] at kept
      obtain ⟨_, allowed, _, refers, rfl⟩ := kept
      exact ⟨value, bound, ⟨by simpa using filled, allowed, refers⟩, rfl⟩
  · rintro ⟨value, bound, admitted, rfl⟩
    refine ⟨value, bound, ?_⟩
    rw [if_neg (by simpa using admitted.filled)]
    exact except_bind_eq_ok.mpr ⟨_, admitted.allowed, except_bind_eq_ok.mpr ⟨_, admitted.refers, rfl⟩⟩

theorem storeColumns_admitted (distinct : (list.map (·.name)).Nodup)
    (kept : list.foldlM (storeColumn db) row = .ok stored) :
    ∀ column ∈ list, Admitted db column (stored.col column.name) := by
  induction list generalizing row with
  | nil => exact fun _ member => absurd member List.not_mem_nil
  | cons first rest ih =>
      rw [List.foldlM_cons] at kept
      obtain ⟨next, head, kept⟩ := except_bind_eq_ok.mp kept
      obtain ⟨value, _, admitted, rfl⟩ := storeColumn_eq_ok.mp head
      obtain ⟨fresh, apart⟩ := List.nodup_cons.mp distinct
      have others := (storeColumns_ok apart kept).2.2
      intro column member
      rcases List.mem_cons.mp member with rfl | member
      · rw [others _ fresh, Row.set_col_self]
        exact admitted
      · exact ih apart kept column member

theorem storeRow_admitted (kept : storeRow db entity row = .ok stored) :
    ∀ column ∈ ownColumns entity, Admitted db column (stored.col column.name) := by
  unfold storeRow at kept
  split at kept
  · cases kept
  · simp only [except_bind_eq_ok] at kept
    obtain ⟨columns, stores, kept⟩ := kept
    split at kept
    · cases kept
    · obtain rfl := except_pure_eq_ok.mp kept
      exact storeColumns_admitted (ownColumns_nodup entity) stores

theorem SameFrame.eq (frame : SameFrame row stored) (columns : stored.col = row.col) : stored = row := by
  obtain ⟨id, enterprise, created, provenance, observability⟩ := frame
  cases row
  cases stored
  simp only [Row.mk.injEq]
  exact ⟨id, enterprise, created, provenance, observability, columns⟩

theorem storeColumns_of_bound (distinct : (list.map (·.name)).Nodup) (frame : SameFrame row stored)
    (binds : ∀ column ∈ list, column.type.bind column.name (row.col column.name) = .ok (stored.col column.name) ∧
      Admitted db column (stored.col column.name))
    (others : ∀ name, name ∉ list.map (·.name) → stored.col name = row.col name) :
    list.foldlM (storeColumn db) row = .ok stored := by
  induction list generalizing row with
  | nil => exact except_pure_eq_ok.mpr (frame.eq (funext fun name => others name List.not_mem_nil)).symm
  | cons first rest ih =>
      obtain ⟨bound, admitted⟩ := binds first List.mem_cons_self
      obtain ⟨fresh, distinct⟩ := List.nodup_cons.mp distinct
      rw [List.foldlM_cons]
      refine except_bind_eq_ok.mpr ⟨_, storeColumn_eq_ok.mpr ⟨_, bound, admitted, rfl⟩, ih distinct ?_ ?_ ?_⟩
      · exact ⟨frame.id, frame.enterprise, frame.created, frame.provenance, frame.observability⟩
      · intro column member
        have different : column.name ≠ first.name := fun same =>
          fresh (List.mem_map.mpr ⟨column, member, same⟩)
        rw [Row.set_col_other _ _ different]
        exact binds column (List.mem_cons_of_mem _ member)
      · intro name outside
        by_cases same : name = first.name
        · rw [same, Row.set_col_self]
        · rw [Row.set_col_other _ _ same]
          exact others name (by simp [same, outside])

theorem storeRow_of_bound (known : row.enterpriseId ∈ db.enterprise) (frame : SameFrame row stored)
    (binds : ∀ column ∈ ownColumns entity,
      column.type.bind column.name (row.col column.name) = .ok (stored.col column.name) ∧
        Admitted db column (stored.col column.name))
    (others : ∀ name, name ∉ (ownColumns entity).map (·.name) → stored.col name = row.col name)
    (unique : duplicates db entity stored = false) : storeRow db entity row = .ok stored := by
  rw [storeRow, if_neg (not_not.mpr known)]
  refine except_bind_eq_ok.mpr ⟨stored, storeColumns_of_bound (ownColumns_nodup entity) frame binds others, ?_⟩
  rw [unique]
  rfl

end Columns

/-! ## Tables of stored rows -/

/-- The column of the row holds what its type stores, and null only where it may. -/
structure StoredIn (column : Column) (row : Row) : Prop where
  bound : column.type.bind column.name (row.col column.name) = .ok (row.col column.name)
  filled : (row.col column.name).isNull = true → column.nullable = true

/-- Every row is as it was stored. -/
def RowsStored (db : DB) : Prop :=
  ∀ entity, ∀ row ∈ (db.canonical entity).rows, ∀ column ∈ ownColumns entity, StoredIn column row

section Tables

variable {context : SyncContext} {entity : Entity} {resolved : Dict Raw} {provenance : Provenance}
variable {signal : Option ObservationSignal} {before after : DB}

theorem storeRow_storedIn {row stored : Row} (kept : storeRow before entity row = .ok stored) :
    ∀ column ∈ ownColumns entity, StoredIn column stored := fun column listed =>
  ⟨ColumnType.bind_idem ((storeRow_ok kept).2.2.1 column listed), (storeRow_admitted kept column listed).filled⟩

theorem Upserted.rowsStored (step : Upserted context entity resolved provenance before signal after)
    (rowsStored : RowsStored before) : RowsStored after := by
  intro other row member
  by_cases same : other = entity
  · subst same
    cases step with
    | inserted _ _ _ kept =>
        rw [DB.setCanonical_self] at member
        rcases List.mem_append.mp member with old | new
        · exact rowsStored other row old
        · rw [List.mem_singleton.mp new]
          exact fun column listed => ⟨(storeRow_storedIn kept column listed).bound, (storeRow_storedIn kept column listed).filled⟩
    | updated identified only diffed assigned kept =>
        have id := (storeRow_ok kept).2.1.id.trans (assignAttrs_ok assigned).id
        rw [DB.setCanonical_self, diffed.canonical] at member
        rcases (Table.mem_update_const (existing_identity identified only).1 id).mp member with ⟨old, _⟩ | rfl
        · exact rowsStored other row old
        · exact storeRow_storedIn kept
  · rw [step.written.2 other same] at member
    exact rowsStored other row member

theorem syncSource_rowsStored {now : Timestamp} {connectors : Connectors} {enterpriseId dataSourceId : Uuid}
    {result : SyncResult} (rowsStored : RowsStored before)
    (ran : syncSource now connectors enterpriseId dataSourceId before = .ok result after) : RowsStored after := by
  obtain ⟨synced⟩ := syncSource_ok ran
  have batched : RowsStored synced.batched := by
    refine syncBatch_invariant (fun _ db => RowsStored db) ?_ rowsStored synced.ran
    intro entity record progress middle next last holding step
    cases step with
    | empty _ _ => exact holding
    | skipped _ _ _ => exact holding
    | upserted _ _ _ _ _ stored => exact stored.rowsStored holding
  unfold RowsStored at batched ⊢
  rwa [synced.canonical]

end Tables

/-! ## Assigning attributes -/

section Attributes

variable {entity : Entity} {attrs : Dict Value}

/-- Only an enterprise that cannot be read keeps attributes from being assigned. -/
theorem assignAttrs_returns (row : Row) (tenant : ∀ value, attrs.lookup "enterprise_id" = some value →
    ∃ enterpriseId, bindUuid "enterprise_id" value = .ok (some enterpriseId)) :
    ∃ changed, assignAttrs entity row attrs = .ok changed := by
  have folds : ∀ (entries : List (Sigma fun _ : String => Value)) (row : Row),
      (∀ value, ⟨"enterprise_id", value⟩ ∈ entries →
        ∃ enterpriseId, bindUuid "enterprise_id" value = .ok (some enterpriseId)) →
      ∃ changed, entries.foldlM (fun row entry => (if entry.1 ∈ (specs entity).identity then return row
        else setAttr entity row entry.1 entry.2 : Except Error Row)) row = .ok changed := by
    intro entries
    induction entries with
    | nil => exact fun row _ => ⟨row, rfl⟩
    | cons entry rest ih =>
        intro row tenant
        have first : ∃ next, (if entry.1 ∈ (specs entity).identity then return row
            else setAttr entity row entry.1 entry.2 : Except Error Row) = .ok next := by
          by_cases listed : entry.1 ∈ (specs entity).identity
          · exact ⟨row, if_pos listed⟩
          · rw [if_neg listed, setAttr]
            by_cases named : entry.1 = "enterprise_id"
            · obtain ⟨key, value⟩ := entry
              obtain rfl : key = "enterprise_id" := named
              obtain ⟨enterpriseId, bound⟩ := tenant value List.mem_cons_self
              exact ⟨{ row with enterpriseId }, by rw [if_pos rfl, bound]; rfl⟩
            · rw [if_neg named]
              by_cases own : (ownColumn? entity entry.1).isSome
              · exact ⟨_, if_pos own⟩
              · exact ⟨_, if_neg own⟩
        obtain ⟨next, first⟩ := first
        obtain ⟨changed, later⟩ := ih next fun value member => tenant value (List.mem_cons_of_mem _ member)
        exact ⟨changed, by rw [List.foldlM_cons, first]; exact later⟩
  exact folds attrs.entries row fun value member => tenant value (AList.mem_lookup_iff.mpr member)

end Attributes

end SmartProcurement.Integration
