import SmartProcurement.Integration.Service
import SmartProcurement.Integration.StoredRows
import SmartProcurement.Text.Lines
import SmartProcurement.Text.Separated

namespace SmartProcurement.Domain

open Relational Transaction Text Integration

/-! # Domain map

Where a canonical row came from, as the read side of the map shows it: the name
of the data source and the fields it was read from.  A sync stores the fields
joined by commas; the map splits them again.
-/

/-- The distinct paths that the mappings read, in order. -/
def sourcePaths (mappings : List FieldMapping) : List String :=
  (mappings.map (·.sourceFieldPath)).dedup.insertionSort fun first second => ¬ second < first

/-- `[f for f in (p.strip() for p in path.split(",")) if f]`. -/
def sourceFields (path : String) : List String :=
  ((path.toList.splitOn ',').map fun piece => strip (.ofList piece)).filter (· ≠ "")

def getSourceNames (enterpriseId : Uuid) (dataSourceIds : List Uuid) (db : DB) : List (Uuid × String) :=
  (db.dataSource.rows.filter fun source => source.enterpriseId = enterpriseId ∧ source.id ∈ dataSourceIds).map
    fun source => (source.id, source.name)

/-- `provenance` of a row of the map. -/
structure ProvenanceView where
  dataSourceId : Option Uuid
  dataSourceName : Option String
  sourceFields : List String
  fetchedAt : Option Timestamp
deriving DecidableEq, Repr

def provenanceView (names : List (Uuid × String)) (row : Row) : ProvenanceView where
  dataSourceId := row.sourceProvenance.map (·.dataSourceId)
  dataSourceName := row.sourceProvenance.bind fun stored => names.lookup stored.dataSourceId
  sourceFields := sourceFields ((row.sourceProvenance.map (·.sourceFieldPath)).getD "")
  fetchedAt := row.sourceProvenance.map (·.fetchedAt)

/-- `_attach_provenance`: one query for the names of all sources. -/
def attachProvenance (enterpriseId : Uuid) (rows : List Row) (db : DB) : List ProvenanceView :=
  let wanted := rows.filterMap fun row => row.sourceProvenance.map (·.dataSourceId)
  rows.map (provenanceView (getSourceNames enterpriseId wanted db))

/-! ## Paths -/

/-- The path reads back as itself: it has no comma and no white space at its ends. -/
structure PlainPath (path : String) : Prop where
  whole : ',' ∉ path.toList
  stripped : strip path = path

theorem plainPath_iff {path : String} : PlainPath path ↔ Plain ',' trimmed path.toList := by
  have stripped : strip path = path ↔ trimmed path.toList = path.toList := by
    rw [← String.ofList_toList (s := path), strip_ofList, String.toList_ofList, String.ofList_inj]
  exact ⟨fun plain => ⟨plain.whole, stripped.mp plain.stripped⟩, fun plain => ⟨plain.whole, stripped.mpr plain.trimmed⟩⟩

theorem sourceFields_eq (path : String) : sourceFields path = (fieldsOf ',' trimmed path.toList).map .ofList := by
  have blank (chars : List Char) : decide (String.ofList (trimmed chars) ≠ "") = decide (trimmed chars ≠ []) := by
    rw [decide_eq_decide, ← String.ofList_nil, ne_eq, String.ofList_inj]
  simp only [sourceFields, Text.fieldsOf, strip_ofList, List.filter_map, List.map_map, Function.comp_def, blank]

/-- Joined paths are shown as they are exactly if each is plain. -/
theorem sourceFields_intercalate_iff {paths : List String} (filled : ∀ path ∈ paths, path ≠ "") :
    sourceFields (String.intercalate "," paths) = paths ↔ ∀ path ∈ paths, PlainPath path := by
  have chars : ∀ field ∈ paths.map String.toList, field ≠ [] := by
    intro field member
    obtain ⟨path, listed, rfl⟩ := List.mem_map.mp member
    exact fun blank => filled path listed (String.toList_eq_nil_iff.mp blank)
  have whole : fieldsOf ',' trimmed ([','].intercalate (paths.map String.toList)) = paths.map String.toList ↔ _ :=
    fieldsOf_intercalate_eq_iff rfl trimmed_subset chars
  have strings : paths = (paths.map String.toList).map .ofList := by simp
  rw [sourceFields_eq, String.toList_intercalate]
  conv_lhs => rhs; rw [strings]
  rw [(List.map_injective_iff.mpr fun _ _ => String.ofList_injective).eq_iff]
  simp only [plainPath_iff]
  exact whole.trans List.forall_mem_map

/-! ## Rows of a sync -/

/-- The row carries what a sync of the source stores for its entity. -/
def StoredFrom (dataSourceId : Uuid) (mappings : List FieldMapping) (row : Row) : Prop :=
  ∃ fetchedAt, row.sourceProvenance = some ⟨dataSourceId, String.intercalate "," (sourcePaths mappings), fetchedAt⟩

section Synced

variable {context : SyncContext} {entity : Entity} {resolved : Dict Raw} {mappings : List FieldMapping}
variable {signal : Option ObservationSignal} {before after : DB} {row : Row}

theorem Upserted.storedFrom (step : Upserted context entity resolved (provenanceOf context mappings) before signal after)
    (member : row ∈ (after.canonical entity).rows) :
    row ∈ (before.canonical entity).rows ∨ StoredFrom context.dataSourceId mappings row := by
  cases step with
  | inserted _ _ constructed kept =>
      rw [DB.setCanonical_self] at member
      rcases List.mem_append.mp member with old | new
      · exact .inl old
      · obtain rfl := List.mem_singleton.mp new
        exact .inr ⟨_, (storeRow_ok kept).2.1.provenance.trans (construct_ok constructed).2.2.1⟩
  | updated identified only diffed assigned kept =>
      have id := (storeRow_ok kept).2.1.id.trans (assignAttrs_ok assigned).id
      rw [DB.setCanonical_self, diffed.canonical] at member
      rcases (Table.mem_update_const (existing_identity identified only).1 id).mp member with ⟨old, _⟩ | rfl
      · exact .inl old
      · exact .inr ⟨_, (storeRow_ok kept).2.1.provenance⟩

/-- A row is as before, or it carries what the sync stores. -/
theorem syncSource_storedFrom {now : Timestamp} {connectors : Connectors} {enterpriseId dataSourceId : Uuid}
    {result : SyncResult} (ran : syncSource now connectors enterpriseId dataSourceId before = .ok result after)
    (member : row ∈ (after.canonical entity).rows) : row ∈ (before.canonical entity).rows ∨
      StoredFrom dataSourceId (mappingsOf (confirmedMappings dataSourceId before) entity) row := by
  obtain ⟨synced⟩ := syncSource_ok ran
  have batched : ∀ entity, ∀ row ∈ (synced.batched.canonical entity).rows, row ∈ (before.canonical entity).rows ∨
      StoredFrom dataSourceId (mappingsOf (confirmedMappings dataSourceId before) entity) row := by
    refine syncBatch_invariant (fun _ db => ∀ entity, ∀ row ∈ (db.canonical entity).rows,
      row ∈ (before.canonical entity).rows ∨
        StoredFrom dataSourceId (mappingsOf (confirmedMappings dataSourceId before) entity) row) ?_
      (fun _ _ => .inl) synced.ran
    intro entity record progress middle next last holding step
    cases step with
    | empty _ _ => exact holding
    | skipped _ _ _ => exact holding
    | upserted _ _ _ _ _ stored =>
        intro other row member
        by_cases same : other = entity
        · subst same
          rcases Upserted.storedFrom stored member with old | new
          · exact holding other row old
          · exact .inr new
        · rw [stored.written.2 other same] at member
          exact holding other row member
  rw [synced.canonical] at member
  exact batched entity row member

end Synced

theorem mem_sourcePaths {mappings : List FieldMapping} {path : String} :
    path ∈ sourcePaths mappings ↔ ∃ mapping ∈ mappings, mapping.sourceFieldPath = path := by
  rw [sourcePaths, List.mem_insertionSort, List.mem_dedup, List.mem_map]

theorem attachProvenance_sourceFields {enterpriseId : Uuid} {page : List Row} {index : Nat} {row : Row} (db : DB)
    (found : page[index]? = some row) :
    (attachProvenance enterpriseId page db)[index]?.map ProvenanceView.sourceFields =
      some (sourceFields ((row.sourceProvenance.map (·.sourceFieldPath)).getD "")) := by
  rw [attachProvenance, List.getElem?_map, found]
  rfl

/-- On whatever page a row of the sync is read later, its source fields are the
distinct paths of its entity's mappings, exactly if each of them is plain. -/
theorem source_fields_survive_iff {now : Timestamp} {connectors : Connectors} {enterpriseId dataSourceId : Uuid}
    {result : SyncResult} {before after : DB} {entity : Entity} {row : Row}
    (ran : syncSource now connectors enterpriseId dataSourceId before = .ok result after)
    (filled : ∀ mapping ∈ confirmedMappings dataSourceId before, mapping.sourceFieldPath ≠ "")
    (member : row ∈ (after.canonical entity).rows) :
    let mappings := mappingsOf (confirmedMappings dataSourceId before) entity
    (row ∈ (before.canonical entity).rows ∨ StoredFrom dataSourceId mappings row) ∧
      (StoredFrom dataSourceId mappings row → ∀ (later : DB) (page : List Row) (index : Nat), page[index]? = some row →
        ((attachProvenance enterpriseId page later)[index]?.map ProvenanceView.sourceFields = some (sourcePaths mappings) ↔
          ∀ mapping ∈ mappings, PlainPath mapping.sourceFieldPath)) := by
  intro mappings
  refine ⟨syncSource_storedFrom ran member, ?_⟩
  rintro ⟨fetchedAt, stored⟩ later page index found
  have named : ∀ path ∈ sourcePaths mappings, path ≠ "" := by
    intro path listed
    obtain ⟨mapping, own, rfl⟩ := mem_sourcePaths.mp listed
    exact filled mapping (List.mem_filter.mp own).1
  rw [attachProvenance_sourceFields later found, stored, Option.map_some, Option.getD_some, Option.some_inj,
    sourceFields_intercalate_iff named]
  constructor
  · exact fun plain mapping own => plain _ (mem_sourcePaths.mpr ⟨mapping, own, rfl⟩)
  · intro plain path listed
    obtain ⟨mapping, own, rfl⟩ := mem_sourcePaths.mp listed
    exact plain mapping own

/-! ## A header with a comma -/

/-- A sheet whose one column is the article number of the items. -/
def articleSheet (path : String) : DB :=
  { sheetWithSource with fieldMapping := Table.empty.insert (confirmedMapping path .item "sku") }

def articles (path : String) : Connectors where
  loadCredential _ := .ok ⟨⟩
  build _ := .ok ⟨⟩
  testConnection _ := .error (.connector "timeout")
  fetch _ := .ok { records := [Dict.ofList [(path, .text "bolt")]], fetchedAt := 5 }

/-- The sheet is synced, and the map shows the one item. -/
def afterSync (path : String) : EStateM.Result Error DB SyncResult :=
  syncSource 10 (articles path) 1 1 (articleSheet path)

theorem articleSheet_filled {path : String} (filled : path ≠ "") :
    ∀ mapping ∈ confirmedMappings 1 (articleSheet path), mapping.sourceFieldPath ≠ "" := by
  intro mapping member
  have inserted := (List.mem_filter.mp member).1
  obtain rfl : mapping = Table.empty.newRow (confirmedMapping path .item "sku") := List.mem_singleton.mp inserted
  exact filled

/-- The one row of a list with one provenance. -/
theorem row_of_provenance {rows : List Row} {stored : Option Provenance} (only : rows.map (·.sourceProvenance) = [stored]) :
    ∃ row ∈ rows, row.sourceProvenance = stored := by
  obtain ⟨row, rfl, same⟩ := List.map_eq_singleton_iff.mp only
  exact ⟨row, List.mem_singleton_self row, same⟩

theorem source_fields_survive_article :
    ∃ row ∈ ((state (afterSync "article")).canonical .item).rows,
      (attachProvenance 1 [row] (state (afterSync "article")))[0]?.map ProvenanceView.sourceFields = some ["article"] := by
  obtain ⟨result, ran⟩ := exists_of_returned (show returned (afterSync "article") = true by decide +kernel)
  obtain ⟨row, member, stored⟩ := row_of_provenance (show
    ((state (afterSync "article")).canonical .item).rows.map (·.sourceProvenance) = [some ⟨1, "article", 5⟩] by
      decide +kernel)
  have survives := (source_fields_survive_iff ran (articleSheet_filled (by decide)) member).2
    ⟨5, stored.trans (by decide +kernel)⟩ (state (afterSync "article")) [row] 0 rfl
  refine ⟨row, member, (survives.mpr ?_).trans (by decide +kernel)⟩
  have plain : ∀ mapping ∈ mappingsOf (confirmedMappings 1 (articleSheet "article")) .item,
      ',' ∉ mapping.sourceFieldPath.toList ∧ strip mapping.sourceFieldPath = mapping.sourceFieldPath := by
    decide +kernel
  exact fun mapping own => ⟨(plain mapping own).1, (plain mapping own).2⟩

/-- The header `part, no` is shown as two fields. -/
theorem comma_header_is_split :
    ∃ row ∈ ((state (afterSync "part, no")).canonical .item).rows,
      returned (afterSync "part, no") = true ∧
        (∀ mapping ∈ confirmedMappings 1 (articleSheet "part, no"), mapping.sourceFieldPath ≠ "") ∧
        StoredFrom 1 (mappingsOf (confirmedMappings 1 (articleSheet "part, no")) .item) row ∧
        sourcePaths (mappingsOf (confirmedMappings 1 (articleSheet "part, no")) .item) = ["part, no"] ∧
        (attachProvenance 1 [row] (state (afterSync "part, no"))).map ProvenanceView.sourceFields = [["part", "no"]] := by
  obtain ⟨row, member, stored⟩ := row_of_provenance (show
    ((state (afterSync "part, no")).canonical .item).rows.map (·.sourceProvenance) = [some ⟨1, "part, no", 5⟩] by
      decide +kernel)
  refine ⟨row, member, by decide +kernel, articleSheet_filled (by decide), ⟨5, stored.trans (by decide +kernel)⟩,
    by decide +kernel, ?_⟩
  simp only [attachProvenance, List.map_singleton, provenanceView, stored, Option.map_some, Option.getD_some]
  decide +kernel

end SmartProcurement.Domain
