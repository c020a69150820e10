import SmartProcurement.Integration.Connectors.File
import SmartProcurement.Integration.Credentials
import SmartProcurement.Integration.MappingAi
import SmartProcurement.Integration.SourceHealth
import SmartProcurement.Relational.Entries
import SmartProcurement.Transaction.Achieves

namespace SmartProcurement.Integration

open Relational Transaction Observation

/-! # Introspection

What a connector finds in its source is stored field by field.  The stored fields of a
source are a dictionary in the order of discovery: a field that is found again keeps
its row, and no field is ever forgotten.
-/

/-- The columns `inferred_type` and `sample_values`. -/
structure FieldDetails where
  inferredType : String
  sampleValues : List String
deriving DecidableEq, Repr

/-- The database with these columns of its `source_field` rows. -/
structure Introspected where
  db : DB
  details : Uuid → FieldDetails

abbrev IntrospectionSession := EStateM Error Introspected

/-- A service of the database in the same session. -/
def onDb {α : Type} (body : Session α) : IntrospectionSession α := fun before =>
  match body before.db with
  | .ok value after => .ok value { before with db := after }
  | .error reason after => .error reason { before with db := after }

/-- What the connector of a source discovers. -/
abbrev Describe := DataSource → Except Error (List Connectors.SourceField)

def describeSource (connectors : Connectors) (describe : Describe) (source : DataSource) :
    Except Error (List Connectors.SourceField) := do
  buildConnector connectors source
  match describe source with
  | .error (.connector detail) => .error (.upstream detail)
  | answered => answered

def detailsOf (field : Connectors.SourceField) : FieldDetails := ⟨field.inferredType, field.sampleValues⟩

def storableDetails (details : FieldDetails) : Bool :=
  storableText details.inferredType && details.sampleValues.all storableText

/-- A new row; `uq_source_field_source_path` is checked when it is flushed. -/
def addField (dataSourceId : Uuid) (path : String) : IntrospectionSession Uuid := do
  let paths ← read fun state => (fieldsOf dataSourceId state.db).map (·.path)
  if !storableText path then raise (.database (.invalidInput "path"))
  else if path ∈ paths then raise (.database (.unique "source_field"))
  else do
    let id ← read fun state => state.db.sourceField.freshKey
    write fun state => { state with
      db := { state.db with sourceField := state.db.sourceField.insert { id := 0, dataSourceId, path } } }
    return id

/-- The row of a discovered field, which is new if none was stored before the call. -/
def storeField (dataSourceId : Uuid) (existing : List (String × SourceField)) (field : Connectors.SourceField) :
    IntrospectionSession (String × Uuid) := do
  let id ←
    match existing.lookup field.path with
    | some row => pure row.id
    | none => addField dataSourceId field.path
  write fun state => { state with details := Function.update state.details id (detailsOf field) }
  return (field.path, id)

/-- The rows of the discovered fields, behind those that are at hand. -/
def storeFields (dataSourceId : Uuid) (existing : List (String × SourceField)) (rows : List (String × Uuid))
    (discovered : List Connectors.SourceField) : IntrospectionSession (List (String × Uuid)) :=
  discovered.foldlM (fun rows field => return rows ++ [← storeField dataSourceId existing field]) rows

def existingRows (dataSourceId : Uuid) (state : Introspected) : List (String × SourceField) :=
  (fieldsOf dataSourceId state.db).map fun row => (row.path, row)

/-- What an object says when everything is flushed. -/
def shownField (state : Introspected) (row : String × Uuid) : Connectors.SourceField where
  path := row.1
  inferredType := (state.details row.2).inferredType
  sampleValues := (state.details row.2).sampleValues

def describeAndStore (connectors : Connectors) (describe : Describe) (enterpriseId dataSourceId : Uuid) :
    IntrospectionSession (List Connectors.SourceField) := do
  let source ← onDb (getDataSource enterpriseId dataSourceId)
  let discovered ← lift (describeSource connectors describe source)
  let existing ← read fun state => fromPairs (existingRows source.id state)
  let rows ← storeFields source.id existing [] discovered
  let out ← read fun state => rows.map (shownField state)
  if out.all fun field => storableDetails (detailsOf field) then return out
  else raise (.database (.invalidInput "sample_values"))

/-! ## The dictionary of a source -/

abbrev Catalogue := List (String × FieldDetails)

/-- The stored fields of a source, as their rows are ordered. -/
def catalogue (dataSourceId : Uuid) (state : Introspected) : Catalogue :=
  (fieldsOf dataSourceId state.db).map fun row => (row.path, state.details row.id)

/-- Old paths keep their place, new ones follow. -/
def merge (entries : Catalogue) (discovered : List Connectors.SourceField) : Catalogue :=
  discovered.foldl (fun entries field => assign entries field.path (detailsOf field)) entries

def newPaths (entries : Catalogue) (discovered : List Connectors.SourceField) : List String :=
  (discovered.map (·.path)).filter (· ∉ entries.map Prod.fst)

/-- The discovered fields as they are stored in the end. -/
def mergedFields (entries : Catalogue) (discovered : List Connectors.SourceField) : List Connectors.SourceField :=
  discovered.map fun field =>
    let details := ((merge entries discovered).lookup field.path).getD ⟨"", []⟩
    ⟨field.path, details.inferredType, details.sampleValues⟩

/-- No new path is discovered twice, and all texts can be stored. -/
def Acceptable (entries : Catalogue) (discovered : List Connectors.SourceField) : Prop :=
  (newPaths entries discovered).Nodup ∧ (∀ path ∈ newPaths entries discovered, storableText path = true) ∧
    ∀ field ∈ mergedFields entries discovered, storableDetails (detailsOf field) = true

instance (entries : Catalogue) (discovered : List Connectors.SourceField) : Decidable (Acceptable entries discovered) :=
  inferInstanceAs (Decidable (_ ∧ _ ∧ _))

section Dictionary

variable {dataSourceId : Uuid} {state : Introspected} {entries : Catalogue} {discovered done rest : List Connectors.SourceField}
variable {field : Connectors.SourceField} {path : String}

theorem merge_append : merge entries (done ++ [field]) = assign (merge entries done) field.path (detailsOf field) := by
  rw [merge, List.foldl_append]
  rfl

theorem mem_keys_merge : path ∈ (merge entries done).map Prod.fst ↔ path ∈ entries.map Prod.fst ∨ path ∈ done.map (·.path) := by
  have folds : merge entries done =
      (done.map fun field => (field.path, detailsOf field)).foldl (fun entries pair => assign entries pair.1 pair.2) entries := by
    rw [merge, List.foldl_map]
  rw [folds, mem_keys_foldl_assign, List.map_map]
  rfl

theorem newPaths_append : newPaths entries (done ++ [field]) =
    newPaths entries done ++ if field.path ∈ entries.map Prod.fst then [] else [field.path] := by
  rw [newPaths, List.map_append, List.filter_append, newPaths, List.map_singleton, List.filter_singleton]
  by_cases old : field.path ∈ entries.map Prod.fst <;> simp [old]

theorem mem_newPaths : path ∈ newPaths entries done ↔ path ∈ done.map (·.path) ∧ path ∉ entries.map Prod.fst := by
  simp [newPaths]

theorem keys_catalogue : (catalogue dataSourceId state).map Prod.fst = (fieldsOf dataSourceId state.db).map (·.path) := by
  rw [catalogue, List.map_map]
  rfl

/-- Writing the details of one row changes one entry. -/
theorem assign_details {rows : List SourceField} {details : Uuid → FieldDetails} {row : SourceField} (member : row ∈ rows)
    (ids : (rows.map (·.id)).Nodup) (paths : (rows.map (·.path)).Nodup) (value : FieldDetails) :
    rows.map (fun other => (other.path, Function.update details row.id value other.id)) =
      assign (rows.map fun other => (other.path, details other.id)) row.path value := by
  induction rows with
  | nil => cases member
  | cons first rest ih =>
      rw [List.map_cons, List.nodup_cons] at ids paths
      rw [List.map_cons, List.map_cons, assign]
      rcases List.mem_cons.mp member with rfl | later
      · rw [if_pos rfl, Function.update_self]
        congr 1
        apply List.map_congr_left
        intro other listed
        rw [Function.update_of_ne fun same => ids.1 (List.mem_map.mpr ⟨other, listed, same⟩)]
      · have otherId : first.id ≠ row.id := fun same => ids.1 (List.mem_map.mpr ⟨row, later, same.symm⟩)
        have otherPath : first.path ≠ row.path := fun same => paths.1 (List.mem_map.mpr ⟨row, later, same.symm⟩)
        rw [if_neg otherPath, Function.update_of_ne otherId, ih later ids.2 paths.2]

/-- An entry that is appended and then assigned might as well be assigned only. -/
theorem assign_append (fresh : path ∉ entries.map Prod.fst) (old value : FieldDetails) :
    assign (entries ++ [(path, old)]) path value = assign entries path value := by
  rw [assign_of_not_mem fresh]
  induction entries with
  | nil => simp [assign]
  | cons first rest ih =>
      rw [List.map_cons, List.mem_cons, not_or] at fresh
      rw [List.cons_append, assign, if_neg (Ne.symm fresh.1), ih fresh.2, List.cons_append]

end Dictionary

/-! ## Storing -/

/-- A source has one row for a path. -/
def Distinct (state : Introspected) : Prop := ∀ id, ((fieldsOf id state.db).map (·.path)).Nodup

/-- How far the loop over the discovered fields of a source has come. -/
structure Storing (dataSourceId : Uuid) (start : Introspected) (done : List Connectors.SourceField)
    (rows : List (String × Uuid)) (state : Introspected) : Prop where
  entries : catalogue dataSourceId state = merge (catalogue dataSourceId start) done
  others : ∀ other, other ≠ dataSourceId → catalogue other state = catalogue other start
  kept : ∀ row ∈ start.db.sourceField.rows, row ∈ state.db.sourceField.rows
  rest : state.db = { start.db with sourceField := state.db.sourceField }
  distinct : Distinct state
  stored : ∀ entry ∈ rows, ∃ row ∈ fieldsOf dataSourceId state.db, (row.path, row.id) = entry
  paths : rows.map Prod.fst = done.map (·.path)

section Storing

variable {dataSourceId : Uuid} {start state : Introspected} {done rest : List Connectors.SourceField}
variable {rows : List (String × Uuid)} {field : Connectors.SourceField} {row : SourceField} {path : String}

theorem fieldsOf_ids (dataSourceId : Uuid) (db : DB) : ((fieldsOf dataSourceId db).map (·.id)).Nodup :=
  db.sourceField.distinct.sublist (List.filter_sublist.map _)

theorem mem_fieldsOf {db : DB} : row ∈ fieldsOf dataSourceId db ↔ row ∈ db.sourceField.rows ∧ row.dataSourceId = dataSourceId := by
  simp [fieldsOf]

/-- The details of a row belong to its source alone. -/
theorem catalogue_details (distinct : Distinct state) (member : row ∈ fieldsOf dataSourceId state.db) (details : FieldDetails) :
    catalogue dataSourceId { state with details := Function.update state.details row.id details } =
        assign (catalogue dataSourceId state) row.path details ∧
      ∀ other, other ≠ dataSourceId →
        catalogue other { state with details := Function.update state.details row.id details } = catalogue other state := by
  refine ⟨assign_details member (fieldsOf_ids dataSourceId state.db) (distinct dataSourceId) details, fun other different => ?_⟩
  apply List.map_congr_left
  intro mate listed
  have elsewhere : mate.id ≠ row.id := by
    intro same
    obtain ⟨stored, own⟩ := mem_fieldsOf.mp listed
    obtain ⟨rowStored, rowOwn⟩ := mem_fieldsOf.mp member
    obtain rfl := Table.eq_of_key_eq stored rowStored same
    exact different (own.symm.trans rowOwn)
  dsimp only
  rw [Function.update_of_ne elsewhere]

/-- The database with one more field. -/
def withField (dataSourceId : Uuid) (path : String) (state : Introspected) : Introspected :=
  { state with db := { state.db with sourceField := state.db.sourceField.insert { id := 0, dataSourceId, path } } }

theorem fieldsOf_withField (other : Uuid) : fieldsOf other (withField dataSourceId path state).db =
    fieldsOf other state.db ++
      if dataSourceId = other then [⟨state.db.sourceField.freshKey, dataSourceId, path⟩] else [] := by
  rw [fieldsOf, withField, Table.filter_insert, fieldsOf]
  have same : ((state.db.sourceField.newRow ⟨0, dataSourceId, path⟩).dataSourceId = other) = (dataSourceId = other) := rfl
  simp only [same, decide_eq_true_eq]
  rfl

theorem Distinct.withField (distinct : Distinct state) (fresh : path ∉ (fieldsOf dataSourceId state.db).map (·.path)) :
    Distinct (withField dataSourceId path state) := by
  intro other
  rw [fieldsOf_withField]
  split
  · next same =>
    subst same
    rw [List.map_append]
    exact (distinct dataSourceId).append (List.nodup_singleton path) (List.disjoint_singleton.mpr fresh)
  · rw [List.append_nil]
    exact distinct other

theorem addField_of_new (fresh : path ∉ (fieldsOf dataSourceId state.db).map (·.path)) (storable : storableText path = true) :
    addField dataSourceId path state = .ok state.db.sourceField.freshKey (withField dataSourceId path state) := by
  unfold addField
  rw [read_bind, if_neg (by simp [storable]), if_neg fresh]
  rfl

theorem addField_of_refused (refused : ¬ (storableText path = true ∧ path ∉ (fieldsOf dataSourceId state.db).map (·.path))) :
    ∃ reason after, addField dataSourceId path state = .error reason after := by
  unfold addField
  rw [read_bind]
  by_cases storable : storableText path = true
  · rw [if_neg (by simp [storable]), if_pos (not_not.mp fun fresh => refused ⟨storable, fresh⟩)]
    exact ⟨_, _, rfl⟩
  · rw [if_pos (by simp [storable])]
    exact ⟨_, _, rfl⟩

theorem fromPairs_existingRows (distinct : Distinct state) :
    fromPairs (existingRows dataSourceId state) = existingRows dataSourceId state := by
  have keys := distinct dataSourceId
  rw [fromPairs, foldl_assign_of_nodup, List.nil_append]
  rw [List.nil_append, existingRows, List.map_map]
  exact keys

/-- The row of the field is at hand, and only its details are to be written. -/
theorem Storing.write {id : Uuid} (storing : Storing dataSourceId start done rows state)
    (member : ⟨id, dataSourceId, field.path⟩ ∈ fieldsOf dataSourceId state.db) :
    Storing dataSourceId start (done ++ [field]) (rows ++ [(field.path, id)])
      { state with details := Function.update state.details id (detailsOf field) } := by
  obtain ⟨entries, others⟩ := catalogue_details storing.distinct member (detailsOf field)
  refine ⟨?_, fun other different => (others other different).trans (storing.others other different), storing.kept, storing.rest,
    storing.distinct, ?_, ?_⟩
  · rw [entries, storing.entries, merge_append]
  · intro entry listed
    rcases List.mem_append.mp listed with old | new
    · exact storing.stored entry old
    · obtain rfl := List.mem_singleton.mp new
      exact ⟨_, member, rfl⟩
  · rw [List.map_append, List.map_append, storing.paths]
    rfl

/-- What the loop asks of the next field. -/
def Enters (dataSourceId : Uuid) (start : Introspected) (done : List Connectors.SourceField) (path : String) : Prop :=
  path ∈ (catalogue dataSourceId start).map Prod.fst ∨ (storableText path = true ∧ path ∉ done.map (·.path))

theorem Storing.step (field : Connectors.SourceField) (distinct : Distinct start)
    (storing : Storing dataSourceId start done rows state) :
    (Enters dataSourceId start done field.path ∧ ∃ entry after,
        storeField dataSourceId (fromPairs (existingRows dataSourceId start)) field state = .ok entry after ∧
          Storing dataSourceId start (done ++ [field]) (rows ++ [entry]) after) ∨
      (¬ Enters dataSourceId start done field.path ∧ ∃ reason after,
        storeField dataSourceId (fromPairs (existingRows dataSourceId start)) field state = .error reason after) := by
  unfold storeField
  rw [fromPairs_existingRows distinct]
  cases found : (existingRows dataSourceId start).lookup field.path with
  | some row =>
      obtain ⟨row, member, named, rfl⟩ := lookup_map_eq_some found
      have known : field.path ∈ (catalogue dataSourceId start).map Prod.fst := by
        rw [keys_catalogue, ← named]
        exact List.mem_map_of_mem member
      obtain ⟨stored, own⟩ := mem_fieldsOf.mp member
      have same : row = ⟨row.id, dataSourceId, field.path⟩ := by rw [← own, ← named]
      refine .inl ⟨.inl known, _, _, rfl, storing.write ?_⟩
      rw [← same]
      exact mem_fieldsOf.mpr ⟨storing.kept row stored, own⟩
  | none =>
      have unknown : field.path ∉ (catalogue dataSourceId start).map Prod.fst := by
        rw [keys_catalogue]
        intro listed
        obtain ⟨row, member, named⟩ := List.mem_map.mp listed
        exact lookup_map_eq_none found row member named
      have keys : field.path ∈ (fieldsOf dataSourceId state.db).map (·.path) ↔ field.path ∈ done.map (·.path) := by
        rw [← keys_catalogue, storing.entries, mem_keys_merge]
        exact or_iff_right unknown
      by_cases enters : storableText field.path = true ∧ field.path ∉ done.map (·.path)
      · have fresh : field.path ∉ (fieldsOf dataSourceId state.db).map (·.path) := mt keys.mp enters.2
        refine .inl ⟨.inr enters, _, _, bind_of_ok (addField_of_new fresh enters.1), ?_⟩
        have member : ⟨state.db.sourceField.freshKey, dataSourceId, field.path⟩ ∈
            fieldsOf dataSourceId (withField dataSourceId field.path state).db := by
          rw [fieldsOf_withField, if_pos rfl]
          exact List.mem_append_right _ (List.mem_singleton_self _)
        obtain ⟨entries, others⟩ := catalogue_details (storing.distinct.withField fresh) member (detailsOf field)
        have appended : catalogue dataSourceId (withField dataSourceId field.path state) =
            catalogue dataSourceId state ++ [(field.path, state.details state.db.sourceField.freshKey)] := by
          rw [catalogue, fieldsOf_withField, if_pos rfl, List.map_append]
          rfl
        refine ⟨?_, ?_, ?_, ?_, storing.distinct.withField fresh, ?_, ?_⟩
        · rw [entries, appended, assign_append (by rwa [keys_catalogue]), storing.entries, merge_append]
        · intro other different
          rw [others other different, ← storing.others other different, catalogue, fieldsOf_withField, if_neg different.symm,
            List.append_nil]
          rfl
        · exact fun row old => List.mem_append_left _ (storing.kept row old)
        · exact congrArg (fun db : DB => { db with
            sourceField := state.db.sourceField.insert { id := 0, dataSourceId, path := field.path } }) storing.rest
        · intro entry listed
          rcases List.mem_append.mp listed with old | new
          · obtain ⟨row, stored, same⟩ := storing.stored entry old
            refine ⟨row, ?_, same⟩
            rw [fieldsOf_withField]
            exact List.mem_append_left _ stored
          · obtain rfl := List.mem_singleton.mp new
            exact ⟨_, member, rfl⟩
        · rw [List.map_append, List.map_append, storing.paths]
          rfl
      · refine .inr ⟨fun either => enters (either.resolve_left unknown), ?_⟩
        have inserted : ∃ reason after, addField dataSourceId field.path state = .error reason after :=
          addField_of_refused (by rwa [keys])
        obtain ⟨reason, after, raised⟩ := inserted
        exact ⟨reason, after, bind_of_error raised⟩

/-- The new paths of a list of fields can be inserted. -/
def Insertable (entries : Catalogue) (discovered : List Connectors.SourceField) : Prop :=
  (newPaths entries discovered).Nodup ∧ ∀ path ∈ newPaths entries discovered, storableText path = true

theorem insertable_append : Insertable (catalogue dataSourceId start) (done ++ [field]) ↔
    Insertable (catalogue dataSourceId start) done ∧ Enters dataSourceId start done field.path := by
  unfold Insertable Enters
  rw [newPaths_append]
  by_cases old : field.path ∈ (catalogue dataSourceId start).map Prod.fst
  · simp [old]
  · have listed : field.path ∈ newPaths (catalogue dataSourceId start) done ↔ field.path ∈ done.map (·.path) := by
      rw [mem_newPaths]
      exact and_iff_left old
    rw [if_neg old, or_iff_right old, List.nodup_append_comm, List.singleton_append, List.nodup_cons, listed]
    simp only [List.mem_append, List.mem_singleton, or_imp, forall_and, forall_eq]
    tauto

theorem Insertable.front {entries : Catalogue} (insertable : Insertable entries (done ++ rest)) : Insertable entries done := by
  unfold Insertable newPaths at insertable ⊢
  rw [List.map_append, List.filter_append] at insertable
  exact ⟨(List.nodup_append.mp insertable.1).1, fun path member => insertable.2 path (List.mem_append_left _ member)⟩

theorem Storing.loop (rest : List Connectors.SourceField) (distinct : Distinct start)
    (storing : Storing dataSourceId start done rows state) (insertable : Insertable (catalogue dataSourceId start) done) :
    let existing := fromPairs (existingRows dataSourceId start)
    (Insertable (catalogue dataSourceId start) (done ++ rest) ∧ ∃ all after,
        storeFields dataSourceId existing rows rest state = .ok all after ∧
        Storing dataSourceId start (done ++ rest) all after) ∨
      (¬ Insertable (catalogue dataSourceId start) (done ++ rest) ∧ ∃ reason after,
        storeFields dataSourceId existing rows rest state = .error reason after) := by
  intro existing
  induction rest generalizing done rows state with
  | nil =>
      rw [List.append_nil]
      exact .inl ⟨insertable, rows, state, rfl, storing⟩
  | cons field rest ih =>
      have split : done ++ field :: rest = (done ++ [field]) ++ rest := by simp
      unfold storeFields
      rw [List.foldlM_cons, split]
      rcases storing.step field distinct with ⟨enters, entry, middle, ran, stored⟩ | ⟨refused, reason, after, raised⟩
      · have stepped : (do return rows ++ [← storeField dataSourceId existing field] : IntrospectionSession _) state =
            .ok (rows ++ [entry]) middle := bind_of_ok ran
        rw [bind_of_ok stepped]
        exact ih stored (insertable_append.mpr ⟨insertable, enters⟩)
      · refine .inr ⟨fun all => refused (insertable_append.mp all.front).2, reason, after, ?_⟩
        exact bind_of_error (bind_of_error raised)

theorem storing_start (distinct : Distinct start) : Storing dataSourceId start [] [] start :=
  ⟨rfl, fun _ _ => rfl, fun _ member => member, rfl, distinct, fun _ listed => absurd listed List.not_mem_nil, rfl⟩

/-- Every returned object shows what its path has been given last. -/
theorem Storing.shown (storing : Storing dataSourceId start done rows state) :
    rows.map (shownField state) = mergedFields (catalogue dataSourceId start) done := by
  have shows : rows.map (shownField state) = (rows.map Prod.fst).map fun path =>
      let details := ((merge (catalogue dataSourceId start) done).lookup path).getD ⟨"", []⟩
      (⟨path, details.inferredType, details.sampleValues⟩ : Connectors.SourceField) := by
    rw [List.map_map]
    apply List.map_congr_left
    intro entry listed
    obtain ⟨row, member, rfl⟩ := storing.stored entry listed
    have found : (catalogue dataSourceId state).lookup row.path = some (state.details row.id) :=
      lookup_map_of_mem (storing.distinct dataSourceId) member
    rw [storing.entries] at found
    simp only [Function.comp_apply, found, Option.getD_some]
    rfl
  rw [shows, storing.paths, List.map_map]
  rfl

end Storing

/-! ## A call -/

/-- The call has brought the catalogue of one source up to date, and nothing else. -/
structure Catalogued (dataSourceId : Uuid) (discovered : List Connectors.SourceField) (before after : Introspected) : Prop where
  entries : catalogue dataSourceId after = merge (catalogue dataSourceId before) discovered
  others : ∀ other, other ≠ dataSourceId → catalogue other after = catalogue other before
  kept : ∀ row ∈ before.db.sourceField.rows, row ∈ after.db.sourceField.rows
  rest : after.db = { before.db with sourceField := after.db.sourceField }
  distinct : Distinct after

section Calls

variable {connectors : Connectors} {describe : Describe} {enterpriseId dataSourceId : Uuid} {before : Introspected}

/-- What the call discovers, if it comes to that. -/
def discovered? (connectors : Connectors) (describe : Describe) (enterpriseId dataSourceId : Uuid) (db : DB) :
    Option (List Connectors.SourceField) :=
  match getDataSource enterpriseId dataSourceId db with
  | .error _ _ => none
  | .ok source _ => (describeSource connectors describe source).toOption

theorem describeAndStore_undiscovered (none : discovered? connectors describe enterpriseId dataSourceId before.db = none) :
    ∃ reason after, describeAndStore connectors describe enterpriseId dataSourceId before = .error reason after := by
  unfold discovered? at none
  unfold describeAndStore
  cases got : getDataSource enterpriseId dataSourceId before.db with
  | error reason after =>
      have raised : onDb (getDataSource enterpriseId dataSourceId) before = .error reason { before with db := after } := by
        rw [onDb, got]
      exact ⟨_, _, bind_of_error raised⟩
  | ok source after =>
      have ran : onDb (getDataSource enterpriseId dataSourceId) before = .ok source { before with db := after } := by
        rw [onDb, got]
      rw [got] at none
      dsimp only at none
      rw [bind_of_ok ran]
      cases described : describeSource connectors describe source with
      | error reason => exact ⟨_, _, rfl⟩
      | ok discovered =>
          rw [described] at none
          cases none

theorem describeAndStore_discovered (distinct : Distinct before) {discovered : List Connectors.SourceField}
    (found : discovered? connectors describe enterpriseId dataSourceId before.db = some discovered) :
    (Acceptable (catalogue dataSourceId before) discovered ∧ ∃ after,
        describeAndStore connectors describe enterpriseId dataSourceId before =
          .ok (mergedFields (catalogue dataSourceId before) discovered) after ∧
        Catalogued dataSourceId discovered before after) ∨
      (¬ Acceptable (catalogue dataSourceId before) discovered ∧ ∃ reason after,
        describeAndStore connectors describe enterpriseId dataSourceId before = .error reason after) := by
  unfold discovered? at found
  unfold describeAndStore
  cases got : getDataSource enterpriseId dataSourceId before.db with
  | error reason after =>
      rw [got] at found
      cases found
  | ok source read =>
      obtain ⟨rfl, stored, _⟩ := getDataSource_ok got
      have sameId : source.id = dataSourceId := (Table.find?_some stored).2
      have ran : onDb (getDataSource enterpriseId dataSourceId) before = .ok source before := by
        rw [onDb, got]
      rw [got] at found
      dsimp only at found
      rw [bind_of_ok ran]
      cases described : describeSource connectors describe source with
      | error reason =>
          rw [described] at found
          cases found
      | ok fields =>
          rw [described] at found
          obtain rfl := Option.some.inj found
          have lifted : (lift (Except.ok fields) : IntrospectionSession _) before = .ok fields before := rfl
          rw [bind_of_ok lifted, read_bind, sameId]
          rcases (storing_start distinct).loop fields distinct ⟨List.nodup_nil, nofun⟩ with
            ⟨insertable, rows, after, looped, storing⟩ | ⟨refused, reason, after, raised⟩
          · rw [List.nil_append] at insertable storing
            rw [bind_of_ok looped, read_bind, storing.shown]
            by_cases storable : ∀ field ∈ mergedFields (catalogue dataSourceId before) fields, storableDetails (detailsOf field) = true
            · rw [if_pos (List.all_eq_true.mpr storable)]
              exact .inl ⟨⟨insertable.1, insertable.2, storable⟩, after, rfl, storing.entries, storing.others, storing.kept,
                storing.rest, storing.distinct⟩
            · rw [if_neg (mt List.all_eq_true.mp storable)]
              exact .inr ⟨fun acceptable => storable acceptable.2.2, _, _, rfl⟩
          · rw [List.nil_append] at refused
            exact .inr ⟨fun acceptable => refused ⟨acceptable.1, acceptable.2.1⟩, reason, after, bind_of_error raised⟩

end Calls

/-! ## Runs -/

/-- An introspection, or another call of the data-source service. -/
inductive CatalogueCall where
  | introspect (connectors : Connectors) (describe : Describe) (enterpriseId dataSourceId : Uuid)
  | service (call : ServiceCall)

/-- What the caller is shown, if the call returns, and what is committed. -/
def CatalogueCall.serve (state : Introspected) : CatalogueCall → Option (List Connectors.SourceField) × Introspected
  | .introspect connectors describe enterpriseId dataSourceId =>
      let (result, after) := transact (describeAndStore connectors describe enterpriseId dataSourceId) state
      (result.toOption, after)
  | .service call => (none, { state with db := call.commit state.db })

abbrev Catalogues := Uuid → Catalogue

/-- The same of a dictionary for each source: what is discovered is merged, if it is acceptable. -/
def CatalogueCall.expect (db : DB) (catalogues : Catalogues) :
    CatalogueCall → Option (List Connectors.SourceField) × Catalogues
  | .introspect connectors describe enterpriseId dataSourceId =>
      match discovered? connectors describe enterpriseId dataSourceId db with
      | none => (none, catalogues)
      | some discovered =>
          if Acceptable (catalogues dataSourceId) discovered then
            (some (mergedFields (catalogues dataSourceId) discovered),
              Function.update catalogues dataSourceId (merge (catalogues dataSourceId) discovered))
          else (none, catalogues)
  | .service _ => (none, catalogues)

/-- The calls one after another, on the database and on the dictionaries. -/
def serveAll (initial : Introspected × Catalogues) (calls : List CatalogueCall) : Introspected × Catalogues :=
  calls.foldl (fun state call => ((call.serve state.1).2, (call.expect state.1.db state.2).2)) initial

/-- The database holds the dictionaries. -/
structure HoldsCatalogues (state : Introspected) (catalogues : Catalogues) : Prop where
  distinct : Distinct state
  entries : ∀ id, catalogue id state = catalogues id

section Runs

variable {state : Introspected} {catalogues : Catalogues}

theorem fixesFields (dataSourceId : Uuid) : SyncFrame dataSourceId (Frame.fixes DB.sourceField) where
  signal _ _ := rfl
  insert _ _ _ _ := rfl
  update _ _ _ _ _ := rfl
  source _ _ _ := rfl
  gaps _ _ := rfl
  job _ _ _ _ := rfl

theorem commit_fields (call : ServiceCall) (db : DB) : (Frame.fixes DB.sourceField).rel db (call.commit db) := by
  cases call with
  | createDataSource encrypt enterpriseId new =>
      refine transact_preserves rfl fun result after ran => ?_
      obtain ⟨_, _, rfl⟩ := createDataSource_ok ran
      rfl
  | updateDataSource encrypt enterpriseId dataSourceId update =>
      refine transact_preserves rfl fun result after ran => ?_
      obtain ⟨_, _, _, _, _, _, rfl⟩ := updateDataSource_stores ran
      rfl
  | uploadFileContent enterpriseId dataSourceId content =>
      refine transact_preserves rfl fun result after ran => ?_
      obtain ⟨_, _, rfl⟩ := uploadFileContent_stores ran
      rfl
  | checkConnection now connectors enterpriseId dataSourceId =>
      refine transact_preserves rfl fun result after ran => ?_
      obtain ⟨_, _, _, _, _, rfl, _⟩ := checkConnection_ok ran
      rfl
  | syncSource now connectors enterpriseId dataSourceId =>
      refine transact_preserves rfl fun result after ran => ?_
      exact syncSource_frame (fixesFields dataSourceId) ran

/-- A call does to the database what it does to the dictionaries, and shows the same. -/
theorem HoldsCatalogues.serve (holds : HoldsCatalogues state catalogues) (call : CatalogueCall) :
    (call.serve state).1 = (call.expect state.db catalogues).1 ∧
      HoldsCatalogues (call.serve state).2 (call.expect state.db catalogues).2 ∧
      ∀ row ∈ state.db.sourceField.rows, row ∈ (call.serve state).2.db.sourceField.rows := by
  cases call with
  | introspect connectors describe enterpriseId dataSourceId =>
      unfold CatalogueCall.serve CatalogueCall.expect
      dsimp only
      cases found : discovered? connectors describe enterpriseId dataSourceId state.db with
      | none =>
          obtain ⟨_, _, raised⟩ := describeAndStore_undiscovered found
          rw [transact_of_error raised]
          exact ⟨rfl, holds, fun _ member => member⟩
      | some discovered =>
          dsimp only
          rw [← holds.entries dataSourceId]
          rcases describeAndStore_discovered holds.distinct found with ⟨acceptable, after, ran, catalogued⟩ | ⟨refused, _, _, raised⟩
          · rw [transact_of_ok ran, if_pos acceptable]
            refine ⟨rfl, ⟨catalogued.distinct, fun id => ?_⟩, catalogued.kept⟩
            by_cases same : id = dataSourceId
            · subst same
              dsimp only
              rw [Function.update_self, catalogued.entries]
            · dsimp only
              rw [Function.update_of_ne same, catalogued.others id same, holds.entries id]
          · rw [transact_of_error raised, if_neg refused]
            exact ⟨rfl, holds, fun _ member => member⟩
  | service call =>
      have fields : (call.commit state.db).sourceField = state.db.sourceField := commit_fields call state.db
      refine ⟨rfl, ⟨?_, ?_⟩, ?_⟩
      · intro id
        change ((fieldsOf id (call.commit state.db)).map _).Nodup
        rw [fieldsOf, fields]
        exact holds.distinct id
      · intro id
        change (fieldsOf id (call.commit state.db)).map _ = _
        rw [fieldsOf, fields]
        exact holds.entries id
      · intro row member
        change row ∈ (call.commit state.db).sourceField.rows
        rwa [fields]

theorem HoldsCatalogues.run (holds : HoldsCatalogues state catalogues) (calls : List CatalogueCall) :
    HoldsCatalogues (serveAll (state, catalogues) calls).1 (serveAll (state, catalogues) calls).2 ∧
      ∀ row ∈ state.db.sourceField.rows, row ∈ (serveAll (state, catalogues) calls).1.db.sourceField.rows := by
  induction calls generalizing state catalogues with
  | nil => exact ⟨holds, fun _ member => member⟩
  | cons call rest ih =>
      obtain ⟨_, served, kept⟩ := holds.serve call
      obtain ⟨final, later⟩ := ih served
      exact ⟨final, fun row member => later row (kept row member)⟩

end Runs

/-- Whatever is called in whatever order, the stored fields of every source are a
dictionary in the order of discovery: every further call replies and stores as the
dictionaries say, and no stored row is ever changed or lost. -/
theorem catalogue_of_run (initial : Introspected) (noField : initial.db.sourceField.rows = []) (calls : List CatalogueCall) :
    let final := serveAll (initial, fun _ => []) calls
    (∀ id, catalogue id final.1 = final.2 id) ∧
      (∀ call : CatalogueCall, (call.serve final.1).1 = (call.expect final.1.db final.2).1) ∧
      ∀ more, ∀ row ∈ final.1.db.sourceField.rows, row ∈ (serveAll final more).1.db.sourceField.rows := by
  have empty (id : Uuid) : fieldsOf id initial.db = [] := by
    rw [fieldsOf, noField]
    rfl
  have start : HoldsCatalogues initial fun _ => [] := by
    refine ⟨fun id => ?_, fun id => ?_⟩
    · rw [empty]
      exact List.nodup_nil
    · rw [catalogue, empty]
      rfl
  obtain ⟨holds, _⟩ := start.run calls
  exact ⟨holds.entries, fun call => (holds.serve call).1, fun more => (holds.run more).2⟩

/-- A sheet that has gained a column when it is introspected again. -/
def growingSheet : List CatalogueCall := [
  .service (.createDataSource (fun _ => .ok "") 7 stockSheet),
  .introspect (flaky "5") (fun _ => .ok [⟨"sku", "string", ["bolt"]⟩, ⟨"qty", "string", []⟩]) 7 1,
  .introspect (flaky "5") (fun _ => .ok [⟨"qty", "number", ["5"]⟩, ⟨"bin", "string", ["A1"]⟩]) 7 1]

theorem catalogue_of_growingSheet :
    catalogue 1 (serveAll (⟨default, fun _ => ⟨"string", []⟩⟩, fun _ => []) growingSheet).1 =
      [("sku", ⟨"string", ["bolt"]⟩), ("qty", ⟨"number", ["5"]⟩), ("bin", ⟨"string", ["A1"]⟩)] :=
  ((catalogue_of_run ⟨default, fun _ => ⟨"string", []⟩⟩ rfl growingSheet).1 1).trans (by decide)

end SmartProcurement.Integration
