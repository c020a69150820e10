import SmartProcurement.Core.Pagination
import SmartProcurement.Core.Uuids
import SmartProcurement.Domain.MapService
import SmartProcurement.Integration.Connectors.File
import SmartProcurement.Relational.Batch

namespace SmartProcurement.Domain

open Relational Transaction Integration
open Integration.Connectors (Builtins python)

/-! # The rows of the domain map

A page of rows gets the business names of what it refers to.  The ids of the whole
page are pooled and loaded by one query a target, and joined to the rows again.
-/

/-- `_LABELABLE`. -/
def labelable : List Entity := [.item, .warehouse, .supplier]

/-- `_referenceable_fk_columns`. -/
def referenceableFkColumns (entity : Entity) : List (String × Entity) :=
  (columns entity).filterMap fun column =>
    (column.references.filter (· ∈ labelable)).map fun target => (column.name, target)

structure ReferencePayload where
  entity : Entity
  id : String
  label : String
  naturalKey : String × String
  name : String
deriving DecidableEq

/-- A text column that is never null. -/
def textColumn (row : Row) (column : String) : String :=
  match row.col column with
  | .text text => text
  | _ => ""

def naturalKeyColumn (entity : Entity) : String := if entity = .item then "sku" else "code"

def referencePayload (entity : Entity) (obj : Row) : ReferencePayload :=
  let naturalKey := textColumn obj (naturalKeyColumn entity)
  let name := textColumn obj "name"
  { entity
    id := uuidText obj.id
    label := if name = "" then naturalKey else naturalKey ++ " — " ++ name
    naturalKey := (naturalKeyColumn entity, naturalKey)
    name }

/-- `provenance` of a row that is returned. -/
structure ProvenanceOut where
  dataSourceId : Option String
  dataSourceName : Option String
  sourceFields : List String
  fetchedAt : Json

/-- A row that is returned: its columns and what is attached to them. -/
structure MapRow where
  columns : List (String × Json)
  references : Option (List (String × ReferencePayload))
  provenance : Option ProvenanceOut

/-! ## References -/

/-- `ids_by_entity[target]`. -/
def idsOf (entity : Entity) (rows : List Row) (target : Entity) : List Uuid :=
  (rows.flatMap fun row => (referenceableFkColumns entity).filterMap fun (column, other) =>
    if other = target then row.uuid? column else none).dedup

/-- `loaded.get(target, {})`, by one query where there are ids. -/
def loaded (enterpriseId : Uuid) (entity : Entity) (rows : List Row) (db : DB) (target : Entity) : List (Uuid × Row) :=
  let ids := idsOf entity rows target
  if ids.isEmpty then []
  else ((db.canonical target).rows.filter fun obj => obj.enterpriseId = enterpriseId ∧ obj.id ∈ ids).map fun obj => (obj.id, obj)

def resolvedReferences (entity : Entity) (found : Entity → List (Uuid × Row)) (row : Row) :
    List (String × ReferencePayload) :=
  (referenceableFkColumns entity).filterMap fun (column, target) =>
    (row.uuid? column).bind fun id => ((found target).lookup id).map fun obj => (column, referencePayload target obj)

/-- `_attach_references`; rows and serialized rows are joined by `zip(strict=True)`. -/
def attachReferences (enterpriseId : Uuid) (entity : Entity) (rows : List Row) (serialized : List MapRow) (db : DB) :
    Except Error (List MapRow) :=
  if (referenceableFkColumns entity).isEmpty then .ok serialized
  else if rows.length ≠ serialized.length then .error (.other "ValueError")
  else
    .ok (rows.zipWith (fun row out =>
      { out with references := some (resolvedReferences entity (loaded enterpriseId entity rows db) row) }) serialized)

/-! ## Provenance -/

def attributeError : Error := .other "AttributeError"

section Provenance

variable (builtins : Builtins)

/-- `out.get("source_provenance") or {}`, as far as it has a method `get`. -/
def storedProvenance (out : MapRow) : Except Error (List (String × Json)) :=
  match out.columns.lookup "source_provenance" with
  | none => .ok []
  | some (.object fields) => .ok fields
  | some value => if builtins.truthy value then .error attributeError else .ok []

/-- `_as_uuid`. -/
def asUuid (raw : Json) : Option Uuid := uuidOf? (builtins.text raw)

def rawSourceId (stored : List (String × Json)) : Json := (stored.lookup "data_source_id").getD .null

/-- `sp.get("source_field_path") or ""`, as far as it has a method `split`. -/
def fieldPath (stored : List (String × Json)) : Except Error String :=
  match stored.lookup "source_field_path" with
  | none => .ok ""
  | some (.string path) => .ok path
  | some value => if builtins.truthy value then .error attributeError else .ok ""

def provenanceOut (nameOf : Uuid → Option String) (out : MapRow) : Except Error MapRow := do
  let stored ← storedProvenance builtins out
  let raw := rawSourceId stored
  let path ← fieldPath builtins stored
  return { out with
    provenance := some {
      dataSourceId := if builtins.truthy raw then some (builtins.text raw) else none
      dataSourceName := (asUuid builtins raw).bind nameOf
      sourceFields := Domain.sourceFields path
      fetchedAt := (stored.lookup "fetched_at").getD .null } }

/-- `_attach_provenance`: the ids of all rows, one query, then row by row. -/
def attachProvenanceOut (enterpriseId : Uuid) (serialized : List MapRow) (db : DB) : Except Error (List MapRow) := do
  let stored ← serialized.mapM (storedProvenance builtins)
  let wanted := (stored.filterMap fun stored => asUuid builtins (rawSourceId stored)).dedup
  let names := if wanted.isEmpty then [] else getSourceNames enterpriseId wanted db
  serialized.mapM (provenanceOut builtins (List.lookup · names))

def attach (enterpriseId : Uuid) (entity : Entity) (rows : List Row) (serialized : List MapRow) (db : DB) :
    Except Error (List MapRow) := do
  let referenced ← attachReferences enterpriseId entity rows serialized db
  attachProvenanceOut builtins enterpriseId referenced db

end Provenance

/-! ## Row by row -/

/-- The row with an id, if it is the enterprise's own. -/
def ownRow (enterpriseId : Uuid) (target : Entity) (db : DB) (id : Uuid) : Option Row :=
  ((db.canonical target).find? id).filter (·.enterpriseId = enterpriseId)

def sourceName (enterpriseId : Uuid) (db : DB) (id : Uuid) : Option String :=
  ((db.dataSource.find? id).filter (·.enterpriseId = enterpriseId)).map (·.name)

/-- The references of one row, each by a query of its own. -/
def rowReferences (enterpriseId : Uuid) (entity : Entity) (db : DB) (row : Row) : List (String × ReferencePayload) :=
  (referenceableFkColumns entity).filterMap fun (column, target) =>
    (row.uuid? column).bind fun id => (ownRow enterpriseId target db id).map fun obj => (column, referencePayload target obj)

def withReferences (enterpriseId : Uuid) (entity : Entity) (db : DB) (row : Row) (out : MapRow) : MapRow :=
  if (referenceableFkColumns entity).isEmpty then out
  else { out with references := some (rowReferences enterpriseId entity db row) }

/-- What is attached to one row, without regard to the others. -/
def attachRow (builtins : Builtins) (enterpriseId : Uuid) (entity : Entity) (db : DB) (row : Row) (out : MapRow) :
    Except Error MapRow :=
  provenanceOut builtins (sourceName enterpriseId db) (withReferences enterpriseId entity db row out)

section Rowwise

variable {builtins : Builtins} {enterpriseId id : Uuid} {entity target : Entity} {db : DB} {row : Row} {rows : List Row}
variable {out : MapRow} {serialized : List MapRow} {column : String}

theorem mem_idsOf (member : row ∈ rows) (fk : (column, target) ∈ referenceableFkColumns entity)
    (refers : row.uuid? column = some id) :
    id ∈ idsOf entity rows target := by
  rw [idsOf, List.mem_dedup, List.mem_flatMap]
  refine ⟨row, member, List.mem_filterMap.mpr ⟨(column, target), fk, ?_⟩⟩
  simp [refers]

theorem lookup_loaded (member : row ∈ rows) (fk : (column, target) ∈ referenceableFkColumns entity)
    (refers : row.uuid? column = some id) :
    (loaded enterpriseId entity rows db target).lookup id = ownRow enterpriseId target db id := by
  have wanted := mem_idsOf member fk refers
  have some : ¬ (idsOf entity rows target).isEmpty = true := by
    intro nothing
    rw [List.isEmpty_iff.mp nothing] at wanted
    cases wanted
  have batch := (db.canonical target).lookup_batch id
    (fun obj => decide (obj.enterpriseId = enterpriseId ∧ obj.id ∈ idsOf entity rows target)) (fun obj => obj)
  unfold loaded ownRow
  dsimp only
  rw [if_neg some]
  refine batch.trans ?_
  rw [Option.map_id']
  cases found : (db.canonical target).find? id with
  | none => rfl
  | some obj =>
      have own : obj.id = id := (Table.find?_some found).2
      simp [Option.filter, own, wanted]

theorem attachReferences_eq (aligned : rows.length = serialized.length) :
    attachReferences enterpriseId entity rows serialized db =
      .ok (rows.zipWith (withReferences enterpriseId entity db) serialized) := by
  unfold attachReferences withReferences
  split
  · rw [← List.map_uncurry_zip_eq_zipWith]
    change _ = Except.ok ((rows.zip serialized).map Prod.snd)
    rw [List.map_snd_zip (by omega)]
  · rw [if_neg (by omega)]
    refine congrArg Except.ok ?_
    rw [← List.map_uncurry_zip_eq_zipWith, ← List.map_uncurry_zip_eq_zipWith, List.map_inj_left]
    rintro ⟨row, out⟩ paired
    have member : row ∈ rows := (List.of_mem_zip paired).1
    have same : resolvedReferences entity (loaded enterpriseId entity rows db) row = rowReferences enterpriseId entity db row := by
      apply List.filterMap_congr
      rintro ⟨column, target⟩ fk
      dsimp only
      cases refers : row.uuid? column with
      | none => rfl
      | some id => rw [Option.bind_some, Option.bind_some, lookup_loaded member fk refers]
    simp only [Function.uncurry, same]

theorem refuses_storedProvenance (out : MapRow) : Refuses (· = attributeError) (storedProvenance builtins out) := by
  unfold storedProvenance
  repeat' split
  all_goals first
    | exact refuses_ok _
    | exact refuses_error rfl

theorem refuses_fieldPath (stored : List (String × Json)) :
    Refuses (· = attributeError) (fieldPath builtins stored) := by
  unfold fieldPath
  repeat' split
  all_goals first
    | exact refuses_ok _
    | exact refuses_error rfl

theorem refuses_provenanceOut (nameOf : Uuid → Option String) (out : MapRow) :
    Refuses (· = attributeError) (provenanceOut builtins nameOf out) := by
  refine (refuses_storedProvenance out).bind fun stored _ => ?_
  exact (refuses_fieldPath stored).bind fun _ _ => refuses_ok _

theorem lookup_names {ids : List Uuid} (wanted : id ∈ ids) :
    (getSourceNames enterpriseId ids db).lookup id = sourceName enterpriseId db id := by
  have batch := db.dataSource.lookup_batch id
    (fun source => decide (source.enterpriseId = enterpriseId ∧ source.id ∈ ids)) (·.name)
  unfold getSourceNames sourceName
  refine batch.trans ?_
  cases found : db.dataSource.find? id with
  | none => rfl
  | some source =>
      have own : source.id = id := (Table.find?_some found).2
      simp [Option.filter, own, wanted]

theorem provenanceOut_congr {nameOf other : Uuid → Option String}
    (same : ∀ stored id, storedProvenance builtins out = .ok stored →
    asUuid builtins (rawSourceId stored) = some id → nameOf id = other id) :
    provenanceOut builtins nameOf out = provenanceOut builtins other out := by
  unfold provenanceOut
  cases read : storedProvenance builtins out with
  | error reason => rfl
  | ok stored =>
      have named : (asUuid builtins (rawSourceId stored)).bind nameOf = (asUuid builtins (rawSourceId stored)).bind other := by
        cases isId : asUuid builtins (rawSourceId stored) with
        | none => rfl
        | some id => exact same stored id read isId
      simp only [bind, Except.bind, named]

theorem attachProvenanceOut_eq (serialized : List MapRow) : attachProvenanceOut builtins enterpriseId serialized db =
    serialized.mapM (provenanceOut builtins (sourceName enterpriseId db)) := by
  unfold attachProvenanceOut
  cases read : serialized.mapM (storedProvenance builtins) with
  | error reason =>
      -- the row that is no dictionary fails row by row as well
      obtain ⟨out, member, failed⟩ : ∃ out ∈ serialized, ∀ stored, storedProvenance builtins out ≠ .ok stored := by
        by_contra all
        push Not at all
        obtain ⟨results, ran⟩ := exists_mapM_iff.mpr all
        cases ran.symm.trans read
      have only : reason = attributeError := refuses_mapM (fun out _ => refuses_storedProvenance out) reason read
      have raised : provenanceOut builtins (sourceName enterpriseId db) out = .error attributeError := by
        cases result : storedProvenance builtins out with
        | ok stored => exact absurd result (failed stored)
        | error other =>
            obtain rfl := refuses_storedProvenance out other result
            simp only [provenanceOut, result, bind, Except.bind]
      rw [mapM_eq_error (fun out _ => refuses_provenanceOut _ out) member raised, only]
      rfl
  | ok stored =>
      change serialized.mapM _ = _
      apply mapM_congr
      intro out member
      apply provenanceOut_congr
      intro own id isOwn isId
      obtain ⟨found, listed, same⟩ := mem_of_mapM read member
      obtain rfl := Except.ok.inj (same.symm.trans isOwn)
      have wanted : id ∈ (stored.filterMap fun stored => asUuid builtins (rawSourceId stored)).dedup :=
        List.mem_dedup.mpr (List.mem_filterMap.mpr ⟨found, listed, isId⟩)
      rw [if_neg (by simpa using List.ne_nil_of_mem wanted)]
      exact lookup_names wanted

/-- Resolving a page at once is resolving its rows one by one. -/
theorem attach_eq (aligned : rows.length = serialized.length) : attach builtins enterpriseId entity rows serialized db =
    (rows.zip serialized).mapM fun (row, out) => attachRow builtins enterpriseId entity db row out := by
  unfold attach
  rw [attachReferences_eq aligned]
  change attachProvenanceOut builtins enterpriseId _ db = _
  rw [attachProvenanceOut_eq, ← List.map_uncurry_zip_eq_zipWith, List.mapM_map]
  rfl

end Rowwise

/-! ## What a row gets -/

/-- The entry is of a foreign key to a master that is the enterprise's own, and describes that master. -/
def RefersTo (enterpriseId : Uuid) (entity : Entity) (db : DB) (row : Row) (column : String)
    (payload : ReferencePayload) : Prop :=
  ∃ target id, (∃ fk ∈ columns entity, fk.name = column ∧ fk.references = some target) ∧ target ∈ labelable ∧
    row.col column = .uuid id ∧
    ∃ obj ∈ (db.canonical target).rows, obj.id = id ∧ obj.enterpriseId = enterpriseId ∧ payload = referencePayload target obj

/-- The enterprise has a data source with this id and name. -/
def NamedSource (enterpriseId : Uuid) (db : DB) (id : Uuid) (name : String) : Prop :=
  ∃ source ∈ db.dataSource.rows, source.id = id ∧ source.enterpriseId = enterpriseId ∧ source.name = name

/-- What is attached to a row says exactly what its enterprise has under the ids that the row names. -/
structure AttachedTo (builtins : Builtins) (enterpriseId : Uuid) (entity : Entity) (db : DB) (row : Row)
    (out result : MapRow) :
    Prop where
  columns : result.columns = out.columns
  references : referenceableFkColumns entity ≠ [] → ∃ references, result.references = some references ∧
    (references.map Prod.fst).Nodup ∧
    ∀ column payload, (column, payload) ∈ references ↔ RefersTo enterpriseId entity db row column payload
  provenance : ∃ stored view, storedProvenance builtins out = .ok stored ∧ result.provenance = some view ∧
    ∀ name, view.dataSourceName = some name ↔
      ∃ id, asUuid builtins (rawSourceId stored) = some id ∧ NamedSource enterpriseId db id name

/-- The two states differ in rows of other enterprises only. -/
structure SameEnterprise (enterpriseId : Uuid) (db other : DB) : Prop where
  rows : ∀ target, ∀ row, row.enterpriseId = enterpriseId →
    (row ∈ (db.canonical target).rows ↔ row ∈ (other.canonical target).rows)
  sources : ∀ source, source.enterpriseId = enterpriseId → (source ∈ db.dataSource.rows ↔ source ∈ other.dataSource.rows)

/-- A page is resolved row by row, from the rows of the enterprise alone. -/
structure ResolvedRowwise (builtins : Builtins) (enterpriseId : Uuid) (entity : Entity) (rows : List Row)
    (serialized : List MapRow) (db : DB) : Prop where
  rowwise : attach builtins enterpriseId entity rows serialized db =
    (rows.zip serialized).mapM fun (row, out) => attachRow builtins enterpriseId entity db row out
  exact : ∀ row out result, attachRow builtins enterpriseId entity db row out = .ok result →
    AttachedTo builtins enterpriseId entity db row out result
  isolated : ∀ other, SameEnterprise enterpriseId db other →
    attach builtins enterpriseId entity rows serialized other = attach builtins enterpriseId entity rows serialized db

section Attached

variable {builtins : Builtins} {enterpriseId id : Uuid} {entity target : Entity} {db other : DB} {row obj : Row}
    {rows : List Row}
variable {out result : MapRow} {serialized : List MapRow} {column name : String} {payload : ReferencePayload}

theorem ownRow_eq_some_iff : ownRow enterpriseId target db id = some obj ↔
    obj ∈ (db.canonical target).rows ∧ obj.id = id ∧ obj.enterpriseId = enterpriseId := by
  rw [ownRow, Option.filter_eq_some_iff, Table.find?_eq_some_iff, decide_eq_true_eq, and_assoc]
  rfl

theorem sourceName_eq_some_iff : sourceName enterpriseId db id = some name ↔ NamedSource enterpriseId db id name := by
  simp only [sourceName, Option.map_eq_some_iff, Option.filter_eq_some_iff, Table.find?_eq_some_iff, decide_eq_true_eq]
  constructor
  · rintro ⟨source, ⟨⟨member, own⟩, owner⟩, same⟩
    exact ⟨source, member, own, owner, same⟩
  · rintro ⟨source, member, own, owner, same⟩
    exact ⟨source, ⟨⟨member, own⟩, owner⟩, same⟩

theorem mem_referenceableFkColumns : (column, target) ∈ referenceableFkColumns entity ↔
    (∃ fk ∈ columns entity, fk.name = column ∧ fk.references = some target) ∧ target ∈ labelable := by
  simp only [referenceableFkColumns, List.mem_filterMap, Option.map_eq_some_iff, Option.filter_eq_some_iff, decide_eq_true_eq,
    Prod.mk.injEq]
  constructor
  · rintro ⟨fk, listed, _, ⟨refers, isMaster⟩, rfl, rfl⟩
    exact ⟨⟨fk, listed, rfl, refers⟩, isMaster⟩
  · rintro ⟨⟨fk, listed, rfl, refers⟩, isMaster⟩
    exact ⟨fk, listed, target, ⟨refers, isMaster⟩, rfl, rfl⟩

theorem fkColumns_nodup (entity : Entity) : ((referenceableFkColumns entity).map Prod.fst).Nodup := by
  cases entity <;> decide

theorem uuid?_eq_some_iff : row.uuid? column = some id ↔ row.col column = .uuid id := by
  unfold Row.uuid? Value.uuid?
  cases row.col column <;> simp

theorem mem_rowReferences : (column, payload) ∈ rowReferences enterpriseId entity db row ↔
    RefersTo enterpriseId entity db row column payload := by
  simp only [rowReferences, List.mem_filterMap, Prod.exists, Option.bind_eq_some_iff, Option.map_eq_some_iff, Prod.mk.injEq,
    mem_referenceableFkColumns, uuid?_eq_some_iff, ownRow_eq_some_iff]
  constructor
  · rintro ⟨_, target, ⟨fk, isMaster⟩, id, refers, obj, ⟨member, own, owner⟩, rfl, rfl⟩
    exact ⟨target, id, fk, isMaster, refers, obj, member, own, owner, rfl⟩
  · rintro ⟨target, id, fk, isMaster, refers, obj, member, own, owner, rfl⟩
    exact ⟨column, target, ⟨fk, isMaster⟩, id, refers, obj, ⟨member, own, owner⟩, rfl, rfl⟩

theorem rowReferences_nodup : ((rowReferences enterpriseId entity db row).map Prod.fst).Nodup := by
  have sub : ((rowReferences enterpriseId entity db row).map Prod.fst).Sublist ((referenceableFkColumns entity).map Prod.fst) := by
    unfold rowReferences
    induction referenceableFkColumns entity with
    | nil => exact List.Sublist.refl _
    | cons first rest ih =>
        rw [List.filterMap_cons]
        split
        · exact ih.cons _
        · next attached =>
          obtain ⟨_, _, mapped⟩ := Option.bind_eq_some_iff.mp attached
          obtain ⟨_, _, rfl⟩ := Option.map_eq_some_iff.mp mapped
          exact ih.cons_cons _
  exact sub.nodup (fkColumns_nodup entity)

theorem attachRow_ok (ran : attachRow builtins enterpriseId entity db row out = .ok result) :
    AttachedTo builtins enterpriseId entity db row out result := by
  have same : (withReferences enterpriseId entity db row out).columns = out.columns := by
    unfold withReferences
    split <;> rfl
  have sameStored : storedProvenance builtins (withReferences enterpriseId entity db row out) = storedProvenance builtins out := by
    unfold storedProvenance
    rw [same]
  unfold attachRow provenanceOut at ran
  rw [sameStored] at ran
  cases read : storedProvenance builtins out with
  | error reason => simp [read, bind, Except.bind] at ran
  | ok stored =>
      cases path : fieldPath builtins stored with
      | error reason => simp [read, path, bind, Except.bind] at ran
      | ok path =>
          simp only [read, path, bind, Except.bind, pure, Except.pure, Except.ok.injEq] at ran
          subst ran
          refine ⟨same, fun referring => ⟨rowReferences enterpriseId entity db row, ?_, rowReferences_nodup, fun _ _ => mem_rowReferences⟩,
            ⟨stored, _, read, rfl, fun name => ?_⟩⟩
          · change (withReferences enterpriseId entity db row out).references = _
            rw [withReferences, if_neg (by simpa using referring)]
          · rw [Option.bind_eq_some_iff]
            simp only [sourceName_eq_some_iff]

theorem attachRow_isolated (same : SameEnterprise enterpriseId db other) (row : Row) (out : MapRow) :
    attachRow builtins enterpriseId entity other row out = attachRow builtins enterpriseId entity db row out := by
  have owned (target : Entity) : ownRow enterpriseId target other = ownRow enterpriseId target db := by
    funext id
    ext obj
    rw [ownRow_eq_some_iff, ownRow_eq_some_iff]
    exact ⟨fun ⟨member, own, owner⟩ => ⟨(same.rows target obj owner).mpr member, own, owner⟩,
      fun ⟨member, own, owner⟩ => ⟨(same.rows target obj owner).mp member, own, owner⟩⟩
  have named : sourceName enterpriseId other = sourceName enterpriseId db := by
    funext id
    ext name
    rw [sourceName_eq_some_iff, sourceName_eq_some_iff]
    exact ⟨fun ⟨source, member, own, owner, isName⟩ => ⟨source, (same.sources source owner).mpr member, own, owner, isName⟩,
      fun ⟨source, member, own, owner, isName⟩ => ⟨source, (same.sources source owner).mp member, own, owner, isName⟩⟩
  have referred : rowReferences enterpriseId entity other row = rowReferences enterpriseId entity db row := by
    unfold rowReferences
    exact List.filterMap_congr fun fk _ => by simp only [owned]
  unfold attachRow withReferences
  rw [named, referred]

/-- Batched resolution is resolution row by row. -/
theorem resolved_rowwise (builtins : Builtins) (enterpriseId : Uuid) (entity : Entity) (db : DB)
    (aligned : rows.length = serialized.length) : ResolvedRowwise builtins enterpriseId entity rows serialized db where
  rowwise := attach_eq aligned
  exact _ _ _ ran := attachRow_ok ran
  isolated other same := by
    rw [attach_eq aligned, attach_eq aligned]
    exact mapM_congr fun pair _ => attachRow_isolated same pair.1 pair.2

end Attached

/-- Two stock rows of the first enterprise: one of its own bolt, one of a nut that belongs to the second. -/
def twoTenants : DB :=
  sheetWithSource.setCanonical .item
    ((Table.empty.insert (.ofColumns 1 .fresh none [("sku", .text "bolt"), ("name", .text "Bolt M8")])).insert
      (.ofColumns 2 .fresh none [("sku", .text "nut"), ("name", .text "Nut M8")]))

def stockOf (itemId : Uuid) : Row := .ofColumns 1 .fresh none [("item_id", .uuid itemId)]

def readFrom (dataSourceId : String) : MapRow where
  columns := [("source_provenance", .object [("data_source_id", .string dataSourceId), ("source_field_path", .string "sku, qty")])]
  references := none
  provenance := none

/-- The second row refers to the foreign nut, and its source is no UUID. -/
theorem twoTenants_resolved : ResolvedRowwise python 1 .stockLevel [stockOf 1, stockOf 2]
    [readFrom (uuidText 1), readFrom "sheet"] twoTenants :=
  resolved_rowwise python 1 .stockLevel twoTenants rfl

example : rowReferences 1 .stockLevel twoTenants (stockOf 1) =
      [("item_id", ⟨.item, uuidText 1, "bolt — Bolt M8", ("sku", "bolt"), "Bolt M8"⟩)] ∧
    rowReferences 1 .stockLevel twoTenants (stockOf 2) = [] := by
  decide +kernel

/-! ## The endpoint -/

/-- How numbers and times are written. -/
structure Rendering where
  float : Numeric.Decimal → String
  isodate : Date → String
  isoformat : Timestamp → String

/-- The keys of `ENTITY_MODELS`. -/
def entityModels : List Entity := [
  .item, .warehouse, .supplier, .stockLevel, .itemSupplier, .price, .leadTime, .purchaseOrder, .consumption,
  .productionDemand, .qualityRecord]

def resolveModel (builtins : Builtins) (entity : String) : Except Error Entity :=
  let name := String.ofList (entity.toList.map fun char => if char = '-' then '_' else char)
  match entityModels.find? fun model => model.name = name with
  | none => .error (.notFound ("unknown domain entity " ++ builtins.repr entity))
  | some model => .ok model

/-- `order_by(created_at, id)`. -/
def createdBefore (first second : Row) : Prop :=
  first.createdAt < second.createdAt ∨ first.createdAt = second.createdAt ∧ first.id ≤ second.id

instance (first second : Row) : Decidable (createdBefore first second) := inferInstanceAs (Decidable (_ ∨ _))

/-- The rows of the statement. -/
def entityRows (enterpriseId : Uuid) (entity : Entity) (db : DB) : List Row :=
  ((db.canonical entity).rows.filter fun row => row.enterpriseId = enterpriseId).insertionSort createdBefore

section Endpoint

variable (rendering : Rendering)

def renderValue : Value → Json
  | .null => .null
  | .text text => .string text
  | .decimal value => .number (rendering.float value)
  | .bool value => .bool value
  | .date value => .string (rendering.isodate value)
  | .timestamp value => .string (rendering.isoformat value)
  | .uuid id => .string (uuidText id)
  | .other shown => .string shown

/-- The object that a sync stores as the provenance. -/
def provenanceObject : Option Provenance → List (String × Json)
  | none => []
  | some stored => [
      ("data_source_id", .string (uuidText stored.dataSourceId)),
      ("source_field_path", .string stored.sourceFieldPath),
      ("fetched_at", .string (rendering.isoformat stored.fetchedAt))]

def observabilityText : Observability → String
  | .fresh => "fresh"
  | .stale => "stale"
  | .lost => "lost"

/-- `_serialize`. -/
def serialize (entity : Entity) (row : Row) : MapRow where
  columns := [
    ("id", .string (uuidText row.id)),
    ("created_at", .string (rendering.isoformat row.createdAt)),
    ("enterprise_id", .string (uuidText row.enterpriseId)),
    ("source_provenance", .object (provenanceObject rendering row.sourceProvenance)),
    ("observability", .string (observabilityText row.observability))] ++
      (ownColumns entity).map fun column => (column.name, renderValue rendering (row.col column.name))
  references := none
  provenance := none

def domainEntityRows (builtins : Builtins) (maxDigits : Nat) (enterpriseId : Uuid) (entity : String)
    (limit : Option Int) (cursor : Option String) : Session (List MapRow × Option String) := do
  let model ← lift (resolveModel builtins entity)
  let (rows, nextCursor) ← read fun db => Pagination.paginate maxDigits (entityRows enterpriseId model db) limit cursor
  let attached ← lift (← read (attach builtins enterpriseId model rows (rows.map (serialize rendering model))))
  return (attached, nextCursor)

end Endpoint

section Shown

variable {rendering : Rendering} {builtins : Builtins} {maxDigits : Nat} {enterpriseId : Uuid} {entity : Entity}
    {db : DB}
variable {row : Row}

theorem mem_entityRows : row ∈ entityRows enterpriseId entity db ↔
    row ∈ (db.canonical entity).rows ∧ row.enterpriseId = enterpriseId := by
  rw [entityRows, List.mem_insertionSort, List.mem_filter, decide_eq_true_eq]

theorem entityRows_nodup : (entityRows enterpriseId entity db).Nodup := by
  unfold entityRows
  rw [(List.perm_insertionSort _ _).nodup_iff]
  exact (List.Nodup.of_map _ (db.canonical entity).distinct).filter _

theorem storedProvenance_serialize (row : Row) : storedProvenance builtins (serialize rendering entity row) =
    .ok (provenanceObject rendering row.sourceProvenance) := rfl

theorem fieldPath_provenanceObject (stored : Option Provenance) :
    fieldPath builtins (provenanceObject rendering stored) =
    .ok ((stored.map (·.sourceFieldPath)).getD "") := by
  cases stored <;> rfl

/-- What a stored row is shown as. -/
def shownRow (rendering : Rendering) (builtins : Builtins) (enterpriseId : Uuid) (entity : Entity) (db : DB)
    (row : Row) : MapRow :=
  let stored := provenanceObject rendering row.sourceProvenance
  let raw := rawSourceId stored
  { withReferences enterpriseId entity db row (serialize rendering entity row) with
    provenance := some {
      dataSourceId := if builtins.truthy raw then some (builtins.text raw) else none
      dataSourceName := (asUuid builtins raw).bind (sourceName enterpriseId db)
      sourceFields := sourceFields ((row.sourceProvenance.map (·.sourceFieldPath)).getD "")
      fetchedAt := (stored.lookup "fetched_at").getD .null } }

theorem attachRow_serialize (row : Row) :
    attachRow builtins enterpriseId entity db row (serialize rendering entity row) =
    .ok (shownRow rendering builtins enterpriseId entity db row) := by
  have stored : storedProvenance builtins (withReferences enterpriseId entity db row (serialize rendering entity row)) =
      .ok (provenanceObject rendering row.sourceProvenance) := by
    unfold withReferences
    split
    · exact storedProvenance_serialize row
    · rfl
  unfold attachRow provenanceOut
  rw [stored]
  simp only [bind, Except.bind, fieldPath_provenanceObject]
  rfl

/-- A page that the database stores is always shown, row by row. -/
theorem domainEntityRows_eq {name : String} {limit : Option Int} {cursor nextCursor : Option String} {rows : List Row}
    (known : resolveModel builtins name = .ok entity)
    (page : Pagination.paginate maxDigits (entityRows enterpriseId entity db) limit cursor = (rows, nextCursor)) :
    domainEntityRows rendering builtins maxDigits enterpriseId name limit cursor db =
      .ok (rows.map (shownRow rendering builtins enterpriseId entity db), nextCursor) db := by
  have attached : attach builtins enterpriseId entity rows (rows.map (serialize rendering entity)) db =
      .ok (rows.map (shownRow rendering builtins enterpriseId entity db)) := by
    rw [attach_eq (by simp)]
    clear page
    induction rows with
    | nil => rfl
    | cons row rest ih =>
        rw [List.map_cons, List.zip_cons_cons, List.mapM_cons, ih]
        dsimp only
        rw [attachRow_serialize]
        rfl
  unfold domainEntityRows
  refine (bind_of_ok (lift_eq_ok.mpr ⟨known, rfl⟩)).trans ?_
  have read : (read fun db => Pagination.paginate maxDigits (entityRows enterpriseId entity db) limit cursor : Session _) db =
      .ok (rows, nextCursor) db := read_eq_ok.mpr ⟨page, rfl⟩
  refine (bind_of_ok read).trans ?_
  refine (bind_of_ok (read_eq_ok.mpr ⟨rfl, rfl⟩)).trans ?_
  exact bind_of_ok (lift_eq_ok.mpr ⟨attached, rfl⟩)

/-- Following the cursors of the map shows every row of the enterprise once. -/
theorem followed_entityRows {limit : Option Int} {pages : List (List Row)}
    (legible : Text.Legible maxDigits (entityRows enterpriseId entity db).length)
    (followed : Pagination.Followed maxDigits (entityRows enterpriseId entity db) limit none pages) :
    pages.flatten.Nodup ∧ ∀ row, row ∈ pages.flatten ↔ row ∈ (db.canonical entity).rows ∧ row.enterpriseId = enterpriseId := by
  have listed : pages.flatten = entityRows enterpriseId entity db := (followed.lists legible).1
  rw [listed]
  exact ⟨entityRows_nodup, fun _ => mem_entityRows⟩

/-- The name and the fields shown are those of the view of stored rows. -/
theorem shownRow_view {page : List Row} {provenance : Provenance} (member : row ∈ page)
    (stored : row.sourceProvenance = some provenance) (small : provenance.dataSourceId < 2 ^ 128) :
    ∃ view ∈ attachProvenance enterpriseId page db, ∃ out,
      (shownRow rendering builtins enterpriseId entity db row).provenance = some out ∧
        out.dataSourceName = view.dataSourceName ∧ out.sourceFields = view.sourceFields := by
  refine ⟨_, List.mem_map_of_mem member, _, rfl, ?_, rfl⟩
  have wanted : provenance.dataSourceId ∈ page.filterMap fun row => row.sourceProvenance.map (·.dataSourceId) :=
    List.mem_filterMap.mpr ⟨row, member, by rw [stored]; rfl⟩
  have isId : asUuid builtins (.string (uuidText provenance.dataSourceId)) = some provenance.dataSourceId :=
    uuidOf?_uuidText small
  simp only [provenanceView, stored, Option.bind_some, lookup_names wanted]
  change (asUuid builtins (.string (uuidText provenance.dataSourceId))).bind (sourceName enterpriseId db) = _
  rw [isId, Option.bind_some]

end Shown

end SmartProcurement.Domain
