import SmartProcurement.Integration.SyncSteps

namespace SmartProcurement.Integration

open Relational Transaction

/-! # The row an upsert writes

The columns of the written row, its enterprise and its references, in terms of
the resolved attributes.
-/

/-! ## References of the row -/

/-- The id that the database reads in a foreign key column. -/
def heldReference (row : Row) (name : String) : Option Uuid :=
  match bindUuid name (row.col name) with
  | .ok held => held
  | .error _ => none

structure KeyColumn (entity : Entity) (name : String) (column : Column) : Prop where
  own : ownColumn? entity name = some column
  type : column.type = .uuid
  default : column.default = none
  typed : columnType? entity name = some .uuid
  suffix : endsWithId name = true
  other : name ≠ "enterprise_id"

theorem foreignKey_column {entity : Entity} {reference : Reference} (listed : reference ∈ (specs entity).refs) :
    ∃ column, KeyColumn entity (foreignKey reference.target) column := by
  have facts : ∀ reference ∈ (specs entity).refs,
      ((ownColumn? entity (foreignKey reference.target)).map fun column => (column.type, column.default)) =
        some (.uuid, none) ∧
      columnType? entity (foreignKey reference.target) = some .uuid ∧
      endsWithId (foreignKey reference.target) = true ∧ foreignKey reference.target ≠ "enterprise_id" := by
    cases entity <;> decide
  obtain ⟨own, typed, suffix, other⟩ := facts reference listed
  obtain ⟨column, own, same⟩ := Option.map_eq_some_iff.mp own
  obtain ⟨type, default⟩ := Prod.mk.inj same
  exact ⟨column, own, type, default, typed, suffix, other⟩

theorem ownColumn?_some {entity : Entity} {name : String} {column : Column}
    (own : ownColumn? entity name = some column) : column ∈ ownColumns entity ∧ column.name = name :=
  ⟨List.mem_of_find?_eq_some own, by simpa using List.find?_some own⟩

theorem heldReference_of_bind {row : Row} {name : String} {value : Value}
    (bound : ColumnType.uuid.bind name value = .ok (row.col name)) :
    bindUuid name value = .ok (heldReference row name) := by
  unfold heldReference bindUuid
  rw [bound, ColumnType.bind_idem bound]
  rfl

theorem bind_coerceAttr {entity : Entity} {key : String} (suffix : endsWithId key = true) (found : Option Raw) :
    found.bind (coerceAttr entity key) = found.map Value.ofRaw := by
  cases found with
  | none => rfl
  | some raw => exact coerceAttr_of_endsWithId suffix raw

theorem lookup_coerced_enterprise (entity : Entity) (resolved : Dict Raw) :
    (coerced entity resolved).lookup "enterprise_id" = (resolved.lookup "enterprise_id").map Value.ofRaw := by
  rw [lookup_coerced, if_neg (enterpriseId_not_identity entity), Option.or_none, bind_coerceAttr (by decide)]

theorem lookup_coerced_key {entity : Entity} {name : String} {column : Column}
    (key : KeyColumn entity name column) (resolved : Dict Raw) :
    (coerced entity resolved).lookup name = ((resolved.lookup name).map Value.ofRaw).or
      (if name ∈ (specs entity).identity then some .null else none) := by
  rw [lookup_coerced, bind_coerceAttr key.suffix]

/-- How the upsert of the resolved attributes leaves the references of a row. -/
structure References (entity : Entity) (resolved : Dict Raw) (held : String → Option Uuid) (stored : Row) :
    Prop where
  given : ∀ reference ∈ (specs entity).refs, ∀ raw, raw.blank = false →
    resolved.lookup (foreignKey reference.target) = some raw →
    bindUuid (foreignKey reference.target) (.ofRaw raw) =
      .ok (heldReference stored (foreignKey reference.target))
  absent : ∀ reference ∈ (specs entity).refs, resolved.lookup (foreignKey reference.target) = none →
    heldReference stored (foreignKey reference.target) = held (foreignKey reference.target)

theorem construct_col {entity : Entity} {now : Timestamp} {enterpriseId : Uuid} {provenance : Provenance}
    {attrs : Dict Value} {row : Row} {name : String} {column : Column}
    (constructed : construct entity now enterpriseId provenance attrs = .ok row)
    (own : ownColumn? entity name = some column) :
    row.col name = match attrs.lookup name with
      | none | some .null => column.default.getD .null
      | some value => value := by
  unfold construct at constructed
  split at constructed
  · cases constructed
  · split at constructed
    · cases constructed
    · cases constructed
      cases given : attrs.lookup name with
      | none => simp [own, given]
      | some value => cases value <;> simp [own, given]

theorem construct_tenantless {entity : Entity} {now : Timestamp} {enterpriseId : Uuid} {provenance : Provenance}
    {attrs : Dict Value} {row : Row}
    (constructed : construct entity now enterpriseId provenance attrs = .ok row) :
    attrs.lookup "enterprise_id" = none := by
  unfold construct at constructed
  split at constructed
  · cases constructed
  · next none => simpa using none

theorem storeRow_key {db : DB} {entity : Entity} {row stored : Row} {name : String} {column : Column}
    (key : KeyColumn entity name column) (kept : storeRow db entity row = .ok stored) :
    ColumnType.uuid.bind name (row.col name) = .ok (stored.col name) := by
  obtain ⟨member, named⟩ := ownColumn?_some key.own
  have stores := (storeRow_ok kept).2.2.1 column member
  rwa [key.type, named] at stores

theorem inserted_references {entity : Entity} {resolved : Dict Raw} {now : Timestamp} {enterpriseId : Uuid}
    {provenance : Provenance} {db : DB} {table : Table Row} {row stored : Row}
    (constructed : construct entity now enterpriseId provenance (coerced entity resolved) = .ok row)
    (kept : storeRow db entity (table.newRow row) = .ok stored) :
    References entity resolved (fun _ => none) stored := by
  refine ⟨fun reference listed raw filled found => ?_, fun reference listed missing => ?_⟩
  · obtain ⟨column, key⟩ := foreignKey_column listed
    have value : (table.newRow row).col (foreignKey reference.target) = .ofRaw raw := by
      change row.col _ = _
      rw [construct_col constructed key.own, lookup_coerced_key key, found]
      cases raw with
      | null => cases filled
      | _ => rfl
    have stores := storeRow_key key kept
    rw [value] at stores
    exact heldReference_of_bind stores
  · obtain ⟨column, key⟩ := foreignKey_column listed
    have value : (table.newRow row).col (foreignKey reference.target) = .null := by
      change row.col _ = _
      rw [construct_col constructed key.own, lookup_coerced_key key, missing, key.default]
      by_cases isIdentity : foreignKey reference.target ∈ (specs entity).identity
      · rw [if_pos isIdentity]
        rfl
      · rw [if_neg isIdentity]
        rfl
    have stores := storeRow_key key kept
    rw [value] at stores
    exact (Except.ok.inj (heldReference_of_bind stores)).symm

theorem updated_references {entity : Entity} {resolved : Dict Raw} {identity : List (String × Value)}
    {enterpriseId : Uuid} {provenance : Provenance} {db : DB} {rows : List Row} {existing changed stored : Row}
    (identified : identityValues entity (coerced entity resolved) = .ok identity)
    (only : rows.filter (hasIdentity enterpriseId identity) = [existing])
    (assigned : assignAttrs entity existing (coerced entity resolved) = .ok changed)
    (kept : storeRow db entity
      { changed with sourceProvenance := some provenance, observability := .fresh } = .ok stored) :
    References entity resolved (heldReference existing) stored := by
  have assigned := assignAttrs_ok assigned
  have bound := (existing_identity identified only).2.2
  have stores {name : String} {column : Column} (key : KeyColumn entity name column) :
      ColumnType.uuid.bind name (changed.col name) = .ok (stored.col name) := by
    have stores := storeRow_key key kept
    exact stores
  refine ⟨fun reference listed raw filled found => ?_, fun reference listed missing => ?_⟩
  · obtain ⟨column, key⟩ := foreignKey_column listed
    have given : (coerced entity resolved).lookup (foreignKey reference.target) = some (.ofRaw raw) := by
      rw [lookup_coerced_key key, found]
      rfl
    have stores := stores key
    by_cases isIdentity : foreignKey reference.target ∈ (specs entity).identity
    · have identifies := bound _ isIdentity
      rw [given, key.typed, Option.getD_some] at identifies
      rw [assigned.identity _ isIdentity, ColumnType.bind_idem identifies] at stores
      exact heldReference_of_bind (identifies.trans stores)
    · rw [assigned.given _ _ isIdentity (by simp [key.own]) given] at stores
      exact heldReference_of_bind stores
  · obtain ⟨column, key⟩ := foreignKey_column listed
    have stores := stores key
    have same : changed.col (foreignKey reference.target) = existing.col (foreignKey reference.target) := by
      by_cases isIdentity : foreignKey reference.target ∈ (specs entity).identity
      · exact assigned.identity _ isIdentity
      · refine assigned.absent _ ?_
        rw [lookup_coerced_key key, missing, if_neg isIdentity]
        rfl
    rw [same] at stores
    have held := heldReference_of_bind stores
    rw [heldReference.eq_def existing, held]

/-! ## The table an upsert leaves -/

/-- The table of the entity after an upsert for the enterprise. -/
inductive RowWritten (enterpriseId : Uuid) (entity : Entity) (resolved : Dict Raw) (table : Table Row) :
    Table Row → Prop where
  | created {identity : List (String × Value)} {stored : Row}
      (identified : identityValues entity (coerced entity resolved) = .ok identity)
      (missing : table.rows.filter (hasIdentity enterpriseId identity) = [])
      (owner : stored.enterpriseId = enterpriseId) (tenantless : resolved.lookup "enterprise_id" = none)
      (references : References entity resolved (fun _ => none) stored) :
      RowWritten enterpriseId entity resolved table (table.insert stored)
  | changed {identity : List (String × Value)} {existing stored : Row}
      (identified : identityValues entity (coerced entity resolved) = .ok identity)
      (only : table.rows.filter (hasIdentity enterpriseId identity) = [existing])
      (id : stored.id = existing.id) (createdAt : stored.createdAt = existing.createdAt)
      (stays : resolved.lookup "enterprise_id" = none → stored.enterpriseId = existing.enterpriseId)
      (moves : ∀ raw, resolved.lookup "enterprise_id" = some raw →
        bindUuid "enterprise_id" (.ofRaw raw) = .ok (some stored.enterpriseId))
      (keys : ∀ column ∈ ownColumns entity, column.name ∈ (specs entity).identity →
        column.type.bind column.name (existing.col column.name) = .ok (stored.col column.name))
      (references : References entity resolved (heldReference existing) stored) :
      RowWritten enterpriseId entity resolved table (table.update existing.id fun _ => stored)

theorem Diffed.canonical {context : SyncContext} {entity : Entity} {existing : Row} {attrs : Dict Value}
    {resolved : Dict Raw} {before after : DB} {signal : Option ObservationSignal}
    (diffed : Diffed context entity existing attrs resolved before signal after) :
    after.canonical = before.canonical := by
  cases diffed with
  | silent _ => rfl
  | emitted _ _ _ _ _ => rfl

theorem Upserted.written {context : SyncContext} {entity : Entity} {resolved : Dict Raw} {provenance : Provenance}
    {before after : DB} {signal : Option ObservationSignal}
    (step : Upserted context entity resolved provenance before signal after) :
    RowWritten context.enterpriseId entity resolved (before.canonical entity) (after.canonical entity) ∧
      ∀ other, other ≠ entity → after.canonical other = before.canonical other := by
  cases step with
  | @inserted identity row stored identified missing constructed kept =>
      refine ⟨?_, fun other different => DB.setCanonical_other _ _ different⟩
      rw [DB.setCanonical_self]
      have frame := (storeRow_ok kept).2.1
      refine .created identified missing (frame.enterprise.trans (construct_ok constructed).1) ?_
        (inserted_references constructed kept)
      have none := construct_tenantless constructed
      rwa [lookup_coerced_enterprise, Option.map_eq_none_iff] at none
  | @updated identity existing changed stored _ middle identified only diffed assigned kept =>
      have same := diffed.canonical
      refine ⟨?_, fun other different => (DB.setCanonical_other _ _ different).trans (congrFun same other)⟩
      rw [DB.setCanonical_self, same]
      have frame := (storeRow_ok kept).2.1
      have sets := assignAttrs_ok assigned
      refine .changed identified only (frame.id.trans sets.id) (frame.created.trans sets.created) ?_ ?_ ?_
        (updated_references identified only assigned kept)
      · intro none
        exact frame.enterprise.trans (sets.sameEnterprise (by rw [lookup_coerced_enterprise, none]; rfl))
      · intro raw given
        have moved := sets.otherEnterprise (.ofRaw raw) (by rw [lookup_coerced_enterprise, given]; rfl)
        rwa [← frame.enterprise] at moved
      · intro column listed isIdentity
        have stores := (storeRow_ok kept).2.2.1 column listed
        rwa [show changed.col column.name = existing.col column.name from sets.identity _ isIdentity] at stores

end SmartProcurement.Integration
