import SmartProcurement.Integration.UpsertedRows
import SmartProcurement.Relational.Identity

namespace SmartProcurement.Integration

open Relational Transaction

/-! # Identities of canonical rows

A row is known to sync by its enterprise and the identity columns of its entity.
An upsert looks the identity of a record up and either inserts a row with it or
overrides the row that has it.
-/

abbrev Identity := Uuid × List Value

def identityOf (entity : Entity) (row : Row) : Identity :=
  (row.enterpriseId, (specs entity).identity.map row.col)

def candidateKey (entity : Entity) (row : Row) : Option Identity := some (identityOf entity row)

/-- The own columns of a row by name, null elsewhere. -/
abbrev Attributes := String → Value

/-- A record that an upsert accepts: what it is of, and its coerced attributes. -/
structure Accepted where
  entity : Entity
  enterpriseId : Uuid
  attrs : Dict Value

namespace Accepted

/-- The identity that the record is looked up by. -/
def identity (accepted : Accepted) : Identity :=
  (accepted.enterpriseId, (specs accepted.entity).identity.map fun name =>
    ((columnType? accepted.entity name).getD .uuid).stored ((accepted.attrs.lookup name).getD .null))

/-- The attributes of a new row: a default is overridden by an attribute that has a value. -/
def inserted (accepted : Accepted) : Attributes := fun name =>
  match ownColumn? accepted.entity name with
  | none => .null
  | some column =>
      column.type.stored (match accepted.attrs.lookup name with
        | none | some .null => column.default.getD .null
        | some value => value)

/-- The attributes of a row that has the identity: those given are overridden. -/
def overridden (accepted : Accepted) (old : Attributes) : Attributes := fun name =>
  if name ∈ (specs accepted.entity).identity then old name
  else
    match ownColumn? accepted.entity name, accepted.attrs.lookup name with
    | some column, some value => column.type.stored value
    | _, _ => old name

end Accepted

/-! ## Lookups -/

section Lookups

variable {entity : Entity} {enterpriseId : Uuid} {attrs : Dict Value} {identity : List (String × Value)} {row : Row}

theorem identityValues_eq (identified : identityValues entity attrs = .ok identity) :
    identity = (specs entity).identity.map fun name =>
      (name, ((columnType? entity name).getD .uuid).stored ((attrs.lookup name).getD .null)) := by
  unfold identityValues at identified
  generalize (specs entity).identity = names at identified ⊢
  induction names generalizing identity with
  | nil =>
      obtain rfl := except_pure_eq_ok.mp identified
      rfl
  | cons first rest ih =>
      simp only [List.mapM_cons, except_bind_eq_ok, except_pure_eq_ok] at identified
      obtain ⟨_, ⟨value, bound, rfl⟩, others, later, rfl⟩ := identified
      rw [List.map_cons, ColumnType.stored_of_bind bound, ih later]

theorem hasIdentity_iff (identified : identityValues entity attrs = .ok identity) :
    hasIdentity enterpriseId identity row = true ↔
      identityOf entity row = Accepted.identity ⟨entity, enterpriseId, attrs⟩ := by
  obtain rfl := identityValues_eq identified
  simp only [hasIdentity, Bool.and_eq_true, decide_eq_true_eq, List.all_map, List.all_eq_true, identityOf,
    Accepted.identity, Prod.mk.injEq, List.map_inj_left, Function.comp_apply]

theorem filter_hasIdentity (identified : identityValues entity attrs = .ok identity) (rows : List Row) :
    rows.filter (hasIdentity enterpriseId identity) =
      rows.filter fun row => candidateKey entity row = some (Accepted.identity ⟨entity, enterpriseId, attrs⟩) := by
  refine List.filter_congr fun row _ => ?_
  rw [Bool.eq_iff_iff, hasIdentity_iff identified, decide_eq_true_eq, candidateKey, Option.some.injEq]

end Lookups

/-! ## Stored rows -/

structure Settled (entity : Entity) (row : Row) : Prop where
  bound : ∀ column ∈ ownColumns entity,
    column.type.bind column.name (row.col column.name) = .ok (row.col column.name)
  others : ∀ name, ownColumn? entity name = none → row.col name = .null

section Rows

variable {entity : Entity} {enterpriseId : Uuid} {resolved : Dict Raw} {provenance : Provenance} {db : DB}
variable {row stored existing changed : Row} {name : String}

theorem not_mem_of_ownColumn?_none (foreign : ownColumn? entity name = none) :
    name ∉ (ownColumns entity).map (·.name) := by
  intro member
  obtain ⟨column, listed, rfl⟩ := List.mem_map.mp member
  exact absurd (beq_self_eq_true column.name) (List.find?_eq_none.mp foreign column listed)

theorem ownColumn?_of_mem {column : Column} (listed : column ∈ ownColumns entity) :
    ownColumn? entity column.name = some column := by
  cases own : ownColumn? entity column.name with
  | none => exact absurd (List.mem_map_of_mem listed) (not_mem_of_ownColumn?_none own)
  | some other =>
      obtain ⟨otherListed, same⟩ := ownColumn?_some own
      rw [List.inj_on_of_nodup_map (ownColumns_nodup entity) otherListed listed same]

theorem storeRow_col (kept : storeRow db entity row = .ok stored) (name : String) :
    stored.col name = match ownColumn? entity name with
      | none => row.col name
      | some column => column.type.stored (row.col name) := by
  obtain ⟨_, _, binds, others⟩ := storeRow_ok kept
  cases own : ownColumn? entity name with
  | none => exact others name (not_mem_of_ownColumn?_none own)
  | some column =>
      obtain ⟨listed, rfl⟩ := ownColumn?_some own
      exact (ColumnType.stored_of_bind (binds column listed)).symm

theorem storeRow_settled (kept : storeRow db entity row = .ok stored)
    (others : ∀ name, ownColumn? entity name = none → row.col name = .null) : Settled entity stored where
  bound column listed := ColumnType.bind_idem ((storeRow_ok kept).2.2.1 column listed)
  others name foreign := by
    rw [storeRow_col kept, foreign]
    exact others name foreign

theorem Settled.still (settled : Settled entity row) {column : Column} (own : ownColumn? entity name = some column) :
    column.type.stored (row.col name) = row.col name := by
  obtain ⟨listed, rfl⟩ := ownColumn?_some own
  exact ColumnType.stored_of_bind (settled.bound column listed)

theorem construct_others {now : Timestamp} {attrs : Dict Value}
    (constructed : construct entity now enterpriseId provenance attrs = .ok row)
    (foreign : ownColumn? entity name = none) : row.col name = .null := by
  unfold construct at constructed
  split at constructed
  · cases constructed
  · split at constructed
    · cases constructed
    · cases constructed
      simp [foreign]

/-- The identity columns of an entity: of its own, without defaults, and typed. -/
theorem identity_column {name : String} (listed : name ∈ (specs entity).identity) :
    ∃ column, ownColumn? entity name = some column ∧ column.default = none ∧
      columnType? entity name = some column.type := by
  have facts : ∀ name ∈ (specs entity).identity,
      (ownColumn? entity name).map (·.default) = some none ∧
        (ownColumn? entity name).map (·.type) = columnType? entity name ∧ (ownColumn? entity name).isSome := by
    cases entity <;> decide
  obtain ⟨default, type, own⟩ := facts name listed
  obtain ⟨column, own⟩ := Option.isSome_iff_exists.mp own
  rw [own] at default type
  exact ⟨column, own, Option.some.inj default, type.symm⟩

theorem identity_of_unique {name : String} (constrained : uniqueColumn entity = some name) :
    (specs entity).identity = [name] := by
  cases entity <;> cases constrained <;> rfl

theorem inserted_col {now : Timestamp} {attrs : Dict Value} {id : Uuid}
    (constructed : construct entity now enterpriseId provenance attrs = .ok row)
    (kept : storeRow db entity { row with id } = .ok stored) :
    stored.col = Accepted.inserted ⟨entity, enterpriseId, attrs⟩ := by
  funext name
  rw [storeRow_col kept, Accepted.inserted]
  change (match ownColumn? entity name with
    | none => row.col name
    | some column => column.type.stored (row.col name)) = _
  cases own : ownColumn? entity name with
  | none => simp only [construct_others constructed own]
  | some column => exact congrArg column.type.stored (construct_col constructed own)

theorem inserted_identity (accepted : Accepted) :
    ((specs accepted.entity).identity.map accepted.inserted) = accepted.identity.2 := by
  refine List.map_congr_left fun name listed => ?_
  obtain ⟨column, own, default, type⟩ := identity_column listed
  simp only [Accepted.inserted, own, type, default, Option.getD_some, Option.getD_none]
  cases accepted.attrs.lookup name with
  | none => rfl
  | some value => cases value <;> rfl

structure Inserted (accepted : Accepted) (id : Uuid) (stored : Row) : Prop where
  id : stored.id = id
  identity : identityOf accepted.entity stored = accepted.identity
  columns : stored.col = accepted.inserted
  settled : Settled accepted.entity stored

theorem storeRow_inserted {now : Timestamp} {attrs : Dict Value} {id : Uuid}
    (constructed : construct entity now enterpriseId provenance attrs = .ok row)
    (kept : storeRow db entity { row with id } = .ok stored) :
    Inserted ⟨entity, enterpriseId, attrs⟩ id stored := by
  have frame := (storeRow_ok kept).2.1
  have columns := inserted_col constructed kept
  have others (name : String) (foreign : ownColumn? entity name = none) : row.col name = .null :=
    construct_others constructed foreign
  refine ⟨frame.id, Prod.ext (frame.enterprise.trans (construct_ok constructed).1) ?_, columns,
    storeRow_settled kept others⟩
  change (specs entity).identity.map stored.col = _
  rw [columns, inserted_identity]

theorem overridden_col {attrs : Dict Value} (settled : Settled entity existing)
    (assigned : Assigned entity attrs existing changed)
    (kept : storeRow db entity
      { changed with sourceProvenance := some provenance, observability := .fresh } = .ok stored) :
    stored.col = Accepted.overridden ⟨entity, enterpriseId, attrs⟩ existing.col := by
  funext name
  rw [storeRow_col kept, Accepted.overridden]
  change (match ownColumn? entity name with
    | none => changed.col name
    | some column => column.type.stored (changed.col name)) = _
  by_cases listed : name ∈ (specs entity).identity
  · obtain ⟨column, own, _⟩ := identity_column listed
    simp only [own, if_pos listed, assigned.identity name listed, settled.still own]
  · rw [if_neg listed]
    cases own : ownColumn? entity name with
    | none => exact assigned.foreign name own
    | some column =>
        cases given : attrs.lookup name with
        | none => simp only [assigned.absent name given, settled.still own]
        | some value => simp only [assigned.given name value listed (by simp [own]) given]

/-- An update leaves the identity of its row alone. -/
theorem updated_keys {attrs : Dict Value} {identity : List (String × Value)} {rows : List Row}
    (identified : identityValues entity attrs = .ok identity)
    (only : rows.filter (hasIdentity enterpriseId identity) = [existing])
    (assigned : Assigned entity attrs existing changed)
    (kept : storeRow db entity
      { changed with sourceProvenance := some provenance, observability := .fresh } = .ok stored) :
    (specs entity).identity.map stored.col = (specs entity).identity.map existing.col := by
  refine List.map_congr_left fun name listed => ?_
  obtain ⟨column, own, _, type⟩ := identity_column listed
  have bound := (existing_identity identified only).2.2 name listed
  rw [type, Option.getD_some] at bound
  simp only [storeRow_col kept, own, assigned.identity name listed]
  exact ColumnType.stored_of_bind (ColumnType.bind_idem bound)

end Rows

/-! ## The table an upsert leaves -/

/-- A record is supplied to its table: a row with its identity is overridden, or
a row is inserted. -/
inductive Supplied (accepted : Accepted) (table : Table Row) : Table Row → Prop where
  | inserted {stored : Row} (missing : ∀ row ∈ table.rows, identityOf accepted.entity row ≠ accepted.identity)
      (identity : identityOf accepted.entity stored = accepted.identity)
      (columns : stored.col = accepted.inserted) (settled : Settled accepted.entity stored)
      (tenantless : accepted.attrs.lookup "enterprise_id" = none) :
      Supplied accepted table (table.insert stored)
  | overridden {existing stored : Row} (member : existing ∈ table.rows)
      (identity : identityOf accepted.entity existing = accepted.identity)
      (only : ∀ row ∈ table.rows, identityOf accepted.entity row = accepted.identity → row = existing)
      (id : stored.id = existing.id)
      (keys : (specs accepted.entity).identity.map stored.col = (specs accepted.entity).identity.map existing.col)
      (columns : Settled accepted.entity existing → stored.col = accepted.overridden existing.col)
      (settled : Settled accepted.entity existing → Settled accepted.entity stored)
      (stays : accepted.attrs.lookup "enterprise_id" = none → stored.enterpriseId = existing.enterpriseId)
      (moves : ∀ value, accepted.attrs.lookup "enterprise_id" = some value →
        bindUuid "enterprise_id" value = .ok (some stored.enterpriseId)) :
      Supplied accepted table (table.update existing.id fun _ => stored)

section Upserts

variable {context : SyncContext} {entity : Entity} {resolved : Dict Raw} {provenance : Provenance}
variable {before after : DB} {signal : Option ObservationSignal}

theorem Upserted.supplied (step : Upserted context entity resolved provenance before signal after) :
    Supplied ⟨entity, context.enterpriseId, coerced entity resolved⟩ (before.canonical entity)
        (after.canonical entity) ∧
      ∀ other, other ≠ entity → after.canonical other = before.canonical other := by
  refine ⟨?_, step.written.2⟩
  cases step with
  | @inserted identity row stored identified missing constructed kept =>
      rw [DB.setCanonical_self]
      have row : Inserted ⟨entity, context.enterpriseId, coerced entity resolved⟩ _ stored :=
        storeRow_inserted constructed kept
      refine .inserted (fun other member same => ?_) row.identity row.columns row.settled
        (construct_tenantless constructed)
      exact absurd ((hasIdentity_iff identified).mpr same) (List.filter_eq_nil_iff.mp missing other member)
  | @updated identity existing changed stored _ middle identified only diffed assigned kept =>
      have assigned := assignAttrs_ok assigned
      have frame := (storeRow_ok kept).2.1
      obtain ⟨member, hit⟩ := List.mem_filter.mp (only ▸ List.mem_singleton_self existing)
      rw [DB.setCanonical_self, diffed.canonical]
      refine .overridden member ((hasIdentity_iff identified).mp hit) (fun row rowMember same => ?_)
        (frame.id.trans assigned.id) (updated_keys identified only assigned kept)
        (fun settled => overridden_col settled assigned kept) (fun settled => ?_)
        (fun none => frame.enterprise.trans (assigned.sameEnterprise none)) (fun value given => ?_)
      · have selected := List.mem_filter.mpr ⟨rowMember, (hasIdentity_iff identified).mpr same⟩
        rw [only] at selected
        exact List.mem_singleton.mp selected
      · refine storeRow_settled kept fun name foreign => ?_
        exact (assigned.foreign name foreign).trans (settled.others name foreign)
      · have moved := assigned.otherEnterprise value given
        rwa [← frame.enterprise] at moved

/-- What a record gives for a column that is no key has fitted the column. -/
theorem Upserted.binds {name : String} {column : Column} {value : Value}
    (step : Upserted context entity resolved provenance before signal after)
    (own : ownColumn? entity name = some column) (free : name ∉ (specs entity).identity)
    (given : (coerced entity resolved).lookup name = some value) (filled : value ≠ .null) :
    ∃ stored, column.type.bind column.name value = .ok stored := by
  obtain ⟨listed, rfl⟩ := ownColumn?_some own
  cases step with
  | inserted _ _ constructed kept =>
      have binds := (storeRow_ok kept).2.2.1 column listed
      have assigned := construct_col constructed own
      simp only [given] at assigned
      change column.type.bind column.name (Row.col _ column.name) = _ at binds
      exact ⟨_, assigned ▸ binds⟩
  | updated _ _ _ assigned kept =>
      have binds := (storeRow_ok kept).2.2.1 column listed
      have same := (assignAttrs_ok assigned).given column.name value free (by simp [own]) given
      exact ⟨_, same ▸ binds⟩

end Upserts

end SmartProcurement.Integration
