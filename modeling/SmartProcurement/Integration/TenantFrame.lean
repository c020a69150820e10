import SmartProcurement.Integration.Schedule
import SmartProcurement.Integration.Service
import SmartProcurement.Integration.UpsertedRows

namespace SmartProcurement.Integration

open Relational Transaction

/-! # The tenant frame of sync

A run of sync for an enterprise should touch rows of that enterprise only, and
refer to masters of that enterprise that the record names.  The shortcut for
attribute names that end in `_id` lets a mapping break both.
-/

/-! ## The tenant frame -/

/-- Rows of other enterprises are neither changed nor created, and every row
keeps its id, enterprise and creation time. -/
structure TableKept (enterpriseId : Uuid) (before after : Table Row) : Prop where
  foreign : ∀ row, row.enterpriseId ≠ enterpriseId → (row ∈ after.rows ↔ row ∈ before.rows)
  existing : ∀ row ∈ before.rows, ∃ changed ∈ after.rows,
    changed.id = row.id ∧ changed.enterpriseId = row.enterpriseId ∧ changed.createdAt = row.createdAt

theorem TableKept.refl (enterpriseId : Uuid) (table : Table Row) : TableKept enterpriseId table table :=
  ⟨fun _ _ => Iff.rfl, fun row member => ⟨row, member, rfl, rfl, rfl⟩⟩

theorem TableKept.trans {enterpriseId : Uuid} {first second third : Table Row}
    (head : TableKept enterpriseId first second) (tail : TableKept enterpriseId second third) :
    TableKept enterpriseId first third := by
  refine ⟨fun row foreign => (tail.foreign row foreign).trans (head.foreign row foreign), fun row member => ?_⟩
  obtain ⟨middle, middleMember, id, enterprise, created⟩ := head.existing row member
  obtain ⟨final, finalMember, finalId, finalEnterprise, finalCreated⟩ := tail.existing middle middleMember
  exact ⟨final, finalMember, finalId.trans id, finalEnterprise.trans enterprise, finalCreated.trans created⟩

def TenantKept (enterpriseId : Uuid) (before after : DB) : Prop :=
  ∀ entity, TableKept enterpriseId (before.canonical entity) (after.canonical entity)

/-- The rows that other enterprises have in `left` are also in `right`. -/
def ForeignWithin (enterpriseId : Uuid) (left right : DB) : Prop :=
  ∀ entity, ∀ row ∈ (left.canonical entity).rows, row.enterpriseId ≠ enterpriseId →
    row ∈ (right.canonical entity).rows

theorem ForeignWithin.trans {enterpriseId : Uuid} {first second third : DB}
    (head : ForeignWithin enterpriseId first second) (tail : ForeignWithin enterpriseId second third) :
    ForeignWithin enterpriseId first third := fun entity row member foreign =>
  tail entity row (head entity row member foreign) foreign

section Tables

variable {enterpriseId : Uuid} {entity : Entity} {resolved : Dict Raw} {table after : Table Row}

theorem existing_of_only {identity : List (String × Value)} {existing : Row}
    (only : table.rows.filter (hasIdentity enterpriseId identity) = [existing]) :
    existing ∈ table.rows ∧ existing.enterpriseId = enterpriseId := by
  have selected : existing ∈ table.rows.filter (hasIdentity enterpriseId identity) := by simp [only]
  obtain ⟨member, isKey⟩ := List.mem_filter.mp selected
  simp only [hasIdentity, Bool.and_eq_true, decide_eq_true_eq] at isKey
  exact ⟨member, isKey.1⟩

theorem RowWritten.foreignKept (written : RowWritten enterpriseId entity resolved table after) {row : Row}
    (member : row ∈ table.rows) (foreign : row.enterpriseId ≠ enterpriseId) : row ∈ after.rows := by
  cases written with
  | created _ _ _ _ _ => exact List.mem_append_left _ member
  | changed _ only same _ _ _ _ _ =>
      obtain ⟨existingMember, owned⟩ := existing_of_only only
      refine (Table.mem_update_const existingMember same).mpr (.inl ⟨member, fun sameId => foreign ?_⟩)
      rwa [Table.eq_of_key_eq member existingMember sameId]

theorem RowWritten.harmless (written : RowWritten enterpriseId entity resolved table after)
    (within : ∀ row ∈ after.rows, row.enterpriseId ≠ enterpriseId → row ∈ table.rows) {raw : Raw}
    (given : resolved.lookup "enterprise_id" = some raw) :
    bindUuid "enterprise_id" (.ofRaw raw) = .ok (some enterpriseId) := by
  cases written with
  | created _ _ _ tenantless _ =>
      rw [tenantless] at given
      cases given
  | @changed identity existing stored _ only same _ _ moves _ _ =>
      obtain ⟨existingMember, owned⟩ := existing_of_only only
      by_cases foreign : stored.enterpriseId = enterpriseId
      · rw [← foreign]
        exact moves raw given
      · have before := within stored ((Table.mem_update_const existingMember same).mpr (.inr rfl)) foreign
        rw [Table.eq_of_key_eq before existingMember same] at foreign
        exact absurd owned foreign

theorem RowWritten.kept (written : RowWritten enterpriseId entity resolved table after)
    (harmless : ∀ raw, resolved.lookup "enterprise_id" = some raw →
      bindUuid "enterprise_id" (.ofRaw raw) = .ok (some enterpriseId)) : TableKept enterpriseId table after := by
  cases written with
  | @created identity stored _ _ owner _ _ =>
      refine ⟨fun row foreign => ?_, fun row member => ⟨row, List.mem_append_left _ member, rfl, rfl, rfl⟩⟩
      rw [Table.insert_rows, List.mem_append, List.mem_singleton, or_iff_left]
      rintro rfl
      exact foreign owner
  | @changed identity existing stored _ only same created stays moves _ _ =>
      obtain ⟨existingMember, owned⟩ := existing_of_only only
      have members (row : Row) : row ∈ (table.update existing.id fun _ => stored).rows ↔ _ :=
        Table.mem_update_const existingMember same
      have owner : stored.enterpriseId = existing.enterpriseId := by
        cases given : resolved.lookup "enterprise_id" with
        | none => exact stays given
        | some raw =>
            have moved := (moves raw given).symm.trans (harmless raw given)
            rw [owned]
            exact Option.some.inj (Except.ok.inj moved)
      refine ⟨fun row foreign => ?_, fun row member => ?_⟩
      · rw [members]
        constructor
        · rintro (⟨member, _⟩ | rfl)
          · exact member
          · exact absurd (owner.trans owned) foreign
        · intro member
          refine .inl ⟨member, fun sameId => foreign ?_⟩
          rwa [Table.eq_of_key_eq member existingMember sameId]
      · by_cases hit : row.id = existing.id
        · obtain rfl := Table.eq_of_key_eq member existingMember hit
          exact ⟨stored, (members stored).mpr (.inr rfl), same, owner, created⟩
        · exact ⟨row, (members row).mpr (.inl ⟨member, hit⟩), rfl, rfl, rfl⟩

end Tables

/-! ## Steps -/

/-- The record of the step is upserted with these attributes. -/
structure RecordStep.Upserting (step : RecordStep) (attrs resolved : Dict Raw) : Prop where
  extracted : extract step.record step.mappings = .ok attrs
  filled : attrs.entries.isEmpty = false
  resolving : ∃ cache, resolveRefs step.context.enterpriseId step.entity attrs step.progress.cache step.db =
    .ok ⟨some resolved, cache⟩ step.db
  identified : lacksIdentity step.entity resolved = false

/-- No attribute of an upserted record names another enterprise. -/
def RecordStep.OwnTenant (step : RecordStep) : Prop :=
  ∀ attrs resolved, step.Upserting attrs resolved → ∀ raw, attrs.lookup "enterprise_id" = some raw →
    bindUuid "enterprise_id" (.ofRaw raw) = .ok (some step.context.enterpriseId)

/-- The row that the attributes identify holds this id already. -/
def RecordStep.AlreadyHolds (step : RecordStep) (resolved : Dict Raw) (name : String) (id : Uuid) : Prop :=
  ∃ identity, identityValues step.entity (coerced step.entity resolved) = .ok identity ∧
    ∃ existing ∈ (step.db.canonical step.entity).rows,
      hasIdentity step.context.enterpriseId identity existing = true ∧ heldReference existing name = some id

/-- A foreign key that the record spells out itself is overruled by the master
that the record names, or changes nothing. -/
def RecordStep.OwnReferences (step : RecordStep) : Prop :=
  ∀ attrs resolved, step.Upserting attrs resolved → ∀ reference ∈ (specs step.entity).refs,
    ∀ raw, attrs.lookup (foreignKey reference.target) = some raw →
      (∃ id, Names step.context.enterpriseId reference attrs step.db id) ∨
      ∃ id, bindUuid (foreignKey reference.target) (.ofRaw raw) = .ok (some id) ∧
        step.AlreadyHolds resolved (foreignKey reference.target) id

def WritesKey (before after : Table Row) (name : String) (id : Uuid) : Prop :=
  ∃ row ∈ after.rows, heldReference row name = some id ∧
    ∀ old ∈ before.rows, old.id = row.id → heldReference old name ≠ some id

/-- Every reference the step writes is a master of the enterprise that the record names. -/
def RecordStep.Justified (step : RecordStep) (after : DB) : Prop :=
  ∀ entity, ∀ reference ∈ (specs entity).refs, ∀ id,
    WritesKey (step.db.canonical entity) (after.canonical entity) (foreignKey reference.target) id →
      ∃ attrs, extract step.record step.mappings = .ok attrs ∧
        Names step.context.enterpriseId reference attrs step.db id

section Steps

variable {step : RecordStep} {next : Progress} {after : DB} {attrs resolved : Dict Raw}

theorem RecordStep.ran (ran : step.run step.db = .ok next after) :
    (after = step.db ∧ ∀ attrs resolved, ¬ step.Upserting attrs resolved) ∨
    ∃ attrs resolved signal, step.Upserting attrs resolved ∧
      Upserted step.context step.entity resolved (provenanceOf step.context step.mappings) step.db signal after := by
  cases syncRecord_ok ran with
  | empty extracted nothing =>
      refine .inl ⟨rfl, fun attrs resolved upserting => ?_⟩
      obtain rfl := Except.ok.inj (extracted.symm.trans upserting.extracted)
      have filled := upserting.filled
      rw [nothing] at filled
      cases filled
  | skipped extracted resolving rejected =>
      refine .inl ⟨rfl, fun attrs resolved upserting => ?_⟩
      obtain rfl := Except.ok.inj (extracted.symm.trans upserting.extracted)
      obtain ⟨cache, again⟩ := upserting.resolving
      rw [resolving] at again
      cases again
      have identified := upserting.identified
      rw [rejected resolved rfl] at identified
      cases identified
  | @upserted attrs resolved resolution signal _ extracted filled resolving accepted identified stored =>
      refine .inr ⟨attrs, resolved, signal, ⟨extracted, filled, ⟨resolution.cache, ?_⟩, identified⟩, stored⟩
      rw [resolving, ← accepted]

theorem RecordStep.Upserting.unique {other final : Dict Raw} (upserting : step.Upserting attrs resolved)
    (again : step.Upserting other final) : attrs = other ∧ resolved = final := by
  obtain rfl := Except.ok.inj (upserting.extracted.symm.trans again.extracted)
  obtain ⟨_, first⟩ := upserting.resolving
  obtain ⟨_, second⟩ := again.resolving
  rw [first] at second
  cases second
  exact ⟨rfl, rfl⟩

theorem RecordStep.Upserting.enterprise (upserting : step.Upserting attrs resolved) :
    resolved.lookup "enterprise_id" = attrs.lookup "enterprise_id" := by
  obtain ⟨cache, resolving⟩ := upserting.resolving
  refine resolveRefs_other resolving rfl ?_
  cases step.entity <;> decide

theorem RecordStep.foreignKept (ran : step.run step.db = .ok next after) :
    ForeignWithin step.context.enterpriseId step.db after := by
  intro entity row member foreign
  rcases step.ran ran with ⟨rfl, _⟩ | ⟨attrs, resolved, signal, _, upserted⟩
  · exact member
  · obtain ⟨written, others⟩ := upserted.written
    by_cases same : entity = step.entity
    · subst same
      exact written.foreignKept member foreign
    · rw [others entity same]
      exact member

theorem RecordStep.ownTenant_of_within (ran : step.run step.db = .ok next after)
    (within : ForeignWithin step.context.enterpriseId after step.db) : step.OwnTenant := by
  intro attrs resolved upserting raw given
  rcases step.ran ran with ⟨_, never⟩ | ⟨other, final, signal, again, upserted⟩
  · exact absurd upserting (never attrs resolved)
  · obtain ⟨rfl, rfl⟩ := upserting.unique again
    exact upserted.written.1.harmless (within step.entity) (upserting.enterprise.trans given)

theorem RecordStep.tenantKept (ran : step.run step.db = .ok next after) (own : step.OwnTenant) :
    TenantKept step.context.enterpriseId step.db after := by
  intro entity
  rcases step.ran ran with ⟨rfl, _⟩ | ⟨attrs, resolved, signal, upserting, upserted⟩
  · exact .refl _ _
  · obtain ⟨written, others⟩ := upserted.written
    by_cases same : entity = step.entity
    · subst same
      exact written.kept fun raw given => own attrs resolved upserting raw (upserting.enterprise ▸ given)
    · rw [others entity same]
      exact .refl _ _

/-! ## The cache -/

theorem naturalKey_column {reference : Reference} (master : reference ∈ masterReferences) :
    reference.naturalKey ∈ (specs reference.target).identity ∧
      ∃ column ∈ ownColumns reference.target, column.name = reference.naturalKey ∧ column.type = .string none := by
  simp only [masterReferences, List.mem_cons, List.not_mem_nil, or_false] at master
  rcases master with rfl | rfl | rfl <;> decide

theorem bind_text {limit : Option Nat} {name text : String} {stored : Value}
    (bound : (ColumnType.string limit).bind name (.text text) = .ok stored) : stored = .text text := by
  simp only [ColumnType.bind] at bound
  split at bound
  · cases bound
  · cases bound
    rfl

/-- A step in its own tenant takes no natural key away from a master. -/
theorem RowWritten.keepsMaster {enterpriseId : Uuid} {reference : Reference} {key : String} {id : Uuid}
    {before after : DB} {entity : Entity} (master : reference ∈ masterReferences)
    (written : RowWritten enterpriseId entity resolved (before.canonical entity) (after.canonical entity))
    (others : ∀ other, other ≠ entity → after.canonical other = before.canonical other)
    (kept : TableKept enterpriseId (before.canonical entity) (after.canonical entity))
    (isMaster : IsMaster enterpriseId reference key before id) : IsMaster enterpriseId reference key after id := by
  obtain ⟨row, member, rowId, owned, named⟩ := isMaster
  by_cases same : reference.target = entity
  · subst same
    obtain ⟨current, currentMember, sameId, sameOwner, _⟩ := kept.existing row member
    refine ⟨current, currentMember, sameId.trans rowId, sameOwner.trans owned, ?_⟩
    obtain ⟨isIdentity, column, listed, columnName, type⟩ := naturalKey_column master
    generalize after.canonical reference.target = table at written currentMember kept
    cases written with
    | @created identity stored _ _ _ _ _ =>
        rw [← Table.eq_of_key_eq (List.mem_append_left _ member) currentMember sameId.symm]
        exact named
    | @changed identity existing stored _ only storedId _ _ _ keys _ =>
        obtain ⟨existingMember, _⟩ := existing_of_only only
        rcases (Table.mem_update_const existingMember storedId).mp currentMember with ⟨old, _⟩ | rfl
        · rwa [Table.eq_of_key_eq old member sameId]
        · obtain rfl := Table.eq_of_key_eq existingMember member (storedId.symm.trans sameId)
          have stores := keys column listed (by rwa [columnName])
          rw [columnName, type, named] at stores
          exact bind_text stores
  · refine ⟨row, ?_, rowId, owned, named⟩
    rw [others _ same]
    exact member

theorem Progress.record_cache (progress : Progress) (entity : Entity) (created : Bool)
    (signal : Option ObservationSignal) : (progress.record entity created signal).cache = progress.cache := by
  cases signal <;> rfl

theorem RecordStep.cacheSound (ran : step.run step.db = .ok next after) (own : step.OwnTenant)
    (sound : CacheSound step.context.enterpriseId step.progress.cache step.db) :
    CacheSound step.context.enterpriseId next.cache after := by
  have kept := step.tenantKept ran own
  cases syncRecord_ok ran with
  | empty _ _ => exact sound
  | skipped _ resolving _ => exact resolveRefs_sound sound resolving
  | upserted _ _ resolving _ _ stored =>
      rw [Progress.record_cache]
      obtain ⟨written, others⟩ := stored.written
      intro reference master key id hit
      exact written.keepsMaster master others (kept step.entity)
        (resolveRefs_sound sound resolving reference master key id hit)

/-! ## References -/

theorem extractOne_ok {record : Record} {out next : Dict Raw} {mapping : FieldMapping}
    (ran : extractOne record out mapping = .ok next) :
    next = out ∨ ∃ value, value.blank = false ∧ next = out.insert mapping.canonicalAttribute value := by
  have kept {value : Raw} (same : (if value.blank then out else out.insert mapping.canonicalAttribute value) = next) :
      next = out ∨ ∃ value, value.blank = false ∧ next = out.insert mapping.canonicalAttribute value := by
    cases blank : value.blank with
    | true => exact .inl (by simpa [blank] using same.symm)
    | false => exact .inr ⟨value, blank, by simpa [blank] using same.symm⟩
  unfold extractOne at ran
  cases found : record.lookup mapping.sourceFieldPath with
  | none =>
      simp only [found, Except.ok.injEq] at ran
      exact .inl ran.symm
  | some value =>
      cases transformed : mapping.transform with
      | none =>
          simp only [found, transformed, except_bind_eq_ok, except_pure_eq_ok] at ran
          obtain ⟨_, _, same⟩ := ran
          exact kept same
      | some transform =>
          simp only [found, transformed, except_bind_eq_ok, except_pure_eq_ok] at ran
          obtain ⟨_, _, same⟩ := ran
          exact kept same

theorem extract_filled {record : Record} {mappings : List FieldMapping} {attrs : Dict Raw}
    (extracted : extract record mappings = .ok attrs) {name : String} {raw : Raw}
    (given : attrs.lookup name = some raw) : raw.blank = false := by
  refine except_foldlM_ok_invariant (fun out : Dict Raw => ∀ name raw, out.lookup name = some raw → raw.blank = false)
    ?_ (by simp) extracted name raw given
  intro out mapping next holds ran name raw given
  rcases extractOne_ok ran with rfl | ⟨value, filled, rfl⟩
  · exact holds name raw given
  · by_cases same : name = mapping.canonicalAttribute
    · subst same
      rw [AList.lookup_insert, Option.some.injEq] at given
      rwa [← given]
    · rw [AList.lookup_insert_ne same] at given
      exact holds name raw given

/-- What an upsert writes into the foreign keys of its row: `held` is what the row
held before, nothing when it is new. -/
theorem RecordStep.writes {signal : Option ObservationSignal} {provenance : Provenance}
    (upserted : Upserted step.context step.entity resolved provenance step.db signal after) :
    ∃ held stored, References step.entity resolved held stored ∧
      (∀ name id, WritesKey (step.db.canonical step.entity) (after.canonical step.entity) name id ↔
        heldReference stored name = some id ∧ held name ≠ some id) ∧
      ∀ name id, step.AlreadyHolds resolved name id ↔ held name = some id := by
  have written := upserted.written.1
  generalize after.canonical step.entity = table at written
  cases written with
  | @created identity stored identified missing _ _ references =>
      refine ⟨fun _ => none, stored, references, fun name id => ⟨?_, ?_⟩, fun name id => ⟨?_, by simp⟩⟩
      · rintro ⟨row, member, holds, fresh⟩
        rcases List.mem_append.mp member with old | new
        · exact absurd holds (fresh row old rfl)
        · obtain rfl := List.mem_singleton.mp new
          exact ⟨holds, by simp⟩
      · rintro ⟨holds, _⟩
        refine ⟨_, List.mem_append_right _ (List.mem_singleton_self _), holds, fun old member same => ?_⟩
        exact absurd same (Nat.ne_of_lt (Table.key_lt_freshKey member))
      · rintro ⟨other, again, existing, member, isKey, _⟩
        obtain rfl := Except.ok.inj (identified.symm.trans again)
        exact absurd isKey (List.filter_eq_nil_iff.mp missing existing member)
  | @changed identity existing stored identified only same _ _ _ _ references =>
      obtain ⟨existingMember, _⟩ := existing_of_only only
      refine ⟨heldReference existing, stored, references, fun name id => ⟨?_, ?_⟩, fun name id => ⟨?_, ?_⟩⟩
      · rintro ⟨row, member, holds, fresh⟩
        rcases (Table.mem_update_const existingMember same).mp member with ⟨old, _⟩ | rfl
        · exact absurd holds (fresh row old rfl)
        · exact ⟨holds, fresh existing existingMember same.symm⟩
      · rintro ⟨holds, before⟩
        refine ⟨stored, (Table.mem_update_const existingMember same).mpr (.inr rfl), holds, fun old member sameId => ?_⟩
        rwa [Table.eq_of_key_eq member existingMember (sameId.trans same)]
      · rintro ⟨other, again, found, member, isKey, holds⟩
        obtain rfl := Except.ok.inj (identified.symm.trans again)
        have selected : found ∈ [existing] := only ▸ List.mem_filter.mpr ⟨member, isKey⟩
        rwa [List.mem_singleton.mp selected] at holds
      · intro holds
        have selected : existing ∈ [existing] := List.mem_singleton_self existing
        rw [← only] at selected
        exact ⟨identity, identified, existing, existingMember, (List.mem_filter.mp selected).2, holds⟩

theorem writesKey_self (table : Table Row) (name : String) (id : Uuid) : ¬ WritesKey table table name id := by
  rintro ⟨row, member, holds, fresh⟩
  exact fresh row member rfl holds

/-- With a sound cache, a step writes justified references exactly when the keys
that the record spells out are overruled or change nothing. -/
theorem RecordStep.justified_iff (ran : step.run step.db = .ok next after)
    (sound : CacheSound step.context.enterpriseId step.progress.cache step.db) :
    step.Justified after ↔ step.OwnReferences := by
  rcases step.ran ran with ⟨rfl, never⟩ | ⟨attrs, resolved, signal, upserting, upserted⟩
  · exact ⟨fun _ attrs resolved upserting => absurd upserting (never attrs resolved),
      fun _ entity reference _ id writes => absurd writes (writesKey_self _ _ _)⟩
  obtain ⟨held, stored, references, writes, holds⟩ := RecordStep.writes upserted
  obtain ⟨cache, resolving⟩ := upserting.resolving
  have named := resolveRefs_ok sound resolving rfl
  constructor
  · intro justified other final again reference listed raw given
    obtain ⟨rfl, rfl⟩ := upserting.unique again
    rcases named reference listed with ⟨id, names, _⟩ | ⟨same, nobody⟩
    · exact .inl ⟨id, names⟩
    have filled := extract_filled upserting.extracted given
    have bound := references.given reference listed raw filled (same.trans given)
    cases key : heldReference stored (foreignKey reference.target) with
    | none =>
        rw [key] at bound
        have null := bindUuid_none bound
        cases raw with
        | null => cases filled
        | _ => cases null
    | some id =>
        rw [key] at bound
        refine .inr ⟨id, bound, (holds _ _).mpr ?_⟩
        by_contra fresh
        obtain ⟨other, extracted, names⟩ := justified step.entity reference listed id ((writes _ _).mpr ⟨key, fresh⟩)
        obtain rfl := Except.ok.inj (upserting.extracted.symm.trans extracted)
        exact nobody id names
  · intro own entity reference listed id writesId
    by_cases here : entity = step.entity
    · subst here
      obtain ⟨key, fresh⟩ := (writes _ _).mp writesId
      rcases named reference listed with ⟨master, names, found⟩ | ⟨same, nobody⟩
      · have bound := references.given reference listed (.uuid master) rfl found
        rw [key] at bound
        obtain rfl : master = id := Option.some.inj (Except.ok.inj bound)
        exact ⟨attrs, upserting.extracted, names⟩
      cases given : attrs.lookup (foreignKey reference.target) with
      | none =>
          rw [references.absent reference listed (same.trans given)] at key
          exact absurd key fresh
      | some raw =>
          have filled := extract_filled upserting.extracted given
          have bound := references.given reference listed raw filled (same.trans given)
          rcases own attrs resolved upserting reference listed raw given with ⟨master, names⟩ | ⟨other, otherBound, already⟩
          · exact absurd names (nobody master)
          · rw [otherBound, key, Except.ok.injEq, Option.some.injEq] at bound
            rw [bound] at already
            exact absurd ((holds _ _).mp already) fresh
    · rw [upserted.written.2 entity here] at writesId
      exact absurd writesId (writesKey_self _ _ _)

end Steps

/-! ## Calls -/

/-- An upserted record names no other enterprise and spells out no reference of its own. -/
structure RecordStep.Harmless (step : RecordStep) : Prop where
  tenant : step.OwnTenant
  references : step.OwnReferences

namespace SyncCall

variable {call : SyncCall} {before after : DB}

/-- The call writes inside its tenant only, and only references to masters that
the records name. -/
structure Confined (call : SyncCall) (before : DB) : Prop where
  tenant : TenantKept call.enterpriseId before (transact call.session before).2
  references : ∀ result after, call.session before = .ok result after →
    ∀ step, call.Reaches before step → ∀ next later, step.run step.db = .ok next later → step.Justified later

theorem Loop.foreignKept (loop : Loop call before after) {rest : List (Entity × Record)} {start final : Progress}
    {first last : DB}
    (ran : rest.foldlM (syncNext (call.context loop.batch) (confirmedMappings call.dataSourceId before)) start first =
      .ok final last) : ForeignWithin call.enterpriseId first last := by
  refine foldlM_ok_invariant (fun _ db => ForeignWithin call.enterpriseId first db) ?_
    (fun _ _ member _ => member) ran
  intro progress next db later after holding ran
  exact holding.trans ((loop.step next progress db).foreignKept ran)

theorem Loop.ran_of_reaches (loop : Loop call before after) {next : Entity × Record} {progress : Progress} {db : DB}
    (reached : loop.Reaches next progress db) :
    ∃ later middle, (loop.step next progress db).run db = .ok later middle ∧
      ForeignWithin call.enterpriseId middle loop.batched := by
  obtain ⟨rest, later, middle, ran, restRan⟩ := reached.ran loop.ran
  exact ⟨later, middle, ran, loop.foreignKept restRan⟩

theorem Loop.foreign_before (loop : Loop call before after) {next : Entity × Record} {progress : Progress} {db : DB}
    (reached : loop.Reaches next progress db) : ForeignWithin call.enterpriseId before db := by
  obtain ⟨done, rest, _, ran⟩ := reached
  exact loop.foreignKept ran

/-- Steps in their own tenant leave the frame and the cache intact, up to every
part of the loop. -/
theorem Loop.kept (loop : Loop call before after)
    (own : ∀ step, call.Reaches before step → step.OwnTenant) {done rest : List (Entity × Record)}
    (split : schedule (confirmedMappings call.dataSourceId before) loop.batch.records = done ++ rest)
    {progress : Progress} {db : DB}
    (ran : done.foldlM (syncNext (call.context loop.batch) (confirmedMappings call.dataSourceId before)) .start
      before = .ok progress db) :
    TenantKept call.enterpriseId before db ∧ CacheSound call.enterpriseId progress.cache db := by
  refine foldlM_ok_of_reached
    (fun progress db => TenantKept call.enterpriseId before db ∧ CacheSound call.enterpriseId progress.cache db)
    ⟨fun entity => .refl _ _, fun _ _ _ _ hit => by cases hit⟩ ?_ split ran
  rintro next progress db later after reached ⟨kept, sound⟩ ran
  have ownStep := own _ (loop.reaches reached)
  have keptStep := (loop.step next progress db).tenantKept ran ownStep
  exact ⟨fun entity => (kept entity).trans (keptStep entity),
    (loop.step next progress db).cacheSound ran ownStep sound⟩

theorem Loop.cacheSound (loop : Loop call before after)
    (own : ∀ step, call.Reaches before step → step.OwnTenant) {next : Entity × Record} {progress : Progress}
    {db : DB} (reached : loop.Reaches next progress db) : CacheSound call.enterpriseId progress.cache db := by
  obtain ⟨done, rest, split, ran⟩ := reached
  exact (loop.kept own split ran).2

theorem Loop.tenantKept (loop : Loop call before after)
    (own : ∀ step, call.Reaches before step → step.OwnTenant) : TenantKept call.enterpriseId before after := by
  have kept := (loop.kept own (List.append_nil _).symm loop.ran).1
  intro entity
  rw [loop.final]
  exact kept entity

/-- When the whole call keeps the frame, so does each of its steps: a row once
moved to another enterprise stays there. -/
theorem Loop.ownTenant (loop : Loop call before after) (kept : TenantKept call.enterpriseId before after) :
    ∀ step, call.Reaches before step → step.OwnTenant := by
  intro step reached
  obtain ⟨next, progress, db, here, rfl⟩ := loop.of_reaches reached
  obtain ⟨later, middle, ran, within⟩ := loop.ran_of_reaches here
  refine (loop.step next progress db).ownTenant_of_within ran fun entity row member foreign => ?_
  have batched := within entity row member foreign
  rw [← loop.final] at batched
  exact loop.foreign_before here entity row (((kept entity).foreign row foreign).mp batched) foreign

theorem foreignKept {result : SyncResult} (ran : call.session before = .ok result after) :
    ForeignWithin call.enterpriseId before after := by
  obtain ⟨loop⟩ := call.loop ran
  intro entity row member foreign
  rw [loop.final]
  exact loop.foreignKept loop.ran entity row member foreign

/-- A call is confined exactly when every record it upserts is harmless. -/
theorem confined_iff (call : SyncCall) (before : DB) :
    call.Confined before ↔ ∀ result after, call.session before = .ok result after →
      ∀ step, call.Reaches before step → step.Harmless := by
  constructor
  · intro confined result after ran step reached
    obtain ⟨loop⟩ := call.loop ran
    have kept := confined.tenant
    rw [transact_of_ok ran] at kept
    have own := loop.ownTenant kept
    refine ⟨own step reached, ?_⟩
    have justified := confined.references result after ran step reached
    obtain ⟨next, progress, db, here, rfl⟩ := loop.of_reaches reached
    obtain ⟨later, middle, stepRan, _⟩ := loop.ran_of_reaches here
    exact ((loop.step next progress db).justified_iff stepRan (loop.cacheSound own here)).mp
      (justified later middle stepRan)
  · intro harmless
    constructor
    · refine transact_preserves (fun entity => .refl _ _) fun result after ran => ?_
      obtain ⟨loop⟩ := call.loop ran
      exact loop.tenantKept fun step reached => (harmless result after ran step reached).tenant
    · intro result after ran step reached next later stepRan
      obtain ⟨loop⟩ := call.loop ran
      have own := fun step reached => (harmless result after ran step reached).tenant
      have references := (harmless result after ran step reached).references
      obtain ⟨entry, progress, db, here, rfl⟩ := loop.of_reaches reached
      exact ((loop.step entry progress db).justified_iff stepRan (loop.cacheSound own here)).mpr references

end SyncCall

/-! ## A mapping to `enterprise_id` -/

/-- Two enterprises; the first has an item and a sheet whose column `org` is
mapped to the enterprise of an item. -/
def orgSheet : DB :=
  { (default : DB) with
    enterprise := [1, 2]
    canonical := fun
      | .item => Table.empty.insert (.ofColumns 1 .fresh (some 1)
          [("sku", .text "bolt"), ("name", .text ""), ("is_active", .bool true)])
      | _ => .empty
    dataSource := Table.empty.insert (newSource 1 stockSheet none)
    fieldMapping := (Table.empty.insert (confirmedMapping "sku" .item "sku")).insert
      (confirmedMapping "org" .item "enterprise_id") }

def orgCall : SyncCall where
  now := 1
  connectors := { flaky "0" with
    fetch := fun _ => .ok {
      records := [Dict.ofList [("sku", .text "bolt"), ("org", .text (uuidText 2))]]
      fetchedAt := 0 } }
  enterpriseId := 1
  dataSourceId := 1

theorem sync_moves_item_to_other_enterprise : ¬ orgCall.Confined orgSheet := by
  intro confined
  have moved : ¬ ∀ row ∈ (orgSheet.canonical .item).rows,
      ∃ changed ∈ ((transact orgCall.session orgSheet).2.canonical .item).rows,
        changed.id = row.id ∧ changed.enterpriseId = row.enterpriseId ∧ changed.createdAt = row.createdAt := by
    decide +kernel
  exact moved (confined.tenant .item).existing

end SmartProcurement.Integration
