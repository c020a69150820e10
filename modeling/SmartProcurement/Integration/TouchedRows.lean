import SmartProcurement.Integration.Renaming

namespace SmartProcurement.Integration

open Relational Transaction

/-! # The rows that a run touches

A run touches the rows of the identities that it accepts: it stamps them, keeps the id
of those that were there, and leaves all other rows alone.
-/

/-- Every foreign key refers to a row. -/
def Referring (db : DB) : Prop :=
  ∀ entity, ∀ row ∈ (db.canonical entity).rows, ∀ name target id, references? entity name = some target →
    row.col name = .uuid id → ((db.canonical target).find? id).isSome = true

structure Touched (context : SyncContext) (mappings : List FieldMapping) (records : List Accepted) (before after : DB) : Prop where
  others : ∀ entity, ∀ row ∈ (after.canonical entity).rows,
    (∀ record ∈ records, record.entity = entity → record.identity ≠ identityOf entity row) → row ∈ (before.canonical entity).rows
  stamped : ∀ record ∈ records, ∀ row ∈ (after.canonical record.entity).rows, identityOf record.entity row = record.identity →
    row.sourceProvenance = some (provenanceOf context (mappingsOf mappings record.entity)) ∧ row.observability = .fresh
  present : ∀ record ∈ records, ∃ row ∈ (after.canonical record.entity).rows, identityOf record.entity row = record.identity
  persists : ∀ entity, ∀ old ∈ (before.canonical entity).rows, ∃ row ∈ (after.canonical entity).rows,
    row.id = old.id ∧ identityOf entity row = identityOf entity old
  generated : ∀ entity, ∀ row ∈ (after.canonical entity).rows, row.id < (before.canonical entity).freshKey →
    ∃ old ∈ (before.canonical entity).rows, old.id = row.id

section Steps

variable {context : SyncContext} {mappings : List FieldMapping} {records others : List Accepted} {before middle after : DB}
variable {entity : Entity} {resolved : Dict Raw} {provenance : Provenance} {signal : Option ObservationSignal}
variable {progress later : Progress} {next : Entity × Record} {rest : List (Entity × Record)}

theorem Touched.refl (context : SyncContext) (mappings : List FieldMapping) (db : DB) : Touched context mappings [] db db where
  others _ _ member _ := member
  stamped _ member := absurd member List.not_mem_nil
  present _ member := absurd member List.not_mem_nil
  persists _ old member := ⟨old, member, rfl, rfl⟩
  generated _ row member _ := ⟨row, member, rfl⟩

theorem Touched.trans (first : Touched context mappings records before middle)
    (second : Touched context mappings others middle after) : Touched context mappings (records ++ others) before after where
  others entity row member untouched :=
    first.others entity row
      (second.others entity row member fun record listed => untouched record (List.mem_append_right _ listed))
      fun record listed => untouched record (List.mem_append_left _ listed)
  stamped record listed row member identity := by
    by_cases again : ∃ other ∈ others, other.entity = record.entity ∧ other.identity = identityOf record.entity row
    · obtain ⟨other, otherListed, sameEntity, sameIdentity⟩ := again
      have stamped := second.stamped other otherListed row (sameEntity ▸ member) (sameEntity ▸ sameIdentity.symm)
      rwa [sameEntity] at stamped
    · have untouched := second.others record.entity row member fun other otherListed sameEntity sameIdentity =>
        again ⟨other, otherListed, sameEntity, sameIdentity⟩
      exact (List.mem_append.mp listed).elim (fun listed => first.stamped record listed row untouched identity)
        fun listed => absurd ⟨record, listed, rfl, identity.symm⟩ again
  present record listed := by
    rcases List.mem_append.mp listed with early | late
    · obtain ⟨row, member, identity⟩ := first.present record early
      obtain ⟨last, lastMember, _, same⟩ := second.persists record.entity row member
      exact ⟨last, lastMember, same.trans identity⟩
    · exact second.present record late
  persists entity old member := by
    obtain ⟨row, rowMember, id, identity⟩ := first.persists entity old member
    obtain ⟨last, lastMember, lastId, lastIdentity⟩ := second.persists entity row rowMember
    exact ⟨last, lastMember, lastId.trans id, lastIdentity.trans identity⟩
  generated entity row member early := by
    have grows : (before.canonical entity).freshKey ≤ (middle.canonical entity).freshKey := by
      refine Table.freshKey_le (fun old oldMember => ?_) (Nat.succ_pos _)
      obtain ⟨kept, keptMember, same, _⟩ := first.persists entity old oldMember
      have below := Table.key_lt_freshKey keptMember
      change kept.id < _ at below
      rwa [same] at below
    obtain ⟨old, oldMember, same⟩ := second.generated entity row member (Nat.lt_of_lt_of_le early grows)
    rw [← same] at early ⊢
    exact first.generated entity old oldMember early

/-- A row is created under a key that no row had. -/
theorem Supplied.generated {accepted : Accepted} {rows result : Table Row} {row : Row}
    (supplied : Supplied accepted rows result)
    (member : row ∈ result.rows) (early : row.id < rows.freshKey) : ∃ old ∈ rows.rows, old.id = row.id := by
  cases supplied with
  | inserted =>
      rcases List.mem_append.mp member with old | new
      · exact ⟨row, old, rfl⟩
      · rw [List.mem_singleton.mp new] at early
        exact absurd early (Nat.lt_irrefl _)
  | @overridden existing stored existingMember _ _ id =>
      rcases (Table.mem_update_const existingMember id).mp member with ⟨old, _⟩ | rfl
      · exact ⟨row, old, rfl⟩
      · exact ⟨existing, existingMember, id.symm⟩

/-- What an upsert leaves of the table of its record. -/
structure Rewritten (accepted : Accepted) (provenance : Provenance) (old new : Table Row) : Prop where
  others : ∀ row ∈ new.rows, identityOf accepted.entity row ≠ accepted.identity → row ∈ old.rows
  labelled : ∀ row ∈ new.rows, identityOf accepted.entity row = accepted.identity →
    row.sourceProvenance = some provenance ∧ row.observability = .fresh
  present : ∃ row ∈ new.rows, identityOf accepted.entity row = accepted.identity
  kept : ∀ oldRow ∈ old.rows, ∃ row ∈ new.rows,
    row.id = oldRow.id ∧ identityOf accepted.entity row = identityOf accepted.entity oldRow

/-- An upsert writes the row of its identity, whether it is new or not. -/
theorem Upserted.rewritten {provenance : Provenance} (step : Upserted context entity resolved provenance before signal after)
    (ownTenant : Accepted.OwnTenant ⟨entity, context.enterpriseId, coerced entity resolved⟩) :
    Rewritten ⟨entity, context.enterpriseId, coerced entity resolved⟩ provenance (before.canonical entity) (after.canonical entity) := by
  cases step with
  | @inserted identity row stored identified missing constructed kept =>
      have written : Inserted ⟨entity, context.enterpriseId, coerced entity resolved⟩ _ stored :=
        storeRow_inserted constructed kept
      have frame := (storeRow_ok kept).2.1
      obtain ⟨_, _, isProvenance, fresh⟩ := construct_ok constructed
      rw [DB.setCanonical_self]
      refine ⟨fun row member other => ?_, fun row member same => ?_,
        ⟨_, List.mem_append_right _ List.mem_cons_self, written.identity⟩, fun old member => ?_⟩
      · rcases List.mem_append.mp member with old | new
        · exact old
        · obtain rfl := List.mem_singleton.mp new
          exact absurd written.identity other
      · rcases List.mem_append.mp member with old | new
        · exact absurd ((hasIdentity_iff identified).mpr same) (List.filter_eq_nil_iff.mp missing row old)
        · obtain rfl := List.mem_singleton.mp new
          exact ⟨frame.provenance.trans isProvenance, frame.observability.trans fresh⟩
      · exact ⟨old, List.mem_append_left _ member, rfl, rfl⟩
  | @updated identity existing changed stored _ middle identified only diffed assigned kept =>
      have sets := assignAttrs_ok assigned
      have frame := (storeRow_ok kept).2.1
      have id : stored.id = existing.id := frame.id.trans sets.id
      obtain ⟨existingMember, hit⟩ := List.mem_filter.mp (only ▸ List.mem_singleton_self existing)
      have members (row : Row) : row ∈ ((before.canonical entity).update existing.id fun _ => stored).rows ↔ _ :=
        Table.mem_update_const existingMember id
      have keeps : identityOf entity stored = identityOf entity existing := by
        refine Prod.ext ?_ (updated_keys identified only sets kept)
        refine frame.enterprise.trans (sets.ownEnterprise fun value given => (ownTenant value given).trans ?_)
        exact congrArg (fun key => Except.ok (some (Prod.fst key))) ((hasIdentity_iff identified).mp hit).symm
      rw [DB.setCanonical_self, diffed.canonical]
      refine ⟨fun row member other => ?_, fun row member same => ?_,
        ⟨stored, (members stored).mpr (.inr rfl), keeps.trans ((hasIdentity_iff identified).mp hit)⟩, fun old member => ?_⟩
      · rcases (members row).mp member with ⟨old, _⟩ | rfl
        · exact old
        · exact absurd (keeps.trans ((hasIdentity_iff identified).mp hit)) other
      · rcases (members row).mp member with ⟨old, different⟩ | rfl
        · have selected := List.mem_filter.mpr ⟨old, (hasIdentity_iff identified).mpr same⟩
          rw [only] at selected
          exact absurd (congrArg Row.id (List.mem_singleton.mp selected)) different
        · exact ⟨frame.provenance, frame.observability⟩
      · by_cases isExisting : old.id = existing.id
        · obtain rfl := Table.eq_of_key_eq member existingMember isExisting
          exact ⟨stored, (members stored).mpr (.inr rfl), id, keeps⟩
        · exact ⟨old, (members old).mpr (.inl ⟨member, isExisting⟩), rfl, rfl⟩

theorem Upserted.touched
    (step : Upserted context entity resolved (provenanceOf context (mappingsOf mappings entity)) before signal after)
    (ownTenant : Accepted.OwnTenant ⟨entity, context.enterpriseId, coerced entity resolved⟩) :
    Touched context mappings [⟨entity, context.enterpriseId, coerced entity resolved⟩] before after := by
  have apart (other : Entity) (different : other ≠ entity) : after.canonical other = before.canonical other :=
    step.supplied.2 other different
  have own := step.rewritten ownTenant
  refine ⟨fun other row member untouched => ?_, fun record listed => ?_, fun record listed => ?_, fun other old member => ?_,
    fun other row member early => ?_⟩
  · by_cases same : other = entity
    · subst same
      exact own.others row member fun hit => untouched _ (List.mem_singleton_self _) rfl hit.symm
    · rwa [apart other same] at member
  · obtain rfl := List.mem_singleton.mp listed
    exact own.labelled
  · obtain rfl := List.mem_singleton.mp listed
    exact own.present
  · by_cases same : other = entity
    · subst same
      exact own.kept old member
    · rw [apart other same]
      exact ⟨old, member, rfl, rfl⟩
  · by_cases same : other = entity
    · subst same
      exact step.supplied.1.generated member early
    · rw [apart other same] at member
      exact ⟨row, member, rfl⟩

theorem acceptedAlong_touched
    (own : ∀ accepted ∈ acceptedAlong context mappings rest progress before, accepted.OwnTenant)
    (ran : rest.foldlM (syncNext context mappings) progress before = .ok later after) :
    Touched context mappings (acceptedAlong context mappings rest progress before) before after := by
  induction rest generalizing progress before with
  | nil =>
      obtain ⟨_, rfl⟩ := pure_eq_ok.mp ran
      exact .refl _ _ _
  | cons next rest ih =>
      rw [List.foldlM_cons] at ran
      obtain ⟨mid, middle, first, restRan⟩ := bind_eq_ok.mp ran
      rw [acceptedAlong_cons first] at own ⊢
      refine Touched.trans ?_ (ih (fun accepted member => own accepted (List.mem_append_right _ member)) restRan)
      rcases syncNext_upserted first with ⟨none, rfl⟩ | ⟨resolved, signal, accepts, stored⟩
      · rw [none]
        exact .refl _ _ _
      · rw [accepts]
        exact stored.touched (own _ (List.mem_append_left _ (Option.mem_toList.mpr accepts)))

/-- A flush refuses a reference to nobody. -/
theorem storeRow_referring {row stored : Row} (kept : storeRow before entity row = .ok stored) {name : String} {target : Entity}
    {id : Uuid} (references : references? entity name = some target) (value : stored.col name = .uuid id) :
    ((before.canonical target).find? id).isSome = true := by
  obtain ⟨column, own, isTarget⟩ := Option.bind_eq_some_iff.mp references
  obtain ⟨listed, rfl⟩ := ownColumn?_some own
  have admitted := storeRow_admitted kept column listed
  rw [value] at admitted
  exact admitted.there isTarget

theorem syncNext_referring (referring : Referring before)
    (ran : syncNext context mappings progress next before = .ok later after) :
    Referring after := by
  have grown := (syncNext_grown ran).2
  rcases syncNext_upserted ran with ⟨_, rfl⟩ | ⟨resolved, signal, _, stored⟩
  · exact referring
  · intro entity row member name target id references value
    refine grown target id ?_
    by_cases same : entity = next.1
    · subst same
      cases stored with
      | inserted _ _ _ kept =>
          rw [DB.setCanonical_self] at member
          rcases List.mem_append.mp member with old | new
          · exact referring _ row old name target id references value
          · obtain rfl := List.mem_singleton.mp new
            exact storeRow_referring kept references value
      | @updated identity existing changed stored _ middle identified only diffed assigned kept =>
          have sameId := (storeRow_ok kept).2.1.id.trans (assignAttrs_ok assigned).id
          rw [DB.setCanonical_self, diffed.canonical] at member
          rcases (Table.mem_update_const (existing_identity identified only).1 sameId).mp member with ⟨old, _⟩ | rfl
          · exact referring _ row old name target id references value
          · have found := storeRow_referring kept references value
            rwa [diffed.canonical] at found
    · rw [stored.supplied.2 entity same] at member
      exact referring entity row member name target id references value

theorem run_referring (referring : Referring before)
    (ran : rest.foldlM (syncNext context mappings) progress before = .ok later after) : Referring after :=
  foldlM_ok_invariant (fun _ db => Referring db) (fun _ _ _ _ _ holds ran => syncNext_referring holds ran) referring ran

end Steps

end SmartProcurement.Integration
