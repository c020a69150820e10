import SmartProcurement.Integration.RenamedRuns

namespace SmartProcurement.Integration

open Relational Transaction Numeric

/-! # Runs over known rows

A run that adds no row has found a row for everything it accepts.  Then the run over
the same records in another order accepts nothing else, and finds those rows as well.
-/

section Keys

variable {context : SyncContext} {mappings : List FieldMapping} {db other before after : DB} {records : List Accepted}
variable {entity : Entity} {identity : Identity}

/-- The rows have the same ids and the same identities. -/
def SameKeys (db other : DB) : Prop := ∀ entity id identity,
  (∃ row ∈ (db.canonical entity).rows, row.id = id ∧ identityOf entity row = identity) ↔
    ∃ row ∈ (other.canonical entity).rows, row.id = id ∧ identityOf entity row = identity

theorem SameKeys.refl (db : DB) : SameKeys db db := fun _ _ _ => Iff.rfl

theorem SameKeys.trans (first : SameKeys before db) (second : SameKeys db after) : SameKeys before after :=
  fun entity id identity => (first entity id identity).trans (second entity id identity)

theorem SameKeys.known (same : SameKeys db other) : Known db entity identity ↔ Known other entity identity := by
  constructor
  · rintro ⟨row, member, has⟩
    obtain ⟨mate, mateMember, _, mateHas⟩ := (same entity row.id identity).mp ⟨row, member, rfl, has⟩
    exact ⟨mate, mateMember, mateHas⟩
  · rintro ⟨row, member, has⟩
    obtain ⟨mate, mateMember, _, mateHas⟩ := (same entity row.id identity).mpr ⟨row, member, rfl, has⟩
    exact ⟨mate, mateMember, mateHas⟩

theorem SameKeys.naming (same : SameKeys db other) (mapped : Mapped db) (otherMapped : Mapped other) (enterpriseId : Uuid) :
    naming enterpriseId db = naming enterpriseId other := by
  have named {db : DB} (mapped : Mapped db) (target : Entity) (key : String) (id : Uuid) :
      Integration.naming enterpriseId db target key = some id ↔
        ∃ row ∈ (db.canonical target).rows, row.id = id ∧ identityOf target row = (enterpriseId, [.text key]) := by
    unfold Integration.naming
    rw [Option.map_eq_some_iff]
    simp only [(mapped.unique target).identified?_eq_some_iff, candidateKey, Option.some.injEq]
    exact exists_congr fun row => by rw [and_assoc, and_comm (a := row.id = id)]
  funext target key
  exact Option.ext fun id => (named mapped target key id).trans ((same target id _).trans (named otherMapped target key id).symm)

/-- A run over known rows keeps the ids and the identities. -/
theorem Touched.sameKeys (touched : Touched context mappings records before after)
    (unique : ∀ entity, Unique (candidateKey entity) (after.canonical entity))
    (known : ∀ record ∈ records, Known before record.entity record.identity) : SameKeys before after := by
  intro entity id identity
  constructor
  · rintro ⟨row, member, rfl, rfl⟩
    exact touched.persists entity row member
  · rintro ⟨row, member, rfl, rfl⟩
    by_cases own : ∃ record ∈ records, record.entity = entity ∧ record.identity = identityOf entity row
    · obtain ⟨record, listed, rfl, has⟩ := own
      obtain ⟨old, oldMember, oldHas⟩ := known record listed
      obtain ⟨kept, keptMember, id, keeps⟩ := touched.persists record.entity old oldMember
      have same : identityOf record.entity row = identityOf record.entity kept := has.symm.trans (oldHas.symm.trans keeps.symm)
      obtain rfl := unique record.entity kept keptMember row member _ rfl (congrArg some same)
      exact ⟨old, oldMember, id.symm, keeps.symm⟩
    · have old := touched.others entity row member fun record listed isEntity has => own ⟨record, listed, isEntity, has⟩
      exact ⟨row, old, rfl, rfl⟩

end Keys

theorem CanonicalMap.foldl_supply_keeps {records : List Accepted} {map : CanonicalMap} {entity : Entity} {identity : Identity}
    {columns : Attributes} (holds : Attributes → Prop) (start : map entity identity = some columns) (held : holds columns)
    (keeps : ∀ record ∈ records, record.entity = entity → record.identity = identity → ∀ old, holds old →
      holds (record.overridden old)) :
    ∃ columns, records.foldl supply map entity identity = some columns ∧ holds columns := by
  induction records generalizing map columns with
  | nil => exact ⟨columns, start, held⟩
  | cons first rest ih =>
      have later := fun record listed => keeps record (List.mem_cons_of_mem _ listed)
      by_cases hit : entity = first.entity ∧ identity = first.identity
      · have next : map.supply first entity identity = some (first.overridden columns) := by
          rw [supply_apply, if_pos hit, start]
          rfl
        exact ih next (keeps first List.mem_cons_self hit.1.symm hit.2.symm columns held) later
      · have next : map.supply first entity identity = some columns := by
          rw [supply_apply, if_neg hit, start]
        exact ih next held later

/-! ## A run that adds no row -/

section Runs

variable {context : SyncContext} {mappings : List FieldMapping} {progress : Progress} {next : Entity × Record} {before : DB}
variable {accepted : Accepted}

theorem acceptBy_of_acceptedOf (unique : ∀ entity, Unique (candidateKey entity) (before.canonical entity))
    (sound : CacheSound context.enterpriseId progress.cache before)
    (accepts : acceptedOf context mappings progress next before = some accepted) :
    acceptBy (naming context.enterpriseId before) context.enterpriseId mappings next = some accepted := by
  obtain ⟨attrs, resolved, ⟨extracted, filled, ⟨cache, resolving⟩, identified⟩, rfl⟩ := upserting_of_acceptedOf accepts
  have resolves := resolveRefs_naming unique sound resolving
  unfold acceptBy
  simp only [extracted, filled, ← resolves, identified, Bool.false_eq_true, if_false]

end Runs

/-- Every row was there, and the numbers that it has now. -/
def NothingNew (before after : DB) : Prop :=
  ∀ entity, ∀ row ∈ (after.canonical entity).rows, ∃ old ∈ (before.canonical entity).rows, old.id = row.id ∧
    ∀ name number, row.col name = .decimal number → old.col name = .decimal number

/-- The run returns, its records agree, and it leaves nothing new. -/
structure LeavesRows (context : SyncContext) (mappings : List FieldMapping) (steps : List (Entity × Record)) (before after : DB) :
    Prop where
  mapped : Mapped before
  ordered : MastersFirst steps
  stay : Stay context mappings steps .start before
  ran : ∃ progress, steps.foldlM (syncNext context mappings) .start before = .ok progress after
  agreeing : Accepted.Agreeing (acceptedAlong context mappings steps .start before)
  old : NothingNew before after

namespace LeavesRows

variable {context other : SyncContext} {mappings : List FieldMapping} {steps others : List (Entity × Record)}
variable {before after reached : DB} {accepted : Accepted} {next : Entity × Record} {acc : Progress} {watch : String × SignalType}

theorem own (leaves : LeavesRows context mappings steps before after) :
    ∀ accepted ∈ acceptedAlong context mappings steps .start before, accepted.OwnTenant := by
  obtain ⟨_, ran⟩ := leaves.ran
  exact run_ownTenant leaves.stay ran

theorem mappedAfter (leaves : LeavesRows context mappings steps before after) : Mapped after := by
  obtain ⟨_, ran⟩ := leaves.ran
  exact (acceptedAlong_supplies leaves.own leaves.mapped ran).1

theorem touched (leaves : LeavesRows context mappings steps before after) :
    Touched context mappings (acceptedAlong context mappings steps .start before) before after := by
  obtain ⟨_, ran⟩ := leaves.ran
  exact acceptedAlong_touched leaves.own ran

/-- The row was there, with the same identity and, where it now has a number, the same number. -/
theorem earlier (leaves : LeavesRows context mappings steps before after) {entity : Entity} {row : Row}
    (member : row ∈ (after.canonical entity).rows) :
    ∃ old ∈ (before.canonical entity).rows, identityOf entity old = identityOf entity row ∧
      ∀ name number, row.col name = .decimal number → old.col name = .decimal number := by
  obtain ⟨old, oldMember, id, numbers⟩ := leaves.old entity row member
  obtain ⟨kept, keptMember, keptId, identity⟩ := leaves.touched.persists entity old oldMember
  obtain rfl := Table.eq_of_key_eq keptMember member (keptId.trans id)
  exact ⟨old, oldMember, identity.symm, numbers⟩

theorem known (leaves : LeavesRows context mappings steps before after)
    (member : accepted ∈ acceptedAlong context mappings steps .start before) : Known before accepted.entity accepted.identity := by
  obtain ⟨row, rowMember, identity⟩ := leaves.touched.present accepted member
  obtain ⟨old, oldMember, same, _⟩ := leaves.earlier rowMember
  exact ⟨old, oldMember, same.trans identity⟩

theorem sameKeys (leaves : LeavesRows context mappings steps before after) : SameKeys before after :=
  leaves.touched.sameKeys leaves.mappedAfter.unique fun _ member => leaves.known member

theorem accepted_eq (leaves : LeavesRows context mappings steps before after) :
    acceptedAlong context mappings steps .start before =
      steps.filterMap (acceptBy (naming context.enterpriseId before) context.enterpriseId mappings) := by
  obtain ⟨_, ran⟩ := leaves.ran
  rw [leaves.sameKeys.naming leaves.mapped leaves.mappedAfter]
  exact acceptedAlong_eq leaves.own leaves.ordered leaves.mapped (fun _ _ _ _ hit => nomatch hit) ran

/-- A signalling NaN would be in the row at the end, so it would have been there from the
start, for the record that brings it to be compared with. -/
theorem comparable (leaves : LeavesRows context mappings steps before after)
    (member : accepted ∈ acceptedAlong context mappings steps .start before) (watched : watch ∈ signalWatch accepted.entity) :
    accepted.attrs.lookup watch.1 ≠ some (.decimal .snan) := by
  intro given
  obtain ⟨_, ran⟩ := leaves.ran
  obtain ⟨_, _, free, _, column, listed, named, type⟩ := watched_numeric _ watch watched
  have own : ownColumn? accepted.entity watch.1 = some column := named ▸ ownColumn?_of_mem listed
  obtain ⟨row, rowMember, identity, stored⟩ :=
    run_stores leaves.mapped leaves.own leaves.agreeing ran member given nofun own
  rw [type] at stored
  obtain ⟨old, oldMember, same, numbers⟩ := leaves.earlier rowMember
  have start : ∃ number, old.col watch.1 = .decimal number := ⟨_, numbers _ _ stored⟩
  obtain ⟨next, acc, reached, reaches, accepts⟩ := (mem_acceptedAlong ran).mp member
  obtain ⟨_, _, _, stepped, _⟩ := reaches.ran ran
  obtain ⟨done, remaining, rfl, doneRan⟩ := reaches
  have among : ∀ record ∈ acceptedAlong context mappings done .start before,
      record ∈ acceptedAlong context mappings (done ++ next :: remaining) .start before := by
    intro record isDone
    obtain ⟨next, acc, reached, reaches, accepts⟩ := (mem_acceptedAlong doneRan).mp isDone
    exact (mem_acceptedAlong ran).mpr ⟨next, acc, reached, reaches.append _, accepts⟩
  have ownDone := fun record listed => leaves.own record (among record listed)
  have found : mapOf before accepted.entity accepted.identity = some old.col := by
    rw [← identity, ← same]
    exact leaves.mapped.mapOf_of_mem oldMember
  obtain ⟨columns, there, number, isNumber⟩ := CanonicalMap.foldl_supply_keeps
    (fun columns => ∃ number, columns watch.1 = .decimal number) found start
    fun record isDone sameEntity sameIdentity old numbered => by
      rw [Accepted.overridden_col (sameEntity ▸ own) (sameEntity ▸ free)]
      cases brought : record.attrs.lookup watch.1 with
      | none => exact numbered
      | some value =>
          obtain rfl := leaves.agreeing record (among record isDone) accepted member sameEntity.symm sameIdentity.symm _ _ _
            brought given
          exact ⟨.nan, by rw [type]; rfl⟩
  rw [← (acceptedAlong_supplies ownDone leaves.mapped doneRan).2] at there
  obtain ⟨row, rowMember, has, rfl⟩ := mem_of_mapOf there
  exact syncNext_sound stepped accepts (.incomparable rowMember has watched given isNumber)

/-- What the run over the records in another order accepts. -/
theorem accepted_of_reaches (leaves : LeavesRows context mappings steps before after)
    (enterprise : other.enterpriseId = context.enterpriseId) (among : ∀ next ∈ others, next ∈ steps)
    (reaches : Transaction.Reaches (syncNext other mappings) others .start before next acc reached) :
    SameKeys before reached ∧ ∀ accepted, acceptedOf other mappings acc next reached = some accepted →
      accepted ∈ acceptedAlong context mappings steps .start before := by
  have accepts {next : Entity × Record} {acc : Progress} {reached : DB} {accepted : Accepted} (listed : next ∈ steps)
      (mapped : Mapped reached) (sound : CacheSound context.enterpriseId acc.cache reached) (same : SameKeys before reached)
      (accepts : acceptedOf other mappings acc next reached = some accepted) :
      accepted ∈ acceptedAlong context mappings steps .start before := by
    have named := acceptBy_of_acceptedOf mapped.unique (enterprise ▸ sound) accepts
    rw [enterprise, ← same.naming leaves.mapped mapped] at named
    rw [leaves.accepted_eq]
    exact List.mem_filterMap.mpr ⟨next, listed, named⟩
  have listed {next : Entity × Record} {acc : Progress} {reached : DB}
      (reaches : Transaction.Reaches (syncNext other mappings) others .start before next acc reached) : next ∈ steps := by
    obtain ⟨done, remaining, rfl, _⟩ := reaches
    exact among next (List.mem_append_right _ List.mem_cons_self)
  have holds : Mapped reached ∧ CacheSound context.enterpriseId acc.cache reached ∧ SameKeys before reached := by
    have start : Mapped before ∧ CacheSound context.enterpriseId Progress.start.cache before ∧ SameKeys before before :=
      ⟨leaves.mapped, fun _ _ _ _ hit => (nomatch hit), .refl before⟩
    refine Transaction.Reaches.holds (fun (acc : Progress) (db : DB) =>
      Mapped db ∧ CacheSound context.enterpriseId acc.cache db ∧ SameKeys before db) start ?_ reaches
    rintro next acc db progress later isReached ⟨mapped, sound, same⟩ stepped
    have only : [next].foldlM (syncNext other mappings) acc db = .ok progress later := by
      rw [List.foldlM_cons, bind_of_ok stepped]
      rfl
    have isAccepted : ∀ accepted ∈ acceptedOf other mappings acc next db,
        accepted ∈ acceptedAlong context mappings steps .start before :=
      fun accepted => accepts (listed isReached) mapped sound same
    have single : ∀ accepted ∈ acceptedAlong other mappings [next] acc db,
        accepted ∈ acceptedAlong context mappings steps .start before := by
      intro accepted member
      rw [acceptedAlong_cons stepped] at member
      exact isAccepted accepted (by simpa [acceptedAlong] using member)
    have own := fun accepted member => leaves.own accepted (single accepted member)
    have mappedLater := (acceptedAlong_supplies own mapped only).1
    have run : RecordStep.run ⟨other, mappingsOf mappings next.1, next.1, next.2, acc, db⟩ db = .ok progress later := stepped
    have soundLater := RecordStep.cacheSound run
      (ownTenant_of_accepted fun accepted accepts => leaves.own accepted (isAccepted accepted accepts)) (enterprise ▸ sound)
    refine ⟨mappedLater, enterprise ▸ soundLater, same.trans ?_⟩
    refine (acceptedAlong_touched own only).sameKeys mappedLater.unique ?_
    exact fun accepted member => same.known.mp (leaves.known (single accepted member))
  exact ⟨holds.2.2, fun accepted => accepts (listed reaches) holds.1 holds.2.1 holds.2.2⟩

/-- In no order is one of its records faulty. -/
theorem sound (leaves : LeavesRows context mappings steps before after)
    (enterprise : other.enterpriseId = context.enterpriseId) (among : ∀ next ∈ others, next ∈ steps)
    (reaches : Transaction.Reaches (syncNext other mappings) others .start before next acc reached)
    (accepts : acceptedOf other mappings acc next reached = some accepted) : ¬ accepted.Faulty reached := by
  obtain ⟨same, isAccepted⟩ := leaves.accepted_of_reaches enterprise among reaches
  have member := isAccepted accepted accepts
  rintro (⟨new, _, _⟩ | ⟨_, _, watched, given, _⟩)
  · exact new (same.known.mp (leaves.known member))
  · exact leaves.comparable member watched given

end LeavesRows

end SmartProcurement.Integration
