import SmartProcurement.Integration.FiniteMap
import SmartProcurement.Integration.Resync

namespace SmartProcurement.Integration

open Relational Transaction

/-! # What a run accepts, record by record

Masters are synced before the rows that refer to them, so the masters that a run
finds are those that it leaves.  What it accepts of a record depends on their names
and on the record alone.
-/

/-- The ids of masters by their natural keys. -/
abbrev Naming := Entity → String → Option Uuid

def naming (enterpriseId : Uuid) (db : DB) : Naming := fun target key =>
  ((db.canonical target).identified? (candidateKey target) (enterpriseId, [.text key])).map (·.id)

def resolveOneBy (names : Naming) (entity : Entity) (attrs : Dict Raw) (resolved : Option (Dict Raw)) (reference : Reference) :
    Option (Dict Raw) :=
  resolved.bind fun resolved =>
    match attrs.lookup reference.attr with
    | none => some resolved
    | some raw =>
        if raw.blank then some resolved
        else
          match names reference.target raw.str with
          | some id => some (resolved.insert (foreignKey reference.target) (.uuid id))
          | none => if foreignKey reference.target ∈ requiredIdentity entity then none else some resolved

def resolveBy (names : Naming) (entity : Entity) (attrs : Dict Raw) : Option (Dict Raw) :=
  (specs entity).refs.foldl (resolveOneBy names entity attrs)
    (some (attrs.restrict fun key => !((specs entity).refs.any fun reference => reference.attr == key)))

def acceptBy (names : Naming) (enterpriseId : Uuid) (mappings : List FieldMapping) (next : Entity × Record) : Option Accepted :=
  match extract next.2 (mappingsOf mappings next.1) with
  | .error _ => none
  | .ok attrs =>
      if attrs.entries.isEmpty then none
      else
        match resolveBy names next.1 attrs with
        | none => none
        | some resolved => if lacksIdentity next.1 resolved then none else some ⟨next.1, enterpriseId, coerced next.1 resolved⟩

section Naming

variable {enterpriseId : Uuid} {db before after : DB} {reference : Reference} {key : String} {id : Uuid}
variable {entity : Entity} {attrs : Dict Raw} {acc result : Resolution} {cache : Cache}

theorem naming_eq_some_iff (unique : Unique (candidateKey reference.target) (db.canonical reference.target))
    (master : reference ∈ masterReferences) :
    naming enterpriseId db reference.target key = some id ↔ IsMaster enterpriseId reference key db id := by
  have identity : ∀ reference ∈ masterReferences, (specs reference.target).identity = [reference.naturalKey] := by decide
  have named (row : Row) : candidateKey reference.target row = some (enterpriseId, [.text key]) ↔
      row.enterpriseId = enterpriseId ∧ row.col reference.naturalKey = .text key := by
    simp [candidateKey, identityOf, identity reference master]
  unfold naming
  rw [Option.map_eq_some_iff]
  constructor
  · rintro ⟨row, found, rfl⟩
    obtain ⟨member, has⟩ := identified?_some found
    exact ⟨row, member, rfl, (named row).mp has⟩
  · rintro ⟨row, member, rfl, facts⟩
    exact ⟨row, unique.identified?_eq_some_iff.mpr ⟨member, (named row).mpr facts⟩, rfl⟩

theorem resolveOne_naming (unique : Unique (candidateKey reference.target) (before.canonical reference.target))
    (master : reference ∈ masterReferences) (sound : CacheSound enterpriseId acc.cache before)
    (ran : resolveOne enterpriseId entity attrs acc reference before = .ok result after) :
    result.resolved = resolveOneBy (naming enterpriseId before) entity attrs acc.resolved reference := by
  have named {key : String} {id : Uuid} (isMaster : IsMaster enterpriseId reference key before id) :
      naming enterpriseId before reference.target key = some id := (naming_eq_some_iff unique master).mpr isMaster
  unfold resolveOne at ran
  unfold resolveOneBy
  cases resolved : acc.resolved with
  | none =>
      rw [resolved] at ran
      obtain ⟨rfl, rfl⟩ := pure_eq_ok.mp ran
      rw [resolved]
      rfl
  | some attributes =>
      cases given : attrs.lookup reference.attr with
      | none =>
          simp only [resolved, given] at ran
          obtain ⟨rfl, rfl⟩ := pure_eq_ok.mp ran
          exact resolved
      | some raw =>
          simp only [resolved, given, Option.bind_some] at ran ⊢
          cases blank : raw.blank with
          | true =>
              rw [if_pos blank] at ran
              obtain ⟨rfl, rfl⟩ := pure_eq_ok.mp ran
              exact resolved
          | false =>
              rw [if_neg (by simp [blank])] at ran
              rw [if_neg Bool.false_ne_true]
              cases cached : acc.cache.lookup (reference.target, raw.str) with
              | some id =>
                  simp only [cached] at ran
                  obtain ⟨rfl, rfl⟩ := pure_eq_ok.mp ran
                  rw [named (sound reference master _ _ cached)]
              | none =>
                  simp only [cached, bind_eq_ok] at ran
                  obtain ⟨found, middle, looked, ran⟩ := ran
                  cases found with
                  | some id =>
                      obtain ⟨rfl, rfl⟩ := pure_eq_ok.mp ran
                      rw [named (lookupReference_some looked)]
                  | none =>
                      have unnamed : naming enterpriseId before reference.target raw.str = none :=
                        Option.eq_none_iff_forall_ne_some.mpr fun id found =>
                          lookupReference_none looked id ((naming_eq_some_iff unique master).mp found)
                      rw [unnamed]
                      dsimp only at ran ⊢
                      split at ran
                      · next required =>
                        obtain ⟨rfl, rfl⟩ := pure_eq_ok.mp ran
                        rw [if_pos required]
                      · next free =>
                        obtain ⟨rfl, rfl⟩ := pure_eq_ok.mp ran
                        rw [if_neg free]
                        exact resolved

theorem resolveRefs_naming (unique : ∀ entity, Unique (candidateKey entity) (before.canonical entity))
    (sound : CacheSound enterpriseId cache before)
    (ran : resolveRefs enterpriseId entity attrs cache before = .ok result after) :
    result.resolved = resolveBy (naming enterpriseId before) entity attrs := by
  have folds : ∀ (list : List Reference) (acc : Resolution), (∀ reference ∈ list, reference ∈ masterReferences) →
      CacheSound enterpriseId acc.cache before →
      list.foldlM (resolveOne enterpriseId entity attrs) acc before = .ok result after →
      result.resolved = list.foldl (resolveOneBy (naming enterpriseId before) entity attrs) acc.resolved := by
    intro list
    induction list with
    | nil =>
        intro acc _ _ ran
        obtain ⟨rfl, _⟩ := pure_eq_ok.mp ran
        rfl
    | cons reference rest ih =>
        intro acc masters sound ran
        rw [List.foldlM_cons] at ran
        obtain ⟨next, middle, first, later⟩ := bind_eq_ok.mp ran
        obtain rfl := (resolveOne_state first).1
        have master := masters reference List.mem_cons_self
        rw [List.foldl_cons, ← resolveOne_naming (unique _) master sound first]
        exact ih next (fun other member => masters other (List.mem_cons_of_mem _ member))
          (resolveOne_sound master first sound).1 later
  exact folds _ _ (refs_masters entity) sound ran

theorem resolveBy_congr {names others : Naming} (same : ∀ reference ∈ (specs entity).refs, ∀ key,
    names reference.target key = others reference.target key) : resolveBy names entity attrs = resolveBy others entity attrs := by
  unfold resolveBy
  refine List.foldl_ext _ _ _ fun resolved reference listed => ?_
  unfold resolveOneBy
  simp only [same reference listed]

theorem lookup_resolveOneBy {names : Naming} {resolved result : Dict Raw} (free : key ≠ foreignKey reference.target)
    (ran : resolveOneBy names entity attrs (some resolved) reference = some result) : result.lookup key = resolved.lookup key := by
  unfold resolveOneBy at ran
  rw [Option.bind_some] at ran
  repeat' split at ran
  all_goals cases ran
  all_goals first
    | rfl
    | exact AList.lookup_insert_ne free

/-- A reference by a name that somebody has sets its foreign key. -/
theorem lookup_resolveBy {names : Naming} {resolved : Dict Raw} {raw : Raw} (listed : reference ∈ (specs entity).refs)
    (given : attrs.lookup reference.attr = some raw) (filled : raw.blank = false) (named : names reference.target raw.str = some id)
    (ran : resolveBy names entity attrs = some resolved) : resolved.lookup (foreignKey reference.target) = some (.uuid id) := by
  have nothing (list : List Reference) : list.foldl (resolveOneBy names entity attrs) none = none := by
    induction list with
    | nil => rfl
    | cons first rest ih => exact ih
  have kept : ∀ (list : List Reference) (start : Dict Raw),
      (∀ other ∈ list, foreignKey reference.target ≠ foreignKey other.target) →
      list.foldl (resolveOneBy names entity attrs) (some start) = some resolved →
      resolved.lookup (foreignKey reference.target) = start.lookup (foreignKey reference.target) := by
    intro list
    induction list with
    | nil =>
        intro start _ ran
        rw [Option.some.inj ran]
    | cons first rest ih =>
        intro start free ran
        rw [List.foldl_cons] at ran
        cases step : resolveOneBy names entity attrs (some start) first with
        | none =>
            rw [step, nothing] at ran
            cases ran
        | some middle =>
            rw [step] at ran
            rw [ih middle (fun other member => free other (List.mem_cons_of_mem _ member)) ran,
              lookup_resolveOneBy (free first List.mem_cons_self) step]
  obtain ⟨done, rest, split⟩ := List.append_of_mem listed
  have distinct := foreignKeys_nodup entity
  unfold resolveBy at ran
  generalize (attrs.restrict fun key => !((specs entity).refs.any fun reference => reference.attr == key)) = plain at ran
  rw [split] at ran distinct
  rw [List.foldl_append, List.foldl_cons] at ran
  rw [List.map_append, List.map_cons] at distinct
  have free := (List.nodup_cons.mp distinct.of_append_right).1
  cases before : done.foldl (resolveOneBy names entity attrs) (some plain) with
  | none =>
      rw [before] at ran
      cases (nothing rest).symm.trans ran
  | some start =>
      have step : resolveOneBy names entity attrs (some start) reference =
          some (AList.insert (foreignKey reference.target) (.uuid id) start) := by
        unfold resolveOneBy
        rw [Option.bind_some, given]
        dsimp only
        rw [if_neg (by simp [filled]), named]
      rw [before, step] at ran
      rw [kept rest _ (fun other member same => free (List.mem_map.mpr ⟨other, member, same.symm⟩)) ran]
      exact AList.lookup_insert _

/-- What is accepted of a record is its resolved and coerced attributes. -/
structure AcceptsBy (names : Naming) (enterpriseId : Uuid) (mappings : List FieldMapping) (next : Entity × Record)
    (accepted : Accepted)
    (attrs resolved : Dict Raw) : Prop where
  extracted : extract next.2 (mappingsOf mappings next.1) = .ok attrs
  resolves : resolveBy names next.1 attrs = some resolved
  accepted : accepted = ⟨next.1, enterpriseId, coerced next.1 resolved⟩

theorem acceptBy_some {names : Naming} {mappings : List FieldMapping} {next : Entity × Record} {accepted : Accepted}
    (accepts : acceptBy names enterpriseId mappings next = some accepted) :
    ∃ attrs resolved, AcceptsBy names enterpriseId mappings next accepted attrs resolved := by
  unfold acceptBy at accepts
  repeat' split at accepts
  all_goals cases accepts
  next attrs extracted _ _ resolved resolves _ => exact ⟨attrs, resolved, extracted, resolves, rfl⟩

theorem acceptBy_entity {names : Naming} {mappings : List FieldMapping} {next : Entity × Record} {accepted : Accepted}
    (accepts : acceptBy names enterpriseId mappings next = some accepted) : accepted.entity = next.1 := by
  obtain ⟨_, _, accepts⟩ := acceptBy_some accepts
  rw [accepts.accepted]

theorem acceptBy_links {names : Naming} {mappings : List FieldMapping} {next : Entity × Record} {accepted : Accepted}
    {raw : Raw}
    (accepts : acceptBy names enterpriseId mappings next = some accepted)
    (extracted : extract next.2 (mappingsOf mappings next.1) = .ok attrs) (listed : reference ∈ (specs next.1).refs)
    (given : attrs.lookup reference.attr = some raw) (filled : raw.blank = false)
    (named : names reference.target raw.str = some id) :
    accepted.attrs.lookup (foreignKey reference.target) = some (.uuid id) := by
  obtain ⟨others, resolved, accepts⟩ := acceptBy_some accepts
  obtain rfl := Except.ok.inj (extracted.symm.trans accepts.extracted)
  obtain ⟨column, key⟩ := foreignKey_column listed
  rw [accepts.accepted]
  change (coerced next.1 resolved).lookup (foreignKey reference.target) = _
  rw [lookup_coerced, lookup_resolveBy listed given filled named accepts.resolves, Option.bind_some,
    coerceAttr_of_endsWithId key.suffix]
  rfl

end Naming

/-! ## Runs -/

section Runs

variable {context : SyncContext} {mappings : List FieldMapping} {before after db : DB} {accepted : Accepted}
variable {progress later : Progress} {next : Entity × Record} {rest : List (Entity × Record)} {entity : Entity}

theorem acceptedOf_naming (unique : ∀ entity, Unique (candidateKey entity) (before.canonical entity))
    (sound : CacheSound context.enterpriseId progress.cache before)
    (ran : syncNext context mappings progress next before = .ok later after) :
    acceptedOf context mappings progress next before =
      acceptBy (naming context.enterpriseId before) context.enterpriseId mappings next := by
  unfold acceptedOf acceptBy
  have resolves {attrs : Dict Raw} {resolution : Resolution}
      (resolving : resolveRefs context.enterpriseId next.1 attrs progress.cache before = .ok resolution before) :=
    resolveRefs_naming unique sound resolving
  cases syncRecord_ok ran with
  | empty extracted nothing => simp [extracted, nothing]
  | @skipped attrs resolution extracted resolving rejected =>
      cases isResolved : resolution.resolved with
      | none => simp only [extracted, resolving, ← resolves resolving, isResolved]
      | some resolved => simp only [extracted, resolving, ← resolves resolving, isResolved]
  | upserted extracted filled resolving accepted identified stored =>
      simp only [extracted, resolving, ← resolves resolving, accepted]

theorem acceptBy_congr {names others : Naming} {enterpriseId : Uuid} (same : ∀ reference ∈ (specs next.1).refs, ∀ key,
    names reference.target key = others reference.target key) :
    acceptBy names enterpriseId mappings next = acceptBy others enterpriseId mappings next := by
  unfold acceptBy
  simp only [resolveBy_congr same]

theorem ownTenant_of_accepted
    (own : ∀ accepted ∈ acceptedOf context mappings progress next db, accepted.OwnTenant) :
    (RecordStep.mk context (mappingsOf mappings next.1) next.1 next.2 progress db).OwnTenant := by
  intro attrs resolved upserting raw given
  have accepts : acceptedOf context mappings progress next db = some ⟨next.1, context.enterpriseId, coerced next.1 resolved⟩ := by
    obtain ⟨cache, resolving⟩ := upserting.resolving
    have resolving : resolveRefs context.enterpriseId next.1 attrs progress.cache db = .ok ⟨some resolved, cache⟩ db := resolving
    simp [acceptedOf, upserting.extracted, upserting.filled, resolving, upserting.identified]
  refine own _ accepts (.ofRaw raw) ?_
  rw [lookup_coerced_enterprise, upserting.enterprise, given]
  rfl

/-- A run accepts of every record what the masters that it leaves make of it. -/
theorem acceptedAlong_eq
    (own : ∀ accepted ∈ acceptedAlong context mappings rest progress before, accepted.OwnTenant)
    (ordered : MastersFirst rest)
    (mapped : Mapped before)
    (sound : CacheSound context.enterpriseId progress.cache before)
    (ran : rest.foldlM (syncNext context mappings) progress before = .ok later after) :
    acceptedAlong context mappings rest progress before =
      rest.filterMap (acceptBy (naming context.enterpriseId after) context.enterpriseId mappings) := by
  induction rest generalizing progress before with
  | nil => rfl
  | cons next rest ih =>
      obtain ⟨first, ordered⟩ := List.pairwise_cons.mp ordered
      have masters : ∀ reference ∈ (specs next.1).refs, after.canonical reference.target = before.canonical reference.target :=
        fun reference listed => rest_others ran fun other member => by
          rcases List.mem_cons.mp member with rfl | member
          · exact target_ne _ reference listed
          · exact first other member reference listed
      rw [List.foldlM_cons] at ran
      obtain ⟨mid, middle, head, ran⟩ := bind_eq_ok.mp ran
      have only : [next].foldlM (syncNext context mappings) progress before = .ok mid middle := by
        rw [List.foldlM_cons, bind_of_ok head]
        rfl
      rw [acceptedAlong_cons head] at own ⊢
      have ownHead : ∀ accepted ∈ acceptedOf context mappings progress next before, accepted.OwnTenant :=
        fun accepted accepts => own accepted (List.mem_append_left _ (Option.mem_toList.mpr accepts))
      have mappedMiddle : Mapped middle := by
        refine (acceptedAlong_supplies (fun accepted member => ?_) mapped only).1
        rw [acceptedAlong_cons head] at member
        exact ownHead accepted (by simpa [acceptedAlong] using member)
      have soundMiddle : CacheSound context.enterpriseId mid.cache middle := by
        have run : RecordStep.run ⟨context, mappingsOf mappings next.1, next.1, next.2, progress, before⟩ before =
          .ok mid middle := head
        exact RecordStep.cacheSound run (ownTenant_of_accepted ownHead) sound
      have accepts : acceptedOf context mappings progress next before =
          acceptBy (naming context.enterpriseId after) context.enterpriseId mappings next := by
        rw [acceptedOf_naming mapped.unique sound head]
        refine acceptBy_congr fun reference listed key => ?_
        unfold naming
        rw [masters reference listed]
      rw [List.filterMap_cons, accepts,
        ih (fun accepted member => own accepted (List.mem_append_right _ member)) ordered mappedMiddle soundMiddle ran]
      cases acceptBy (naming context.enterpriseId after) context.enterpriseId mappings next <;> rfl

end Runs

end SmartProcurement.Integration
