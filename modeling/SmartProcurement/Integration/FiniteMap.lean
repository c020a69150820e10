import SmartProcurement.Integration.Identities
import SmartProcurement.Integration.TenantFrame

namespace SmartProcurement.Integration

open Relational Transaction

/-! # The canonical tables as finite maps

Read by identity, a canonical table is a finite map, and sync does nothing to it
but supply the records it accepts, one after the other.
-/

abbrev CanonicalMap := Entity → Identity → Option Attributes

def mapOf (db : DB) : CanonicalMap := fun entity identity =>
  ((db.canonical entity).identified? (candidateKey entity) identity).map (·.col)

/-- The map after a record: its identity is inserted or overridden. -/
def CanonicalMap.supply (map : CanonicalMap) (accepted : Accepted) : CanonicalMap :=
  Function.update map accepted.entity (Function.update (map accepted.entity) accepted.identity
    (some (match map accepted.entity accepted.identity with
      | none => accepted.inserted
      | some old => accepted.overridden old)))

/-! ## The accepted records of a run -/

def acceptedOf (context : SyncContext) (mappings : List FieldMapping) (progress : Progress)
    (next : Entity × Record) (db : DB) : Option Accepted :=
  match extract next.2 (mappingsOf mappings next.1) with
  | .error _ => none
  | .ok attrs =>
      if attrs.entries.isEmpty then none
      else
        match resolveRefs context.enterpriseId next.1 attrs progress.cache db with
        | .error _ _ => none
        | .ok resolution _ =>
            match resolution.resolved with
            | none => none
            | some resolved =>
                if lacksIdentity next.1 resolved then none
                else some ⟨next.1, context.enterpriseId, coerced next.1 resolved⟩

def acceptedAlong (context : SyncContext) (mappings : List FieldMapping) :
    List (Entity × Record) → Progress → DB → List Accepted
  | [], _, _ => []
  | next :: rest, progress, db =>
      (acceptedOf context mappings progress next db).toList ++
        match syncNext context mappings progress next db with
        | .error _ _ => []
        | .ok later after => acceptedAlong context mappings rest later after

namespace SyncCall

def commit (call : SyncCall) (db : DB) : DB := (transact call.session db).2

def accepted (call : SyncCall) (db : DB) : List Accepted :=
  if returned (call.session db) then
    match db.dataSource.find? call.dataSourceId with
    | none => []
    | some source =>
        match call.connectors.build source >>= fun _ => call.connectors.fetch source with
        | .error _ => []
        | .ok batch =>
            acceptedAlong (call.context batch) (confirmedMappings call.dataSourceId db)
              (schedule (confirmedMappings call.dataSourceId db) batch.records) .start db
  else []

end SyncCall

/-- The records that calls accept, each call in the state its predecessors left. -/
def acceptedBy : List SyncCall → DB → List Accepted
  | [], _ => []
  | call :: rest, db => call.accepted db ++ acceptedBy rest (call.commit db)

/-! ## One record -/

/-- The tables are a map: identities are unique and every row is as it was stored. -/
structure Mapped (db : DB) : Prop where
  unique : ∀ entity, Unique (candidateKey entity) (db.canonical entity)
  settled : ∀ entity, ∀ row ∈ (db.canonical entity).rows, Settled entity row

theorem Mapped.lookup {db : DB} {entity : Entity} {enterpriseId : Uuid} {attrs : Dict Value}
    {identity : List (String × Value)} (mapped : Mapped db) (identified : identityValues entity attrs = .ok identity) :
    ∃ found, scalarOrNone (fun db => (db.canonical entity).rows.filter (hasIdentity enterpriseId identity)) db =
      .ok found db := by
  refine ⟨_, scalarOrNone_eq_ok.mpr ⟨scalarOneOrNone_of_length_le _ ?_, rfl⟩⟩
  rw [filter_hasIdentity identified]
  exact (mapped.unique entity).filter_length _

section Records

variable {context : SyncContext} {mappings : List FieldMapping} {before after : DB} {accepted : Accepted}
variable {progress later : Progress} {next : Entity × Record} {rest : List (Entity × Record)} {entity : Entity}

/-- Everything but the table of the entity stays. -/
structure SuppliedTo (accepted : Accepted) (before after : DB) : Prop where
  table : Supplied accepted (before.canonical accepted.entity) (after.canonical accepted.entity)
  others : ∀ entity, entity ≠ accepted.entity → after.canonical entity = before.canonical entity

theorem candidateKey_eq_some {entity : Entity} {row : Row} {identity : Identity}
    (same : identityOf entity row = identity) : candidateKey entity row = some identity := congrArg some same

/-- The record names no other enterprise than its own. -/
def Accepted.OwnTenant (accepted : Accepted) : Prop := ∀ value, accepted.attrs.lookup "enterprise_id" = some value →
  bindUuid "enterprise_id" value = .ok (some accepted.enterpriseId)

theorem Accepted.ownTenant_of_missing (missing : accepted.attrs.lookup "enterprise_id" = none) : accepted.OwnTenant := by
  intro value given
  cases missing.symm.trans given

/-- A record of the own enterprise is a new entry of its table, or overrides one. -/
theorem Supplied.mapped {rows result : Table Row} (supplied : Supplied accepted rows result)
    (unique : Unique (candidateKey accepted.entity) rows)
    (settledBefore : ∀ row ∈ rows.rows, Settled accepted.entity row)
    (own : accepted.OwnTenant) :
    Unique (candidateKey accepted.entity) result ∧ (∀ row ∈ result.rows, Settled accepted.entity row) ∧
      (fun identity => (result.identified? (candidateKey accepted.entity) identity).map (·.col)) =
        Function.update (fun identity => (rows.identified? (candidateKey accepted.entity) identity).map (·.col))
          accepted.identity (some (match (rows.identified? (candidateKey accepted.entity) accepted.identity).map (·.col) with
            | none => accepted.inserted
            | some old => accepted.overridden old)) := by
  cases supplied with
  | @inserted stored missing identity columns settled _ =>
      have has : candidateKey accepted.entity (rows.newRow stored) = some accepted.identity :=
        candidateKey_eq_some identity
      have absent : rows.identified? (candidateKey accepted.entity) accepted.identity = none :=
        identified?_eq_none_iff.mpr fun row member same => missing row member (Option.some.inj same)
      refine ⟨unique.insert fun other member value newHas otherHas => ?_, fun row member => ?_, ?_⟩
      · rw [has] at newHas
        obtain rfl := Option.some.inj newHas
        exact missing other member (Option.some.inj otherHas)
      · rcases List.mem_append.mp member with old | new
        · exact settledBefore row old
        · rw [List.mem_singleton.mp new]
          exact ⟨settled.bound, settled.others⟩
      · funext value
        rw [identified?_insert absent has]
        by_cases same : value = accepted.identity
        · subst same
          rw [Function.update_self, Function.update_self, absent]
          exact congrArg some columns
        · rw [Function.update_of_ne same, Function.update_of_ne same]
  | @overridden existing stored member identity only id keys columns settled stays moves =>
      have has := candidateKey_eq_some identity
      have settledOld := settledBefore existing member
      have found := unique.identified?_eq_some_iff.mpr ⟨member, has⟩
      have enterprise : stored.enterpriseId = existing.enterpriseId := by
        cases given : accepted.attrs.lookup "enterprise_id" with
        | none => exact stays given
        | some value =>
            have named := Option.some.inj (Except.ok.inj ((moves value given).symm.trans (own value given)))
            exact named.trans (congrArg Prod.fst identity).symm
      have keeps : candidateKey accepted.entity stored = candidateKey accepted.entity existing :=
        congrArg some (Prod.ext enterprise keys)
      refine ⟨unique.replace member id keeps, fun row rowMember => ?_, ?_⟩
      · rcases (Table.mem_update_const member id).mp rowMember with ⟨old, _⟩ | rfl
        · exact settledBefore row old
        · exact settled settledOld
      · have replaced : (rows.update existing.id fun _ => stored).identified? (candidateKey accepted.entity) = _ :=
          unique.identified?_replace member id has keeps
        funext value
        rw [replaced]
        by_cases same : value = accepted.identity
        · subst same
          rw [Function.update_self, Function.update_self, found]
          exact congrArg some (columns settledOld)
        · rw [Function.update_of_ne same, Function.update_of_ne same]

theorem SuppliedTo.mapped (supplied : SuppliedTo accepted before after) (mapped : Mapped before) (own : accepted.OwnTenant) :
    Mapped after ∧ mapOf after = (mapOf before).supply accepted := by
  obtain ⟨ownUnique, ownSettled, ownMap⟩ :=
    supplied.table.mapped (mapped.unique accepted.entity) (mapped.settled accepted.entity) own
  refine ⟨⟨fun entity => ?_, fun entity => ?_⟩, ?_⟩
  · by_cases same : entity = accepted.entity
    · exact same ▸ ownUnique
    · rw [supplied.others entity same]
      exact mapped.unique entity
  · by_cases same : entity = accepted.entity
    · exact same ▸ ownSettled
    · rw [supplied.others entity same]
      exact mapped.settled entity
  · funext entity
    by_cases same : entity = accepted.entity
    · subst same
      rw [CanonicalMap.supply, Function.update_self]
      exact ownMap
    · rw [CanonicalMap.supply, Function.update_of_ne same]
      unfold mapOf
      rw [supplied.others entity same]

/-- An iteration upserts the record it accepts and changes nothing otherwise. -/
theorem syncNext_upserted (ran : syncNext context mappings progress next before = .ok later after) :
    (acceptedOf context mappings progress next before = none ∧ after = before) ∨ ∃ resolved signal,
      acceptedOf context mappings progress next before =
        some ⟨next.1, context.enterpriseId, coerced next.1 resolved⟩ ∧
      Upserted context next.1 resolved (provenanceOf context (mappingsOf mappings next.1)) before signal after := by
  unfold acceptedOf
  cases syncRecord_ok ran with
  | empty extracted nothing => simp [extracted, nothing]
  | @skipped attrs resolution extracted resolving rejected =>
      refine .inl ⟨?_, rfl⟩
      simp only [extracted, resolving]
      cases accepted : resolution.resolved with
      | none => simp
      | some resolved => simp [rejected resolved accepted]
  | @upserted attrs resolved resolution signal after extracted filled resolving accepted identified stored =>
      exact .inr ⟨resolved, signal, by simp [extracted, filled, resolving, accepted, identified], stored⟩

theorem syncNext_ok (ran : syncNext context mappings progress next before = .ok later after) :
    (acceptedOf context mappings progress next before = none ∧ after = before) ∨
      ∃ accepted, acceptedOf context mappings progress next before = some accepted ∧
        accepted.entity = next.1 ∧ accepted.enterpriseId = context.enterpriseId ∧
        SuppliedTo accepted before after := by
  rcases syncNext_upserted ran with nothing | ⟨resolved, signal, accepts, stored⟩
  · exact .inl nothing
  · obtain ⟨table, others⟩ := stored.supplied
    exact .inr ⟨_, accepts, rfl, rfl, ⟨table, others⟩⟩

theorem syncNext_others (ran : syncNext context mappings progress next before = .ok later after)
    (other : next.1 ≠ entity) : after.canonical entity = before.canonical entity := by
  rcases syncNext_ok ran with ⟨_, rfl⟩ | ⟨accepted, _, isNext, _, supplied⟩
  · rfl
  · exact supplied.others entity (isNext ▸ other.symm)

theorem rest_others (ran : rest.foldlM (syncNext context mappings) progress before = .ok later after)
    (others : ∀ next ∈ rest, next.1 ≠ entity) : after.canonical entity = before.canonical entity := by
  induction rest generalizing progress before with
  | nil =>
      obtain ⟨_, rfl⟩ := pure_eq_ok.mp ran
      rfl
  | cons next rest ih =>
      rw [List.foldlM_cons] at ran
      obtain ⟨_, middle, first, ran⟩ := bind_eq_ok.mp ran
      rw [ih ran fun other member => others other (List.mem_cons_of_mem _ member)]
      exact syncNext_others first (others next List.mem_cons_self)

def Unspelled (mappings : List FieldMapping) : Prop :=
  ∀ mapping ∈ mappings, endsWithId mapping.canonicalAttribute = false

def Tenantless (mappings : List FieldMapping) : Prop :=
  ∀ mapping ∈ mappings, mapping.canonicalAttribute ≠ "enterprise_id"

theorem Unspelled.tenantless (unspelled : Unspelled mappings) : Tenantless mappings := by
  intro mapping member same
  have suffix := unspelled mapping member
  rw [same] at suffix
  exact absurd suffix (by decide)

theorem extract_lookup_none {record : Record} {name : String} {attrs : Dict Raw}
    (extracted : extract record mappings = .ok attrs)
    (other : ∀ mapping ∈ mappings, mapping.canonicalAttribute ≠ name) : attrs.lookup name = none := by
  have folds : ∀ (list : List FieldMapping) (out : Dict Raw), (∀ mapping ∈ list, mapping.canonicalAttribute ≠ name) →
      list.foldlM (extractOne record) out = .ok attrs → out.lookup name = none → attrs.lookup name = none := by
    intro list
    induction list with
    | nil =>
        intro out _ ran missing
        rwa [← except_pure_eq_ok.mp ran]
    | cons mapping rest ih =>
        intro out others ran missing
        rw [List.foldlM_cons] at ran
        obtain ⟨middle, first, ran⟩ := except_bind_eq_ok.mp ran
        refine ih middle (fun mapping member => others mapping (List.mem_cons_of_mem _ member)) ran ?_
        rcases extractOne_ok first with rfl | ⟨value, _, rfl⟩
        · exact missing
        · rwa [AList.lookup_insert_ne (others mapping List.mem_cons_self).symm]
  exact folds mappings ∅ other extracted (AList.lookup_empty name)

theorem upserting_of_acceptedOf (accepts : acceptedOf context mappings progress next before = some accepted) :
    ∃ attrs resolved, RecordStep.Upserting ⟨context, mappingsOf mappings next.1, next.1, next.2, progress, before⟩ attrs resolved ∧
      accepted = ⟨next.1, context.enterpriseId, coerced next.1 resolved⟩ := by
  unfold acceptedOf at accepts
  cases extracted : extract next.2 (mappingsOf mappings next.1) with
  | error _ => simp [extracted] at accepts
  | ok attrs =>
      cases resolving : resolveRefs context.enterpriseId next.1 attrs progress.cache before with
      | error _ _ => simp [extracted, resolving] at accepts
      | ok resolution state =>
          obtain rfl := resolveRefs_state resolving
          obtain ⟨resolved, cache⟩ := resolution
          cases resolved with
          | none => simp [extracted, resolving] at accepts
          | some resolved =>
              simp only [extracted, resolving, Option.ite_none_left_eq_some, Option.some.injEq, Bool.not_eq_true] at accepts
              obtain ⟨filled, identified, rfl⟩ := accepts
              exact ⟨attrs, resolved, ⟨extracted, filled, ⟨cache, resolving⟩, identified⟩, rfl⟩

theorem acceptedOf_tenantless (tenantless : Tenantless mappings)
    (accepts : acceptedOf context mappings progress next before = some accepted) :
    accepted.attrs.lookup "enterprise_id" = none := by
  obtain ⟨attrs, resolved, upserting, rfl⟩ := upserting_of_acceptedOf accepts
  have missing : attrs.lookup "enterprise_id" = none :=
    extract_lookup_none upserting.extracted fun mapping member => tenantless mapping (List.mem_of_mem_filter member)
  rw [lookup_coerced_enterprise, upserting.enterprise, missing]
  rfl

/-! ## Runs of records -/

theorem acceptedAlong_cons (ran : syncNext context mappings progress next before = .ok later after) :
    acceptedAlong context mappings (next :: rest) progress before =
      (acceptedOf context mappings progress next before).toList ++ acceptedAlong context mappings rest later after := by
  rw [acceptedAlong, ran]

/-- What a run accepts is what its iterations accept. -/
theorem mem_acceptedAlong (ran : rest.foldlM (syncNext context mappings) progress before = .ok later after) :
    accepted ∈ acceptedAlong context mappings rest progress before ↔ ∃ next acc reached,
      Transaction.Reaches (syncNext context mappings) rest progress before next acc reached ∧
        acceptedOf context mappings acc next reached = some accepted := by
  induction rest generalizing progress before with
  | nil => simp [acceptedAlong, Transaction.Reaches]
  | cons first rest ih =>
      rw [List.foldlM_cons] at ran
      obtain ⟨middle, reached, firstRan, restRan⟩ := bind_eq_ok.mp ran
      rw [acceptedAlong_cons firstRan, List.mem_append, Option.mem_toList, ih restRan]
      constructor
      · rintro (isFirst | ⟨next, acc, db, isReached, accepts⟩)
        · exact ⟨first, progress, before, reaches_cons.mpr (.inl ⟨rfl, rfl, rfl⟩), isFirst⟩
        · exact ⟨next, acc, db, reaches_cons.mpr (.inr ⟨middle, reached, firstRan, isReached⟩), accepts⟩
      · rintro ⟨next, acc, db, isReached, accepts⟩
        rcases reaches_cons.mp isReached with ⟨rfl, rfl, rfl⟩ | ⟨_, _, again, isReached⟩
        · exact .inl accepts
        · obtain ⟨rfl, rfl⟩ := EStateM.Result.ok.inj (firstRan.symm.trans again)
          exact .inr ⟨next, acc, db, isReached, accepts⟩

theorem Tenantless.along (tenantless : Tenantless mappings) :
    ∀ accepted ∈ acceptedAlong context mappings rest progress before, accepted.OwnTenant := by
  induction rest generalizing progress before with
  | nil => nofun
  | cons next rest ih =>
      intro accepted member
      rcases List.mem_append.mp member with own | later
      · exact Accepted.ownTenant_of_missing (acceptedOf_tenantless tenantless (Option.mem_toList.mp own))
      · split at later
        · cases later
        · exact ih accepted later

theorem acceptedAlong_supplies {db : DB}
    (own : ∀ accepted ∈ acceptedAlong context mappings rest progress before, accepted.OwnTenant)
    (mapped : Mapped before) (ran : rest.foldlM (syncNext context mappings) progress before = .ok later db) :
    Mapped db ∧ mapOf db =
      (acceptedAlong context mappings rest progress before).foldl CanonicalMap.supply (mapOf before) := by
  induction rest generalizing progress before with
  | nil =>
      obtain ⟨_, rfl⟩ := pure_eq_ok.mp ran
      exact ⟨mapped, rfl⟩
  | cons next rest ih =>
      rw [List.foldlM_cons] at ran
      obtain ⟨middle, after, first, restRan⟩ := bind_eq_ok.mp ran
      rw [acceptedAlong_cons first] at own ⊢
      have rest := fun accepted member => own accepted (List.mem_append_right _ member)
      rcases syncNext_ok first with ⟨none, rfl⟩ | ⟨accepted, accepts, _, _, supplied⟩
      · rw [none]
        exact ih rest mapped restRan
      · obtain ⟨mapped, same⟩ := supplied.mapped mapped (own accepted (List.mem_append_left _ (Option.mem_toList.mpr accepts)))
        rw [accepts, Option.toList_some, List.singleton_append, List.foldl_cons, ← same]
        exact ih rest mapped restRan

/-- What every accepted record keeps of the canonical tables, the loop keeps. -/
theorem acceptedAlong_invariant (holds : (Entity → Table Row) → Prop) {after : DB}
    (keeps : ∀ accepted ∈ acceptedAlong context mappings rest progress before, ∀ db later : DB,
      holds db.canonical → SuppliedTo accepted db later → holds later.canonical)
    (start : holds before.canonical)
    (ran : rest.foldlM (syncNext context mappings) progress before = .ok later after) : holds after.canonical := by
  induction rest generalizing progress before with
  | nil =>
      obtain ⟨_, rfl⟩ := pure_eq_ok.mp ran
      exact start
  | cons next rest ih =>
      rw [List.foldlM_cons] at ran
      obtain ⟨middle, after, first, restRan⟩ := bind_eq_ok.mp ran
      rw [acceptedAlong_cons first] at keeps
      have keepsRest : ∀ accepted ∈ acceptedAlong context mappings rest middle after, ∀ db later : DB,
          holds db.canonical → SuppliedTo accepted db later → holds later.canonical :=
        fun accepted member => keeps accepted (List.mem_append_right _ member)
      rcases syncNext_ok first with ⟨_, rfl⟩ | ⟨accepted, accepts, _, _, supplied⟩
      · exact ih keepsRest start restRan
      · have isFirst := keeps accepted (List.mem_append_left _ (Option.mem_toList.mpr accepts))
        exact ih keepsRest (isFirst before after start supplied) restRan

end Records

/-! ## Runs of sync -/

/-- No confirmed mapping spells out an id: attributes are columns or references. -/
def NamesColumns (db : DB) : Prop :=
  ∀ mapping ∈ db.fieldMapping.rows, mapping.status = .confirmed → endsWithId mapping.canonicalAttribute = false

theorem NamesColumns.unspelled {db : DB} (names : NamesColumns db) (dataSourceId : Uuid) :
    Unspelled (confirmedMappings dataSourceId db) := by
  intro mapping member
  obtain ⟨stored, isConfirmed⟩ := List.mem_filter.mp member
  simp only [decide_eq_true_eq] at isConfirmed
  exact names mapping stored isConfirmed.2

theorem fixesMappings_sync (dataSourceId : Uuid) : SyncFrame dataSourceId (Frame.fixes (·.fieldMapping)) where
  signal _ _ := rfl
  insert _ _ _ _ := rfl
  update _ _ _ _ _ := rfl
  source _ _ _ := rfl
  gaps _ _ := rfl
  job _ _ _ _ := rfl

namespace SyncCall

variable {call : SyncCall} {before : DB}

theorem commit_fieldMapping : (Frame.fixes (·.fieldMapping)).rel before (call.commit before) :=
  transact_preserves ((Frame.fixes _).refl before) fun _ _ ran =>
    syncSource_frame (fixesMappings_sync call.dataSourceId) ran

theorem NamesColumns.commit (names : NamesColumns before) : NamesColumns (call.commit before) := by
  have same : (call.commit before).fieldMapping = before.fieldMapping := commit_fieldMapping
  unfold NamesColumns
  rwa [same]

theorem commit_supplies (names : NamesColumns before) (mapped : Mapped before) :
    Mapped (call.commit before) ∧
      mapOf (call.commit before) = (call.accepted before).foldl CanonicalMap.supply (mapOf before) := by
  unfold commit accepted
  cases ran : call.session before with
  | error reason after =>
      rw [transact_of_error ran]
      exact ⟨mapped, rfl⟩
  | ok result after =>
      obtain ⟨loop⟩ := call.loop ran
      obtain ⟨source, found, fetched⟩ := loop.fetched
      obtain ⟨batched, same⟩ :=
        acceptedAlong_supplies (names.unspelled call.dataSourceId).tenantless.along mapped loop.ran
      rw [transact_of_ok ran]
      simp only [returned, if_true, found, fetched]
      have sameMap : mapOf after = mapOf loop.batched := by
        unfold mapOf
        rw [loop.final]
      refine ⟨⟨?_, ?_⟩, sameMap.trans same⟩
      · rw [loop.final]
        exact batched.unique
      · rw [loop.final]
        exact batched.settled

/-- What every accepted record keeps of the canonical tables, the call keeps. -/
theorem accepted_invariant (holds : (Entity → Table Row) → Prop) {after : DB} {result : SyncResult}
    (ran : call.session before = .ok result after) (start : holds before.canonical)
    (keeps : ∀ accepted ∈ call.accepted before, ∀ db later : DB,
      holds db.canonical → SuppliedTo accepted db later → holds later.canonical) : holds after.canonical := by
  obtain ⟨loop⟩ := call.loop ran
  obtain ⟨source, found, fetched⟩ := loop.fetched
  simp only [accepted, ran, returned, if_true, found, fetched] at keeps
  rw [loop.final]
  exact acceptedAlong_invariant holds keeps start loop.ran

theorem Reaches.mapped {step : RecordStep} (tenantless : Tenantless (confirmedMappings call.dataSourceId before))
    (mapped : Mapped before) (reached : call.Reaches before step) : Mapped step.db := by
  obtain ⟨batch, _, _, _, done, rest, _, ran⟩ := reached
  exact (acceptedAlong_supplies tenantless.along mapped ran).1

end SyncCall

/-- The map is what the accepted records make of the empty map, and no lookup of
an upsert is ever ambiguous. -/
structure RefinesMap (initial : DB) (calls : List SyncCall) (db : DB) : Prop where
  unique : ∀ entity, Unique (candidateKey entity) (db.canonical entity)
  map : mapOf db = (acceptedBy calls initial).foldl CanonicalMap.supply fun _ _ => none
  inside : ∀ (call : SyncCall) (step : RecordStep), call.Reaches db step →
    ∀ entity, Unique (candidateKey entity) (step.db.canonical entity)
  lookup : ∀ (call : SyncCall) (step : RecordStep), call.Reaches db step →
    ∀ entity enterpriseId attrs identity, identityValues entity attrs = .ok identity →
      ∃ found, scalarOrNone (fun db => (db.canonical entity).rows.filter (hasIdentity enterpriseId identity))
        step.db = .ok found step.db

theorem commitAll_supplies (calls : List SyncCall) {before : DB} (names : NamesColumns before)
    (mapped : Mapped before) :
    NamesColumns (calls.foldl (fun db call => call.commit db) before) ∧
      Mapped (calls.foldl (fun db call => call.commit db) before) ∧
      mapOf (calls.foldl (fun db call => call.commit db) before) =
        (acceptedBy calls before).foldl CanonicalMap.supply (mapOf before) := by
  induction calls generalizing before with
  | nil => exact ⟨names, mapped, rfl⟩
  | cons call rest ih =>
      obtain ⟨after, same⟩ := call.commit_supplies names mapped
      obtain ⟨finalNames, final, map⟩ := ih (SyncCall.NamesColumns.commit names) after
      refine ⟨finalNames, final, ?_⟩
      rw [List.foldl_cons, map, acceptedBy, List.foldl_append, same]

/-- From empty canonical tables, calls of sync refine the fold of their records. -/
theorem refinesMap_of_calls (initial : DB) (calls : List SyncCall)
    (empty : ∀ entity, (initial.canonical entity).rows = []) (names : NamesColumns initial) :
    RefinesMap initial calls (calls.foldl (fun db call => call.commit db) initial) := by
  have start : Mapped initial := by
    constructor
    · intro entity row member
      rw [empty entity] at member
      cases member
    · intro entity row member
      rw [empty entity] at member
      cases member
  have startMap : mapOf initial = fun _ _ => none := by
    funext entity identity
    rw [mapOf, Option.map_eq_none_iff, identified?_eq_none_iff, empty entity]
    nofun
  obtain ⟨finalNames, final, map⟩ := commitAll_supplies calls names start
  rw [startMap] at map
  have inside {call : SyncCall} {step : RecordStep}
      (reached : call.Reaches (calls.foldl (fun db call => call.commit db) initial) step) : Mapped step.db :=
    SyncCall.Reaches.mapped (finalNames.unspelled call.dataSourceId).tenantless final reached
  exact ⟨final.unique, map, fun call step reached => (inside reached).unique,
    fun call step reached entity enterpriseId attrs identity identified => (inside reached).lookup identified⟩

/-! ## A quantity that cannot be read -/

def sheetCall (now : Timestamp) (quantity : String) : SyncCall where
  now
  connectors := flaky quantity
  enterpriseId := 1
  dataSourceId := 1

theorem sheetWithSource_names : NamesColumns sheetWithSource := by
  unfold NamesColumns
  decide +kernel

theorem refinesMap_stockSheet :
    let calls := [sheetCall 1 "10", sheetCall 3 "5"]
    let db := calls.foldl (fun db call => call.commit db) sheetWithSource
    (mapOf db .stockLevel (1, [.uuid 1, .null])).map (· "quantity") = some (.decimal (.finite 5)) ∧
      RefinesMap sheetWithSource calls db :=
  ⟨by decide +kernel, refinesMap_of_calls _ _ (fun _ => rfl) sheetWithSource_names⟩

/-- The map in which a new row takes every coerced attribute, a null as well. -/
def CanonicalMap.supplyCoerced (map : CanonicalMap) (accepted : Accepted) : CanonicalMap :=
  Function.update map accepted.entity (Function.update (map accepted.entity) accepted.identity
    (some (match map accepted.entity accepted.identity with
      | none => fun name =>
          (accepted.attrs.lookup name).getD (((ownColumn? accepted.entity name).bind (·.default)).getD .null)
      | some old => accepted.overridden old)))

/-- A quantity that is no number is coerced to null, and the new row holds 0. -/
theorem unreadable_quantity_keeps_default :
    (∀ entity, (sheetWithSource.canonical entity).rows = []) ∧ NamesColumns sheetWithSource ∧
      mapOf ((sheetCall 1 "abc").commit sheetWithSource) ≠
        (acceptedBy [sheetCall 1 "abc"] sheetWithSource).foldl CanonicalMap.supplyCoerced fun _ _ => none := by
  refine ⟨fun _ => rfl, sheetWithSource_names, fun same => ?_⟩
  have quantity := congrFun (congrFun same .stockLevel) (1, [.uuid 1, .null])
  have values := congrArg (Option.map (· "quantity")) quantity
  exact absurd values (by decide +kernel)

end SmartProcurement.Integration
