import SmartProcurement.Integration.Schedule
import SmartProcurement.Integration.StoredRows
import SmartProcurement.Transaction.Lockstep

namespace SmartProcurement.Integration

open Relational Transaction Text

/-! # Two upserts in lockstep

What an upsert does depends on the values of the attributes and not on their
order, and of the database it looks at the canonical tables and the enterprises
only.  An attribute whose value cannot be read is as good as missing to it, unless
it identifies the row or the row has a value to lose.
-/

/-- Related states look the same to an upsert and stay related when it writes. -/
structure SyncView (states : DB → DB → Prop) : Prop where
  canonical : ∀ {db other}, states db other → other.canonical = db.canonical
  enterprise : ∀ {db other}, states db other → other.enterprise = db.enterprise
  signal : ∀ {db other} signal, states db other → states
    { db with observationSignal := db.observationSignal.insert signal }
    { other with observationSignal := other.observationSignal.insert signal }
  stores : ∀ {db other} entity table, states db other → states (db.setCanonical entity table) (other.setCanonical entity table)

/-! ## What a mapping takes -/

/-- What a mapping takes from a record, if anything. -/
def supplied (record : Record) (mapping : FieldMapping) : Except Error (Option Raw) :=
  match record.lookup mapping.sourceFieldPath with
  | none => .ok none
  | some value => do
      let value ←
        match mapping.transform with
        | some transform => applyTransform value transform
        | none => .ok value
      return if value.blank then none else some value

section Extract

variable {record : Record} {mappings : List FieldMapping} {mapping : FieldMapping} {out next : Dict Raw}

theorem extractOne_eq : extractOne record out mapping = (supplied record mapping).map fun given =>
    match given with
    | none => out
    | some value => AList.insert mapping.canonicalAttribute value out := by
  have keeps (value : Raw) :
      (.ok (if value.blank then out else AList.insert mapping.canonicalAttribute value out) : Except Error (Dict Raw)) =
        Except.map (fun given => match given with
          | none => out
          | some value => AList.insert mapping.canonicalAttribute value out)
          (.ok (if value.blank then none else some value)) := by
    cases value.blank with
    | true => rfl
    | false => rfl
  unfold extractOne supplied
  cases record.lookup mapping.sourceFieldPath with
  | none => rfl
  | some value =>
      cases mapping.transform with
      | none => exact keeps value
      | some transform =>
          cases transformed : applyTransform value transform with
          | error reason =>
              simp only [transformed]
              rfl
          | ok value =>
              simp only [transformed]
              exact keeps value

theorem extractOne_eq_ok : extractOne record out mapping = .ok next ↔
    (supplied record mapping = .ok none ∧ next = out) ∨
      ∃ value, supplied record mapping = .ok (some value) ∧ next = AList.insert mapping.canonicalAttribute value out := by
  rw [extractOne_eq, except_map_eq_ok]
  constructor
  · rintro ⟨given, took, rfl⟩
    cases given with
    | none => exact .inl ⟨took, rfl⟩
    | some value => exact .inr ⟨value, took, rfl⟩
  · rintro (⟨took, rfl⟩ | ⟨value, took, rfl⟩)
    · exact ⟨none, took, rfl⟩
    · exact ⟨some value, took, rfl⟩

/-- Every attribute is what some mapping takes. -/
theorem extract_only (ran : extract record mappings = .ok out) {key : String} {value : Raw}
    (found : out.lookup key = some value) :
    ∃ mapping ∈ mappings, mapping.canonicalAttribute = key ∧ supplied record mapping = .ok (some value) := by
  have folds : ∀ (list : List FieldMapping) (start : Dict Raw), list.foldlM (extractOne record) start = .ok out →
      start.lookup key = some value ∨
        ∃ mapping ∈ list, mapping.canonicalAttribute = key ∧ supplied record mapping = .ok (some value) := by
    intro list
    induction list with
    | nil =>
        intro start ran
        obtain rfl := except_pure_eq_ok.mp ran
        exact .inl found
    | cons first rest ih =>
        intro start ran
        rw [List.foldlM_cons] at ran
        obtain ⟨next, stepped, ran⟩ := except_bind_eq_ok.mp ran
        rcases ih next ran with before | ⟨mapping, member, facts⟩
        · rcases extractOne_eq_ok.mp stepped with ⟨_, rfl⟩ | ⟨given, took, rfl⟩
          · exact .inl before
          · by_cases hit : key = first.canonicalAttribute
            · subst hit
              rw [AList.lookup_insert] at before
              obtain rfl := Option.some.inj before
              exact .inr ⟨first, List.mem_cons_self, rfl, took⟩
            · rw [AList.lookup_insert_ne hit] at before
              exact .inl before
        · exact .inr ⟨mapping, List.mem_cons_of_mem _ member, facts⟩
  rcases folds mappings ∅ ran with nothing | taken
  · rw [AList.lookup_empty] at nothing
    cases nothing
  · exact taken

theorem extract_append_ok {last : FieldMapping} (ran : extract record (mappings ++ [last]) = .ok next) :
    ∃ out, extract record mappings = .ok out ∧ extractOne record out last = .ok next := by
  rw [extract, List.foldlM_append] at ran
  obtain ⟨out, front, ran⟩ := except_bind_eq_ok.mp ran
  rw [List.foldlM_cons] at ran
  obtain ⟨_, stepped, done⟩ := except_bind_eq_ok.mp ran
  obtain rfl := except_pure_eq_ok.mp done
  exact ⟨out, front, stepped⟩

theorem extract_returns_iff : (∃ out, extract record mappings = .ok out) ↔
    ∀ mapping ∈ mappings, ∃ given, supplied record mapping = .ok given := by
  constructor
  · rintro ⟨out, ran⟩ mapping member
    induction mappings using List.reverseRecOn generalizing out with
    | nil => cases member
    | append_singleton front last ih =>
        obtain ⟨before, frontRan, stepped⟩ := extract_append_ok ran
        rcases List.mem_append.mp member with old | new
        · exact ih before frontRan old
        · rw [List.mem_singleton.mp new]
          rcases extractOne_eq_ok.mp stepped with ⟨took, _⟩ | ⟨value, took, _⟩
          · exact ⟨none, took⟩
          · exact ⟨some value, took⟩
  · intro gives
    unfold extract
    generalize (∅ : Dict Raw) = start
    induction mappings generalizing start with
    | nil => exact ⟨start, rfl⟩
    | cons first rest ih =>
        obtain ⟨given, took⟩ := gives first List.mem_cons_self
        have stepped : ∃ next, extractOne record start first = .ok next := by
          rw [extractOne_eq, took]
          exact ⟨_, rfl⟩
        obtain ⟨next, stepped⟩ := stepped
        rw [List.foldlM_cons, stepped]
        exact ih (fun mapping member => gives mapping (List.mem_cons_of_mem _ member)) next

end Extract

/-! ## Values that cannot be read -/

/-- The value of a column that is not blank and that sync reads as null. -/
def Unreadable (entity : Entity) (name : String) (raw : Raw) : Prop :=
  raw.blank = false ∧ endsWithId name = false ∧ ∃ type, columnType? entity name = some type ∧ coerce raw type = .null

/-- The same attributes, but for ones that nobody can read in the first. -/
def Loses (entity : Entity) (attrs others : Dict Raw) : Prop :=
  ∀ name, attrs.lookup name = others.lookup name ∨
    ∃ raw, attrs.lookup name = some raw ∧ Unreadable entity name raw ∧
      ∀ other, others.lookup name = some other → other.blank = false

/-- Where the attributes differ nobody can read the other value either, or it is missing
and the attribute may be lost. -/
def LosesOnly (entity : Entity) (mayLose : String → Prop) (attrs others : Dict Raw) : Prop :=
  ∀ name, attrs.lookup name ≠ others.lookup name →
    (∃ other, others.lookup name = some other ∧ Unreadable entity name other) ∨
      (others.lookup name = none ∧ mayLose name)

/-- A lost attribute is null in the first. -/
def Nulls (entity : Entity) (lost : String → Prop) (attrs others : Dict Value) : Prop :=
  ∀ name, attrs.lookup name = others.lookup name ∨
    (lost name ∧ (ownColumn? entity name).isSome = true ∧ others.lookup name = none ∧ attrs.lookup name = some .null)

section Attributes

variable {entity : Entity} {lost : String → Prop} {resolved counterpart : Dict Raw} {attrs others : Dict Value} {name : String}

theorem ownColumn?_of_columnType? {type : ColumnType} (typed : columnType? entity name = some type) :
    (ownColumn? entity name).isSome = true := by
  unfold columnType? at typed
  split at typed
  · cases typed
  · next foreign =>
    obtain ⟨column, found, _⟩ := Option.map_eq_some_iff.mp typed
    have named : column.name = name := eq_of_beq (List.find?_some (p := fun column : Column => column.name == name) found)
    refine List.find?_isSome.mpr ⟨column, ?_, beq_iff_eq.mpr named⟩
    rcases List.mem_append.mp (List.mem_of_find?_eq_some found) with mixin | own
    · have managed : ∀ column ∈ mixinColumns, column.name ∈ managedColumns := by decide
      exact absurd (named ▸ managed column mixin) foreign
    · exact own

theorem Unreadable.own {raw : Raw} (unreadable : Unreadable entity name raw) : (ownColumn? entity name).isSome = true := by
  obtain ⟨_, _, type, typed, _⟩ := unreadable
  exact ownColumn?_of_columnType? typed

theorem Unreadable.coerceAttr {raw : Raw} (unreadable : Unreadable entity name raw) :
    coerceAttr entity name raw = some .null := by
  obtain ⟨_, suffix, type, typed, unread⟩ := unreadable
  rw [Integration.coerceAttr, if_neg (Bool.eq_false_iff.mp suffix), typed, Option.map_some, unread]

theorem coerced_nulls (loses : Loses entity resolved counterpart) (only : LosesOnly entity lost resolved counterpart) :
    Nulls entity lost (coerced entity resolved) (coerced entity counterpart) := by
  intro name
  rw [lookup_coerced, lookup_coerced]
  by_cases same : resolved.lookup name = counterpart.lookup name
  · exact .inl (by rw [same])
  · obtain ⟨raw, given, unreadable, _⟩ := (loses name).resolve_left same
    rw [given, Option.bind_some, unreadable.coerceAttr]
    rcases only name same with ⟨other, otherGiven, otherUnreadable⟩ | ⟨missing, isLost⟩
    · exact .inl (by rw [otherGiven, Option.bind_some, otherUnreadable.coerceAttr])
    · rw [missing]
      by_cases listed : name ∈ (specs entity).identity
      · exact .inl (by rw [if_pos listed]; rfl)
      · exact .inr ⟨isLost, unreadable.own, by rw [if_neg listed]; rfl, rfl⟩

theorem identityValues_congr (nulls : Nulls entity lost attrs others) :
    identityValues entity attrs = identityValues entity others := by
  have same (name : String) : (attrs.lookup name).getD .null = (others.lookup name).getD .null := by
    rcases nulls name with same | ⟨_, _, missing, null⟩
    · rw [same]
    · rw [missing, null]
      rfl
  unfold identityValues
  simp only [same]

theorem Nulls.enterprise (nulls : Nulls entity lost attrs others) :
    attrs.lookup "enterprise_id" = others.lookup "enterprise_id" := by
  rcases nulls "enterprise_id" with same | ⟨_, own, _⟩
  · exact same
  · rw [enterpriseId_not_own] at own
    cases own

/-- A new row takes the default of a column that is null or missing. -/
theorem construct_congr (nulls : Nulls entity lost attrs others) (now : Timestamp) (enterpriseId : Uuid)
    (provenance : Provenance) :
    construct entity now enterpriseId provenance attrs = construct entity now enterpriseId provenance others := by
  have foreign : attrs.keys.any (fun key => (ownColumn? entity key).isNone) =
      others.keys.any fun key => (ownColumn? entity key).isNone := by
    have keeps (key : String) (isForeign : (ownColumn? entity key).isNone = true) : key ∈ attrs.keys ↔ key ∈ others.keys := by
      have same : attrs.lookup key = others.lookup key := by
        rcases nulls key with same | ⟨_, own, _⟩
        · exact same
        · rw [Option.isNone_iff_eq_none.mp isForeign] at own
          cases own
      rw [← AList.mem_keys, ← AList.mem_keys, ← AList.lookup_isSome, ← AList.lookup_isSome, same]
    rw [Bool.eq_iff_iff, List.any_eq_true, List.any_eq_true]
    exact exists_congr fun key => and_congr_left fun isForeign => keeps key isForeign
  unfold construct
  rw [foreign, nulls.enterprise]
  congr 4
  funext name
  rcases nulls name with same | ⟨_, _, missing, null⟩
  · rw [same]
  · rw [missing, null]

/-- Two nulls are no change. -/
theorem diffSignal_congr (context : SyncContext) (existing : Row) (nulls : Nulls entity lost attrs others)
    (nothing : ∀ name, lost name → existing.col name = .null)
    (keys : ∀ target, resolved.lookup (foreignKey target) = counterpart.lookup (foreignKey target)) :
    diffSignal context entity existing attrs resolved = diffSignal context entity existing others counterpart := by
  have keys (db : DB) (target : Entity) : signalKey db target resolved = signalKey db target counterpart := by
    unfold signalKey
    rw [keys]
  unfold diffSignal
  cases signalWatch entity with
  | none => rfl
  | some watch =>
      obtain ⟨attr, signalType⟩ := watch
      dsimp only
      simp only [keys]
      rcases nulls attr with same | ⟨isLost, _, missing, null⟩
      · rw [same]
      · rw [missing, null, nothing attr isLost]
        rfl

/-- Attributes are assigned in any order, and a null where there is one already is none. -/
theorem assignAttrs_alike (existing : Row) (nulls : Nulls entity lost attrs others)
    (nothing : ∀ name, lost name → existing.col name = .null) (provenance : Provenance) :
    Alike (fun changed counterpart : Row =>
        ({ changed with sourceProvenance := some provenance, observability := .fresh } : Row) =
          { counterpart with sourceProvenance := some provenance, observability := .fresh })
      (assignAttrs entity existing attrs) (assignAttrs entity existing others) := by
  have agree {changed counterpart : Row} (ran : assignAttrs entity existing attrs = .ok changed)
      (otherRan : assignAttrs entity existing others = .ok counterpart) :
      ({ changed with sourceProvenance := some provenance, observability := .fresh } : Row) =
        { counterpart with sourceProvenance := some provenance, observability := .fresh } := by
    have first := assignAttrs_ok ran
    have second := assignAttrs_ok otherRan
    have columns : changed.col = counterpart.col := by
      funext name
      by_cases listed : name ∈ (specs entity).identity
      · rw [first.identity name listed, second.identity name listed]
      · cases own : ownColumn? entity name with
        | none => rw [first.foreign name own, second.foreign name own]
        | some column =>
            have isOwn : (ownColumn? entity name).isSome := by rw [own]; rfl
            rcases nulls name with same | ⟨isLost, _, missing, null⟩
            · cases given : attrs.lookup name with
              | none => rw [first.absent name given, second.absent name (same.symm.trans given)]
              | some value =>
                  rw [first.given name _ listed isOwn given, second.given name _ listed isOwn (same.symm.trans given)]
            · rw [first.given name _ listed isOwn null, second.absent name missing, nothing name isLost]
    have enterprise : changed.enterpriseId = counterpart.enterpriseId := by
      cases given : attrs.lookup "enterprise_id" with
      | none => rw [first.sameEnterprise given, second.sameEnterprise (nulls.enterprise.symm.trans given)]
      | some tenant =>
          have bound := (first.otherEnterprise tenant given).symm.trans
            (second.otherEnterprise tenant (nulls.enterprise.symm.trans given))
          exact Option.some.inj (Except.ok.inj bound)
    have id := first.id.trans second.id.symm
    have created := first.created.trans second.created.symm
    cases changed
    cases counterpart
    simp only at columns enterprise id created
    subst columns enterprise id created
    rfl
  have returns {attrs others : Dict Value} (same : others.lookup "enterprise_id" = attrs.lookup "enterprise_id") {changed : Row}
      (ran : assignAttrs entity existing attrs = .ok changed) :
      ∃ counterpart, assignAttrs entity existing others = .ok counterpart :=
    assignAttrs_returns existing fun value found => ⟨_, (assignAttrs_ok ran).otherEnterprise value (same.symm.trans found)⟩
  exact alike_of_returns ⟨fun ⟨_, ran⟩ => returns nulls.enterprise.symm ran, fun ⟨_, ran⟩ => returns nulls.enterprise ran⟩
    fun _ _ => agree

end Attributes

section Upserts

variable {states : DB → DB → Prop} {entity : Entity} {resolved counterpart : Dict Raw} {context : SyncContext}

theorem lockstep_scalarOrNone {α : Type} {query : DB → List α}
    (same : ∀ db other, states db other → query other = query db) :
    Lockstep Eq states states (scalarOrNone query) (scalarOrNone query) := by
  unfold scalarOrNone
  refine (lockstep_query fun db other related => (same db other related).symm).bind ?_
  rintro rows _ rfl
  exact lockstep_lift (alike_refl _)

theorem storeRow_congr {db other : DB} (canonical : other.canonical = db.canonical)
    (enterprise : other.enterprise = db.enterprise)
    (row : Row) : storeRow other entity row = storeRow db entity row := by
  have reference : checkReference other = checkReference db := by
    funext column value
    unfold checkReference
    rw [canonical]
  have column : storeColumn other = storeColumn db := by
    funext row column
    unfold storeColumn
    rw [reference]
  have unique : duplicates other = duplicates db := by
    funext entity row
    unfold duplicates
    rw [canonical]
  unfold storeRow
  rw [enterprise, column, unique]

theorem diffSignal_lockstep (view : SyncView states) (existing : Row) (attrs : Dict Value) :
    Lockstep Eq states states (diffSignal context entity existing attrs resolved)
      (diffSignal context entity existing attrs resolved) := by
  have keys (target : Entity) (db other : DB) (related : states db other) :
      signalKey db target resolved = signalKey other target resolved := by
    unfold signalKey
    rw [view.canonical related]
  unfold diffSignal
  cases signalWatch entity with
  | none => exact lockstep_pure rfl
  | some watch =>
      obtain ⟨attr, signalType⟩ := watch
      dsimp only
      cases attrs.lookup attr with
      | none => exact lockstep_pure rfl
      | some new =>
          refine (lockstep_lift (alike_refl _)).bind ?_
          rintro same _ rfl
          cases same with
          | true => exact lockstep_pure rfl
          | false =>
              refine (lockstep_query (keys .item)).bind ?_
              rintro item _ rfl
              refine (lockstep_lift (alike_refl _)).bind ?_
              rintro itemId _ rfl
              refine (lockstep_query (keys .supplier)).bind ?_
              rintro supplier _ rfl
              refine (lockstep_lift (alike_refl _)).bind ?_
              rintro supplierId _ rfl
              refine (lockstep_write fun db other related => view.signal _ related).bind ?_
              rintro _ _ rfl
              exact lockstep_pure rfl

/-- What two upserts of the entity may differ in without writing different rows. -/
structure UpsertedAlike (context : SyncContext) (entity : Entity) (provenance : Provenance) (resolved counterpart : Dict Raw)
    (table : Table Row) : Prop where
  identity : identityValues entity (coerced entity resolved) = identityValues entity (coerced entity counterpart)
  constructs : construct entity context.now context.enterpriseId provenance (coerced entity resolved) =
    construct entity context.now context.enterpriseId provenance (coerced entity counterpart)
  updates : ∀ identity, identityValues entity (coerced entity resolved) = .ok identity → ∀ existing ∈ table.rows,
    hasIdentity context.enterpriseId identity existing = true →
      diffSignal context entity existing (coerced entity resolved) resolved =
          diffSignal context entity existing (coerced entity counterpart) counterpart ∧
        Alike (fun changed other : Row =>
            ({ changed with sourceProvenance := some provenance, observability := .fresh } : Row) =
              { other with sourceProvenance := some provenance, observability := .fresh })
          (assignAttrs entity existing (coerced entity resolved)) (assignAttrs entity existing (coerced entity counterpart))

theorem upsert_lockstep_of (view : SyncView states) {provenance : Provenance} {start : DB}
    (alike : UpsertedAlike context entity provenance resolved counterpart (start.canonical entity)) :
    Lockstep Eq (fun db other => db = start ∧ states db other) states (upsert context entity resolved provenance)
      (upsert context entity counterpart provenance) := by
  have identifies : Lockstep (fun identity other => identity = other ∧
        identityValues entity (coerced entity resolved) = .ok identity)
      (fun db other => db = start ∧ states db other) (fun db other => db = start ∧ states db other)
      (lift (identityValues entity (coerced entity resolved)))
      (lift (identityValues entity (coerced entity counterpart))) :=
    (lockstep_lift (alike_of_eq alike.identity)).with_facts fun _ _ _ _ _ ran => (lift_eq_ok.mp ran).1
  refine identifies.bind ?_
  rintro identity _ ⟨rfl, identified⟩
  have looks : Lockstep (fun existing other => existing = other ∧ ∀ row, existing = some row →
        row ∈ (start.canonical entity).rows ∧ hasIdentity context.enterpriseId identity row = true)
      (fun db other => db = start ∧ states db other) (fun db other => db = start ∧ states db other)
      (scalarOrNone fun db => (db.canonical entity).rows.filter (hasIdentity context.enterpriseId identity))
      (scalarOrNone fun db => (db.canonical entity).rows.filter (hasIdentity context.enterpriseId identity)) := by
    refine (lockstep_scalarOrNone fun db other related => by rw [view.canonical related.2]).with_facts ?_
    rintro db other found after ⟨rfl, _⟩ ran row rfl
    exact List.mem_filter.mp (mem_of_scalarOneOrNone (scalarOrNone_eq_ok.mp ran).1)
  refine looks.bind ?_
  rintro existing _ ⟨rfl, found⟩
  refine Lockstep.strengthen ?_ fun _ _ => And.right
  cases existing with
  | none =>
      refine (lockstep_lift (alike_of_eq alike.constructs)).bind ?_
      rintro row _ rfl
      refine (lockstep_query fun db other related => ?_).bind ?_
      · rw [storeRow_congr (view.canonical related) (view.enterprise related), view.canonical related]
      · rintro computed _ rfl
        refine (lockstep_lift (alike_refl _)).bind ?_
        rintro stored _ rfl
        refine (lockstep_write fun db other related => ?_).bind ?_
        · rw [view.canonical related]
          exact view.stores _ _ related
        · rintro _ _ rfl
          exact lockstep_pure rfl
  | some existing =>
      obtain ⟨member, identity⟩ := found existing rfl
      obtain ⟨signals, assigns⟩ := alike.updates _ identified existing member identity
      dsimp only
      rw [← signals]
      refine (diffSignal_lockstep view existing _).bind ?_
      rintro signal _ rfl
      refine (lockstep_lift assigns).bind ?_
      intro changed counterpart changes
      rw [changes]
      refine (lockstep_query fun db other related => ?_).bind ?_
      · rw [storeRow_congr (view.canonical related) (view.enterprise related)]
      · rintro computed _ rfl
        refine (lockstep_lift (alike_refl _)).bind ?_
        rintro stored _ rfl
        refine (lockstep_write fun db other related => ?_).bind ?_
        · rw [view.canonical related]
          exact view.stores _ _ related
        · rintro _ _ rfl
          exact lockstep_pure rfl

/-- No row has a value of the attribute to lose, and none is identified by it. -/
def Idle (context : SyncContext) (entity : Entity) (resolved : Dict Raw) (table : Table Row) (name : String) : Prop :=
  name ∉ (specs entity).identity ∧
    ∀ row ∈ table.rows, identityOf entity row = Accepted.identity ⟨entity, context.enterpriseId, coerced entity resolved⟩ →
      row.col name = .null

theorem Loses.of_endsWithId (loses : Loses entity resolved counterpart) {name : String}
    (suffix : endsWithId name = true) : resolved.lookup name = counterpart.lookup name := by
  rcases loses name with same | ⟨_, _, ⟨_, none, _⟩, _⟩
  · exact same
  · rw [suffix] at none
    cases none

/-- Upserts write the same row if nothing but unreadable values is lost, and no row loses one. -/
theorem upsert_lockstep (view : SyncView states) (loses : Loses entity resolved counterpart) (provenance : Provenance)
    {start : DB} (only : LosesOnly entity (Idle context entity resolved (start.canonical entity)) resolved counterpart) :
    Lockstep Eq (fun db other => db = start ∧ states db other) states (upsert context entity resolved provenance)
      (upsert context entity counterpart provenance) := by
  have nulls := coerced_nulls loses only
  refine upsert_lockstep_of view ⟨identityValues_congr nulls, construct_congr nulls _ _ _, ?_⟩
  intro identity identified existing member identifies
  have nothing (name : String) (idle : Idle context entity resolved (start.canonical entity) name) : existing.col name = .null :=
    idle.2 existing member ((hasIdentity_iff identified).mp identifies)
  refine ⟨diffSignal_congr context existing nulls nothing fun target => loses.of_endsWithId ?_,
    assignAttrs_alike existing nulls nothing provenance⟩
  cases target <;> decide

/-! ## References and records -/

/-- The resolved attributes are the same, or they are the ones that came with the records. -/
def Carries (attrs others resolved counterpart : Dict Raw) : Prop :=
  ∀ name, resolved.lookup name = counterpart.lookup name ∨
    (resolved.lookup name = attrs.lookup name ∧ counterpart.lookup name = others.lookup name)

/-- Both skip the record, or both resolve it to the attributes that they have. -/
structure ResolvedAlike (attrs others : Dict Raw) (first second : Resolution) : Prop where
  cache : first.cache = second.cache
  resolved : Option.Rel (Carries attrs others) first.resolved second.resolved

section References

variable {attrs others : Dict Raw}

theorem Carries.insert (carries : Carries attrs others resolved counterpart) (key : String) (value : Raw) :
    Carries attrs others (AList.insert key value resolved) (AList.insert key value counterpart) := by
  intro name
  by_cases hit : name = key
  · subst hit
    exact .inl (by rw [AList.lookup_insert, AList.lookup_insert])
  · rw [AList.lookup_insert_ne hit, AList.lookup_insert_ne hit]
    exact carries name

theorem carries_restrict (attrs others : Dict Raw) (keep : String → Bool) :
    Carries attrs others (attrs.restrict keep) (others.restrict keep) := by
  intro name
  rw [Dict.restrict, Dict.restrict, Dict.lookup_filterMap, Dict.lookup_filterMap]
  cases keep name with
  | false => exact .inl (by cases attrs.lookup name <;> cases others.lookup name <;> rfl)
  | true =>
      simp only [if_true, Option.bind_fun_some, and_self, or_true]

theorem Carries.loses (carries : Carries attrs others resolved counterpart) (loses : Loses entity attrs others) :
    Loses entity resolved counterpart := by
  intro name
  rcases carries name with same | ⟨own, otherOwn⟩
  · exact .inl same
  · rw [own, otherOwn]
    exact loses name

theorem Carries.only {mayLose : String → Prop} (carries : Carries attrs others resolved counterpart)
    (only : LosesOnly entity mayLose attrs others) : LosesOnly entity mayLose resolved counterpart := by
  intro name different
  obtain ⟨own, otherOwn⟩ := (carries name).resolve_left different
  rw [own, otherOwn] at different
  rw [otherOwn]
  exact only name different

/-- A reference is no column, so it is never lost. -/
theorem Loses.reference (loses : Loses entity attrs others) {reference : Reference}
    (listed : reference ∈ (specs entity).refs) :
    attrs.lookup reference.attr = others.lookup reference.attr := by
  have untyped : ∀ reference ∈ (specs entity).refs, columnType? entity reference.attr = none := by
    cases entity <;> decide
  rcases loses reference.attr with same | ⟨_, _, ⟨_, _, _, typed, _⟩, _⟩
  · exact same
  · rw [untyped reference listed] at typed
    cases typed

theorem resolveOne_lockstep (canonical : ∀ db other, states db other → other.canonical = db.canonical) (enterpriseId : Uuid)
    {reference : Reference} (same : attrs.lookup reference.attr = others.lookup reference.attr)
    {first second : Resolution} (alike : ResolvedAlike attrs others first second) :
    Lockstep (ResolvedAlike attrs others) states states (resolveOne enterpriseId entity attrs first reference)
      (resolveOne enterpriseId entity others second reference) := by
  obtain ⟨firstResolved, cache⟩ := first
  obtain ⟨secondResolved, _⟩ := second
  obtain ⟨rfl, resolved⟩ := alike
  unfold resolveOne
  cases resolved with
  | none => exact lockstep_pure ⟨rfl, .none⟩
  | some carries =>
      dsimp only
      rw [same]
      cases others.lookup reference.attr with
      | none => exact lockstep_pure ⟨rfl, .some carries⟩
      | some raw =>
          dsimp only
          cases raw.blank with
          | true => exact lockstep_pure ⟨rfl, .some carries⟩
          | false =>
              rw [if_neg Bool.false_ne_true, if_neg Bool.false_ne_true]
              cases cache.lookup (reference.target, raw.str) with
              | some id => exact lockstep_pure ⟨rfl, .some (carries.insert _ _)⟩
              | none =>
                  have looks : Lockstep Eq states states (lookupReference enterpriseId reference raw.str)
                      (lookupReference enterpriseId reference raw.str) := by
                    refine (lockstep_lift (alike_refl _)).bind ?_
                    rintro _ _ rfl
                    refine (lockstep_scalarOrNone fun db other related => by rw [canonical db other related]).bind ?_
                    rintro found _ rfl
                    exact lockstep_pure rfl
                  refine looks.bind ?_
                  rintro found _ rfl
                  cases found with
                  | some id => exact lockstep_pure ⟨rfl, .some (carries.insert _ _)⟩
                  | none =>
                      dsimp only
                      split
                      · exact lockstep_pure ⟨rfl, .none⟩
                      · exact lockstep_pure ⟨rfl, .some carries⟩

theorem resolveRefs_lockstep (canonical : ∀ db other, states db other → other.canonical = db.canonical)
    (loses : Loses entity attrs others) (enterpriseId : Uuid) (cache : Cache) :
    Lockstep (ResolvedAlike attrs others) states states (resolveRefs enterpriseId entity attrs cache)
      (resolveRefs enterpriseId entity others cache) := by
  have listed : List.Forall₂ (fun reference mate => reference = mate ∧ reference ∈ (specs entity).refs)
      (specs entity).refs (specs entity).refs := List.forall₂_same.mpr fun _ member => ⟨rfl, member⟩
  refine Lockstep.foldlM listed ?_ ⟨rfl, .some (carries_restrict attrs others _)⟩
  rintro first second reference _ alike ⟨rfl, member⟩
  exact resolveOne_lockstep canonical enterpriseId (loses.reference member) alike

/-- An unreadable value passes for an identity column, a missing one does not. -/
theorem Loses.lacksIdentity (loses : Loses entity attrs others) (lacks : lacksIdentity entity attrs = true) :
    Integration.lacksIdentity entity others = true := by
  obtain ⟨name, required, empty⟩ := List.any_eq_true.mp lacks
  refine List.any_eq_true.mpr ⟨name, required, ?_⟩
  rcases loses name with same | ⟨raw, given, ⟨filled, _⟩, _⟩
  · rw [← same]
    exact empty
  · simp only [given, filled, Bool.false_eq_true] at empty

theorem Loses.identified {mayLose : String → Prop} (loses : Loses entity attrs others)
    (only : LosesOnly entity mayLose attrs others) (spared : ∀ name, mayLose name → name ∉ (specs entity).identity) :
    Integration.lacksIdentity entity attrs = Integration.lacksIdentity entity others := by
  unfold Integration.lacksIdentity
  rw [Bool.eq_iff_iff, List.any_eq_true, List.any_eq_true]
  refine exists_congr fun name => and_congr_right fun required => ?_
  by_cases same : attrs.lookup name = others.lookup name
  · rw [same]
  · obtain ⟨raw, given, ⟨filled, _⟩, _⟩ := (loses name).resolve_left same
    rcases only name same with ⟨other, otherGiven, otherFilled, _⟩ | ⟨_, isLost⟩
    · simp only [given, otherGiven, filled, otherFilled]
    · exact absurd (List.mem_of_mem_filter required) (spared name isLost)

end References

/-- Related progress has the same cache, and stays related as it counts. -/
structure ProgressView (progress : Progress → Progress → Prop) : Prop where
  cache : ∀ {first second}, progress first second → first.cache = second.cache
  cached : ∀ {first second} cache, progress first second → progress { first with cache } { second with cache }
  record : ∀ {first second} entity created signal, progress first second →
    progress (first.record entity created signal) (second.record entity created signal)

theorem eq_progressView : ProgressView Eq where
  cache same := congrArg Progress.cache same
  cached _ same := same ▸ rfl
  record _ _ _ same := same ▸ rfl

variable {progress : Progress → Progress → Prop}

/-- The rest of a record's iteration, once its attributes are extracted. -/
def syncAttrs (context : SyncContext) (entity : Entity) (provenance : Provenance) (progress : Progress) (attrs : Dict Raw) :
    Session Progress := do
  let resolution ← resolveRefs context.enterpriseId entity attrs progress.cache
  let progress := { progress with cache := resolution.cache }
  match resolution.resolved with
  | none => return progress
  | some resolved =>
      if lacksIdentity entity resolved then return progress
      let (created, signal) ← upsert context entity resolved provenance
      return progress.record entity created signal

/-- A record without attributes needs no case of its own: it has no identity. -/
theorem syncRecord_eq (context : SyncContext) (entity : Entity) (mappings : List FieldMapping) (progress : Progress)
    (record : Record) : syncRecord context entity mappings progress record =
      (lift (extract record mappings) >>= syncAttrs context entity (provenanceOf context mappings) progress) := by
  have empty (attrs : Dict Raw) (nothing : attrs.entries.isEmpty = true) :
      syncAttrs context entity (provenanceOf context mappings) progress attrs = pure progress := by
    obtain rfl : attrs = ∅ := AList.ext (List.isEmpty_iff.mp nothing)
    cases entity <;> rfl
  unfold syncRecord
  congr 1
  funext attrs
  split
  · next nothing => exact (empty attrs nothing).symm
  · rfl

/-- Wherever the run accepts the record, no row loses a value. -/
def Spared (context : SyncContext) (entity : Entity) (attrs others : Dict Raw) (cache : Cache) (db : DB) : Prop :=
  ∀ resolution resolved, resolveRefs context.enterpriseId entity attrs cache db = .ok resolution db →
    resolution.resolved = some resolved → lacksIdentity entity resolved = false →
      LosesOnly entity (Idle context entity resolved (db.canonical entity)) attrs others

theorem syncAttrs_lockstep {attrs others : Dict Raw} (view : SyncView states) (counts : ProgressView progress)
    (loses : Loses entity attrs others) (provenance : Provenance) {first second : Progress} (alike : progress first second)
    {start : DB} (spared : Spared context entity attrs others first.cache start) :
    Lockstep progress (fun db other => db = start ∧ states db other) states (syncAttrs context entity provenance first attrs)
      (syncAttrs context entity provenance second others) := by
  have resolves : Lockstep (fun resolution other => ResolvedAlike attrs others resolution other ∧
        resolveRefs context.enterpriseId entity attrs first.cache start = .ok resolution start)
      (fun db other => db = start ∧ states db other) (fun db other => db = start ∧ states db other)
      (resolveRefs context.enterpriseId entity attrs first.cache) (resolveRefs context.enterpriseId entity others first.cache) := by
    refine (resolveRefs_lockstep (fun db other related => view.canonical related.2) loses _ _).with_facts ?_
    rintro db other resolution after ⟨rfl, _⟩ ran
    obtain rfl := resolveRefs_state ran
    exact ran
  unfold syncAttrs
  rw [← counts.cache alike]
  refine resolves.bind ?_
  rintro ⟨resolved, cache⟩ ⟨counterpart, _⟩ ⟨⟨rfl, resolutions⟩, resolving⟩
  have alike := counts.cached cache alike
  cases resolutions with
  | none => exact (lockstep_pure alike).strengthen fun _ _ => And.right
  | @some resolved counterpart carries =>
      have loses := carries.loses loses
      dsimp only
      cases lacks : lacksIdentity entity resolved with
      | true =>
          rw [if_pos rfl, if_pos (loses.lacksIdentity lacks)]
          exact (lockstep_pure alike).strengthen fun _ _ => And.right
      | false =>
          have only := carries.only (spared _ _ resolving rfl lacks)
          rw [← loses.identified only fun name idle => idle.1, lacks]
          refine (upsert_lockstep view loses provenance only).bind ?_
          rintro ⟨created, signal⟩ _ rfl
          exact lockstep_pure (counts.record entity created signal alike)

/-- Records leave the same rows if the same attributes are extracted from them, but for ones
that nobody can read and no row loses. -/
theorem syncRecord_lockstep (view : SyncView states) (counts : ProgressView progress)
    {mappings others : List FieldMapping} {record mate : Record}
    (extracts : Alike (Loses entity) (extract record mappings) (extract mate others))
    (provenance : provenanceOf context mappings = provenanceOf context others) {first second : Progress}
    (alike : progress first second) {start : DB}
    (spared : ∀ attrs, extract record mappings = .ok attrs → ∀ counterpart, extract mate others = .ok counterpart →
      Spared context entity attrs counterpart first.cache start) :
    Lockstep progress (fun db other => db = start ∧ states db other) states (syncRecord context entity mappings first record)
      (syncRecord context entity others second mate) := by
  rw [syncRecord_eq, syncRecord_eq, provenance]
  refine (lockstep_lift extracts.with_facts).bind ?_
  rintro attrs counterpart ⟨loses, extracted, otherExtracted⟩
  exact syncAttrs_lockstep view counts loses _ alike (spared attrs extracted counterpart otherExtracted)

/-- The same attributes leave the same rows. -/
theorem syncRecord_lockstep_of_same (view : SyncView states) (counts : ProgressView progress)
    {mappings others : List FieldMapping}
    {record mate : Record} (extracts : Alike Dict.Same (extract record mappings) (extract mate others))
    (provenance : provenanceOf context mappings = provenanceOf context others) {first second : Progress}
    (alike : progress first second) :
    Lockstep progress states states (syncRecord context entity mappings first record)
      (syncRecord context entity others second mate) := by
  have nothingLost : Alike (Loses entity) (extract record mappings) (extract mate others) :=
    extracts.mono fun _ _ same name => .inl (same name)
  have same {attrs counterpart : Dict Raw} (extracted : extract record mappings = .ok attrs)
      (otherExtracted : extract mate others = .ok counterpart) : attrs.Same counterpart := by
    rw [extracted, otherExtracted] at extracts
    cases extracts with
    | ok same => exact same
  intro db other related
  refine syncRecord_lockstep view counts nothingLost provenance alike ?_ db other ⟨rfl, related⟩
  intro attrs extracted counterpart otherExtracted _ _ _ _ _ name different
  exact absurd (same extracted otherExtracted name) different

end Upserts

end SmartProcurement.Integration
