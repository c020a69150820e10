import SmartProcurement.Integration.Naming
import SmartProcurement.Integration.SyncLockstep
import SmartProcurement.Transaction.Raises

namespace SmartProcurement.Integration

open Relational Transaction Text Numeric Observation

/-! # How a sync can fail

Apart from the database, a record can only fail in a transform, in the constructor of
a row, which takes no name that is not a column, and in the comparison of its watched
number with that of the row it finds.
-/

def IsDatabase (reason : Error) : Prop := ∃ violation, reason = .database violation

theorem isDatabase (violation : Violation) : IsDatabase (.database violation) := ⟨violation, rfl⟩

section Rows

variable {db : DB} {entity : Entity} {row : Row} {column : Column} {attrs : Dict Value}

theorem bind_refuses (type : ColumnType) (name : String) (value : Value) : Refuses IsDatabase (type.bind name value) := by
  intro reason refused
  unfold ColumnType.bind at refused
  repeat' split at refused
  all_goals cases refused
  all_goals exact isDatabase _

theorem storeColumn_refuses (db : DB) (row : Row) (column : Column) : Refuses IsDatabase (storeColumn db row column) := by
  refine (bind_refuses _ _ _).bind fun value _ => ?_
  split
  · exact refuses_error (isDatabase _)
  · refine Refuses.bind ?_ fun _ _ => Refuses.bind ?_ fun _ _ => refuses_ok _
    · unfold checkAllowed
      repeat' split
      all_goals first
        | exact refuses_ok _
        | exact refuses_error (isDatabase _)
    · unfold checkReference
      repeat' split
      all_goals first
        | exact refuses_ok _
        | exact refuses_error (isDatabase _)

theorem storeRow_refuses (db : DB) (entity : Entity) (row : Row) : Refuses IsDatabase (storeRow db entity row) := by
  unfold storeRow
  split
  · exact refuses_error (isDatabase _)
  · refine (refuses_foldlM (fun row column _ => storeColumn_refuses db row column) row).bind fun stored _ => ?_
    split
    · exact refuses_error (isDatabase _)
    · exact refuses_ok _

theorem identityValues_refuses (entity : Entity) (attrs : Dict Value) : Refuses IsDatabase (identityValues entity attrs) :=
  refuses_mapM fun _ _ => (bind_refuses _ _ _).bind fun _ _ => refuses_ok _

theorem signalKey_refuses (db : DB) (target : Entity) (resolved : Dict Raw) : Refuses IsDatabase
    (signalKey db target resolved) := by
  unfold signalKey
  split
  · exact refuses_ok _
  · refine (bind_refuses _ _ _).map.bind fun bound _ => ?_
    cases bound with
    | none => exact refuses_ok _
    | some id =>
        dsimp only
        split
        · exact refuses_error (isDatabase _)
        · exact refuses_ok _

end Rows

theorem assignAttrs_refuses (entity : Entity) (row : Row) (attrs : Dict Value) :
    Refuses IsDatabase (assignAttrs entity row attrs) := by
  refine refuses_foldlM (fun row entry _ => ?_) row
  split
  · exact refuses_ok _
  · unfold setAttr
    split
    · refine (bind_refuses _ _ _).map.bind fun bound _ => ?_
      cases bound with
      | none => exact refuses_error (isDatabase _)
      | some enterpriseId => exact refuses_ok _
    · split
      · exact refuses_ok _
      · exact refuses_ok _

/-! ## Faulty records -/

def Known (db : DB) (entity : Entity) (identity : Identity) : Prop :=
  ∃ row ∈ (db.canonical entity).rows, identityOf entity row = identity

/-- The record creates a row and has a name that is no column, or it finds a row and
has a signalling NaN to compare with the number there. -/
inductive Accepted.Faulty (accepted : Accepted) (db : DB) : Prop
  | stray {name : String} {value : Value} (new : ¬ Known db accepted.entity accepted.identity)
      (given : accepted.attrs.lookup name = some value) (foreign : ownColumn? accepted.entity name = none)
  | incomparable {row : Row} {watch : String × SignalType} {number : Decimal}
      (member : row ∈ (db.canonical accepted.entity).rows) (identity : identityOf accepted.entity row = accepted.identity)
      (watched : watch ∈ signalWatch accepted.entity) (given : accepted.attrs.lookup watch.1 = some (.decimal .snan))
      (compared : row.col watch.1 = .decimal number)

/-- The record finds a row and gives it to another enterprise. -/
def Accepted.Moves (accepted : Accepted) (db : DB) : Prop :=
  Known db accepted.entity accepted.identity ∧ ∃ value other, accepted.attrs.lookup "enterprise_id" = some value ∧
    bindUuid "enterprise_id" value = .ok (some other) ∧ other ≠ accepted.enterpriseId

/-- What the record supplies under a name that ends in `_id` is for a column. -/
def Spelled (mappings : List FieldMapping) (record : Record) : Prop :=
  ∀ mapping ∈ mappings, endsWithId mapping.canonicalAttribute = true → ∀ raw, supplied record mapping = .ok (some raw) →
    (ownColumn? mapping.canonicalEntity mapping.canonicalAttribute).isSome = true

/-- No mapping takes a signalling NaN for a watched attribute. -/
def Comparable (mappings : List FieldMapping) (record : Record) : Prop :=
  ∀ mapping ∈ mappings, ∀ watch ∈ signalWatch mapping.canonicalEntity, mapping.canonicalAttribute = watch.1 →
    ∀ raw, supplied record mapping = .ok (some raw) → coerce raw .numeric ≠ .decimal .snan

theorem mem_supplied {record : Record} {mapping : FieldMapping} {raw : Raw} :
    raw ∈ (supplied record mapping).toOption.join ↔ supplied record mapping = .ok (some raw) := by
  cases supplied record mapping <;> simp [Except.toOption]

instance (mappings : List FieldMapping) (record : Record) : Decidable (Spelled mappings record) :=
  decidable_of_iff (∀ mapping ∈ mappings, endsWithId mapping.canonicalAttribute = true →
      ∀ raw ∈ (supplied record mapping).toOption.join,
        (ownColumn? mapping.canonicalEntity mapping.canonicalAttribute).isSome = true) <| by
    simp only [mem_supplied, Spelled]

instance (mappings : List FieldMapping) (record : Record) : Decidable (Comparable mappings record) :=
  decidable_of_iff (∀ mapping ∈ mappings, ∀ watch ∈ signalWatch mapping.canonicalEntity, mapping.canonicalAttribute = watch.1 →
      ∀ raw ∈ (supplied record mapping).toOption.join, coerce raw .numeric ≠ .decimal .snan) <| by
    simp only [mem_supplied, Comparable]

section Records

variable {context : SyncContext} {mappings : List FieldMapping} {entity : Entity} {db : DB} {attrs resolved : Dict Raw}
variable {enterpriseId : Uuid} {cache : Cache} {record : Record} {progress : Progress} {name : String} {value : Value}

theorem raises_scalarOrNone {α : Type} {allowed : Error → Prop} {query : DB → List α} (single : (query db).length ≤ 1) :
    Raises allowed (scalarOrNone query) db :=
  raises_of_ok (scalarOrNone_eq_ok.mpr ⟨scalarOneOrNone_of_length_le _ single, rfl⟩)

theorem lookupReference_raises (mapped : Mapped db) {reference : Reference} (master : reference ∈ masterReferences)
    (key : String) :
    Raises IsDatabase (lookupReference enterpriseId reference key) db := by
  have identity : ∀ reference ∈ masterReferences, (specs reference.target).identity = [reference.naturalKey] := by decide
  refine (raises_lift (bind_refuses _ _ _) db).bind fun _ _ ran => ?_
  obtain ⟨_, rfl⟩ := lift_eq_ok.mp ran
  refine (raises_scalarOrNone ?_).bind fun _ _ _ => raises_pure _ _
  have named (row : Row) : decide (row.enterpriseId = enterpriseId ∧ row.col reference.naturalKey = .text key) =
      decide (candidateKey reference.target row = some (enterpriseId, [.text key])) := by
    simp [candidateKey, identityOf, identity reference master]
  simp only [named]
  exact (mapped.unique reference.target).filter_length _

theorem resolveRefs_raises (mapped : Mapped db) (attrs : Dict Raw) (cache : Cache) :
    Raises IsDatabase (resolveRefs enterpriseId entity attrs cache) db := by
  refine raises_foldlM fun reference acc reached reaches => ?_
  have still : reached = db :=
    reaches.holds (fun _ state => state = db) rfl fun _ _ _ _ _ _ same stepped => (resolveOne_state stepped).1.trans same
  subst still
  obtain ⟨done, rest, split, _⟩ := reaches
  have master := refs_masters entity reference (split ▸ List.mem_append_right _ List.mem_cons_self)
  unfold resolveOne
  cases acc.resolved with
  | none => exact raises_pure _ _
  | some resolved =>
      dsimp only
      cases attrs.lookup reference.attr with
      | none => exact raises_pure _ _
      | some raw =>
          dsimp only
          split
          · exact raises_pure _ _
          · cases acc.cache.lookup (reference.target, raw.str) with
            | some id => exact raises_pure _ _
            | none =>
                refine (lookupReference_raises mapped master _).bind fun found _ _ => ?_
                cases found with
                | some id => exact raises_pure _ _
                | none =>
                    dsimp only
                    split
                    · exact raises_pure _ _
                    · exact raises_pure _ _

/-- What reaches a row is a column of it. -/
theorem coerced_own (spelled : Spelled mappings record) (extracted : extract record (mappingsOf mappings entity) = .ok attrs)
    {resolution : Resolution} {after : DB} (resolving : resolveRefs enterpriseId entity attrs cache db = .ok resolution after)
    (accepted : resolution.resolved = some resolved) (given : (coerced entity resolved).lookup name = some value) :
    (ownColumn? entity name).isSome = true := by
  by_cases listed : name ∈ (specs entity).identity
  · obtain ⟨column, own, _⟩ := identity_column listed
    rw [own]
    rfl
  · rw [lookup_coerced, if_neg listed, Option.or_none, Option.bind_eq_some_iff] at given
    obtain ⟨raw, found, coerces⟩ := given
    unfold coerceAttr at coerces
    split at coerces
    · next suffix =>
      by_cases key : ∃ reference ∈ (specs entity).refs, name = foreignKey reference.target
      · obtain ⟨reference, isRef, rfl⟩ := key
        obtain ⟨column, key⟩ := foreignKey_column isRef
        rw [key.own]
        rfl
      · have plain : ∀ reference ∈ (specs entity).refs, endsWithId reference.attr = false := by
          cases entity <;> decide
        have outside : ∀ reference ∈ (specs entity).refs, name ≠ reference.attr ∧ name ≠ foreignKey reference.target := by
          refine fun reference isRef => ⟨?_, fun same => key ⟨reference, isRef, same⟩⟩
          rintro rfl
          rw [plain reference isRef] at suffix
          cases suffix
        rw [resolveRefs_other resolving accepted outside] at found
        obtain ⟨mapping, member, rfl, took⟩ := extract_only extracted found
        obtain ⟨stored, isEntity⟩ := List.mem_filter.mp member
        rw [← of_decide_eq_true isEntity]
        exact spelled mapping stored suffix raw took
    · obtain ⟨type, typed, _⟩ := Option.map_eq_some_iff.mp coerces
      exact ownColumn?_of_columnType? typed

theorem construct_refuses {allowed : Error → Prop} {attrs : Dict Value} (now : Timestamp) (provenance : Provenance)
    (own : ∀ name value, attrs.lookup name = some value → (ownColumn? entity name).isSome = true) :
    Refuses allowed (construct entity now enterpriseId provenance attrs) := by
  have tenantless : (attrs.lookup "enterprise_id").isSome = false := by
    cases given : attrs.lookup "enterprise_id" with
    | none => rfl
    | some value =>
        have isOwn := own _ value given
        rw [enterpriseId_not_own] at isOwn
        cases isOwn
  have known : attrs.keys.any (fun key => (ownColumn? entity key).isNone) = false := by
    refine List.any_eq_false.mpr fun key listed => ?_
    obtain ⟨value, given⟩ := Option.isSome_iff_exists.mp (AList.lookup_isSome.mpr (AList.mem_keys.mpr listed))
    rw [Option.isNone_iff_eq_none.not, ← ne_eq, Option.ne_none_iff_isSome]
    exact own key value given
  unfold construct
  rw [tenantless, known]
  exact refuses_ok _

/-- A stored number compares with everything but a signalling NaN. -/
theorem sameValue_refuses {allowed : Error → Prop} {old new : Value} (stored : old ≠ .decimal .snan)
    (comparable : ∀ number, old = .decimal number → new ≠ .decimal .snan) :
    Refuses allowed (sameValue old new) := by
  unfold sameValue
  split
  · next old new =>
    cases old with
    | snan => exact absurd rfl stored
    | _ =>
        cases new with
        | snan => exact absurd rfl (comparable _ rfl)
        | _ => exact refuses_ok _
  · exact refuses_ok _

theorem sameValue_snan (number : Decimal) (same : Bool) : sameValue (.decimal number) (.decimal .snan) ≠ .ok same := by
  cases number <;> nofun

theorem Diffed.compares {existing : Row} {attrs : Dict Value} {signal : Option ObservationSignal} {middle : DB}
    {watch : String × SignalType} {new : Value}
    (diffed : Diffed context entity existing attrs resolved db signal middle) (watched : watch ∈ signalWatch entity)
    (given : attrs.lookup watch.1 = some new) : ∃ same, sameValue (existing.col watch.1) new = .ok same := by
  cases diffed with
  | silent compared => exact ⟨true, compared watch watched new given⟩
  | emitted compared _ _ _ _ =>
      obtain ⟨other, isWatch, value, isNew, differs⟩ := compared
      obtain rfl := Option.some.inj (watched.symm.trans isWatch)
      obtain rfl := Option.some.inj (given.symm.trans isNew)
      exact ⟨false, differs⟩

theorem diffSignal_raises {existing : Row} {attrs : Dict Value} (resolved : Dict Raw)
    (compares : ∀ watch ∈ signalWatch entity, ∀ new, attrs.lookup watch.1 = some new →
      Refuses IsDatabase (sameValue (existing.col watch.1) new)) :
    Raises IsDatabase (diffSignal context entity existing attrs resolved) db := by
  unfold diffSignal
  cases watched : signalWatch entity with
  | none => exact raises_pure _ _
  | some watch =>
      obtain ⟨attr, signalType⟩ := watch
      dsimp only
      cases given : attrs.lookup attr with
      | none => exact raises_pure _ _
      | some new =>
          refine (raises_lift (compares _ watched new given) db).bind fun same _ _ => ?_
          split
          · exact raises_pure _ _
          · refine (raises_read _ _).bind fun item _ ran => ?_
            obtain ⟨rfl, rfl⟩ := read_eq_ok.mp ran
            refine (raises_lift (signalKey_refuses _ _ _) _).bind fun _ _ _ => ?_
            refine (raises_read _ _).bind fun supplier _ ran => ?_
            obtain ⟨rfl, rfl⟩ := read_eq_ok.mp ran
            refine (raises_lift (signalKey_refuses _ _ _) _).bind fun _ _ _ => ?_
            exact (raises_write _ _).bind fun _ _ _ => raises_pure _ _

theorem watched_numeric (entity : Entity) : ∀ watch ∈ signalWatch entity, columnType? entity watch.1 = some .numeric ∧
    endsWithId watch.1 = false ∧ watch.1 ∉ (specs entity).identity ∧
      (∀ reference ∈ (specs entity).refs, watch.1 ≠ reference.attr ∧ watch.1 ≠ foreignKey reference.target) ∧
      ∃ column ∈ ownColumns entity, column.name = watch.1 ∧ column.type = .numeric := by
  cases entity <;> decide

theorem Settled.comparable {row : Row} (settled : Settled entity row) :
    ∀ watch ∈ signalWatch entity, row.col watch.1 ≠ .decimal .snan := by
  intro watch watched same
  obtain ⟨_, _, _, _, column, listed, named, type⟩ := watched_numeric entity watch watched
  have bound := settled.bound column listed
  rw [named, type, same] at bound
  cases bound

theorem coerced_comparable (comparable : Comparable mappings record)
    (extracted : extract record (mappingsOf mappings entity) = .ok attrs)
    {resolution : Resolution} {after : DB} (resolving : resolveRefs enterpriseId entity attrs cache db = .ok resolution after)
    (accepted : resolution.resolved = some resolved) :
    ∀ watch ∈ signalWatch entity, (coerced entity resolved).lookup watch.1 ≠ some (.decimal .snan) := by
  intro watch watched given
  obtain ⟨typed, plain, free, outside, _⟩ := watched_numeric entity watch watched
  rw [lookup_coerced, if_neg free, Option.or_none, Option.bind_eq_some_iff] at given
  obtain ⟨raw, found, coerces⟩ := given
  rw [coerceAttr, if_neg (Bool.eq_false_iff.mp plain), typed, Option.map_some] at coerces
  rw [resolveRefs_other resolving accepted outside] at found
  obtain ⟨mapping, member, named, took⟩ := extract_only extracted found
  obtain ⟨stored, isEntity⟩ := List.mem_filter.mp member
  obtain rfl := of_decide_eq_true isEntity
  exact comparable mapping stored watch watched named raw took (Option.some.inj coerces)

/-- An upsert of a record that is not faulty fails in the database, if at all. -/
theorem upsert_raises (mapped : Mapped db) (provenance : Provenance)
    (sound : ¬ Accepted.Faulty ⟨entity, context.enterpriseId, coerced entity resolved⟩ db) :
    Raises IsDatabase (upsert context entity resolved provenance) db := by
  refine (raises_lift (identityValues_refuses _ _) db).bind fun identity _ ran => ?_
  obtain ⟨identified, rfl⟩ := lift_eq_ok.mp ran
  refine Raises.bind (raises_scalarOrNone ?_) fun existing _ looked => ?_
  · rw [filter_hasIdentity identified]
    exact (mapped.unique entity).filter_length _
  obtain ⟨single, rfl⟩ := scalarOrNone_eq_ok.mp looked
  cases existing with
  | none =>
      have new : ¬ Known db entity (Accepted.identity ⟨entity, context.enterpriseId, coerced entity resolved⟩) := by
        rintro ⟨row, member, has⟩
        exact List.filter_eq_nil_iff.mp (scalarOneOrNone_ok single) row member ((hasIdentity_iff identified).mpr has)
      have own (name : String) (value : Value) (given : (coerced entity resolved).lookup name = some value) :
          (ownColumn? entity name).isSome = true := by
        by_contra foreign
        exact sound (.stray new given (Option.not_isSome_iff_eq_none.mp foreign))
      refine (raises_lift (construct_refuses _ _ own) _).bind fun row _ ran => ?_
      obtain ⟨_, rfl⟩ := lift_eq_ok.mp ran
      refine (raises_read _ _).bind fun _ _ ran => ?_
      obtain ⟨rfl, rfl⟩ := read_eq_ok.mp ran
      refine (raises_lift (storeRow_refuses _ _ _) _).bind fun _ _ _ => ?_
      exact (raises_write _ _).bind fun _ _ _ => raises_pure _ _
  | some existing =>
      obtain ⟨member, hit⟩ := List.mem_filter.mp (mem_of_scalarOneOrNone single)
      have settled := mapped.settled entity existing member
      refine Raises.bind (diffSignal_raises resolved fun watch watched new given =>
        sameValue_refuses (settled.comparable watch watched) fun number compared => ?_) fun signal middle _ => ?_
      · rintro rfl
        exact sound (.incomparable member ((hasIdentity_iff identified).mp hit) watched given compared)
      · refine (raises_lift (assignAttrs_refuses _ _ _) _).bind fun _ _ _ => ?_
        refine (raises_read _ _).bind fun _ _ ran => ?_
        obtain ⟨rfl, rfl⟩ := read_eq_ok.mp ran
        refine (raises_lift (storeRow_refuses _ _ _) _).bind fun _ _ _ => ?_
        exact (raises_write _ _).bind fun _ _ _ => raises_pure _ _

theorem Upserted.sound {provenance : Provenance} {signal : Option ObservationSignal} {after : DB}
    (step : Upserted context entity resolved provenance db signal after) :
    ¬ Accepted.Faulty ⟨entity, context.enterpriseId, coerced entity resolved⟩ db := by
  intro faulty
  cases step with
  | inserted identified missing constructed kept =>
      cases faulty with
      | stray new given foreign =>
          obtain ⟨column, own⟩ := construct_own constructed given
          cases foreign.symm.trans own
      | incomparable member identity _ _ _ =>
          exact List.filter_eq_nil_iff.mp missing _ member ((hasIdentity_iff identified).mpr identity)
  | @updated _ existing _ _ _ _ identified only diffed assigned kept =>
      obtain ⟨isMember, hit⟩ := List.mem_filter.mp (only ▸ List.mem_singleton_self existing)
      cases faulty with
      | stray new given foreign => exact new ⟨existing, isMember, (hasIdentity_iff identified).mp hit⟩
      | incomparable member identity watched given compared =>
          have found := List.mem_filter.mpr ⟨member, (hasIdentity_iff identified).mpr identity⟩
          rw [only] at found
          obtain rfl := List.mem_singleton.mp found
          obtain ⟨same, compares⟩ := diffed.compares watched given
          rw [compared] at compares
          exact sameValue_snan _ same compares

/-- A record fails in the database, in a transform or because it is faulty. -/
theorem syncNext_raises {next : Entity × Record} (mapped : Mapped db)
    (sound : ∀ accepted, acceptedOf context mappings progress next db = some accepted → ¬ accepted.Faulty db) :
    Raises (fun reason => IsDatabase reason ∨ extract next.2 (mappingsOf mappings next.1) = .error reason)
      (syncNext context mappings progress next) db := by
  unfold syncNext syncRecord
  refine (raises_lift (fun reason refused => .inr refused) db).bind fun attrs _ ran => ?_
  obtain ⟨extracted, rfl⟩ := lift_eq_ok.mp ran
  refine Raises.mono ?_ fun reason database => .inl database
  split
  · exact raises_pure _ _
  next filled =>
  refine (resolveRefs_raises mapped attrs progress.cache).bind fun resolution _ resolving => ?_
  obtain rfl := resolveRefs_state resolving
  cases accepted : resolution.resolved with
  | none => exact raises_pure _ _
  | some resolved =>
      dsimp only
      split
      · exact raises_pure _ _
      · next identified =>
        have accepts := sound ⟨next.1, context.enterpriseId, coerced next.1 resolved⟩ (by
          simp [acceptedOf, extracted, filled, resolving, accepted, identified])
        exact (upsert_raises mapped _ accepts).bind fun _ _ _ => raises_pure _ _

theorem syncNext_sound {next : Entity × Record} {later : Progress} {after : DB} {accepted : Accepted}
    (ran : syncNext context mappings progress next db = .ok later after)
    (accepts : acceptedOf context mappings progress next db = some accepted) : ¬ accepted.Faulty db := by
  rcases syncNext_upserted ran with ⟨nothing, _⟩ | ⟨resolved, signal, isAccepted, stored⟩
  · exact nomatch accepts.symm.trans nothing
  · obtain rfl := Option.some.inj (accepts.symm.trans isAccepted)
    exact stored.sound

/-- A row that stays with its enterprise was inserted, or its record names that one. -/
theorem SuppliedTo.ownTenant {accepted : Accepted} {after : DB} (supplied : SuppliedTo accepted db after)
    (stays : ¬ accepted.Moves db) : accepted.OwnTenant := by
  have table := supplied.table
  revert table
  generalize after.canonical accepted.entity = result
  intro table
  cases table with
  | inserted _ _ _ _ tenantless => exact Accepted.ownTenant_of_missing tenantless
  | overridden member identity _ _ _ _ _ _ moves =>
      intro value given
      rw [moves value given]
      by_contra different
      exact stays ⟨⟨_, member, identity⟩, value, _, given, moves value given, fun same => different (by rw [same])⟩

/-- A record is sound if its names are columns and its watched numbers compare. -/
theorem sound_of_spelled {next : Entity × Record} {accepted : Accepted} (spelled : Spelled mappings next.2)
    (comparable : Comparable mappings next.2) (accepts : acceptedOf context mappings progress next db = some accepted) :
    ¬ accepted.Faulty db := by
  obtain ⟨attrs, resolved, upserting, rfl⟩ := upserting_of_acceptedOf accepts
  obtain ⟨cache, resolving⟩ := upserting.resolving
  rintro (⟨_, given, foreign⟩ | ⟨_, _, watched, given, _⟩)
  · have own := coerced_own spelled upserting.extracted resolving rfl given
    rw [foreign] at own
    cases own
  · exact coerced_comparable comparable upserting.extracted resolving rfl _ watched given

/-! ## Runs -/

/-- No iteration gives a row to another enterprise. -/
def Stay (context : SyncContext) (mappings : List FieldMapping) (rest : List (Entity × Record)) (progress : Progress) (db : DB) :
    Prop :=
  ∀ next acc reached accepted, Transaction.Reaches (syncNext context mappings) rest progress db next acc reached →
    acceptedOf context mappings acc next reached = some accepted → ¬ accepted.Moves reached

variable {rest : List (Entity × Record)} {later : Progress} {after : DB}

theorem run_ownTenant (stay : Stay context mappings rest progress db)
    (ran : rest.foldlM (syncNext context mappings) progress db = .ok later after) :
    ∀ accepted ∈ acceptedAlong context mappings rest progress db, accepted.OwnTenant := by
  intro accepted member
  obtain ⟨next, acc, reached, reaches, accepts⟩ := (mem_acceptedAlong ran).mp member
  obtain ⟨_, _, _, stepped, _⟩ := reaches.ran ran
  rcases syncNext_ok stepped with ⟨nothing, _⟩ | ⟨other, isOther, _, _, supplied⟩
  · exact nomatch accepts.symm.trans nothing
  · obtain rfl := Option.some.inj (accepts.symm.trans isOther)
    exact supplied.ownTenant (stay next acc reached accepted reaches accepts)

theorem Stay.prefix {done : List (Entity × Record)} (stay : Stay context mappings (done ++ rest) progress db) :
    Stay context mappings done progress db :=
  fun next acc reached accepted reaches => stay next acc reached accepted (reaches.append rest)

theorem reached_mapped {next : Entity × Record} {acc : Progress} {reached : DB} (mapped : Mapped db)
    (stay : Stay context mappings rest progress db)
    (reaches : Transaction.Reaches (syncNext context mappings) rest progress db next acc reached) : Mapped reached := by
  obtain ⟨done, remaining, rfl, ran⟩ := reaches
  exact (acceptedAlong_supplies (run_ownTenant stay.prefix ran) mapped ran).1

/-- A batch fails in the database, in a transform or in a faulty record. -/
theorem run_raises (mapped : Mapped db) (stay : Stay context mappings rest progress db)
    (sound : ∀ next acc reached accepted, Transaction.Reaches (syncNext context mappings) rest progress db next acc reached →
      acceptedOf context mappings acc next reached = some accepted → ¬ accepted.Faulty reached) :
    Raises (fun reason => IsDatabase reason ∨ ∃ next ∈ rest, extract next.2 (mappingsOf mappings next.1) = .error reason)
      (rest.foldlM (syncNext context mappings) progress) db := by
  refine raises_foldlM fun next acc reached reaches => ?_
  have listed : next ∈ rest := by
    obtain ⟨done, remaining, rfl, _⟩ := reaches
    exact List.mem_append_right _ List.mem_cons_self
  refine (syncNext_raises (reached_mapped mapped stay reaches) fun accepted accepts =>
    sound next acc reached accepted reaches accepts).mono ?_
  exact fun reason raised => raised.imp_right fun failed => ⟨next, listed, failed⟩

theorem extract_of_ran
    (ran : rest.foldlM (syncNext context mappings) progress db = .ok later after) :
    ∀ next ∈ rest, ∃ attrs, extract next.2 (mappingsOf mappings next.1) = .ok attrs := by
  induction rest generalizing progress db with
  | nil => nofun
  | cons first rest ih =>
      intro next member
      rw [List.foldlM_cons] at ran
      obtain ⟨middle, state, head, ran⟩ := bind_eq_ok.mp ran
      rcases List.mem_cons.mp member with rfl | later
      · cases syncRecord_ok head with
        | empty extracted _ => exact ⟨_, extracted⟩
        | skipped extracted _ _ => exact ⟨_, extracted⟩
        | upserted extracted _ _ _ _ _ => exact ⟨_, extracted⟩
      · exact ih ran next later

end Records

end SmartProcurement.Integration
