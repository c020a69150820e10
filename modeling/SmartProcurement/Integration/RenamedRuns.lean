import SmartProcurement.Integration.SyncErrors
import SmartProcurement.Integration.TouchedRows

namespace SmartProcurement.Integration

open Relational Transaction

/-! # Runs over reordered records

Two runs over the same records, in different orders, make rows with the same
identities but for the ids of masters, which the natural keys of these tell.
-/

/-- The row of the second database that is `row` but for ids. -/
structure RowRenamed (rename : Renaming) (entity : Entity) (row other : Row) : Prop where
  id : other.id = rename entity row.id
  enterprise : other.enterpriseId = row.enterpriseId
  provenance : other.sourceProvenance = row.sourceProvenance
  observability : other.observability = row.observability
  columns : other.col = rename.attributes entity row.col

/-- The databases have the same rows but for ids and creation times, and the rows that
were there before have the same ids as well. -/
structure SameRows (rename : Renaming) (before first second : DB) : Prop where
  keeps : ∀ entity, ∀ row ∈ (before.canonical entity).rows, rename entity row.id = row.id
  injective : ∀ entity, ∀ row ∈ (first.canonical entity).rows, ∀ other ∈ (first.canonical entity).rows,
    rename entity row.id = rename entity other.id → row = other
  twin : ∀ entity, ∀ row ∈ (first.canonical entity).rows, ∃ other ∈ (second.canonical entity).rows,
    RowRenamed rename entity row other
  onto : ∀ entity, ∀ other ∈ (second.canonical entity).rows, ∃ row ∈ (first.canonical entity).rows,
    RowRenamed rename entity row other

/-! ## Renaming by identity -/

/-- The id of the row in `second` that has the identity of the row of this id in `first`. -/
def counterparts (first second : DB) (identify : Entity → Identity → Identity) : Renaming := fun entity id =>
  (((first.canonical entity).find? id).bind fun row =>
    (second.canonical entity).identified? (candidateKey entity) (identify entity (identityOf entity row))).elim id (·.id)

/-- Masters are matched by their natural keys. -/
def masterCounterparts (first second : DB) : Renaming := counterparts first second fun _ identity => identity

/-- The other rows by the masters that they refer to. -/
def rowCounterparts (first second : DB) : Renaming := counterparts first second (masterCounterparts first second).identity

theorem counterparts_eq {first second : DB} {identify : Entity → Identity → Identity} {entity : Entity} {row other : Row}
    (unique : Unique (candidateKey entity) (second.canonical entity)) (member : row ∈ (first.canonical entity).rows)
    (otherMember : other ∈ (second.canonical entity).rows)
    (same : identityOf entity other = identify entity (identityOf entity row)) :
    counterparts first second identify entity row.id = other.id := by
  have found : (first.canonical entity).find? row.id = some row := Table.find?_of_mem member
  have named := unique.identified?_eq_some_iff.mpr ⟨otherMember, congrArg some same⟩
  unfold counterparts
  rw [found, Option.bind_some, named]
  rfl

theorem Mapped.mapOf_of_mem {db : DB} {entity : Entity} {row : Row} (mapped : Mapped db)
    (member : row ∈ (db.canonical entity).rows) :
    mapOf db entity (identityOf entity row) = some row.col :=
  Option.map_eq_some_iff.mpr ⟨row, (mapped.unique entity).identified?_eq_some_iff.mpr ⟨member, rfl⟩, rfl⟩

theorem mem_of_mapOf {db : DB} {entity : Entity} {identity : Identity} {columns : Attributes}
    (found : mapOf db entity identity = some columns) :
    ∃ row ∈ (db.canonical entity).rows, identityOf entity row = identity ∧ row.col = columns := by
  obtain ⟨row, named, rfl⟩ := Option.map_eq_some_iff.mp found
  obtain ⟨member, has⟩ := identified?_some named
  exact ⟨row, member, Option.some.inj has, rfl⟩

/-- What a record has for a column reaches the row of its identity. -/
theorem run_stores {context : SyncContext} {mappings : List FieldMapping} {steps : List (Entity × Record)}
    {progress later : Progress} {before after : DB} {accepted : Accepted} {column : Column} {name : String} {value : Value}
    (mapped : Mapped before) (ownTenant : ∀ accepted ∈ acceptedAlong context mappings steps progress before, accepted.OwnTenant)
    (agreeing : Accepted.Agreeing (acceptedAlong context mappings steps progress before))
    (ran : steps.foldlM (syncNext context mappings) progress before = .ok later after)
    (member : accepted ∈ acceptedAlong context mappings steps progress before)
    (given : accepted.attrs.lookup name = some value) (filled : value ≠ .null)
    (own : ownColumn? accepted.entity name = some column) :
    ∃ row ∈ (after.canonical accepted.entity).rows, identityOf accepted.entity row = accepted.identity ∧
      row.col name = column.type.stored value := by
  obtain ⟨old, found⟩ := CanonicalMap.foldl_supply_last (List.mem_map_of_mem member) Accepted.tidy_of_mem_tidied
    agreeing.tidied (mapOf before)
  rw [← acceptedAlong_tidied ownTenant mapped ran, Accepted.tidied_identity] at found
  obtain ⟨row, rowMember, identity, columns⟩ := mem_of_mapOf found
  refine ⟨row, rowMember, identity, ?_⟩
  by_cases listed : name ∈ (specs accepted.entity).identity
  · obtain ⟨other, isOwn, _, type⟩ := identity_column listed
    obtain rfl := Option.some.inj (own.symm.trans isOwn)
    have same := List.map_inj_left.mp (congrArg Prod.snd identity) name listed
    rw [same, type, given]
    rfl
  · have tidied : accepted.tidied.attrs.lookup name = some value := by
      rw [Accepted.lookup_tidied, given, Option.bind_some, if_neg fun both => filled both.1]
    have own : ownColumn? accepted.tidied.entity name = some column := own
    rw [columns]
    exact Accepted.applied_col own listed tidied filled old

def supplyStep (names : Naming) (enterpriseId : Uuid) (mappings : List FieldMapping) (map : CanonicalMap)
    (next : Entity × Record) : CanonicalMap :=
  match acceptBy names enterpriseId mappings next with
  | none => map
  | some accepted => map.supply accepted.tidied

theorem supplyStep_other {names : Naming} {enterpriseId : Uuid} {mappings : List FieldMapping} {map : CanonicalMap}
    {next : Entity × Record} {entity : Entity} (other : next.1 ≠ entity) :
    supplyStep names enterpriseId mappings map next entity = map entity := by
  unfold supplyStep
  cases accepts : acceptBy names enterpriseId mappings next with
  | none => rfl
  | some accepted =>
      funext identity
      exact (CanonicalMap.supply_apply _ _ _ _).trans
        (if_neg fun both => other ((acceptBy_entity accepts).symm.trans both.1.symm))

theorem foldl_supplyStep {names : Naming} {enterpriseId : Uuid} {mappings : List FieldMapping}
    (steps : List (Entity × Record)) (map : CanonicalMap) :
    ((steps.filterMap (acceptBy names enterpriseId mappings)).map Accepted.tidied).foldl CanonicalMap.supply map =
      steps.foldl (supplyStep names enterpriseId mappings) map := by
  induction steps generalizing map with
  | nil => rfl
  | cons next rest ih =>
      rw [List.filterMap_cons, List.foldl_cons, ← ih]
      unfold supplyStep
      cases acceptBy names enterpriseId mappings next <;> rfl

/-- A record that names a master refers to it. -/
def Linked (enterpriseId : Uuid) (mappings : List FieldMapping) (records : List Record) (db : DB) : Prop :=
  ∀ next ∈ schedule mappings records, ∀ accepted,
    acceptBy (naming enterpriseId db) enterpriseId mappings next = some accepted →
    ∀ attrs, extract next.2 (mappingsOf mappings next.1) = .ok attrs → ∀ reference ∈ (specs next.1).refs, ∀ raw id,
      attrs.lookup reference.attr = some raw → raw.blank = false → naming enterpriseId db reference.target raw.str = some id →
      ∃ row ∈ (db.canonical next.1).rows, identityOf next.1 row = accepted.identity ∧
        row.col (foreignKey reference.target) = .uuid id

/-- No id that the record spells out is one that the run has generated. -/
def Unguessed (mappings : List FieldMapping) (before after : DB) (record : Record) : Prop :=
  ∀ mapping ∈ mappings, ∀ target, references? mapping.canonicalEntity mapping.canonicalAttribute = some target →
    ∀ raw, supplied record mapping = .ok (some raw) → ∀ id, ColumnType.uuid.stored (.ofRaw raw) = .uuid id →
      ∀ row ∈ (after.canonical target).rows, row.id = id → id < (before.canonical target).freshKey

/-- Two runs from one state, over the same records in different orders. -/
structure TwoRuns (first second : SyncContext) (mappings : List FieldMapping) (records others : List Record)
    (before one two : DB) : Prop where
  enterprise : second.enterpriseId = first.enterpriseId
  stamps : ∀ grouped, provenanceOf second grouped = provenanceOf first grouped
  reordered : records.Perm others
  mapped : Mapped before
  referring : Referring before
  firstStay : Stay first mappings (schedule mappings records) .start before
  secondStay : Stay second mappings (schedule mappings others) .start before
  unguessed : ∀ record ∈ records, Unguessed mappings before one record
  firstRan : ∃ progress, (schedule mappings records).foldlM (syncNext first mappings) .start before = .ok progress one
  secondRan : ∃ progress, (schedule mappings others).foldlM (syncNext second mappings) .start before = .ok progress two
  agreeing : Accepted.Agreeing (acceptedAlong first mappings (schedule mappings records) .start before)

theorem schedule_reordered (mappings : List FieldMapping) {records others : List Record} (reordered : records.Perm others) :
    (schedule mappings records).Perm (schedule mappings others) := by
  unfold schedule
  refine List.Perm.flatMap_left _ fun entity _ => ?_
  split
  · exact .refl _
  · exact reordered.map _

theorem references?_master {entity target : Entity} {name : String} (references : references? entity name = some target) :
    (specs target).refs = [] ∧ ∀ other, references? target other = none := by
  have facts : ∀ column ∈ ownColumns entity, ∀ target ∈ column.references, (specs target).refs = [] ∧
      ∀ column ∈ ownColumns target, column.references = none := by
    cases entity <;> decide
  obtain ⟨column, own, isTarget⟩ := Option.bind_eq_some_iff.mp references
  obtain ⟨none, plain⟩ := facts column (ownColumn?_some own).1 target isTarget
  refine ⟨none, fun other => ?_⟩
  unfold references?
  cases own : ownColumn? target other with
  | none => rfl
  | some column => exact plain column (ownColumn?_some own).1

namespace TwoRuns

variable {first second : SyncContext} {mappings : List FieldMapping} {records others : List Record} {before one two : DB}
variable {entity target : Entity} {name key : String} {id : Uuid} {row : Row}

theorem firstOwn (runs : TwoRuns first second mappings records others before one two) :
    ∀ accepted ∈ acceptedAlong first mappings (schedule mappings records) .start before, accepted.OwnTenant := by
  obtain ⟨_, ran⟩ := runs.firstRan
  exact run_ownTenant runs.firstStay ran

theorem secondOwn (runs : TwoRuns first second mappings records others before one two) :
    ∀ accepted ∈ acceptedAlong second mappings (schedule mappings others) .start before, accepted.OwnTenant := by
  obtain ⟨_, ran⟩ := runs.secondRan
  exact run_ownTenant runs.secondStay ran

theorem firstMapped (runs : TwoRuns first second mappings records others before one two) : Mapped one := by
  obtain ⟨_, ran⟩ := runs.firstRan
  exact (acceptedAlong_supplies runs.firstOwn runs.mapped ran).1

theorem secondMapped (runs : TwoRuns first second mappings records others before one two) : Mapped two := by
  obtain ⟨_, ran⟩ := runs.secondRan
  exact (acceptedAlong_supplies runs.secondOwn runs.mapped ran).1

theorem firstTouched (runs : TwoRuns first second mappings records others before one two) :
    Touched first mappings (acceptedAlong first mappings (schedule mappings records) .start before) before one := by
  obtain ⟨_, ran⟩ := runs.firstRan
  exact acceptedAlong_touched runs.firstOwn ran

theorem secondTouched (runs : TwoRuns first second mappings records others before one two) :
    Touched second mappings (acceptedAlong second mappings (schedule mappings others) .start before) before two := by
  obtain ⟨_, ran⟩ := runs.secondRan
  exact acceptedAlong_touched runs.secondOwn ran

theorem firstAccepted (runs : TwoRuns first second mappings records others before one two) :
    acceptedAlong first mappings (schedule mappings records) .start before =
      (schedule mappings records).filterMap (acceptBy (naming first.enterpriseId one) first.enterpriseId mappings) := by
  obtain ⟨_, ran⟩ := runs.firstRan
  exact acceptedAlong_eq runs.firstOwn (schedule_mastersFirst _ _) runs.mapped (fun _ _ _ _ hit => nomatch hit) ran

theorem secondAccepted (runs : TwoRuns first second mappings records others before one two) :
    acceptedAlong second mappings (schedule mappings others) .start before =
      (schedule mappings others).filterMap (acceptBy (naming first.enterpriseId two) first.enterpriseId mappings) := by
  obtain ⟨_, ran⟩ := runs.secondRan
  rw [← runs.enterprise]
  exact acceptedAlong_eq runs.secondOwn (schedule_mastersFirst _ _) runs.mapped (fun _ _ _ _ hit => nomatch hit) ran

/-- The first run makes the map that it would make of the second order. -/
theorem firstMap (runs : TwoRuns first second mappings records others before one two) :
    mapOf one = (schedule mappings others).foldl (supplyStep (naming first.enterpriseId one) first.enterpriseId mappings)
      (mapOf before) := by
  obtain ⟨_, ran⟩ := runs.firstRan
  have agreeing := runs.agreeing.tidied
  rw [acceptedAlong_tidied runs.firstOwn runs.mapped ran, ← foldl_supplyStep]
  rw [runs.firstAccepted] at agreeing ⊢
  exact CanonicalMap.supply_perm (((schedule_reordered mappings runs.reordered).filterMap _).map _) Accepted.tidy_of_mem_tidied
    agreeing _

theorem given_stored (runs : TwoRuns first second mappings records others before one two) {accepted : Accepted}
    {column : Column}
    {value : Value} (member : accepted ∈ acceptedAlong first mappings (schedule mappings records) .start before)
    (given : accepted.attrs.lookup name = some value) (filled : value ≠ .null)
    (own : ownColumn? accepted.entity name = some column) :
    ∃ row ∈ (one.canonical accepted.entity).rows, identityOf accepted.entity row = accepted.identity ∧
      row.col name = column.type.stored value := by
  obtain ⟨_, ran⟩ := runs.firstRan
  exact run_stores runs.mapped runs.firstOwn runs.agreeing ran member given filled own

theorem secondMap (runs : TwoRuns first second mappings records others before one two) :
    mapOf two = (schedule mappings others).foldl (supplyStep (naming first.enterpriseId two) first.enterpriseId mappings)
      (mapOf before) := by
  obtain ⟨_, ran⟩ := runs.secondRan
  rw [acceptedAlong_tidied runs.secondOwn runs.mapped ran, runs.secondAccepted, foldl_supplyStep]

/-! ## Masters -/

theorem same_masters (runs : TwoRuns first second mappings records others before one two) (master : (specs entity).refs = []) :
    mapOf one entity = mapOf two entity := by
  rw [runs.firstMap, runs.secondMap]
  refine List.foldl_rel (r := fun (map other : CanonicalMap) => map entity = other entity) rfl
    fun next _ map other same => ?_
  by_cases own : next.1 = entity
  · have accepts : acceptBy (naming first.enterpriseId one) first.enterpriseId mappings next =
        acceptBy (naming first.enterpriseId two) first.enterpriseId mappings next :=
      acceptBy_congr fun reference listed => by
        rw [own, master] at listed
        cases listed
    unfold supplyStep
    rw [accepts]
    cases acceptBy (naming first.enterpriseId two) first.enterpriseId mappings next with
    | none => exact same
    | some accepted =>
        funext identity
        dsimp only
        rw [CanonicalMap.supply_apply, CanonicalMap.supply_apply, same]
  · rw [supplyStep_other own, supplyStep_other own, same]

theorem masterCounterparts_eq (runs : TwoRuns first second mappings records others before one two) {other : Row}
    (member : row ∈ (one.canonical entity).rows) (otherMember : other ∈ (two.canonical entity).rows)
    (same : identityOf entity other = identityOf entity row) : masterCounterparts one two entity row.id = other.id :=
  counterparts_eq (runs.secondMapped.unique entity) member otherMember same

theorem master_twin (runs : TwoRuns first second mappings records others before one two) (master : (specs entity).refs = [])
    (member : row ∈ (one.canonical entity).rows) :
    ∃ other ∈ (two.canonical entity).rows, identityOf entity other = identityOf entity row := by
  have found := runs.firstMapped.mapOf_of_mem member
  rw [runs.same_masters master] at found
  obtain ⟨other, otherMember, same, _⟩ := mem_of_mapOf found
  exact ⟨other, otherMember, same⟩

theorem masterCounterparts_injective (runs : TwoRuns first second mappings records others before one two)
    (master : (specs entity).refs = []) {other : Row} (member : row ∈ (one.canonical entity).rows)
    (otherMember : other ∈ (one.canonical entity).rows)
    (same : masterCounterparts one two entity row.id = masterCounterparts one two entity other.id) : row = other := by
  obtain ⟨twin, twinMember, twinIdentity⟩ := runs.master_twin master member
  obtain ⟨otherTwin, otherTwinMember, otherIdentity⟩ := runs.master_twin master otherMember
  have id : twin.id = otherTwin.id := by
    rw [← runs.masterCounterparts_eq member twinMember twinIdentity,
      ← runs.masterCounterparts_eq otherMember otherTwinMember otherIdentity]
    exact same
  obtain rfl := Table.eq_of_key_eq twinMember otherTwinMember id
  exact runs.firstMapped.unique entity row member other otherMember _ rfl (congrArg some (otherIdentity.symm.trans twinIdentity))

/-- A master has the name in the second run that it has in the first. -/
theorem naming_renamed (runs : TwoRuns first second mappings records others before one two) (master : (specs target).refs = [])
    (key : String) : naming first.enterpriseId two target key =
      (naming first.enterpriseId one target key).map (masterCounterparts one two target) := by
  have same := congrFun (runs.same_masters master) (first.enterpriseId, [.text key])
  unfold mapOf at same
  unfold naming
  cases found : (one.canonical target).identified? (candidateKey target) (first.enterpriseId, [.text key]) with
  | none =>
      rw [found, Option.map_none, eq_comm, Option.map_eq_none_iff] at same
      rw [same]
      rfl
  | some row =>
      rw [found, Option.map_some, eq_comm, Option.map_eq_some_iff] at same
      obtain ⟨other, otherFound, _⟩ := same
      obtain ⟨member, has⟩ := identified?_some found
      obtain ⟨otherMember, otherHas⟩ := identified?_some otherFound
      have renames : masterCounterparts one two target row.id = other.id :=
        runs.masterCounterparts_eq member otherMember (Option.some.inj (otherHas.trans has.symm))
      rw [otherFound, Option.map_some, Option.map_some, Option.map_some, renames]

/-! ## Old rows -/

/-- An id that the first run has not generated stays. -/
theorem counterparts_fixed (runs : TwoRuns first second mappings records others before one two)
    {identify : Entity → Identity → Identity}
    (fixed : ∀ old ∈ (before.canonical entity).rows, identify entity (identityOf entity old) = identityOf entity old)
    (early : ∀ row ∈ (one.canonical entity).rows, row.id = id → id < (before.canonical entity).freshKey) :
    counterparts one two identify entity id = id := by
  cases found : (one.canonical entity).find? id with
  | none =>
      unfold counterparts
      rw [found]
      rfl
  | some row =>
      obtain ⟨member, rfl⟩ := Table.find?_some found
      obtain ⟨old, oldMember, oldId⟩ := runs.firstTouched.generated entity row member (early row member rfl)
      obtain ⟨kept, keptMember, keptId, keptIdentity⟩ := runs.firstTouched.persists entity old oldMember
      obtain rfl := Table.eq_of_key_eq keptMember member (keptId.trans oldId)
      obtain ⟨other, otherMember, otherId, otherIdentity⟩ := runs.secondTouched.persists entity old oldMember
      refine (counterparts_eq (runs.secondMapped.unique entity) member otherMember ?_).trans (otherId.trans oldId)
      rw [keptIdentity, fixed old oldMember, otherIdentity]

theorem masterCounterparts_fixed (runs : TwoRuns first second mappings records others before one two)
    (early : ∀ row ∈ (one.canonical entity).rows, row.id = id → id < (before.canonical entity).freshKey) :
    masterCounterparts one two entity id = id :=
  runs.counterparts_fixed (fun _ _ => rfl) early

theorem column_fixed (runs : TwoRuns first second mappings records others before one two)
    (member : row ∈ (before.canonical entity).rows) (name : String) :
    (masterCounterparts one two).column entity name (row.col name) = row.col name := by
  cases references : references? entity name with
  | none => exact Renaming.column_of_plain references
  | some target =>
      unfold Renaming.column
      rw [references]
      cases value : row.col name with
      | uuid id =>
          obtain ⟨found, isFound⟩ := Option.isSome_iff_exists.mp (runs.referring entity row member name target id references value)
          obtain ⟨there, rfl⟩ := Table.find?_some isFound
          exact congrArg Value.uuid (runs.masterCounterparts_fixed fun _ _ _ => Table.key_lt_freshKey there)
      | _ => rfl

theorem attributes_fixed (runs : TwoRuns first second mappings records others before one two)
    (member : row ∈ (before.canonical entity).rows) :
    (masterCounterparts one two).attributes entity row.col = row.col :=
  funext fun name => runs.column_fixed member name

theorem identity_fixed (runs : TwoRuns first second mappings records others before one two)
    (member : row ∈ (before.canonical entity).rows) :
    (masterCounterparts one two).identity entity (identityOf entity row) = identityOf entity row := by
  rw [Renaming.identity_of, runs.attributes_fixed member]
  rfl

/-! ## Identities -/

theorem firstReferring (runs : TwoRuns first second mappings records others before one two) : Referring one := by
  obtain ⟨_, ran⟩ := runs.firstRan
  exact run_referring runs.referring ran

theorem column_injective (runs : TwoRuns first second mappings records others before one two) {other : Row}
    (member : row ∈ (one.canonical entity).rows) (otherMember : other ∈ (one.canonical entity).rows)
    (same : (masterCounterparts one two).column entity name (row.col name) =
      (masterCounterparts one two).column entity name (other.col name)) : row.col name = other.col name := by
  cases references : references? entity name with
  | none => rwa [Renaming.column_of_plain references, Renaming.column_of_plain references] at same
  | some target =>
      have referring := runs.firstReferring entity
      have there := fun id => referring row member name target id references
      have otherThere := fun id => referring other otherMember name target id references
      unfold Renaming.column at same
      rw [references] at same
      generalize row.col name = value, other.col name = otherValue at same there otherThere
      cases value with
      | uuid id =>
          cases otherValue with
          | uuid otherId =>
              obtain ⟨found, isFound⟩ := Option.isSome_iff_exists.mp (there id rfl)
              obtain ⟨otherFound, otherIsFound⟩ := Option.isSome_iff_exists.mp (otherThere otherId rfl)
              obtain ⟨foundMember, rfl⟩ := Table.find?_some isFound
              obtain ⟨otherFoundMember, rfl⟩ := Table.find?_some otherIsFound
              rw [runs.masterCounterparts_injective (references?_master references).1 foundMember otherFoundMember
                (Value.uuid.inj same)]
          | _ => cases same
      | _ =>
          cases otherValue with
          | uuid otherId => cases same
          | _ => exact same

theorem identity_injective (runs : TwoRuns first second mappings records others before one two) {identity source : Identity}
    (known : Known one entity identity) (sourceKnown : Known one entity source)
    (same : (masterCounterparts one two).identity entity identity = (masterCounterparts one two).identity entity source) :
    identity = source := by
  obtain ⟨row, member, rfl⟩ := known
  obtain ⟨other, otherMember, rfl⟩ := sourceKnown
  rw [Renaming.identity_of, Renaming.identity_of, Prod.mk.injEq, List.map_inj_left] at same
  exact Prod.ext same.1 (List.map_congr_left fun name listed => runs.column_injective member otherMember (same.2 name listed))

theorem fixes (runs : TwoRuns first second mappings records others before one two) {next : Entity × Record}
    (record : next.2 ∈ records) {attrs : Dict Raw} (extracted : extract next.2 (mappingsOf mappings next.1) = .ok attrs)
    {raw : Raw} (given : attrs.lookup name = some raw) : Fixes (masterCounterparts one two) next.1 name raw := by
  intro column own
  cases references : references? next.1 name with
  | none => exact Renaming.column_of_plain references
  | some target =>
      obtain ⟨mapping, member, rfl, took⟩ := extract_only extracted given
      obtain ⟨stored, isEntity⟩ := List.mem_filter.mp member
      have isEntity : mapping.canonicalEntity = next.1 := of_decide_eq_true isEntity
      have early := runs.unguessed next.2 record mapping stored target (isEntity ▸ references) raw took
      rw [(references?_default references own).1]
      unfold Renaming.column
      rw [references]
      generalize ColumnType.uuid.stored (.ofRaw raw) = value at early
      cases value with
      | uuid id => exact congrArg Value.uuid (runs.masterCounterparts_fixed (early id rfl))
      | _ => rfl

theorem accepts_renamed (runs : TwoRuns first second mappings records others before one two) {next : Entity × Record}
    (record : next.2 ∈ records) :
    Option.Rel (Renamed (masterCounterparts one two))
      (acceptBy (naming first.enterpriseId one) first.enterpriseId mappings next)
      (acceptBy (naming first.enterpriseId two) first.enterpriseId mappings next) := by
  refine acceptBy_renamed (fun reference listed key => ?_) fun attrs extracted name raw given _ => runs.fixes record extracted given
  exact runs.naming_renamed (references?_master (references?_foreignKey listed)).1 key

theorem known_of_accepted (runs : TwoRuns first second mappings records others before one two) {next : Entity × Record}
    (listed : next ∈ schedule mappings others) {accepted : Accepted}
    (accepts : acceptBy (naming first.enterpriseId one) first.enterpriseId mappings next = some accepted) :
    Known one accepted.entity accepted.identity := by
  refine runs.firstTouched.present accepted ?_
  rw [runs.firstAccepted]
  exact List.mem_filterMap.mpr ⟨next, (schedule_reordered mappings runs.reordered).mem_iff.mpr listed, accepts⟩

theorem counterpart_of_accepted (runs : TwoRuns first second mappings records others before one two) {next : Entity × Record}
    (listed : next ∈ schedule mappings others) {accepted : Accepted}
    (accepts : acceptBy (naming first.enterpriseId one) first.enterpriseId mappings next = some accepted) :
    ∃ counterpart, acceptBy (naming first.enterpriseId two) first.enterpriseId mappings next = some counterpart ∧
      Renamed (masterCounterparts one two) accepted counterpart := by
  have renamed := runs.accepts_renamed (runs.reordered.mem_iff.mpr (record_of_schedule listed))
  rw [accepts] at renamed
  generalize acceptBy (naming first.enterpriseId two) first.enterpriseId mappings next = counterpart at renamed ⊢
  cases renamed with
  | some renamed => exact ⟨_, rfl, renamed⟩

theorem accepted_of_counterpart (runs : TwoRuns first second mappings records others before one two) {next : Entity × Record}
    (listed : next ∈ schedule mappings others) {counterpart : Accepted}
    (accepts : acceptBy (naming first.enterpriseId two) first.enterpriseId mappings next = some counterpart) :
    ∃ accepted, acceptBy (naming first.enterpriseId one) first.enterpriseId mappings next = some accepted ∧
      Renamed (masterCounterparts one two) accepted counterpart := by
  have renamed := runs.accepts_renamed (runs.reordered.mem_iff.mpr (record_of_schedule listed))
  rw [accepts] at renamed
  generalize acceptBy (naming first.enterpriseId one) first.enterpriseId mappings next = accepted at renamed ⊢
  cases renamed with
  | some renamed => exact ⟨_, rfl, renamed⟩

/-! ## Maps -/

theorem before_renamed (runs : TwoRuns first second mappings records others before one two) (entity : Entity) :
    MapRenamed (masterCounterparts one two) entity (Known one entity) (mapOf before entity) (mapOf before entity) := by
  have known {identity : Identity} (found : mapOf before entity identity ≠ none) : Known one entity identity ∧
      (masterCounterparts one two).identity entity identity = identity := by
    obtain ⟨columns, found⟩ := Option.ne_none_iff_exists'.mp found
    obtain ⟨row, member, rfl, _⟩ := mem_of_mapOf found
    obtain ⟨kept, keptMember, _, keptIdentity⟩ := runs.firstTouched.persists entity row member
    exact ⟨⟨kept, keptMember, keptIdentity⟩, runs.identity_fixed member⟩
  refine ⟨fun identity isKnown => ?_, fun identity found => (known found).1, fun identity found => ⟨identity, known found⟩⟩
  cases found : mapOf before entity identity with
  | some columns =>
      obtain ⟨row, member, rfl, rfl⟩ := mem_of_mapOf found
      rw [runs.identity_fixed member, found, Option.map_some, runs.attributes_fixed member]
  | none =>
      refine Option.eq_none_iff_forall_ne_some.mpr fun columns other => ?_
      obtain ⟨otherKnown, fixed⟩ := known (by rw [other]; nofun)
      obtain same := runs.identity_injective isKnown otherKnown fixed.symm
      rw [← same, found] at other
      cases other

/-- The second run makes the map of the first with the ids of its own masters. -/
theorem maps_renamed (runs : TwoRuns first second mappings records others before one two) (entity : Entity) :
    MapRenamed (masterCounterparts one two) entity (Known one entity) (mapOf one entity) (mapOf two entity) := by
  rw [runs.firstMap, runs.secondMap]
  refine List.foldl_rel (r := fun (map other : CanonicalMap) =>
    MapRenamed (masterCounterparts one two) entity (Known one entity) (map entity) (other entity))
    (runs.before_renamed entity) fun next listed map other maps => ?_
  by_cases own : next.1 = entity
  · have renamed := runs.accepts_renamed (runs.reordered.mem_iff.mpr (record_of_schedule listed))
    have known : ∀ accepted, acceptBy (naming first.enterpriseId one) first.enterpriseId mappings next = some accepted →
        accepted.entity = next.1 ∧ Known one accepted.entity accepted.identity :=
      fun accepted accepts => ⟨acceptBy_entity accepts, runs.known_of_accepted listed accepts⟩
    unfold supplyStep
    generalize acceptBy (naming first.enterpriseId one) first.enterpriseId mappings next = accepted,
      acceptBy (naming first.enterpriseId two) first.enterpriseId mappings next = counterpart at renamed known
    cases renamed with
    | none => exact maps
    | @some accepted counterpart renamed =>
        obtain ⟨isNext, known⟩ := known accepted rfl
        have isOwn : accepted.entity = entity := isNext.trans own
        refine maps.supply (fun _ known _ => runs.identity_injective known) isOwn ?_ renamed.tidied
        rw [Accepted.tidied_identity, ← isOwn]
        exact known
  · rw [supplyStep_other own, supplyStep_other own]
    exact maps

/-! ## Rows -/

/-- The row of the second run with the identity of this one. -/
structure Twin (runs : TwoRuns first second mappings records others before one two) (entity : Entity) (row other : Row) : Prop where
  member : row ∈ (one.canonical entity).rows
  otherMember : other ∈ (two.canonical entity).rows
  identity : identityOf entity other = (masterCounterparts one two).identity entity (identityOf entity row)

theorem exists_twin (runs : TwoRuns first second mappings records others before one two)
    (member : row ∈ (one.canonical entity).rows) :
    ∃ other, runs.Twin entity row other := by
  have found := (runs.maps_renamed entity).same _ ⟨row, member, rfl⟩
  rw [runs.firstMapped.mapOf_of_mem member, Option.map_some] at found
  obtain ⟨other, otherMember, identity, _⟩ := mem_of_mapOf found
  exact ⟨other, member, otherMember, identity⟩

theorem twin_onto (runs : TwoRuns first second mappings records others before one two) {other : Row}
    (otherMember : other ∈ (two.canonical entity).rows) : ∃ row, runs.Twin entity row other := by
  have found := runs.secondMapped.mapOf_of_mem otherMember
  obtain ⟨_, ⟨row, member, rfl⟩, identity⟩ := (runs.maps_renamed entity).onto _ (by rw [found]; nofun)
  exact ⟨row, member, otherMember, identity.symm⟩

namespace Twin

variable {runs : TwoRuns first second mappings records others before one two} {other : Row}

theorem columns (twin : runs.Twin entity row other) :
    other.col = (masterCounterparts one two).attributes entity row.col := by
  have same := (runs.maps_renamed entity).same _ ⟨row, twin.member, rfl⟩
  rw [← twin.identity, runs.secondMapped.mapOf_of_mem twin.otherMember, runs.firstMapped.mapOf_of_mem twin.member] at same
  exact Option.some.inj same

theorem counterpart (twin : runs.Twin entity row other) : rowCounterparts one two entity row.id = other.id :=
  counterparts_eq (runs.secondMapped.unique entity) twin.member twin.otherMember twin.identity

/-- Both runs touch a row or neither does. -/
theorem touched_iff (twin : runs.Twin entity row other) :
    (∃ accepted ∈ acceptedAlong first mappings (schedule mappings records) .start before,
      accepted.entity = entity ∧ accepted.identity = identityOf entity row) ↔
    ∃ accepted ∈ acceptedAlong second mappings (schedule mappings others) .start before,
      accepted.entity = entity ∧ accepted.identity = identityOf entity other := by
  rw [runs.firstAccepted, runs.secondAccepted]
  simp only [List.mem_filterMap, (schedule_reordered mappings runs.reordered).mem_iff]
  constructor
  · rintro ⟨accepted, ⟨next, listed, accepts⟩, isEntity, identity⟩
    obtain ⟨counterpart, otherAccepts, renamed⟩ := runs.counterpart_of_accepted listed accepts
    refine ⟨counterpart, ⟨next, listed, otherAccepts⟩, renamed.entity.trans isEntity, ?_⟩
    rw [renamed.identity, isEntity, identity, twin.identity]
  · rintro ⟨counterpart, ⟨next, listed, otherAccepts⟩, isEntity, identity⟩
    obtain ⟨accepted, accepts, renamed⟩ := runs.accepted_of_counterpart listed otherAccepts
    obtain rfl : accepted.entity = entity := renamed.entity.symm.trans isEntity
    have known := runs.known_of_accepted listed accepts
    refine ⟨accepted, ⟨next, listed, accepts⟩, rfl, runs.identity_injective known ⟨row, twin.member, rfl⟩ ?_⟩
    rw [← twin.identity, ← identity, renamed.identity]

theorem stamps (twin : runs.Twin entity row other) :
    other.sourceProvenance = row.sourceProvenance ∧ other.observability = row.observability := by
  by_cases touched : ∃ accepted ∈ acceptedAlong first mappings (schedule mappings records) .start before,
      accepted.entity = entity ∧ accepted.identity = identityOf entity row
  · obtain ⟨counterpart, otherListed, otherEntity, otherIdentity⟩ := twin.touched_iff.mp touched
    obtain ⟨accepted, listed, rfl, identity⟩ := touched
    obtain ⟨provenance, fresh⟩ := runs.firstTouched.stamped accepted listed row twin.member identity.symm
    have stamped := runs.secondTouched.stamped counterpart otherListed other (otherEntity ▸ twin.otherMember)
      (otherEntity ▸ otherIdentity.symm)
    rw [otherEntity, runs.stamps] at stamped
    exact ⟨stamped.1.trans provenance.symm, stamped.2.trans fresh.symm⟩
  · have old := runs.firstTouched.others entity row twin.member fun accepted listed isEntity identity =>
      touched ⟨accepted, listed, isEntity, identity⟩
    have otherOld := runs.secondTouched.others entity other twin.otherMember fun accepted listed isEntity identity =>
      touched (twin.touched_iff.mpr ⟨accepted, listed, isEntity, identity⟩)
    have identity := twin.identity
    rw [runs.identity_fixed old] at identity
    rw [runs.mapped.unique entity row old other otherOld _ rfl (congrArg some identity)]
    exact ⟨rfl, rfl⟩

end Twin

theorem rowCounterparts_master (plain : ∀ name, references? target name = none) :
    rowCounterparts one two target = masterCounterparts one two target := by
  have same (row : Row) : (masterCounterparts one two).identity target (identityOf target row) = identityOf target row := by
    have columns : (masterCounterparts one two).attributes target row.col = row.col :=
      funext fun name => Renaming.column_of_plain (plain name)
    rw [Renaming.identity_of, columns]
    rfl
  funext id
  simp only [rowCounterparts, counterparts, same]
  rfl

theorem Twin.renamed {runs : TwoRuns first second mappings records others before one two} {other : Row}
    (twin : runs.Twin entity row other) : RowRenamed (rowCounterparts one two) entity row other where
  id := twin.counterpart.symm
  enterprise := congrArg Prod.fst twin.identity
  provenance := twin.stamps.1
  observability := twin.stamps.2
  columns := by
    rw [twin.columns]
    funext name
    unfold Renaming.attributes Renaming.column
    split
    · next target id references _ => rw [rowCounterparts_master (references?_master references).2]
    · rfl

/-! ## References -/

theorem firstLinked (runs : TwoRuns first second mappings records others before one two) :
    Linked first.enterpriseId mappings records one := by
  intro next listed accepted accepts attrs extracted reference isRef raw id given filled named
  have member : accepted ∈ acceptedAlong first mappings (schedule mappings records) .start before := by
    rw [runs.firstAccepted]
    exact List.mem_filterMap.mpr ⟨next, listed, accepts⟩
  have key := acceptBy_links accepts extracted isRef given filled named
  have isNext := acceptBy_entity accepts
  obtain ⟨column, own, isTarget⟩ := Option.bind_eq_some_iff.mp (references?_foreignKey isRef)
  have type := (references?_default (references?_foreignKey isRef) own).1
  obtain ⟨row, rowMember, identity, stored⟩ := runs.given_stored member key nofun (isNext ▸ own)
  rw [isNext] at rowMember identity
  refine ⟨row, rowMember, identity, stored.trans ?_⟩
  rw [type]
  rfl

/-- The masters of the second run stand for those of the first. -/
theorem secondLinked (runs : TwoRuns first second mappings records others before one two) :
    Linked first.enterpriseId mappings others two := by
  intro next listed counterpart otherAccepts attrs extracted reference isRef raw otherId given filled otherNamed
  obtain ⟨accepted, accepts, renamed⟩ := runs.accepted_of_counterpart listed otherAccepts
  have references := references?_foreignKey isRef
  have isNext := acceptBy_entity accepts
  rw [runs.naming_renamed (references?_master references).1, Option.map_eq_some_iff] at otherNamed
  obtain ⟨id, named, rfl⟩ := otherNamed
  obtain ⟨row, member, identity, key⟩ := runs.firstLinked next ((schedule_reordered mappings runs.reordered).mem_iff.mpr listed)
    accepted accepts attrs extracted reference isRef raw id given filled named
  obtain ⟨other, twin⟩ := runs.exists_twin member
  refine ⟨other, twin.otherMember, ?_, ?_⟩
  · rw [twin.identity, identity, renamed.identity, isNext]
  · rw [twin.columns]
    unfold Renaming.attributes Renaming.column
    rw [key, references]

/-- The runs leave the same rows but for ids. -/
theorem sameRows (runs : TwoRuns first second mappings records others before one two) :
    SameRows (rowCounterparts one two) before one two where
  keeps entity row member := runs.counterparts_fixed (fun _ => runs.identity_fixed) fun _ _ _ => Table.key_lt_freshKey member
  injective entity row member other otherMember same := by
    obtain ⟨twin, isTwin⟩ := runs.exists_twin member
    obtain ⟨otherTwin, isOtherTwin⟩ := runs.exists_twin otherMember
    rw [isTwin.counterpart, isOtherTwin.counterpart] at same
    obtain rfl := Table.eq_of_key_eq isTwin.otherMember isOtherTwin.otherMember same
    refine runs.firstMapped.unique entity row member other otherMember _ rfl (congrArg some ?_)
    exact runs.identity_injective ⟨other, otherMember, rfl⟩ ⟨row, member, rfl⟩ (isOtherTwin.identity.symm.trans isTwin.identity)
  twin entity row member := by
    obtain ⟨other, twin⟩ := runs.exists_twin member
    exact ⟨other, twin.otherMember, twin.renamed⟩
  onto entity other otherMember := by
    obtain ⟨row, twin⟩ := runs.twin_onto otherMember
    exact ⟨row, twin.member, twin.renamed⟩

end TwoRuns

end SmartProcurement.Integration
