import SmartProcurement.Integration.FiniteMap
import SmartProcurement.Integration.StoredRows
import SmartProcurement.Integration.WatchedChanges

namespace SmartProcurement.Integration

open Relational Transaction Numeric

/-! # The trace of a record

After a run, every record that it accepted has left its trace: a row that holds
what the record supplies.  When the record is upserted again the row stays as it
is, but the upsert may raise, or signal a number that was rounded when it was stored.
-/

/-! ## What can be repeated -/

/-- The column stores the value as it is, and reads it back equal. -/
def Steady : Value → Prop
  | .null => True
  | .decimal (.finite value) => quantityColumn.quantize value = value
  | _ => False

instance : DecidablePred Steady
  | .decimal (.finite value) => inferInstanceAs (Decidable (quantityColumn.quantize value = value))
  | .null => .isTrue trivial
  | .decimal .nan | .decimal .snan | .decimal (.infinity _) | .text _ | .bool _ | .date _ | .timestamp _ | .uuid _
  | .other _ => .isFalse id

namespace Accepted

/-- The watched number of the record survives being stored. -/
def Steady (accepted : Accepted) : Prop :=
  ∀ watch ∈ signalWatch accepted.entity, ∀ value ∈ accepted.attrs.lookup watch.1, Integration.Steady value

instance : DecidablePred Steady := fun accepted => inferInstanceAs
  (Decidable (∀ watch ∈ signalWatch accepted.entity, ∀ value ∈ accepted.attrs.lookup watch.1, Integration.Steady value))

/-- The record supplies nothing that an update refuses: no null for a column that
must be filled, no other enterprise, and no number that cannot be compared. -/
structure Repeatable (accepted : Accepted) : Prop where
  filled : ∀ column ∈ ownColumns accepted.entity, column.name ∉ (specs accepted.entity).identity →
    column.nullable = false → accepted.attrs.lookup column.name ≠ some .null
  stays : ∀ value ∈ accepted.attrs.lookup "enterprise_id",
    bindUuid "enterprise_id" value = .ok (some accepted.enterpriseId)
  comparable : ∀ watch ∈ signalWatch accepted.entity, accepted.attrs.lookup watch.1 ≠ some (.decimal .snan)

end Accepted

/-! ## The trace of a record -/

/-- Enterprises stay and rows are not deleted. -/
def growing : Frame DB where
  rel before after := after.enterprise = before.enterprise ∧
    ∀ entity id, ((before.canonical entity).find? id).isSome → ((after.canonical entity).find? id).isSome
  refl _ := ⟨rfl, fun _ _ => id⟩
  trans first second := ⟨second.1.trans first.1, fun entity id => second.2 entity id ∘ first.2 entity id⟩

theorem growing_setCanonical {db : DB} {entity : Entity} {table : Table Row}
    (grows : ∀ id, ((db.canonical entity).find? id).isSome → (table.find? id).isSome) :
    growing.rel db (db.setCanonical entity table) := by
  refine ⟨rfl, fun other id found => ?_⟩
  by_cases same : other = entity
  · subst same
    rw [DB.setCanonical_self]
    exact grows id found
  · rwa [DB.setCanonical_other _ _ same]

theorem batchFrame_growing (dataSourceId : Uuid) : BatchFrame dataSourceId growing where
  signal _ _ := ⟨rfl, fun _ _ => id⟩
  insert db entity row _ := growing_setCanonical fun id found => by
    obtain ⟨old, found⟩ := Option.isSome_iff_exists.mp found
    rw [Table.find?_insert_of_find? found]
    rfl
  update db entity id row _ := growing_setCanonical fun other found => by
    rw [Table.update, Table.find?_updateWhere, Option.isSome_map]
    exact found

/-- The references of a signal are bound and there. -/
def SignalKeys (resolved : Dict Raw) (db : DB) : Prop :=
  ∀ target ∈ [Entity.item, .supplier], ∃ id, signalKey db target resolved = .ok id

/-- A row that holds what the record supplies, and is stored again as it is. -/
structure Imprint (provenance : Provenance) (accepted : Accepted) (row : Row) (db : DB) : Prop where
  only : (db.canonical accepted.entity).rows.filter
    (fun row => candidateKey accepted.entity row = some accepted.identity) = [row]
  known : accepted.enterpriseId ∈ db.enterprise
  provenance : row.sourceProvenance = some provenance
  observability : row.observability = .fresh
  bound : ∀ column ∈ ownColumns accepted.entity,
    column.type.bind column.name (row.col column.name) = .ok (row.col column.name)
  admitted : ∀ column ∈ ownColumns accepted.entity, Admitted db column (row.col column.name)
  holds : ∀ column ∈ ownColumns accepted.entity, column.name ∉ (specs accepted.entity).identity →
    ∀ value, accepted.attrs.lookup column.name = some value →
      column.type.bind column.name value = .ok (row.col column.name) ∨ (value = .null ∧ column.nullable = false)
  tenant : ∀ value ∈ accepted.attrs.lookup "enterprise_id",
    bindUuid "enterprise_id" value = .ok (some accepted.enterpriseId)

inductive Trace (provenance : Provenance) (accepted : Accepted) (resolved : Dict Raw) (db : DB) : Prop where
  | stands (row : Row) (imprint : Imprint provenance accepted row db)
      (keys : accepted.Steady ∨ SignalKeys resolved db)
  | moved {value : Value} (gone : (db.canonical accepted.entity).rows.filter
        (fun row => candidateKey accepted.entity row = some accepted.identity) = [])
      (given : accepted.attrs.lookup "enterprise_id" = some value)
      (other : bindUuid "enterprise_id" value ≠ .ok (some accepted.enterpriseId))

section Traces

variable {provenance : Provenance} {accepted later : Accepted} {resolved : Dict Raw} {before after db : DB}
variable {column : Column} {value : Value} {row : Row} {table written : Table Row}

theorem Admitted.grow (grown : growing.rel before after) (admitted : Admitted before column value) :
    Admitted after column value := by
  refine ⟨admitted.filled, admitted.allowed, ?_⟩
  have refers := admitted.refers
  unfold checkReference at refers ⊢
  generalize column.references = references at refers ⊢
  cases references with
  | none => rfl
  | some target =>
      cases value with
      | uuid id =>
          simp only at refers ⊢
          split at refers
          · next found => rw [if_pos (grown.2 target id found)]
          · cases refers
      | _ => rfl

theorem Admitted.there {target : Entity} {id : Uuid} (admitted : Admitted db column (.uuid id))
    (references : column.references = some target) : ((db.canonical target).find? id).isSome := by
  have refers := admitted.refers
  simp only [checkReference, references] at refers
  split at refers
  · next found => exact found
  · cases refers

theorem SignalKeys.grow (grown : growing.rel before after) (keys : SignalKeys resolved before) :
    SignalKeys resolved after := by
  intro target listed
  obtain ⟨id, key⟩ := keys target listed
  refine ⟨id, ?_⟩
  unfold signalKey at key ⊢
  cases given : resolved.lookup (foreignKey target) with
  | none => rwa [given] at key
  | some raw =>
      simp only [given, except_bind_eq_ok] at key ⊢
      obtain ⟨found, bound, key⟩ := key
      refine ⟨found, bound, ?_⟩
      cases found with
      | none => exact key
      | some master =>
          simp only at key ⊢
          split at key
          · cases key
          · next isThere =>
            rw [if_neg]
            · exact key
            · have there := grown.2 target master (by simpa [Option.isSome_iff_ne_none] using isThere)
              simpa [Option.isSome_iff_ne_none] using there

theorem Supplied.filter_other (supplied : Supplied later table written) {identity : Identity}
    (different : identity ≠ later.identity) (own : identity.1 = later.enterpriseId) :
    written.rows.filter (fun row => candidateKey later.entity row = some identity) =
      table.rows.filter fun row => candidateKey later.entity row = some identity := by
  cases supplied with
  | @inserted stored missing isIdentity columns settled tenantless =>
      have outside : candidateKey later.entity (table.newRow stored) ≠ some identity := by
        intro same
        exact different ((Option.some.inj same).symm.trans isIdentity)
      rw [Table.filter_insert, if_neg (by simpa using outside), List.append_nil]
  | @overridden existing stored member isIdentity only id keys columns settled stays moves =>
      refine Table.filter_updateWhere_of_not fun row rowMember hit => ?_
      have isExisting : row = existing := Table.eq_of_key_eq rowMember member (of_decide_eq_true hit)
      subst isExisting
      have still : Table.assign (fun _ => stored) row = stored := Table.assign_eq id
      rw [still]
      have keysOf : (specs later.entity).identity.map stored.col = later.identity.2 :=
        keys.trans (congrArg Prod.snd isIdentity)
      constructor
      · refine decide_eq_false fun same => different ?_
        exact (Option.some.inj same).symm.trans isIdentity
      · refine decide_eq_false fun same => different ?_
        have equal : identityOf later.entity stored = identity := Option.some.inj same
        exact Prod.ext own ((congrArg Prod.snd equal).symm.trans keysOf)

/-- The trace is there as long as the rows with the identity are the same. -/
theorem Trace.grow (trace : Trace provenance accepted resolved before) (grown : growing.rel before after)
    (rows : (after.canonical accepted.entity).rows.filter
        (fun row => candidateKey accepted.entity row = some accepted.identity) =
      (before.canonical accepted.entity).rows.filter
        (fun row => candidateKey accepted.entity row = some accepted.identity)) :
    Trace provenance accepted resolved after := by
  cases trace with
  | stands row imprint keys =>
      have known : accepted.enterpriseId ∈ after.enterprise := grown.1 ▸ imprint.known
      have still : Imprint provenance accepted row after :=
        ⟨rows.trans imprint.only, known, imprint.provenance, imprint.observability, imprint.bound,
          fun column listed => (imprint.admitted column listed).grow grown, imprint.holds, imprint.tenant⟩
      exact .stands row still (keys.imp_right (·.grow grown))
  | moved gone given other => exact .moved (rows.trans gone) given other

/-- A later record with another identity leaves the trace alone. -/
theorem Trace.keep (trace : Trace provenance accepted resolved before) (grown : growing.rel before after)
    (supplied : SuppliedTo later before after) (enterprise : later.enterpriseId = accepted.enterpriseId)
    (different : later.entity = accepted.entity → later.identity ≠ accepted.identity) :
    Trace provenance accepted resolved after := by
  have rows : (after.canonical accepted.entity).rows.filter
        (fun row => candidateKey accepted.entity row = some accepted.identity) =
      (before.canonical accepted.entity).rows.filter
        (fun row => candidateKey accepted.entity row = some accepted.identity) := by
    by_cases same : later.entity = accepted.entity
    · rw [← same]
      exact supplied.table.filter_other (different same).symm enterprise.symm
    · rw [supplied.others _ (Ne.symm same)]
  exact trace.grow grown rows

end Traces

/-! ## The trace is left -/

/-- Watched columns hold what a column of their type stores. -/
def Numbers (db : DB) : Prop :=
  ∀ entity, ∀ watch ∈ signalWatch entity, ∀ row ∈ (db.canonical entity).rows, StoredNumber watch.1 row

section Steps

variable {context : SyncContext} {entity : Entity} {resolved : Dict Raw} {provenance : Provenance}
variable {signal : Option ObservationSignal} {before after middle : DB} {row existing changed stored : Row}
variable {identity : List (String × Value)} {column : Column} {name : String}

theorem default_filled (listed : column ∈ ownColumns entity) (defaults : column.default.isSome) :
    column.nullable = false := by
  have facts : ∀ column ∈ ownColumns entity, column.default.isSome → column.nullable = false := by
    cases entity <;> decide
  exact facts column listed defaults

theorem signal_column {target : Entity} (listed : target ∈ [Entity.item, .supplier])
    (own : ownColumn? entity (foreignKey target) = some column) :
    column.type = .uuid ∧ column.references = some target ∧ column.default = none := by
  have facts : ∀ target ∈ [Entity.item, .supplier], ∀ column ∈ ownColumn? entity (foreignKey target),
      column.type = .uuid ∧ column.references = some target ∧ column.default = none := by
    cases entity <;> decide
  exact facts target listed column own

theorem construct_own {now : Timestamp} {enterpriseId : Uuid} {attrs : Dict Value} {value : Value}
    (constructed : construct entity now enterpriseId provenance attrs = .ok row)
    (given : attrs.lookup name = some value) : ∃ column, ownColumn? entity name = some column := by
  unfold construct at constructed
  split at constructed
  · cases constructed
  · split at constructed
    · cases constructed
    · next known =>
      simp only [List.any_eq_true, not_exists, not_and, Option.isNone_iff_eq_none] at known
      have listed : name ∈ attrs.keys := AList.mem_keys.mp (AList.lookup_isSome.mp (by rw [given]; rfl))
      exact Option.ne_none_iff_exists'.mp (known name listed)

/-- The references of an inserted row are there for a signal as well. -/
theorem signalKeys_of_inserted {now : Timestamp} {enterpriseId : Uuid} {table : Table Row}
    (constructed : construct entity now enterpriseId provenance (coerced entity resolved) = .ok row)
    (kept : storeRow before entity (table.newRow row) = .ok stored) : SignalKeys resolved before := by
  intro target listed
  unfold signalKey
  cases given : resolved.lookup (foreignKey target) with
  | none => exact ⟨none, rfl⟩
  | some raw =>
      have suffix : ∀ target ∈ [Entity.item, .supplier], endsWithId (foreignKey target) = true := by decide
      have attr : (coerced entity resolved).lookup (foreignKey target) = some (.ofRaw raw) := by
        rw [lookup_coerced, given, Option.bind_some, coerceAttr_of_endsWithId (suffix target listed), Option.some_or]
      obtain ⟨column, own⟩ := construct_own constructed attr
      obtain ⟨type, references, default⟩ := signal_column listed own
      obtain ⟨isOwn, named⟩ := ownColumn?_some own
      have value : row.col (foreignKey target) = .ofRaw raw := by
        rw [construct_col constructed own, attr, default]
        cases raw <;> rfl
      have bound := (storeRow_ok kept).2.2.1 column isOwn
      rw [type, named] at bound
      change ColumnType.uuid.bind (foreignKey target) (row.col (foreignKey target)) = _ at bound
      rw [value] at bound
      have admitted := storeRow_admitted kept column isOwn
      rw [named] at admitted
      have key : bindUuid (foreignKey target) (.ofRaw raw) = .ok (stored.col (foreignKey target)).uuid? := by
        rw [bindUuid, bound]
        rfl
      simp only [key]
      cases stores : stored.col (foreignKey target) with
      | uuid id =>
          rw [stores] at admitted
          have found := admitted.there references
          refine ⟨some id, ?_⟩
          change (if ((before.canonical target).find? id).isNone then _ else _) = _
          rw [if_neg (by simpa [Option.isSome_iff_ne_none] using found)]
          rfl
      | _ => exact ⟨none, rfl⟩

theorem steady_of_same {old value : Value} (same : sameValue old value = .ok true)
    (number : ColumnType.numeric.bind name old = .ok old) : Steady value := by
  obtain rfl := sameValue_true same
  cases old with
  | null => trivial
  | decimal decimal =>
      cases decimal with
      | finite value =>
          simp only [ColumnType.bind, if_true, Decimal.FixedPoint.store] at number
          split at number
          · next kept =>
            split at kept
            · cases kept
              change quantityColumn.quantize value = value
              simpa using number
            · cases kept
          · cases number
      | nan => cases same
      | snan => cases same
      | infinity _ => cases number
  | _ => cases number

theorem inserted_trace (identified : identityValues entity (coerced entity resolved) = .ok identity)
    (missing : (before.canonical entity).rows.filter (hasIdentity context.enterpriseId identity) = [])
    (constructed : construct entity context.now context.enterpriseId provenance (coerced entity resolved) = .ok row)
    (kept : storeRow before entity ((before.canonical entity).newRow row) = .ok stored)
    (grown : growing.rel before (before.setCanonical entity ((before.canonical entity).insert stored))) :
    Trace provenance ⟨entity, context.enterpriseId, coerced entity resolved⟩ resolved
      (before.setCanonical entity ((before.canonical entity).insert stored)) := by
  obtain ⟨known, frame, binds, _⟩ := storeRow_ok kept
  obtain ⟨owner, _, stamped, fresh⟩ := construct_ok constructed
  have inserted : Inserted ⟨entity, context.enterpriseId, coerced entity resolved⟩ _ stored :=
    storeRow_inserted constructed kept
  have has : candidateKey entity ((before.canonical entity).newRow stored) =
      some (Accepted.identity ⟨entity, context.enterpriseId, coerced entity resolved⟩) :=
    congrArg some inserted.identity
  refine .stands ((before.canonical entity).newRow stored) ⟨?_, ?_, frame.provenance.trans stamped,
    frame.observability.trans fresh, fun column listed => ColumnType.bind_idem (binds column listed),
    fun column listed => (storeRow_admitted kept column listed).grow grown, fun column listed free value given => ?_,
    fun value given => ?_⟩ (.inr ((signalKeys_of_inserted constructed kept).grow grown))
  · rw [filter_hasIdentity identified] at missing
    simp only [DB.setCanonical_self]
    rw [Table.filter_insert, missing, if_pos (decide_eq_true has)]
    rfl
  · exact owner ▸ known
  · have own : ownColumn? entity column.name = some column := ownColumn?_of_mem listed
    have bound := binds column listed
    change column.type.bind column.name (row.col column.name) = _ at bound
    rw [construct_col constructed own, given] at bound
    cases value with
    | null =>
        cases defaults : column.default with
        | none =>
            rw [defaults] at bound
            exact .inl bound
        | some default => exact .inr ⟨rfl, default_filled listed (by rw [defaults]; rfl)⟩
    | _ => exact .inl bound
  · rw [construct_tenantless constructed] at given
    cases given

theorem Diffed.grown (diffed : Diffed context entity existing (coerced entity resolved) resolved before signal middle) :
    growing.rel before middle ∧ growing.rel middle before := by
  cases diffed with
  | silent _ => exact ⟨growing.refl _, growing.refl _⟩
  | emitted _ _ _ _ _ => exact ⟨⟨rfl, fun _ _ => id⟩, ⟨rfl, fun _ _ => id⟩⟩

/-- An update signals the change of a watched number, or finds it as it is stored. -/
theorem Diffed.steady_or_keys
    (diffed : Diffed context entity existing (coerced entity resolved) resolved before signal middle)
    (numbers : ∀ watch ∈ signalWatch entity, StoredNumber watch.1 existing) :
    Accepted.Steady ⟨entity, context.enterpriseId, coerced entity resolved⟩ ∨ SignalKeys resolved before := by
  cases diffed with
  | silent compared =>
      refine .inl fun watch watched value given => ?_
      exact steady_of_same (compared watch watched value given) (numbers watch watched)
  | emitted _ _ item supplier _ =>
      refine .inr fun target listed => ?_
      rcases List.mem_cons.mp listed with rfl | listed
      · exact ⟨_, item⟩
      · obtain rfl := List.mem_singleton.mp listed
        exact ⟨_, supplier⟩

section Updates

variable {table : Table Row} {after : DB}
variable (identified : identityValues entity (coerced entity resolved) = .ok identity)
variable (only : table.rows.filter (hasIdentity context.enterpriseId identity) = [existing])
variable (assigned : Assigned entity (coerced entity resolved) existing changed)
variable (kept : storeRow middle entity
  { changed with sourceProvenance := some provenance, observability := .fresh } = .ok stored)
variable (rows : after.canonical entity = table.update existing.id fun _ => stored)

include identified only assigned kept rows

theorem updated_imprint (grown : growing.rel middle after) (stays : stored.enterpriseId = context.enterpriseId) :
    Imprint provenance ⟨entity, context.enterpriseId, coerced entity resolved⟩ stored after := by
  obtain ⟨known, frame, binds, _⟩ := storeRow_ok kept
  obtain ⟨member, owner, _⟩ := existing_identity identified only
  have id : stored.id = existing.id := frame.id.trans assigned.id
  have written : Table.assign (fun _ => stored) existing = stored := Table.assign_eq id
  have existingHas := (hasIdentity_iff identified).mp
    (List.mem_filter.mp (only ▸ List.mem_singleton_self existing)).2
  have has : candidateKey entity stored =
      some (Accepted.identity ⟨entity, context.enterpriseId, coerced entity resolved⟩) :=
    congrArg some (Prod.ext stays ((updated_keys identified only assigned kept).trans (congrArg Prod.snd existingHas)))
  rw [filter_hasIdentity identified] at only
  refine ⟨?_, ?_, frame.provenance, frame.observability, fun column listed => ColumnType.bind_idem (binds column listed),
    fun column listed => (storeRow_admitted kept column listed).grow grown, fun column listed free value given => .inl ?_,
    fun value given => ?_⟩
  · simp only [rows, Table.update]
    rw [Table.filter_updateWhere, only]
    · simp [written, Keyed.key]
    · intro row rowMember hit
      obtain rfl := Table.eq_of_key_eq rowMember member (of_decide_eq_true hit)
      rw [written, has, candidateKey, existingHas]
  · rw [grown.1, ← stays, frame.enterprise]
    exact known
  · have stores := binds column listed
    change column.type.bind column.name (changed.col column.name) = _ at stores
    rwa [assigned.given column.name value free (by rw [ownColumn?_of_mem listed]; rfl) given] at stores
  · rw [assigned.otherEnterprise value given, ← stays]
    exact congrArg (fun id => Except.ok (some id)) frame.enterprise.symm

theorem updated_moved (leaves : stored.enterpriseId ≠ context.enterpriseId) :
    Trace provenance ⟨entity, context.enterpriseId, coerced entity resolved⟩ resolved after := by
  have frame := (storeRow_ok kept).2.1
  obtain ⟨member, owner, _⟩ := existing_identity identified only
  have written : Table.assign (fun _ => stored) existing = stored := Table.assign_eq (frame.id.trans assigned.id)
  rw [filter_hasIdentity identified] at only
  have moves : ∃ value, (coerced entity resolved).lookup "enterprise_id" = some value := by
    by_contra none
    have none := Option.eq_none_iff_forall_ne_some.mpr fun value given => none ⟨value, given⟩
    exact leaves (frame.enterprise.trans ((assigned.sameEnterprise none).trans owner))
  obtain ⟨value, given⟩ := moves
  refine .moved ?_ given fun same => leaves ?_
  · simp only [rows]
    rw [Table.filter_update_leaves, only]
    · simp [Keyed.key]
    · intro row rowMember hit
      obtain rfl := Table.eq_of_key_eq rowMember member hit
      rw [written]
      exact decide_eq_false fun same => leaves (congrArg Prod.fst (Option.some.inj same))
  · have moved := (assigned.otherEnterprise value given).symm.trans same
    exact frame.enterprise.trans (Option.some.inj (Except.ok.inj moved))

end Updates

theorem Upserted.trace (step : Upserted context entity resolved provenance before signal after)
    (numbers : Numbers before) (grown : growing.rel before after) :
    Trace provenance ⟨entity, context.enterpriseId, coerced entity resolved⟩ resolved after := by
  cases step with
  | inserted identified missing constructed kept => exact inserted_trace identified missing constructed kept grown
  | @updated _ existing _ stored _ middle identified only diffed assigned kept =>
      have assigned := assignAttrs_ok assigned
      have rows : (middle.setCanonical entity ((middle.canonical entity).update existing.id fun _ => stored)).canonical
          entity = (before.canonical entity).update existing.id fun _ => stored := by
        rw [DB.setCanonical_self, diffed.canonical]
      by_cases stays : stored.enterpriseId = context.enterpriseId
      · have later := growing.trans diffed.grown.2 grown
        have either := diffed.steady_or_keys fun watch watched =>
          numbers entity watch watched existing (existing_identity identified only).1
        exact .stands stored (updated_imprint identified only assigned kept rows later stays)
          (either.imp_right (·.grow grown))
      · exact updated_moved identified only assigned kept rows stays

theorem Upserted.numbers (step : Upserted context entity resolved provenance before signal after)
    (numbers : Numbers before) : Numbers after := by
  intro other watch watched row member
  by_cases same : other = entity
  · subst same
    obtain ⟨column, column_watched⟩ := signalWatch_column (Option.mem_def.mp watched)
    cases step with
    | @inserted _ _ _ _ _ _ kept =>
        rw [DB.setCanonical_self] at member
        rcases List.mem_append.mp member with old | new
        · exact numbers other watch watched row old
        · rw [List.mem_singleton.mp new]
          exact (storedNumber_of_storeRow column_watched kept).2
    | @updated _ existing _ stored _ _ identified only diffed assigned kept =>
        have id : stored.id = existing.id := (storeRow_ok kept).2.1.id.trans (assignAttrs_ok assigned).id
        rw [DB.setCanonical_self, diffed.canonical] at member
        rcases (Table.mem_update_const (existing_identity identified only).1 id).mp member with ⟨old, _⟩ | rfl
        · exact numbers other watch watched row old
        · exact (storedNumber_of_storeRow column_watched kept).2
  · rw [step.written.2 other same] at member
    exact numbers other watch watched row member

end Steps

/-! ## A record that is upserted again -/

def Echoes (accepted : Accepted) (db : DB) : EStateM.Result Error DB (Bool × Option ObservationSignal) → Prop
  | .error _ _ => ¬ accepted.Repeatable
  | .ok (_, none) after => accepted.Repeatable ∧ accepted.Steady ∧ after = db
  | .ok (_, some signal) after => accepted.Repeatable ∧ ¬ accepted.Steady ∧
      after = { db with observationSignal := db.observationSignal.insert signal }

section Again

variable {context : SyncContext} {entity : Entity} {resolved : Dict Raw} {provenance : Provenance}
variable {accepted : Accepted} {db middle : DB} {row changed stored : Row} {attr : String}

/-- A number that is stored compares equal when it was not rounded. -/
theorem compares_of_bound {old new : Value} (bound : ColumnType.numeric.bind attr new = .ok old)
    (comparable : new ≠ .decimal .snan) : ∃ same, sameValue old new = .ok same ∧ (same = true ↔ Steady new) := by
  cases new with
  | null =>
      cases bound
      exact ⟨true, rfl, iff_of_true rfl trivial⟩
  | decimal decimal =>
      cases decimal with
      | finite value =>
          simp only [ColumnType.bind, if_true, Decimal.FixedPoint.store] at bound
          split at bound
          · next kept =>
            split at kept
            · cases kept
              cases bound
              refine ⟨decide (quantityColumn.quantize value = value), ?_, decide_eq_true_iff⟩
              change Except.ok (decide (Decimal.finite (quantityColumn.quantize value) = .finite value)) = _
              simp
            · cases kept
          · cases bound
      | nan =>
          cases bound
          exact ⟨false, rfl, iff_of_false Bool.false_ne_true id⟩
      | snan => exact absurd rfl comparable
      | infinity _ => cases bound
  | _ => cases bound

theorem Imprint.owner (imprint : Imprint provenance accepted row db) :
    row ∈ (db.canonical accepted.entity).rows ∧ identityOf accepted.entity row = accepted.identity := by
  have member := List.mem_filter.mp (imprint.only ▸ List.mem_singleton_self row)
  exact ⟨member.1, Option.some.inj (of_decide_eq_true member.2)⟩

/-- The attributes of the record are bound to what the row holds already. -/
theorem Imprint.rebound (imprint : Imprint provenance accepted row db)
    (filled : ∀ column ∈ ownColumns accepted.entity, column.name ∉ (specs accepted.entity).identity →
      column.nullable = false → accepted.attrs.lookup column.name ≠ some .null)
    (assigned : Assigned accepted.entity accepted.attrs row changed) {column : Column}
    (listed : column ∈ ownColumns accepted.entity) :
    column.type.bind column.name (changed.col column.name) = .ok (row.col column.name) := by
  by_cases isIdentity : column.name ∈ (specs accepted.entity).identity
  · rw [assigned.identity _ isIdentity]
    exact imprint.bound column listed
  · cases given : accepted.attrs.lookup column.name with
    | none =>
        rw [assigned.absent _ given]
        exact imprint.bound column listed
    | some value =>
        rw [assigned.given _ value isIdentity (by rw [ownColumn?_of_mem listed]; rfl) given]
        rcases imprint.holds column listed isIdentity value given with bound | ⟨rfl, required⟩
        · exact bound
        · exact absurd given (filled column listed isIdentity required)

theorem filled_of_stored (accepted : Accepted)
    (assigned : Assigned accepted.entity accepted.attrs row changed)
    (kept : storeRow middle accepted.entity
      { changed with sourceProvenance := some provenance, observability := .fresh } = .ok stored)
    {column : Column} (listed : column ∈ ownColumns accepted.entity)
    (free : column.name ∉ (specs accepted.entity).identity) (required : column.nullable = false) :
    accepted.attrs.lookup column.name ≠ some .null := by
  intro given
  have bound := (storeRow_ok kept).2.2.1 column listed
  change column.type.bind column.name (changed.col column.name) = _ at bound
  rw [assigned.given _ .null free (by rw [ownColumn?_of_mem listed]; rfl) given] at bound
  have isNull : stored.col column.name = .null := (Except.ok.inj bound).symm
  have filled := (storeRow_admitted kept column listed).filled
  rw [isNull, required] at filled
  exact absurd (filled rfl) Bool.false_ne_true

theorem Imprint.enterprise (imprint : Imprint provenance accepted row db)
    (assigned : Assigned accepted.entity accepted.attrs row changed) : changed.enterpriseId = row.enterpriseId := by
  have owner : row.enterpriseId = accepted.enterpriseId := congrArg Prod.fst imprint.owner.2
  cases given : accepted.attrs.lookup "enterprise_id" with
  | none => exact assigned.sameEnterprise given
  | some value =>
      have same := (assigned.otherEnterprise value given).symm.trans (imprint.tenant value given)
      exact (Option.some.inj (Except.ok.inj same)).trans owner.symm

theorem Imprint.frame (imprint : Imprint provenance accepted row db)
    (assigned : Assigned accepted.entity accepted.attrs row changed) :
    SameFrame { changed with sourceProvenance := some provenance, observability := .fresh } row where
  id := assigned.id.symm
  enterprise := (imprint.enterprise assigned).symm
  created := assigned.created.symm
  provenance := imprint.provenance
  observability := imprint.observability

theorem Imprint.restored (imprint : Imprint provenance accepted row db)
    (assigned : Assigned accepted.entity accepted.attrs row changed)
    (kept : storeRow middle accepted.entity
      { changed with sourceProvenance := some provenance, observability := .fresh } = .ok stored) : stored = row := by
  have frame := imprint.frame assigned
  have same := (storeRow_ok kept).2.1
  refine SameFrame.eq ⟨same.id.trans frame.id.symm, same.enterprise.trans frame.enterprise.symm,
    same.created.trans frame.created.symm, same.provenance.trans frame.provenance.symm,
    same.observability.trans frame.observability.symm⟩ (funext fun name => ?_)
  cases own : ownColumn? accepted.entity name with
  | none =>
      rw [storeRow_col kept, own]
      exact assigned.foreign name own
  | some column =>
      obtain ⟨listed, rfl⟩ := ownColumn?_some own
      have stores := (storeRow_ok kept).2.2.1 column listed
      have again := imprint.rebound (fun _ => filled_of_stored accepted assigned kept) assigned listed
      exact Except.ok.inj (stores.symm.trans again)

theorem Imprint.rewritten (imprint : Imprint provenance accepted row db) :
    ((db.canonical accepted.entity).update row.id fun _ => row) = db.canonical accepted.entity := by
  refine Table.updateWhere_eq_self fun other member hit => ?_
  obtain rfl := Table.eq_of_key_eq member imprint.owner.1 (of_decide_eq_true hit)
  exact Table.assign_eq rfl

theorem Imprint.watched (imprint : Imprint provenance accepted row db)
    (filled : ∀ column ∈ ownColumns accepted.entity, column.name ∉ (specs accepted.entity).identity →
      column.nullable = false → accepted.attrs.lookup column.name ≠ some .null)
    {watch : String × SignalType} (watched : watch ∈ signalWatch accepted.entity) {value : Value}
    (given : value ∈ accepted.attrs.lookup watch.1) :
    ColumnType.numeric.bind watch.1 value = .ok (row.col watch.1) := by
  obtain ⟨column, isWatched⟩ := signalWatch_column (Option.mem_def.mp watched)
  obtain ⟨listed, named⟩ := ownColumn?_some isWatched.own
  have holds := imprint.holds column listed (named ▸ isWatched.free) value (named ▸ given)
  rw [isWatched.type, named] at holds
  rcases holds with bound | ⟨rfl, required⟩
  · exact bound
  · exact absurd (named ▸ given) (filled column listed (named ▸ isWatched.free) required)

/-- A signalling NaN cannot be compared with what is stored for it. -/
theorem incomparable {old : Value} (bound : ColumnType.numeric.bind attr (.decimal .snan) = .ok old) (same : Bool) :
    sameValue old (.decimal .snan) ≠ .ok same := by
  cases bound
  nofun

theorem setCanonical_eq_self (db : DB) (entity : Entity) : db.setCanonical entity (db.canonical entity) = db := by
  rw [DB.setCanonical, Function.update_eq_self]

/-- A repeated upsert that returns changes no row, and signals what was rounded. -/
theorem Imprint.echoes_ok {accepted : Accepted}
    (isAccepted : accepted = ⟨entity, context.enterpriseId, coerced entity resolved⟩)
    (imprint : Imprint provenance accepted row db) {created : Bool} {signal : Option ObservationSignal} {after : DB}
    (ran : upsert context entity resolved provenance db = .ok (created, signal) after) :
    Echoes accepted db (.ok (created, signal) after) := by
  subst isAccepted
  have only := imprint.only
  cases (upsert_ok ran).2 with
  | inserted identified missing _ _ =>
      rw [filter_hasIdentity identified] at missing
      rw [missing] at only
      cases only
  | @updated identity existing changed stored _ middle identified found diffed assigned kept =>
      rw [filter_hasIdentity identified] at found
      obtain rfl : existing = row := List.singleton_injective (found.symm.trans only)
      have assigned := assignAttrs_ok assigned
      have filled : ∀ column ∈ ownColumns entity, column.name ∉ (specs entity).identity →
          column.nullable = false → (coerced entity resolved).lookup column.name ≠ some .null :=
        fun _ => filled_of_stored ⟨entity, context.enterpriseId, coerced entity resolved⟩ assigned kept
      have comparable : ∀ watch ∈ signalWatch entity,
          (coerced entity resolved).lookup watch.1 ≠ some (.decimal .snan) := by
        intro watch watched given
        have bound := imprint.watched filled watched given
        cases diffed with
        | silent compared => exact incomparable bound _ (compared watch watched _ given)
        | emitted compared _ _ _ _ =>
            obtain ⟨other, otherWatched, new, otherGiven, compared⟩ := compared
            obtain rfl := Option.some.inj (otherWatched.symm.trans watched)
            obtain rfl := Option.some.inj (otherGiven.symm.trans given)
            exact incomparable bound _ compared
      have repeatable : Accepted.Repeatable ⟨entity, context.enterpriseId, coerced entity resolved⟩ :=
        ⟨filled, imprint.tenant, comparable⟩
      obtain rfl := imprint.restored assigned kept
      have rewritten : ((middle.canonical entity).update stored.id fun _ => stored) = middle.canonical entity := by
        rw [diffed.canonical]
        exact imprint.rewritten
      rw [rewritten, setCanonical_eq_self]
      cases diffed with
      | silent compared =>
          refine ⟨repeatable, fun watch watched value given => ?_, rfl⟩
          obtain ⟨same, is, steady⟩ := compares_of_bound (imprint.watched filled watched given)
            fun isSnan => comparable watch watched (isSnan ▸ given)
          exact steady.mp (Except.ok.inj (is.symm.trans (compared watch watched value given)))
      | emitted compared _ _ _ _ =>
          refine ⟨repeatable, fun steady => ?_, rfl⟩
          obtain ⟨watch, watched, value, given, compared⟩ := compared
          obtain ⟨same, is, isSteady⟩ := compares_of_bound (imprint.watched filled watched given)
            fun isSnan => comparable watch watched (isSnan ▸ given)
          have differs := Except.ok.inj (is.symm.trans compared)
          rw [isSteady.mpr (steady watch watched value given)] at differs
          cases differs

theorem diffSignal_returns {existing : Row} {attrs : Dict Value}
    (compares : ∀ watch ∈ signalWatch entity, ∀ value ∈ attrs.lookup watch.1,
      ∃ same, sameValue (existing.col watch.1) value = .ok same ∧ (same = false → SignalKeys resolved db)) :
    ∃ signal after, diffSignal context entity existing attrs resolved db = .ok signal after := by
  unfold diffSignal
  cases watched : signalWatch entity with
  | none => exact ⟨_, _, rfl⟩
  | some watch =>
      simp only
      cases given : attrs.lookup watch.1 with
      | none => exact ⟨_, _, rfl⟩
      | some value =>
          obtain ⟨same, compared, keys⟩ := compares watch watched value given
          refine exists_ok_bind (lift_eq_ok.mpr ⟨compared, rfl⟩) ?_
          cases same with
          | true => exact ⟨_, _, rfl⟩
          | false =>
              obtain ⟨itemId, item⟩ := keys rfl .item (by simp)
              obtain ⟨supplierId, supplier⟩ := keys rfl .supplier (by simp)
              rw [if_neg Bool.false_ne_true]
              refine exists_ok_bind (read_eq_ok.mpr ⟨item, rfl⟩) ?_
              refine exists_ok_bind (lift_eq_ok.mpr ⟨rfl, rfl⟩) ?_
              refine exists_ok_bind (read_eq_ok.mpr ⟨supplier, rfl⟩) ?_
              refine exists_ok_bind (lift_eq_ok.mpr ⟨rfl, rfl⟩) ?_
              exact ⟨_, _, rfl⟩

theorem duplicates_of_only (imprint : Imprint provenance accepted row db) {other : DB}
    (same : other.canonical = db.canonical) : duplicates other accepted.entity row = false := by
  unfold duplicates
  rw [same]
  cases constrained : uniqueColumn accepted.entity with
  | none => rfl
  | some name =>
      refine List.any_eq_false.mpr fun other member => ?_
      simp only [decide_eq_true_eq]
      rintro ⟨different, enterprise, value⟩
      have isIdentity : identityOf accepted.entity other = identityOf accepted.entity row := by
        simp only [identityOf, identity_of_unique constrained, enterprise, value, List.map_cons, List.map_nil]
      have selected : other ∈ (db.canonical accepted.entity).rows.filter
          (fun row => candidateKey accepted.entity row = some accepted.identity) :=
        List.mem_filter.mpr ⟨member, decide_eq_true (congrArg some (isIdentity.trans imprint.owner.2))⟩
      rw [imprint.only] at selected
      exact different (congrArg Row.id (List.mem_singleton.mp selected))

theorem Imprint.upserts {accepted : Accepted} (isAccepted : accepted = ⟨entity, context.enterpriseId, coerced entity resolved⟩)
    (imprint : Imprint provenance accepted row db) (keys : accepted.Steady ∨ SignalKeys resolved db)
    (repeatable : accepted.Repeatable) {identity : List (String × Value)}
    (identified : identityValues entity (coerced entity resolved) = .ok identity) :
    ∃ result after, upsert context entity resolved provenance db = .ok result after := by
  subst isAccepted
  have only : (db.canonical entity).rows.filter (hasIdentity context.enterpriseId identity) = [row] :=
    (filter_hasIdentity identified _).trans imprint.only
  obtain ⟨signal, middle, diffed⟩ : ∃ signal middle, diffSignal context entity row (coerced entity resolved) resolved db =
      .ok signal middle := by
    refine diffSignal_returns fun watch watched value given => ?_
    obtain ⟨same, compared, steady⟩ := compares_of_bound (imprint.watched repeatable.filled watched given)
      fun isSnan => repeatable.comparable watch watched (isSnan ▸ given)
    refine ⟨same, compared, fun differs => keys.resolve_left fun isSteady => ?_⟩
    rw [steady.mpr (isSteady watch watched value given)] at differs
    cases differs
  obtain ⟨changed, assigning⟩ : ∃ changed, assignAttrs entity row (coerced entity resolved) = .ok changed :=
    assignAttrs_returns row fun value given => ⟨_, repeatable.stays value given⟩
  have assigned := assignAttrs_ok assigning
  have inverted := diffSignal_ok diffed
  have grown := inverted.grown.1
  have kept : storeRow middle entity
      { changed with sourceProvenance := some provenance, observability := .fresh } = .ok row := by
    refine storeRow_of_bound ?_ (imprint.frame assigned) (fun column listed =>
      ⟨imprint.rebound repeatable.filled assigned listed, (imprint.admitted column listed).grow grown⟩)
      (fun name outside => ?_) (duplicates_of_only imprint inverted.canonical)
    · have owner : row.enterpriseId = context.enterpriseId := congrArg Prod.fst imprint.owner.2
      change changed.enterpriseId ∈ middle.enterprise
      rw [imprint.enterprise assigned, grown.1, owner]
      exact imprint.known
    · refine (assigned.foreign name ?_).symm
      refine List.find?_eq_none.mpr fun column listed named => outside ?_
      exact List.mem_map.mpr ⟨column, listed, by simpa using named⟩
  unfold upsert
  refine exists_ok_bind (lift_eq_ok.mpr ⟨identified, rfl⟩) ?_
  refine exists_ok_bind (scalarOrNone_eq_ok.mpr ⟨by rw [only]; rfl, rfl⟩) ?_
  refine exists_ok_bind diffed (exists_ok_bind (lift_eq_ok.mpr ⟨assigning, rfl⟩) ?_)
  refine exists_ok_bind (read_eq_ok.mpr ⟨kept, rfl⟩) (exists_ok_bind (lift_eq_ok.mpr ⟨rfl, rfl⟩) ?_)
  exact ⟨_, _, rfl⟩

theorem Trace.echoes {accepted : Accepted} (isAccepted : accepted = ⟨entity, context.enterpriseId, coerced entity resolved⟩)
    (trace : Trace provenance accepted resolved db) {identity : List (String × Value)}
    (identified : identityValues entity (coerced entity resolved) = .ok identity) :
    Echoes accepted db (upsert context entity resolved provenance db) := by
  cases ran : upsert context entity resolved provenance db with
  | ok result after =>
      obtain ⟨created, signal⟩ := result
      cases trace with
      | stands row imprint _ => exact imprint.echoes_ok isAccepted ran
      | moved gone given other =>
          subst isAccepted
          cases (upsert_ok ran).2 with
          | inserted _ _ constructed _ =>
              rw [construct_tenantless constructed] at given
              cases given
          | updated again found _ _ _ =>
              rw [filter_hasIdentity again, gone] at found
              cases found
  | error reason after =>
      intro repeatable
      cases trace with
      | stands row imprint keys =>
          obtain ⟨result, state, returns⟩ : ∃ result state, upsert context entity resolved provenance db =
              .ok result state := imprint.upserts isAccepted keys repeatable identified
          rw [ran] at returns
          cases returns
      | moved _ given other => exact other (repeatable.stays _ given)

end Again

end SmartProcurement.Integration
