import SmartProcurement.Integration.Sync

namespace SmartProcurement.Integration

open Relational Transaction Text Numeric Observation

/-! # What a flush stores

An upsert assigns the coerced attributes to a row and the flush binds its
columns.  Both are described column by column.
-/

/-! ## Storing a row -/

theorem storeColumn_ok {db : DB} {row stored : Row} {column : Column}
    (kept : storeColumn db row column = .ok stored) :
    ∃ value, column.type.bind column.name (row.col column.name) = .ok value ∧
      stored = row.set column.name value := by
  simp only [storeColumn, except_bind_eq_ok] at kept
  obtain ⟨value, bound, kept⟩ := kept
  split at kept
  · cases kept
  · simp only [except_bind_eq_ok, except_pure_eq_ok] at kept
    obtain ⟨_, _, _, _, rfl⟩ := kept
    exact ⟨value, bound, rfl⟩

/-- Everything of a row but its named columns. -/
structure SameFrame (row stored : Row) : Prop where
  id : stored.id = row.id
  enterprise : stored.enterpriseId = row.enterpriseId
  created : stored.createdAt = row.createdAt
  provenance : stored.sourceProvenance = row.sourceProvenance
  observability : stored.observability = row.observability

theorem SameFrame.refl (row : Row) : SameFrame row row := ⟨rfl, rfl, rfl, rfl, rfl⟩

theorem sameFrame_set (row : Row) (name : String) (value : Value) : SameFrame row (row.set name value) :=
  ⟨rfl, rfl, rfl, rfl, rfl⟩

theorem SameFrame.trans {first second third : Row} (head : SameFrame first second)
    (tail : SameFrame second third) : SameFrame first third :=
  ⟨tail.id.trans head.id, tail.enterprise.trans head.enterprise, tail.created.trans head.created,
    tail.provenance.trans head.provenance, tail.observability.trans head.observability⟩

theorem storeColumns_ok {db : DB} {list : List Column} {row stored : Row}
    (distinct : (list.map (·.name)).Nodup) (kept : list.foldlM (storeColumn db) row = .ok stored) :
    SameFrame row stored ∧
      (∀ column ∈ list, column.type.bind column.name (row.col column.name) = .ok (stored.col column.name)) ∧
      ∀ name, name ∉ list.map (·.name) → stored.col name = row.col name := by
  induction list generalizing row with
  | nil =>
      obtain rfl := except_pure_eq_ok.mp kept
      exact ⟨.refl _, by simp, fun _ _ => rfl⟩
  | cons first rest ih =>
      rw [List.foldlM_cons] at kept
      obtain ⟨next, head, kept⟩ := except_bind_eq_ok.mp kept
      obtain ⟨value, bound, rfl⟩ := storeColumn_ok head
      obtain ⟨fresh, distinct⟩ := List.nodup_cons.mp distinct
      obtain ⟨frame, binds, others⟩ := ih distinct kept
      refine ⟨(sameFrame_set row first.name value).trans frame, ?_, ?_⟩
      · intro column member
        rcases List.mem_cons.mp member with rfl | member
        · rw [others _ fresh, Row.set_col_self]
          exact bound
        · have different : column.name ≠ first.name := fun same =>
            fresh (List.mem_map.mpr ⟨column, member, same⟩)
          have later := binds column member
          rwa [Row.set_col_other _ _ different] at later
      · intro name outside
        rw [List.map_cons, List.mem_cons, not_or] at outside
        rw [others name outside.2, Row.set_col_other _ _ outside.1]

theorem ownColumns_nodup (entity : Entity) : ((ownColumns entity).map (·.name)).Nodup := by
  cases entity <;> decide

/-- A stored row differs from the given one only in that its columns are bound. -/
theorem storeRow_ok {db : DB} {entity : Entity} {row stored : Row}
    (kept : storeRow db entity row = .ok stored) :
    row.enterpriseId ∈ db.enterprise ∧ SameFrame row stored ∧
      (∀ column ∈ ownColumns entity,
        column.type.bind column.name (row.col column.name) = .ok (stored.col column.name)) ∧
      ∀ name, name ∉ (ownColumns entity).map (·.name) → stored.col name = row.col name := by
  unfold storeRow at kept
  split at kept
  · cases kept
  · next known =>
      simp only [except_bind_eq_ok] at kept
      obtain ⟨columns, stores, kept⟩ := kept
      split at kept
      · cases kept
      · obtain rfl := except_pure_eq_ok.mp kept
        exact ⟨not_not.mp known, storeColumns_ok (ownColumns_nodup entity) stores⟩

/-! ## Attributes -/

theorem lookup_coerced (entity : Entity) (resolved : Dict Raw) (name : String) :
    (coerced entity resolved).lookup name =
      ((resolved.lookup name).bind (coerceAttr entity name)).or
        (if name ∈ (specs entity).identity then some .null else none) := by
  have defaults : ∀ (names : List String) (attrs : Dict Value),
      (names.foldl (fun attrs name => attrs.setDefault name .null) attrs).lookup name =
        (attrs.lookup name).or (if name ∈ names then some .null else none) := by
    intro names
    induction names with
    | nil => simp
    | cons first rest ih =>
        intro attrs
        rw [List.foldl_cons, ih, Dict.lookup_setDefault]
        by_cases same : name = first
        · subst same
          cases attrs.lookup name <;> simp
        · simp [same]
  rw [coerced, defaults, Dict.lookup_filterMap]

theorem coerceAttr_of_endsWithId {entity : Entity} {key : String} (suffix : endsWithId key = true)
    (raw : Raw) : coerceAttr entity key raw = some (.ofRaw raw) := by
  rw [coerceAttr, if_pos suffix]

theorem identityValues_ok {entity : Entity} {attrs : Dict Value} {identity : List (String × Value)}
    (identified : identityValues entity attrs = .ok identity) {name : String}
    (listed : name ∈ (specs entity).identity) :
    ∃ value, (name, value) ∈ identity ∧
      ((columnType? entity name).getD .uuid).bind name ((attrs.lookup name).getD .null) = .ok value := by
  unfold identityValues at identified
  generalize (specs entity).identity = names at identified listed
  induction names generalizing identity with
  | nil => cases listed
  | cons first rest ih =>
      simp only [List.mapM_cons, except_bind_eq_ok, except_pure_eq_ok] at identified
      obtain ⟨_, ⟨value, bound, rfl⟩, others, later, rfl⟩ := identified
      rcases List.mem_cons.mp listed with rfl | listed
      · exact ⟨value, by simp, bound⟩
      · obtain ⟨value, member, bound⟩ := ih later listed
        exact ⟨value, List.mem_cons_of_mem _ member, bound⟩

/-- The row that the identity query finds carries the bound identity. -/
theorem existing_identity {entity : Entity} {attrs : Dict Value} {identity : List (String × Value)}
    {enterpriseId : Uuid} {rows : List Row} {existing : Row}
    (identified : identityValues entity attrs = .ok identity)
    (only : rows.filter (hasIdentity enterpriseId identity) = [existing]) :
    existing ∈ rows ∧ existing.enterpriseId = enterpriseId ∧ ∀ name ∈ (specs entity).identity,
      ((columnType? entity name).getD .uuid).bind name ((attrs.lookup name).getD .null) =
        .ok (existing.col name) := by
  have member : existing ∈ rows.filter (hasIdentity enterpriseId identity) := by simp [only]
  obtain ⟨member, isKey⟩ := List.mem_filter.mp member
  simp only [hasIdentity, Bool.and_eq_true, decide_eq_true_eq, List.all_eq_true] at isKey
  refine ⟨member, isKey.1, fun name listed => ?_⟩
  obtain ⟨value, pair, bound⟩ := identityValues_ok identified listed
  rw [isKey.2 _ pair]
  exact bound

theorem setAttr_ok {entity : Entity} {row changed : Row} {key : String} {value : Value}
    (set : setAttr entity row key value = .ok changed) :
    changed.id = row.id ∧ changed.createdAt = row.createdAt ∧
      (key ≠ "enterprise_id" → changed.enterpriseId = row.enterpriseId) ∧
      (key = "enterprise_id" → bindUuid key value = .ok (some changed.enterpriseId)) ∧
      (∀ name, name ≠ key ∨ ownColumn? entity name = none → changed.col name = row.col name) ∧
      ((ownColumn? entity key).isSome → key ≠ "enterprise_id" → changed.col key = value) := by
  unfold setAttr at set
  by_cases tenant : key = "enterprise_id"
  · simp only [if_pos tenant, except_bind_eq_ok] at set
    obtain ⟨bound, bind, set⟩ := set
    cases bound with
    | none => cases set
    | some enterpriseId =>
        obtain rfl := except_pure_eq_ok.mp set
        exact ⟨rfl, rfl, fun other => absurd tenant other, fun _ => bind, fun _ _ => rfl,
          fun _ other => absurd tenant other⟩
  · rw [if_neg tenant] at set
    by_cases own : (ownColumn? entity key).isSome
    · rw [if_pos own] at set
      obtain rfl := except_pure_eq_ok.mp set
      refine ⟨rfl, rfl, fun _ => rfl, fun same => absurd same tenant, fun name different => ?_,
        fun _ _ => Row.set_col_self ..⟩
      rcases different with different | foreign
      · exact Row.set_col_other _ _ different
      · refine Row.set_col_other _ _ ?_
        rintro rfl
        simp [foreign] at own
    · rw [if_neg own] at set
      obtain rfl := except_pure_eq_ok.mp set
      exact ⟨rfl, rfl, fun _ => rfl, fun same => absurd same tenant, fun _ _ => rfl,
        fun isOwn => absurd isOwn own⟩

/-- What assigning the attributes does: identity columns stay, the other columns
take the attribute of their name, and only `enterprise_id` moves the row. -/
structure Assigned (entity : Entity) (attrs : Dict Value) (row changed : Row) : Prop where
  id : changed.id = row.id
  created : changed.createdAt = row.createdAt
  identity : ∀ name ∈ (specs entity).identity, changed.col name = row.col name
  absent : ∀ name, attrs.lookup name = none → changed.col name = row.col name
  foreign : ∀ name, ownColumn? entity name = none → changed.col name = row.col name
  given : ∀ name value, name ∉ (specs entity).identity → (ownColumn? entity name).isSome →
    attrs.lookup name = some value → changed.col name = value
  sameEnterprise : attrs.lookup "enterprise_id" = none → changed.enterpriseId = row.enterpriseId
  otherEnterprise : ∀ value, attrs.lookup "enterprise_id" = some value →
    bindUuid "enterprise_id" value = .ok (some changed.enterpriseId)

theorem enterpriseId_not_identity (entity : Entity) : "enterprise_id" ∉ (specs entity).identity := by
  cases entity <;> decide

theorem enterpriseId_not_own (entity : Entity) : ownColumn? entity "enterprise_id" = none := by
  cases entity <;> decide

theorem Assigned.ownEnterprise {entity : Entity} {attrs : Dict Value} {row changed : Row} (assigned : Assigned entity attrs row changed)
    (own : ∀ value, attrs.lookup "enterprise_id" = some value → bindUuid "enterprise_id" value = .ok (some row.enterpriseId)) :
    changed.enterpriseId = row.enterpriseId := by
  cases given : attrs.lookup "enterprise_id" with
  | none => exact assigned.sameEnterprise given
  | some value => exact Option.some.inj (Except.ok.inj ((assigned.otherEnterprise value given).symm.trans (own value given)))

/-- The same for the entries still to be assigned. -/
structure AssignedEntries (entity : Entity) (entries : List (Sigma fun _ : String => Value))
    (row changed : Row) : Prop where
  id : changed.id = row.id
  created : changed.createdAt = row.createdAt
  identity : ∀ name ∈ (specs entity).identity, changed.col name = row.col name
  absent : ∀ name, name ∉ entries.map Sigma.fst → changed.col name = row.col name
  foreign : ∀ name, ownColumn? entity name = none → changed.col name = row.col name
  given : ∀ name value, name ∉ (specs entity).identity → (ownColumn? entity name).isSome →
    ⟨name, value⟩ ∈ entries → changed.col name = value
  sameEnterprise : "enterprise_id" ∉ entries.map Sigma.fst → changed.enterpriseId = row.enterpriseId
  otherEnterprise : ∀ value, ⟨"enterprise_id", value⟩ ∈ entries →
    bindUuid "enterprise_id" value = .ok (some changed.enterpriseId)

theorem assignEntry_ok {entity : Entity} {row changed : Row} {entry : Sigma fun _ : String => Value}
    (step : (if entry.1 ∈ (specs entity).identity then return row
      else setAttr entity row entry.1 entry.2 : Except Error Row) = .ok changed) :
    AssignedEntries entity [entry] row changed := by
  by_cases listed : entry.1 ∈ (specs entity).identity
  · rw [if_pos listed] at step
    obtain rfl := except_pure_eq_ok.mp step
    refine ⟨rfl, rfl, fun _ _ => rfl, fun _ _ => rfl, fun _ _ => rfl, ?_, fun _ => rfl, ?_⟩
    · intro name value free _ member
      obtain rfl := List.mem_singleton.mp member
      exact absurd listed free
    · intro value member
      obtain rfl := List.mem_singleton.mp member
      exact absurd listed (enterpriseId_not_identity entity)
  · rw [if_neg listed] at step
    obtain ⟨id, created, same, moved, others, own⟩ := setAttr_ok step
    refine ⟨id, created, ?_, ?_, fun name foreign => others name (.inr foreign), ?_, ?_, ?_⟩
    · intro name isIdentity
      exact others name (.inl fun equal => listed (equal ▸ isIdentity))
    · intro name outside
      exact others name (.inl fun equal => outside (by simp [equal]))
    · intro name value _ isOwn member
      obtain rfl := List.mem_singleton.mp member
      refine own isOwn fun tenant => ?_
      rw [show name = "enterprise_id" from tenant, enterpriseId_not_own] at isOwn
      cases isOwn
    · intro outside
      exact same fun equal => outside (by simp [equal])
    · intro value member
      obtain rfl := List.mem_singleton.mp member
      exact moved rfl

theorem AssignedEntries.cons {entity : Entity} {entry : Sigma fun _ : String => Value}
    {rest : List (Sigma fun _ : String => Value)} {row middle changed : Row}
    (fresh : entry.1 ∉ rest.map Sigma.fst) (head : AssignedEntries entity [entry] row middle)
    (tail : AssignedEntries entity rest middle changed) : AssignedEntries entity (entry :: rest) row changed := by
  refine ⟨tail.id.trans head.id, tail.created.trans head.created, ?_, ?_, ?_, ?_, ?_, ?_⟩
  · intro name listed
    exact (tail.identity name listed).trans (head.identity name listed)
  · intro name outside
    rw [List.map_cons, List.mem_cons, not_or] at outside
    exact (tail.absent name outside.2).trans (head.absent name (by simpa using outside.1))
  · intro name foreign
    exact (tail.foreign name foreign).trans (head.foreign name foreign)
  · intro name value free own member
    rcases List.mem_cons.mp member with rfl | member
    · exact (tail.absent name fresh).trans (head.given name value free own (by simp))
    · exact tail.given name value free own member
  · intro outside
    rw [List.map_cons, List.mem_cons, not_or] at outside
    exact (tail.sameEnterprise outside.2).trans (head.sameEnterprise (by simpa using outside.1))
  · intro value member
    rcases List.mem_cons.mp member with rfl | member
    · rw [tail.sameEnterprise fresh]
      exact head.otherEnterprise value (by simp)
    · exact tail.otherEnterprise value member

theorem assignEntries_ok {entity : Entity} {entries : List (Sigma fun _ : String => Value)}
    {row changed : Row} (distinct : (entries.map Sigma.fst).Nodup)
    (ran : entries.foldlM (fun row entry => (if entry.1 ∈ (specs entity).identity then return row
      else setAttr entity row entry.1 entry.2 : Except Error Row)) row = .ok changed) :
    AssignedEntries entity entries row changed := by
  induction entries generalizing row with
  | nil =>
      obtain rfl := except_pure_eq_ok.mp ran
      exact ⟨rfl, rfl, fun _ _ => rfl, fun _ _ => rfl, fun _ _ => rfl, by simp, fun _ => rfl, by simp⟩
  | cons entry rest ih =>
      rw [List.foldlM_cons] at ran
      obtain ⟨middle, first, ran⟩ := except_bind_eq_ok.mp ran
      obtain ⟨fresh, distinct⟩ := List.nodup_cons.mp distinct
      exact (assignEntry_ok first).cons fresh (ih distinct ran)

theorem assignAttrs_ok {entity : Entity} {row changed : Row} {attrs : Dict Value}
    (ran : assignAttrs entity row attrs = .ok changed) : Assigned entity attrs row changed := by
  have entries := assignEntries_ok attrs.nodupKeys ran
  have missing (name : String) (none : attrs.lookup name = none) : name ∉ attrs.entries.map Sigma.fst :=
    AList.lookup_eq_none.mp none
  refine ⟨entries.id, entries.created, entries.identity, fun name none => entries.absent name (missing name none),
    entries.foreign, fun name value free own found => entries.given name value free own (Dict.lookup_eq_some_iff.mp found),
    fun none => entries.sameEnterprise (missing _ none),
    fun value found => entries.otherEnterprise value (Dict.lookup_eq_some_iff.mp found)⟩

end SmartProcurement.Integration
