import SmartProcurement.Integration.Merging
import SmartProcurement.Integration.Naming

namespace SmartProcurement.Integration

open Relational Transaction

/-! # Renamed ids

Two runs give the rows that they create different ids, and rows refer to each other
by id.  What a run makes of records is the same up to such a renaming.
-/

/-- New ids for the rows of an entity. -/
abbrev Renaming := Entity → Uuid → Uuid

/-- The entity that the column refers to. -/
def references? (entity : Entity) (name : String) : Option Entity := (ownColumn? entity name).bind (·.references)

namespace Renaming

def column (rename : Renaming) (entity : Entity) (name : String) (value : Value) : Value :=
  match references? entity name, value with
  | some target, .uuid id => .uuid (rename target id)
  | _, value => value

def attributes (rename : Renaming) (entity : Entity) (columns : Attributes) : Attributes := fun name =>
  rename.column entity name (columns name)

def identity (rename : Renaming) (entity : Entity) (identity : Identity) : Identity :=
  (identity.1, List.zipWith (rename.column entity) (specs entity).identity identity.2)

variable {rename : Renaming} {entity : Entity} {name : String} {value : Value}

theorem column_of_plain (plain : references? entity name = none) : rename.column entity name value = value := by
  unfold column
  rw [plain]

@[simp] theorem column_null : rename.column entity name .null = .null := by
  unfold column
  cases references? entity name <;> rfl

theorem identity_map (enterpriseId : Uuid) (columns : Attributes) :
    rename.identity entity (enterpriseId, (specs entity).identity.map columns) =
      (enterpriseId, (specs entity).identity.map (rename.attributes entity columns)) := by
  unfold identity attributes
  rw [List.zipWith_map_right, List.zipWith_self]

theorem identity_of (row : Row) : rename.identity entity (identityOf entity row) =
    (row.enterpriseId, (specs entity).identity.map (rename.attributes entity row.col)) := identity_map _ _

end Renaming

theorem references?_default {entity : Entity} {name : String} {target : Entity} {column : Column}
    (references : references? entity name = some target) (own : ownColumn? entity name = some column) :
    column.type = .uuid ∧ column.default = none := by
  have facts : ∀ column ∈ ownColumns entity, column.references.isSome → column.type = .uuid ∧ column.default = none := by
    cases entity <;> decide
  rw [references?, own, Option.bind_some] at references
  exact facts column (ownColumn?_some own).1 (by rw [references]; rfl)

/-- The second record is the first one with other ids. -/
structure Renamed (rename : Renaming) (first second : Accepted) : Prop where
  entity : second.entity = first.entity
  enterprise : second.enterpriseId = first.enterpriseId
  attrs : ∀ name, Option.Rel (fun value other => (value = .null ↔ other = .null) ∧
    ∀ column, ownColumn? first.entity name = some column →
      column.type.stored other = rename.column first.entity name (column.type.stored value))
    (first.attrs.lookup name) (second.attrs.lookup name)

namespace Renamed

variable {rename : Renaming} {first second : Accepted}

theorem tidied (renamed : Renamed rename first second) : Renamed rename first.tidied second.tidied := by
  refine ⟨renamed.entity, renamed.enterprise, fun name => ?_⟩
  rw [Accepted.lookup_tidied, Accepted.lookup_tidied, renamed.entity]
  have attrs := renamed.attrs name
  generalize first.attrs.lookup name = given, second.attrs.lookup name = other at attrs
  cases attrs with
  | none => exact .none
  | @some value other related =>
      rw [Option.bind_some, Option.bind_some]
      by_cases dropped : value = .null ∧ Accepted.Defaulted first.entity name
      · rw [if_pos dropped, if_pos ⟨related.1.mp dropped.1, dropped.2⟩]
        exact .none
      · rw [if_neg dropped, if_neg fun both => dropped ⟨related.1.mpr both.1, both.2⟩]
        exact .some related

theorem identity (renamed : Renamed rename first second) :
    second.identity = rename.identity first.entity first.identity := by
  have columns : first.identity = (first.enterpriseId, (specs first.entity).identity.map fun name =>
    ((columnType? first.entity name).getD .uuid).stored ((first.attrs.lookup name).getD .null)) := rfl
  rw [columns, Renaming.identity_map]
  unfold Accepted.identity
  rw [renamed.entity]
  refine Prod.ext renamed.enterprise (List.map_congr_left fun name listed => ?_)
  obtain ⟨column, own, _, type⟩ := identity_column listed
  have attrs := renamed.attrs name
  dsimp only [Renaming.attributes]
  rw [type, Option.getD_some]
  generalize first.attrs.lookup name = given, second.attrs.lookup name = other at attrs
  cases attrs with
  | none => exact Renaming.column_null.symm
  | some related => exact related.2 column own

theorem inserted (renamed : Renamed rename first second) :
    second.inserted = rename.attributes first.entity first.inserted := by
  funext name
  dsimp only [Accepted.inserted, Renaming.attributes]
  rw [renamed.entity]
  cases own : ownColumn? first.entity name with
  | none => exact Renaming.column_null.symm
  | some column =>
      have defaults : column.type.stored (column.default.getD .null) =
          rename.column first.entity name (column.type.stored (column.default.getD .null)) := by
        cases references : references? first.entity name with
        | none => exact (Renaming.column_of_plain references).symm
        | some target =>
            rw [(references?_default references own).2]
            exact Renaming.column_null.symm
      have attrs := renamed.attrs name
      dsimp only
      generalize first.attrs.lookup name = given, second.attrs.lookup name = other at attrs
      cases attrs with
      | none => exact defaults
      | @some value other related =>
          by_cases null : value = .null
          · obtain rfl := related.1.mp null
            rw [null]
            exact defaults
          · have filled : other ≠ .null := fun same => null (related.1.mpr same)
            split
            · next same => cases same
            · next same => exact absurd (Option.some.inj same) filled
            · next other same =>
              cases same
              exact related.2 column own

theorem overridden (renamed : Renamed rename first second) (old : Attributes) :
    second.overridden (rename.attributes first.entity old) = rename.attributes first.entity (first.overridden old) := by
  funext name
  dsimp only [Accepted.overridden, Renaming.attributes]
  rw [renamed.entity]
  by_cases listed : name ∈ (specs first.entity).identity
  · rw [if_pos listed, if_pos listed]
  · rw [if_neg listed, if_neg listed]
    cases own : ownColumn? first.entity name with
    | none => rfl
    | some column =>
        have attrs := renamed.attrs name
        generalize first.attrs.lookup name = given, second.attrs.lookup name = other at attrs
        cases attrs with
        | none => rfl
        | some related => exact related.2 column own

theorem applied (renamed : Renamed rename first second) (old : Option Attributes) :
    second.applied (old.map (rename.attributes first.entity)) = rename.attributes first.entity (first.applied old) := by
  cases old with
  | none => exact renamed.inserted
  | some old => exact renamed.overridden old

end Renamed

/-! ## Maps -/

/-- One entity of a canonical map. -/
abbrev EntityMap := Identity → Option Attributes

/-- The second map is the first one with other ids; `known` are the identities whose
renaming can be undone. -/
structure MapRenamed (rename : Renaming) (entity : Entity) (known : Identity → Prop) (first second : EntityMap) : Prop where
  same : ∀ identity, known identity →
    second (rename.identity entity identity) = (first identity).map (rename.attributes entity)
  within : ∀ identity, first identity ≠ none → known identity
  onto : ∀ identity, second identity ≠ none → ∃ source, known source ∧ rename.identity entity source = identity

theorem MapRenamed.supply {rename : Renaming} {entity : Entity} {known : Identity → Prop} {map other : CanonicalMap}
    {first second : Accepted} (maps : MapRenamed rename entity known (map entity) (other entity))
    (injective : ∀ identity, known identity → ∀ source, known source →
      rename.identity entity identity = rename.identity entity source → identity = source)
    (own : first.entity = entity) (isKnown : known first.identity) (renamed : Renamed rename first second) :
    MapRenamed rename entity known (map.supply first entity) (other.supply second entity) := by
  have sameEntity := renamed.entity
  subst own
  have identity := renamed.identity
  constructor
  · intro source sourceKnown
    rw [CanonicalMap.supply_apply, CanonicalMap.supply_apply, sameEntity, identity]
    by_cases hit : source = first.identity
    · subst hit
      rw [if_pos ⟨rfl, rfl⟩, if_pos ⟨rfl, rfl⟩, maps.same _ sourceKnown, renamed.applied]
      rfl
    · have different : rename.identity first.entity source ≠ rename.identity first.entity first.identity :=
        fun same => hit (injective source sourceKnown _ isKnown same)
      rw [if_neg fun both => different both.2, if_neg fun both => hit both.2]
      exact maps.same source sourceKnown
  · intro source found
    rw [CanonicalMap.supply_apply] at found
    by_cases hit : source = first.identity
    · exact hit ▸ isKnown
    · rw [if_neg fun both => hit both.2] at found
      exact maps.within source found
  · intro target found
    rw [CanonicalMap.supply_apply, sameEntity, identity] at found
    by_cases hit : target = rename.identity first.entity first.identity
    · exact ⟨first.identity, isKnown, hit.symm⟩
    · rw [if_neg fun both => hit both.2] at found
      exact maps.onto target found

/-! ## Accepted records -/

theorem references?_suffix {entity target : Entity} {name : String} (references : references? entity name = some target) :
    endsWithId name = true := by
  have facts : ∀ column ∈ ownColumns entity, column.references.isSome → endsWithId column.name = true := by
    cases entity <;> decide
  obtain ⟨column, own, isTarget⟩ := Option.bind_eq_some_iff.mp references
  obtain ⟨listed, rfl⟩ := ownColumn?_some own
  exact facts column listed (by rw [isTarget]; rfl)

theorem references?_foreignKey {entity : Entity} {reference : Reference} (listed : reference ∈ (specs entity).refs) :
    references? entity (foreignKey reference.target) = some reference.target := by
  have facts : ∀ reference ∈ (specs entity).refs, references? entity (foreignKey reference.target) = some reference.target := by
    cases entity <;> decide
  exact facts reference listed

/-- The id that the attribute spells out, if it is one, is not renamed. -/
def Fixes (rename : Renaming) (entity : Entity) (name : String) (raw : Raw) : Prop :=
  ∀ column, ownColumn? entity name = some column →
    rename.column entity name (column.type.stored (.ofRaw raw)) = column.type.stored (.ofRaw raw)

/-- The same attributes but for the ids of resolved references. -/
def RawRenamed (rename : Renaming) (entity : Entity) (first second : Dict Raw) : Prop :=
  ∀ name, (first.lookup name = second.lookup name ∧
      ∀ raw, first.lookup name = some raw → endsWithId name = true → Fixes rename entity name raw) ∨
    ∃ reference ∈ (specs entity).refs, ∃ id, name = foreignKey reference.target ∧
      first.lookup name = some (.uuid id) ∧ second.lookup name = some (.uuid (rename reference.target id))

section Accepting

variable {rename : Renaming} {entity : Entity} {first second attrs : Dict Raw} {names others : Naming} {enterpriseId : Uuid}

theorem RawRenamed.insert (renamed : RawRenamed rename entity first second) {reference : Reference}
    (listed : reference ∈ (specs entity).refs) (id : Uuid) :
    RawRenamed rename entity (AList.insert (foreignKey reference.target) (.uuid id) first)
      (AList.insert (foreignKey reference.target) (.uuid (rename reference.target id)) second) := by
  intro name
  by_cases hit : name = foreignKey reference.target
  · subst hit
    exact .inr ⟨reference, listed, id, rfl, AList.lookup_insert _, AList.lookup_insert _⟩
  · rw [AList.lookup_insert_ne hit, AList.lookup_insert_ne hit]
    exact renamed name

theorem RawRenamed.lacksIdentity (renamed : RawRenamed rename entity first second) :
    Integration.lacksIdentity entity first = Integration.lacksIdentity entity second := by
  unfold Integration.lacksIdentity
  congr 1
  funext name
  rcases renamed name with ⟨same, _⟩ | ⟨reference, _, id, _, given, otherGiven⟩
  · rw [same]
  · rw [given, otherGiven]
    rfl

theorem RawRenamed.coerced (renamed : RawRenamed rename entity first second) :
    Renamed rename ⟨entity, enterpriseId, coerced entity first⟩ ⟨entity, enterpriseId, coerced entity second⟩ := by
  refine ⟨rfl, rfl, fun name => ?_⟩
  change Option.Rel _ ((Integration.coerced entity first).lookup name) ((Integration.coerced entity second).lookup name)
  rw [lookup_coerced, lookup_coerced]
  rcases renamed name with ⟨same, fixed⟩ | ⟨reference, listed, id, rfl, given, otherGiven⟩
  · rw [← same]
    cases given : ((first.lookup name).bind (coerceAttr entity name)).or
        (if name ∈ (specs entity).identity then some .null else none) with
    | none => exact .none
    | some value =>
        refine .some ⟨Iff.rfl, fun column own => ?_⟩
        cases references : references? entity name with
        | none => exact (Renaming.column_of_plain references).symm
        | some target =>
            have suffix := references?_suffix references
            cases found : first.lookup name with
            | none =>
                rw [found, Option.bind_none, Option.none_or] at given
                split at given
                · obtain rfl := Option.some.inj given
                  exact Renaming.column_null.symm
                · cases given
            | some raw =>
                rw [found, Option.bind_some, coerceAttr_of_endsWithId suffix, Option.some_or] at given
                obtain rfl := Option.some.inj given
                exact (fixed raw found suffix column own).symm
  · obtain ⟨column, key⟩ := foreignKey_column listed
    rw [given, otherGiven, Option.bind_some, Option.bind_some, coerceAttr_of_endsWithId key.suffix,
      coerceAttr_of_endsWithId key.suffix]
    refine .some ⟨⟨nofun, nofun⟩, fun column own => ?_⟩
    have references := references?_foreignKey listed
    obtain ⟨type, _⟩ := references?_default references own
    rw [type]
    unfold Renaming.column
    rw [references]
    rfl

theorem resolveBy_renamed (renames : ∀ reference ∈ (specs entity).refs, ∀ key,
      others reference.target key = (names reference.target key).map (rename reference.target))
    (fixed : ∀ name raw, attrs.lookup name = some raw → endsWithId name = true → Fixes rename entity name raw) :
    Option.Rel (RawRenamed rename entity) (resolveBy names entity attrs) (resolveBy others entity attrs) := by
  have step (reference : Reference) (listed : reference ∈ (specs entity).refs) (resolved counterpart : Option (Dict Raw))
      (renamed : Option.Rel (RawRenamed rename entity) resolved counterpart) : Option.Rel (RawRenamed rename entity)
        (resolveOneBy names entity attrs resolved reference) (resolveOneBy others entity attrs counterpart reference) := by
    cases renamed with
    | none => exact .none
    | some renamed =>
        unfold resolveOneBy
        rw [Option.bind_some, Option.bind_some]
        cases attrs.lookup reference.attr with
        | none => exact .some renamed
        | some raw =>
            dsimp only
            split
            · exact .some renamed
            · rw [renames reference listed]
              cases names reference.target raw.str with
              | some id => exact .some (renamed.insert listed id)
              | none =>
                  dsimp only [Option.map_none]
                  split
                  · exact .none
                  · exact .some renamed
  have folds : ∀ (list : List Reference) (resolved counterpart : Option (Dict Raw)),
      (∀ reference ∈ list, reference ∈ (specs entity).refs) →
      Option.Rel (RawRenamed rename entity) resolved counterpart → Option.Rel (RawRenamed rename entity)
        (list.foldl (resolveOneBy names entity attrs) resolved) (list.foldl (resolveOneBy others entity attrs) counterpart) := by
    intro list
    induction list with
    | nil => exact fun _ _ _ renamed => renamed
    | cons reference rest ih =>
        intro resolved counterpart listed renamed
        exact ih _ _ (fun other member => listed other (List.mem_cons_of_mem _ member))
          (step reference (listed reference List.mem_cons_self) resolved counterpart renamed)
  refine folds _ _ _ (fun _ => id) (.some fun name => .inl ⟨rfl, fun raw given suffix => ?_⟩)
  rw [Dict.restrict, Dict.lookup_filterMap, Option.bind_eq_some_iff] at given
  obtain ⟨other, found, kept⟩ := given
  split at kept
  · exact fixed name raw (found.trans kept) suffix
  · cases kept

theorem acceptBy_renamed {mappings : List FieldMapping} {next : Entity × Record}
    (renames : ∀ reference ∈ (specs next.1).refs, ∀ key,
      others reference.target key = (names reference.target key).map (rename reference.target))
    (fixed : ∀ attrs, extract next.2 (mappingsOf mappings next.1) = .ok attrs → ∀ name raw, attrs.lookup name = some raw →
      endsWithId name = true → Fixes rename next.1 name raw) :
    Option.Rel (Renamed rename) (acceptBy names enterpriseId mappings next) (acceptBy others enterpriseId mappings next) := by
  unfold acceptBy
  cases extracted : extract next.2 (mappingsOf mappings next.1) with
  | error reason => exact .none
  | ok attrs =>
      dsimp only
      split
      · exact .none
      · have resolved : Option.Rel (RawRenamed rename next.1) (resolveBy names next.1 attrs) (resolveBy others next.1 attrs) :=
          resolveBy_renamed renames (fixed attrs extracted)
        generalize resolveBy names next.1 attrs = first, resolveBy others next.1 attrs = second at resolved
        cases resolved with
        | none => exact .none
        | some renamed =>
            dsimp only
            rw [renamed.lacksIdentity]
            split
            · exact .none
            · exact .some renamed.coerced

end Accepting

end SmartProcurement.Integration
