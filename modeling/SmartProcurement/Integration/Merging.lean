import SmartProcurement.Integration.FiniteMap
import SmartProcurement.Integration.StoredRows
import SmartProcurement.Integration.Traces

namespace SmartProcurement.Integration

open Relational Transaction

/-! # Records of one row

Records with one identity make one row.  If they agree on what they both supply the
row does not depend on their order: a new row takes defaults, but no record can put a
null in the place of one.
-/

namespace Accepted

/-- The row that the record makes of the one with its identity, if there is one. -/
def applied (accepted : Accepted) : Option Attributes → Attributes
  | none => accepted.inserted
  | some old => accepted.overridden old

def Defaulted (entity : Entity) (name : String) : Prop := ((ownColumn? entity name).bind (·.default)).isSome = true

instance (entity : Entity) (name : String) : Decidable (Defaulted entity name) := inferInstanceAs (Decidable (_ = _))

/-- The record without its nulls for columns that have a default. -/
def tidied (accepted : Accepted) : Accepted :=
  { accepted with
    attrs := accepted.attrs.filterMap fun name value =>
      if value = .null ∧ Defaulted accepted.entity name then none else some value }

def Tidy (accepted : Accepted) : Prop :=
  ∀ name, Defaulted accepted.entity name → accepted.attrs.lookup name ≠ some .null

/-- Whatever both records supply is the same. -/
def Agree (first second : Accepted) : Prop :=
  ∀ name value other, first.attrs.lookup name = some value → second.attrs.lookup name = some other → value = other

instance (first second : Accepted) : Decidable (Agree first second) :=
  decidable_of_iff (∀ name ∈ first.attrs.keys,
      second.attrs.lookup name = none ∨ second.attrs.lookup name = first.attrs.lookup name) <| by
    constructor
    · intro agree name value other given otherGiven
      have listed : name ∈ first.attrs.keys := AList.mem_keys.mp (AList.lookup_isSome.mp (by rw [given]; rfl))
      rcases agree name listed with missing | same
      · cases missing.symm.trans otherGiven
      · exact Option.some.inj (given.symm.trans (same.symm.trans otherGiven))
    · intro agree name listed
      obtain ⟨value, given⟩ := Option.isSome_iff_exists.mp (AList.lookup_isSome.mpr (AList.mem_keys.mpr listed))
      cases otherGiven : second.attrs.lookup name with
      | none => exact .inl rfl
      | some other => exact .inr (by rw [given, agree name value other given otherGiven])

variable {accepted first second : Accepted} {name : String} {column : Column}

theorem lookup_tidied (accepted : Accepted) (name : String) : accepted.tidied.attrs.lookup name =
    (accepted.attrs.lookup name).bind fun value =>
      if value = .null ∧ Defaulted accepted.entity name then none else some value :=
  Dict.lookup_filterMap _ _ _

theorem lookup_tidied_of_not_defaulted (free : ¬ Defaulted accepted.entity name) :
    accepted.tidied.attrs.lookup name = accepted.attrs.lookup name := by
  rw [lookup_tidied]
  simp [free]

theorem tidied_tidy (accepted : Accepted) : accepted.tidied.Tidy := by
  intro name defaulted found
  rw [lookup_tidied, Option.bind_eq_some_iff] at found
  obtain ⟨value, _, kept⟩ := found
  split at kept
  · cases kept
  · next filled => exact filled ⟨Option.some.inj kept, defaulted⟩

theorem not_defaulted_of_identity {entity : Entity} (listed : name ∈ (specs entity).identity) : ¬ Defaulted entity name := by
  obtain ⟨column, own, default, _⟩ := identity_column listed
  simp [Defaulted, own, default]

@[simp] theorem tidied_identity (accepted : Accepted) : accepted.tidied.identity = accepted.identity := by
  refine Prod.ext rfl (List.map_congr_left fun name listed => ?_)
  have same : accepted.tidied.attrs.lookup name = accepted.attrs.lookup name :=
    lookup_tidied_of_not_defaulted (not_defaulted_of_identity listed)
  rw [same]
  rfl

@[simp] theorem tidied_inserted (accepted : Accepted) : accepted.tidied.inserted = accepted.inserted := by
  funext name
  unfold inserted
  rw [lookup_tidied]
  have same : accepted.tidied.entity = accepted.entity := rfl
  rw [same]
  cases own : ownColumn? accepted.entity name with
  | none => rfl
  | some column =>
      cases given : accepted.attrs.lookup name with
      | none => rfl
      | some value =>
          dsimp only [Option.bind_some]
          by_cases null : value = .null ∧ Defaulted accepted.entity name
          · rw [if_pos null, null.1]
          · rw [if_neg null]

theorem Tidy.lookup_tidied (tidy : accepted.Tidy) (name : String) :
    accepted.tidied.attrs.lookup name = accepted.attrs.lookup name := by
  rw [Accepted.lookup_tidied]
  cases given : accepted.attrs.lookup name with
  | none => rfl
  | some value =>
      rw [Option.bind_some, if_neg]
      rintro ⟨rfl, defaulted⟩
      exact tidy name defaulted given

theorem Tidy.overridden_tidied (tidy : accepted.Tidy) (old : Attributes) :
    accepted.tidied.overridden old = accepted.overridden old := by
  funext name
  unfold overridden
  rw [tidy.lookup_tidied]
  rfl

theorem Agree.tidied (agree : Agree first second) : Agree first.tidied second.tidied := by
  intro name value other given otherGiven
  rw [lookup_tidied, Option.bind_eq_some_iff] at given otherGiven
  obtain ⟨before, found, kept⟩ := given
  obtain ⟨otherBefore, otherFound, otherKept⟩ := otherGiven
  have same := agree name before otherBefore found otherFound
  split at kept
  · cases kept
  · split at otherKept
    · cases otherKept
    · rw [← Option.some.inj kept, ← Option.some.inj otherKept, same]

theorem inserted_identity_col (identity : second.identity = first.identity) (entity : second.entity = first.entity)
    (listed : name ∈ (specs first.entity).identity) : second.inserted name = first.inserted name := by
  have same := congrArg Prod.snd identity
  rw [← inserted_identity, ← inserted_identity, entity] at same
  exact List.map_inj_left.mp same name listed

theorem Tidy.inserted_col (tidy : accepted.Tidy) (own : ownColumn? accepted.entity name = some column) :
    accepted.inserted name = column.type.stored ((accepted.attrs.lookup name).getD (column.default.getD .null)) := by
  unfold inserted
  simp only [own]
  cases given : accepted.attrs.lookup name with
  | none => rfl
  | some value =>
      cases value with
      | null =>
          cases default : column.default with
          | none => rfl
          | some default =>
              have defaulted : Defaulted accepted.entity name := by simp [Defaulted, own, default]
              exact absurd given (tidy name defaulted)
      | _ => rfl

theorem overridden_col (own : ownColumn? accepted.entity name = some column) (free : name ∉ (specs accepted.entity).identity)
    (old : Attributes) :
    accepted.overridden old name = ((accepted.attrs.lookup name).map column.type.stored).getD (old name) := by
  unfold overridden
  rw [if_neg free, own]
  cases accepted.attrs.lookup name <;> rfl

theorem applied_col {value : Value} (own : ownColumn? accepted.entity name = some column)
    (free : name ∉ (specs accepted.entity).identity) (given : accepted.attrs.lookup name = some value) (filled : value ≠ .null)
    (old : Option Attributes) : accepted.applied old name = column.type.stored value := by
  cases old with
  | none =>
      change accepted.inserted name = _
      unfold inserted
      rw [own, given]
      cases value with
      | null => exact absurd rfl filled
      | _ => rfl
  | some old =>
      change accepted.overridden old name = _
      rw [overridden_col own free, given]
      rfl

/-- Records of one row that agree may come in any order. -/
theorem Agree.applied_comm (agree : Agree first second) (entity : second.entity = first.entity)
    (identity : second.identity = first.identity) (firstTidy : first.Tidy) (secondTidy : second.Tidy) (old : Option Attributes) :
    second.applied (some (first.applied old)) = first.applied (some (second.applied old)) := by
  funext name
  change second.overridden (first.applied old) name = first.overridden (second.applied old) name
  by_cases listed : name ∈ (specs first.entity).identity
  · have keeps (accepted : Accepted) (same : accepted.entity = first.entity) (row : Attributes) :
        accepted.overridden row name = row name := by
      unfold overridden
      rw [same, if_pos listed]
    rw [keeps second entity, keeps first rfl]
    cases old with
    | none => exact (inserted_identity_col identity entity listed).symm
    | some old => exact (keeps first rfl old).trans (keeps second entity old).symm
  · cases own : ownColumn? first.entity name with
    | none =>
        have keeps (accepted : Accepted) (same : accepted.entity = first.entity) (row : Attributes) :
            accepted.overridden row name = row name := by
          unfold overridden
          rw [same, if_neg listed, own]
        have nothing (accepted : Accepted) (same : accepted.entity = first.entity) : accepted.inserted name = .null := by
          unfold inserted
          rw [same, own]
        rw [keeps second entity, keeps first rfl]
        cases old with
        | none => exact (nothing first rfl).trans (nothing second entity).symm
        | some old => exact (keeps first rfl old).trans (keeps second entity old).symm
    | some column =>
        have ownSecond : ownColumn? second.entity name = some column := entity ▸ own
        have listedSecond : name ∉ (specs second.entity).identity := entity ▸ listed
        have same (start : Value) :
            ((second.attrs.lookup name).map column.type.stored).getD
              (((first.attrs.lookup name).map column.type.stored).getD start) =
              ((first.attrs.lookup name).map column.type.stored).getD
                (((second.attrs.lookup name).map column.type.stored).getD start) := by
          cases given : first.attrs.lookup name with
          | none => rfl
          | some value =>
              cases otherGiven : second.attrs.lookup name with
              | none => rfl
              | some other => rw [agree name value other given otherGiven]
        have applied (accepted : Accepted) (tidy : accepted.Tidy) (own : ownColumn? accepted.entity name = some column)
            (free : name ∉ (specs accepted.entity).identity) : accepted.applied old name =
              ((accepted.attrs.lookup name).map column.type.stored).getD
                ((old.map (· name)).getD (column.type.stored (column.default.getD .null))) := by
          cases old with
          | none =>
              change accepted.inserted name = _
              rw [tidy.inserted_col own]
              cases accepted.attrs.lookup name <;> rfl
          | some old => exact overridden_col own free old
        rw [overridden_col ownSecond listedSecond, overridden_col own listed, applied first firstTidy own listed,
          applied second secondTidy ownSecond listedSecond, same]

/-- Records of the same row agree. -/
def Agreeing (records : List Accepted) : Prop :=
  ∀ accepted ∈ records, ∀ other ∈ records, other.entity = accepted.entity → other.identity = accepted.identity →
    accepted.Agree other

instance (records : List Accepted) : Decidable (Agreeing records) := inferInstanceAs (Decidable (∀ accepted ∈ records, _))

theorem tidy_of_mem_tidied {records : List Accepted} : ∀ record ∈ records.map tidied, record.Tidy := by
  intro record member
  obtain ⟨accepted, _, rfl⟩ := List.mem_map.mp member
  exact accepted.tidied_tidy

theorem Agreeing.tidied {records : List Accepted} (agreeing : Agreeing records) : Agreeing (records.map Accepted.tidied) := by
  intro record member other otherMember entity identity
  obtain ⟨accepted, isAccepted, rfl⟩ := List.mem_map.mp member
  obtain ⟨otherAccepted, otherIsAccepted, rfl⟩ := List.mem_map.mp otherMember
  rw [tidied_identity, tidied_identity] at identity
  exact (agreeing accepted isAccepted otherAccepted otherIsAccepted entity identity).tidied

end Accepted

/-! ## Maps -/

namespace CanonicalMap

variable {map : CanonicalMap} {first second : Accepted} {entity : Entity} {identity : Identity}

theorem supply_apply (map : CanonicalMap) (accepted : Accepted) (entity : Entity) (identity : Identity) :
    map.supply accepted entity identity =
      if entity = accepted.entity ∧ identity = accepted.identity then some (accepted.applied (map entity identity))
      else map entity identity := by
  unfold supply
  by_cases own : entity = accepted.entity
  · subst own
    rw [Function.update_self]
    by_cases same : identity = accepted.identity
    · subst same
      rw [Function.update_self, if_pos ⟨rfl, rfl⟩]
      cases map accepted.entity accepted.identity <;> rfl
    · rw [Function.update_of_ne same, if_neg fun both => same both.2]
  · rw [Function.update_of_ne own, if_neg fun both => own both.1]

theorem supply_tidied (accepted : Accepted)
    (harmless : map accepted.entity accepted.identity = none ∨ accepted.Tidy) :
    map.supply accepted.tidied = map.supply accepted := by
  have applied : accepted.tidied.applied (map accepted.entity accepted.identity) =
      accepted.applied (map accepted.entity accepted.identity) := by
    cases found : map accepted.entity accepted.identity with
    | none => exact accepted.tidied_inserted
    | some old =>
        rw [found] at harmless
        exact (harmless.resolve_left nofun).overridden_tidied old
  funext entity identity
  rw [supply_apply, supply_apply, Accepted.tidied_identity]
  by_cases hit : entity = accepted.entity ∧ identity = accepted.identity
  · obtain ⟨rfl, rfl⟩ := hit
    rw [if_pos ⟨rfl, rfl⟩, if_pos ⟨rfl, rfl⟩, applied]
  · exact (if_neg hit).trans (if_neg hit).symm

theorem supply_comm (map : CanonicalMap) (firstTidy : first.Tidy) (secondTidy : second.Tidy)
    (agree : second.entity = first.entity → second.identity = first.identity → first.Agree second) :
    (map.supply first).supply second = (map.supply second).supply first := by
  funext entity identity
  simp only [supply_apply]
  by_cases hit : entity = first.entity ∧ identity = first.identity
  · by_cases otherHit : entity = second.entity ∧ identity = second.identity
    · have sameEntity := otherHit.1.symm.trans hit.1
      have sameIdentity := otherHit.2.symm.trans hit.2
      rw [if_pos otherHit, if_pos hit, if_pos hit, if_pos otherHit,
        (agree sameEntity sameIdentity).applied_comm sameEntity sameIdentity firstTidy secondTidy]
    · rw [if_neg otherHit, if_pos hit, if_pos hit, if_neg otherHit]
  · rw [if_neg hit, if_neg hit]

/-- Records that agree make the same map in any order. -/
theorem supply_perm {records others : List Accepted} (reordered : records.Perm others) (tidy : ∀ record ∈ records, record.Tidy)
    (agreeing : Accepted.Agreeing records) (map : CanonicalMap) : records.foldl supply map = others.foldl supply map :=
  reordered.foldl_eq' (fun first member second other map =>
    supply_comm map (tidy first member) (tidy second other) (agreeing first member second other)) map

/-- Whatever the order, a record that agrees with the others could have come last. -/
theorem foldl_supply_last {records : List Accepted} {record : Accepted} (member : record ∈ records)
    (tidy : ∀ record ∈ records, record.Tidy) (agreeing : Accepted.Agreeing records) (map : CanonicalMap) :
    ∃ old, records.foldl supply map record.entity record.identity = some (record.applied old) := by
  obtain ⟨early, late, rfl⟩ := List.append_of_mem member
  have reordered : (early ++ record :: late).Perm ((early ++ late) ++ [record]) :=
    List.perm_middle.trans (List.perm_append_singleton record _).symm
  rw [supply_perm reordered tidy agreeing, List.foldl_append, List.foldl_cons, List.foldl_nil, supply_apply, if_pos ⟨rfl, rfl⟩]
  exact ⟨_, rfl⟩

end CanonicalMap

/-! ## Runs -/

section Runs

variable {context : SyncContext} {mappings : List FieldMapping} {before after db : DB} {entity : Entity} {resolved : Dict Raw}
variable {provenance : Provenance} {signal : Option ObservationSignal} {progress later : Progress}
  {rest : List (Entity × Record)}

/-- A null for a column with a default is written nowhere but into a new row. -/
theorem Upserted.tidy (step : Upserted context entity resolved provenance before signal after) :
    mapOf before entity (Accepted.identity ⟨entity, context.enterpriseId, coerced entity resolved⟩) = none ∨
      Accepted.Tidy ⟨entity, context.enterpriseId, coerced entity resolved⟩ := by
  cases step with
  | @inserted identity row stored identified missing _ _ =>
      refine .inl (Option.map_eq_none_iff.mpr (identified?_eq_none_iff.mpr fun row member has => ?_))
      exact absurd ((hasIdentity_iff identified).mpr (Option.some.inj has)) (List.filter_eq_nil_iff.mp missing row member)
  | @updated identity existing changed stored _ middle identified only diffed assigned kept =>
      refine .inr fun name defaulted given => ?_
      obtain ⟨default, found⟩ := Option.isSome_iff_exists.mp defaulted
      obtain ⟨column, own, isDefault⟩ := Option.bind_eq_some_iff.mp found
      obtain ⟨listed, rfl⟩ := ownColumn?_some own
      have free : column.name ∉ (specs entity).identity := fun isIdentity => Accepted.not_defaulted_of_identity isIdentity defaulted
      have null := (assignAttrs_ok assigned).given column.name .null free (by rw [own]; rfl) given
      have bound := (storeRow_ok kept).2.2.1 column listed
      change column.type.bind column.name (changed.col column.name) = _ at bound
      rw [null] at bound
      have stores : stored.col column.name = .null := (Except.ok.inj bound).symm
      have filled := (storeRow_admitted kept column listed).filled
      rw [stores, default_filled listed (by rw [isDefault]; rfl)] at filled
      cases filled rfl

theorem acceptedAlong_tidied
    (own : ∀ accepted ∈ acceptedAlong context mappings rest progress before, accepted.OwnTenant) (mapped : Mapped before)
    (ran : rest.foldlM (syncNext context mappings) progress before = .ok later db) :
    mapOf db = ((acceptedAlong context mappings rest progress before).map Accepted.tidied).foldl CanonicalMap.supply
      (mapOf before) := by
  induction rest generalizing progress before with
  | nil =>
      obtain ⟨_, rfl⟩ := pure_eq_ok.mp ran
      rfl
  | cons next rest ih =>
      rw [List.foldlM_cons] at ran
      obtain ⟨middle, after, first, restRan⟩ := bind_eq_ok.mp ran
      rw [acceptedAlong_cons first] at own ⊢
      have rest := fun accepted member => own accepted (List.mem_append_right _ member)
      rcases syncNext_upserted first with ⟨none, rfl⟩ | ⟨resolved, signal, accepts, stored⟩
      · rw [none]
        exact ih rest mapped restRan
      · obtain ⟨table, others⟩ := stored.supplied
        obtain ⟨mapped, same⟩ := SuppliedTo.mapped ⟨table, others⟩ mapped
          (own _ (List.mem_append_left _ (Option.mem_toList.mpr accepts)))
        rw [accepts, Option.toList_some, List.singleton_append, List.map_cons, List.foldl_cons,
          CanonicalMap.supply_tidied _ stored.tidy, ← same]
        exact ih rest mapped restRan

end Runs

end SmartProcurement.Integration
