import SmartProcurement.Integration.SyncSteps

namespace SmartProcurement.Integration

open Relational Transaction

/-! # Resolved references

A reference is resolved to a master row of the enterprise with the natural key
that the record names; the cache of a run only ever repeats such lookups.
-/

def IsMaster (enterpriseId : Uuid) (reference : Reference) (key : String) (db : DB) (id : Uuid) : Prop :=
  ∃ row ∈ (db.canonical reference.target).rows, row.id = id ∧ row.enterpriseId = enterpriseId ∧
    row.col reference.naturalKey = .text key

def masterReferences : List Reference := [itemRef, supplierRef, warehouseRef]

theorem refs_masters (entity : Entity) : ∀ reference ∈ (specs entity).refs, reference ∈ masterReferences := by
  cases entity <;> decide

theorem master_unique {reference other : Reference} (master : reference ∈ masterReferences) (otherMaster : other ∈ masterReferences)
    (same : other.target = reference.target) : other = reference := by
  have distinct : ∀ first ∈ masterReferences, ∀ second ∈ masterReferences, second.target = first.target →
      second = first := by decide
  exact distinct reference master other otherMaster same

/-- What the cache repeats is still so. -/
def CacheSound (enterpriseId : Uuid) (cache : Cache) (db : DB) : Prop :=
  ∀ reference ∈ masterReferences, ∀ key id, cache.lookup (reference.target, key) = some id →
    IsMaster enterpriseId reference key db id

section Lookups

variable {enterpriseId : Uuid} {entity : Entity} {reference : Reference} {attrs resolved final : Dict Raw}
variable {acc result : Resolution} {before after db : DB} {cache : Cache} {key : String}

theorem lookupReference_none
    (ran : lookupReference enterpriseId reference key before = .ok none after) (id : Uuid) :
    ¬ IsMaster enterpriseId reference key before id := by
  simp only [lookupReference, bind_eq_ok, lift_eq_ok, scalarOrNone_eq_ok, pure_eq_ok] at ran
  obtain ⟨_, _, ⟨_, rfl⟩, row, _, ⟨single, rfl⟩, none, rfl⟩ := ran
  have nobody := scalarOneOrNone_ok single
  rw [Option.map_eq_none_iff.mp none] at nobody
  rintro ⟨row, member, _, owned, named⟩
  exact absurd (List.filter_eq_nil_iff.mp nobody row member) (by simp [owned, named])

theorem lookupReference_some {id : Uuid}
    (ran : lookupReference enterpriseId reference key before = .ok (some id) after) :
    IsMaster enterpriseId reference key before id := (lookupReference_ok ran).2 id rfl

def Names (enterpriseId : Uuid) (reference : Reference) (attrs : Dict Raw) (db : DB) (id : Uuid) : Prop :=
  ∃ raw, attrs.lookup reference.attr = some raw ∧ raw.blank = false ∧
    IsMaster enterpriseId reference raw.str db id

/-- Resolving a reference keeps the cache sound, and sets the foreign key exactly
when the record names a master. -/
theorem resolveOne_sound (master : reference ∈ masterReferences)
    (ran : resolveOne enterpriseId entity attrs acc reference before = .ok result after)
    (sound : CacheSound enterpriseId acc.cache before) :
    CacheSound enterpriseId result.cache before ∧
      ∀ final, result.resolved = some final → ∃ resolved, acc.resolved = some resolved ∧
        ((∃ id, Names enterpriseId reference attrs before id ∧
            final = resolved.insert (foreignKey reference.target) (.uuid id)) ∨
          (final = resolved ∧ ∀ id, ¬ Names enterpriseId reference attrs before id)) := by
  cases resolveOne_ok ran with
  | skipped none =>
      refine ⟨sound, fun final same => ?_⟩
      rw [none] at same
      cases same
  | unnamed unnamed =>
      refine ⟨sound, fun final same => ⟨final, same, .inr ⟨rfl, fun id names => ?_⟩⟩⟩
      obtain ⟨raw, given, filled, _⟩ := names
      rw [unnamed raw given] at filled
      cases filled
  | @cached resolved raw id accepted given filled hit =>
      have names : Names enterpriseId reference attrs before id :=
        ⟨raw, given, filled, sound reference master raw.str id hit⟩
      exact ⟨sound, fun final same => ⟨resolved, accepted, .inl ⟨id, names, (Option.some.inj same).symm⟩⟩⟩
  | @found resolved raw id accepted given filled looked =>
      have isMaster := lookupReference_some looked
      refine ⟨fun other otherMaster key otherId hit => ?_, fun final same =>
        ⟨resolved, accepted, .inl ⟨id, ⟨raw, given, filled, isMaster⟩, (Option.some.inj same).symm⟩⟩⟩
      by_cases same : (other.target, key) = (reference.target, raw.str)
      · rw [List.lookup_cons, same, beq_self_eq_true] at hit
        obtain rfl : id = otherId := Option.some.inj hit
        obtain ⟨target, rfl⟩ := Prod.mk.inj same
        rwa [master_unique master otherMaster target]
      · have different : ((other.target, key) == (reference.target, raw.str)) = false := by simpa using same
        rw [List.lookup_cons, different] at hit
        exact sound other otherMaster key otherId hit
  | missing given filled looked _ =>
      refine ⟨sound, fun final same => ?_⟩
      simp at same
  | @optional raw given filled looked =>
      refine ⟨sound, fun final same => ⟨final, same, .inr ⟨rfl, fun id names => ?_⟩⟩⟩
      obtain ⟨other, otherGiven, _, isMaster⟩ := names
      obtain rfl := Option.some.inj (given.symm.trans otherGiven)
      exact lookupReference_none looked id isMaster

theorem resolveRefs_sound (sound : CacheSound enterpriseId cache before)
    (ran : resolveRefs enterpriseId entity attrs cache before = .ok result after) :
    CacheSound enterpriseId result.cache before := by
  refine (foldlM_ok_of_reached (fun result db => db = before ∧ CacheSound enterpriseId result.cache before) ⟨rfl, sound⟩ ?_
    (List.append_nil _).symm ran).2
  rintro reference acc reached next later ⟨done, rest, inside, _⟩ ⟨rfl, sound⟩ stepped
  have master : reference ∈ masterReferences := refs_masters entity reference (by simp [inside])
  exact ⟨(resolveOne_state stepped).1, (resolveOne_sound master stepped sound).1⟩

theorem foldRefs_other {list : List Reference} {name : String}
    (ran : list.foldlM (resolveOne enterpriseId entity attrs) acc before = .ok result after)
    (accepted : result.resolved = some final)
    (outside : name ∉ list.map fun reference => foreignKey reference.target) :
    ∃ start, acc.resolved = some start ∧ final.lookup name = start.lookup name := by
  induction list generalizing acc before with
  | nil =>
      obtain ⟨rfl, _⟩ := pure_eq_ok.mp ran
      exact ⟨final, accepted, rfl⟩
  | cons reference rest ih =>
      rw [List.foldlM_cons] at ran
      obtain ⟨next, middle, first, later⟩ := bind_eq_ok.mp ran
      rw [List.map_cons, List.mem_cons, not_or] at outside
      obtain ⟨mid, midEq, same⟩ := ih later outside.2
      cases resolveOne_ok first with
      | skipped none => exact ⟨mid, midEq, same⟩
      | unnamed _ => exact ⟨mid, midEq, same⟩
      | @cached resolved _ id accepted _ _ _ =>
          obtain rfl := Option.some.inj midEq
          exact ⟨resolved, accepted, same.trans (AList.lookup_insert_ne outside.1)⟩
      | @found resolved _ id accepted _ _ _ =>
          obtain rfl := Option.some.inj midEq
          exact ⟨resolved, accepted, same.trans (AList.lookup_insert_ne outside.1)⟩
      | missing _ _ _ _ => cases midEq
      | «optional» _ _ _ => exact ⟨mid, midEq, same⟩

/-- What resolving references makes of their foreign keys. -/
theorem foldRefs_ok {list : List Reference} (masters : ∀ reference ∈ list, reference ∈ masterReferences)
    (distinct : (list.map fun reference => foreignKey reference.target).Nodup)
    (sound : CacheSound enterpriseId acc.cache before)
    (ran : list.foldlM (resolveOne enterpriseId entity attrs) acc before = .ok result after)
    (accepted : result.resolved = some final) :
    ∃ start, acc.resolved = some start ∧ ∀ reference ∈ list,
      (∃ id, Names enterpriseId reference attrs before id ∧
        final.lookup (foreignKey reference.target) = some (.uuid id)) ∨
      (final.lookup (foreignKey reference.target) = start.lookup (foreignKey reference.target) ∧
        ∀ id, ¬ Names enterpriseId reference attrs before id) := by
  induction list generalizing acc with
  | nil =>
      obtain ⟨rfl, _⟩ := pure_eq_ok.mp ran
      exact ⟨final, accepted, by simp⟩
  | cons reference rest ih =>
      rw [List.foldlM_cons] at ran
      obtain ⟨next, middle, first, later⟩ := bind_eq_ok.mp ran
      obtain rfl := (resolveOne_state first).1
      obtain ⟨nextSound, step⟩ := resolveOne_sound (masters reference List.mem_cons_self) first sound
      obtain ⟨fresh, distinct⟩ := List.nodup_cons.mp distinct
      obtain ⟨mid, midEq, tail⟩ := ih (fun other member => masters other (List.mem_cons_of_mem _ member)) distinct
        nextSound later
      obtain ⟨start, startEq, head⟩ := step mid midEq
      refine ⟨start, startEq, fun listed member => ?_⟩
      rcases List.mem_cons.mp member with rfl | member
      · obtain ⟨same, sameEq, kept⟩ := foldRefs_other later accepted fresh
        obtain rfl := Option.some.inj (midEq.symm.trans sameEq)
        rw [kept]
        rcases head with ⟨id, names, rfl⟩ | ⟨rfl, nobody⟩
        · exact .inl ⟨id, names, AList.lookup_insert _⟩
        · exact .inr ⟨rfl, nobody⟩
      · have different : foreignKey listed.target ≠ foreignKey reference.target := fun same =>
          fresh (List.mem_map.mpr ⟨listed, member, same⟩)
        have other : mid.lookup (foreignKey listed.target) = start.lookup (foreignKey listed.target) := by
          rcases head with ⟨id, _, rfl⟩ | ⟨rfl, _⟩
          · exact AList.lookup_insert_ne different
          · rfl
        rw [← other]
        exact tail listed member

theorem foreignKeys_nodup (entity : Entity) :
    ((specs entity).refs.map fun reference => foreignKey reference.target).Nodup := by
  cases entity <;> decide

theorem lookup_plain (attrs : Dict Raw) {name : String} (isPlain : ∀ reference ∈ (specs entity).refs, name ≠ reference.attr) :
    (attrs.restrict fun key => !((specs entity).refs.any fun reference => reference.attr == key)).lookup name =
      attrs.lookup name := by
  have kept : ((specs entity).refs.any fun reference => reference.attr == name) = false :=
    List.any_eq_false.mpr fun reference listed => by simpa using (isPlain reference listed).symm
  rw [Dict.restrict, Dict.lookup_filterMap]
  simp [kept]

theorem resolveRefs_other {name : String}
    (ran : resolveRefs enterpriseId entity attrs cache before = .ok result after)
    (accepted : result.resolved = some final)
    (outside : ∀ reference ∈ (specs entity).refs, name ≠ reference.attr ∧ name ≠ foreignKey reference.target) :
    final.lookup name = attrs.lookup name := by
  have free : name ∉ (specs entity).refs.map fun reference => foreignKey reference.target := fun isKey => by
    obtain ⟨reference, listed, rfl⟩ := List.mem_map.mp isKey
    exact (outside reference listed).2 rfl
  obtain ⟨start, same, kept⟩ := foldRefs_other ran accepted free
  obtain rfl := Option.some.inj same
  exact kept.trans (lookup_plain attrs fun reference listed => (outside reference listed).1)

/-- The foreign key of a named master, and otherwise what the record has under
the name of the foreign key itself. -/
theorem resolveRefs_ok (sound : CacheSound enterpriseId cache before)
    (ran : resolveRefs enterpriseId entity attrs cache before = .ok result after)
    (accepted : result.resolved = some final) :
    ∀ reference ∈ (specs entity).refs,
      (∃ id, Names enterpriseId reference attrs before id ∧
        final.lookup (foreignKey reference.target) = some (.uuid id)) ∨
      (final.lookup (foreignKey reference.target) = attrs.lookup (foreignKey reference.target) ∧
        ∀ id, ¬ Names enterpriseId reference attrs before id) := by
  obtain ⟨start, same, resolved⟩ :=
    foldRefs_ok (refs_masters entity) (foreignKeys_nodup entity) sound ran accepted
  obtain rfl := Option.some.inj same
  have keyNotAttr : ∀ reference ∈ (specs entity).refs, ∀ other ∈ (specs entity).refs,
      foreignKey reference.target ≠ other.attr := by
    cases entity <;> decide
  intro reference listed
  rw [← lookup_plain attrs (keyNotAttr reference listed)]
  exact resolved reference listed

/-- A record is rejected for a required reference to nobody. -/
theorem resolveRefs_rejected
    (ran : resolveRefs enterpriseId entity attrs cache before = .ok result after) (rejected : result.resolved = none) :
    ∃ reference ∈ (specs entity).refs, foreignKey reference.target ∈ requiredIdentity entity ∧
      ∃ raw, attrs.lookup reference.attr = some raw ∧ ∀ id, ¬ IsMaster enterpriseId reference raw.str before id := by
  have folds : ∀ (list : List Reference) (acc : Resolution),
      list.foldlM (resolveOne enterpriseId entity attrs) acc before = .ok result after →
      acc.resolved = none ∨ ∃ reference ∈ list, foreignKey reference.target ∈ requiredIdentity entity ∧
        ∃ raw, attrs.lookup reference.attr = some raw ∧ ∀ id, ¬ IsMaster enterpriseId reference raw.str before id := by
    intro list
    induction list with
    | nil =>
        intro acc ran
        obtain ⟨rfl, _⟩ := pure_eq_ok.mp ran
        exact .inl rejected
    | cons reference rest ih =>
        intro acc ran
        rw [List.foldlM_cons] at ran
        obtain ⟨next, middle, first, later⟩ := bind_eq_ok.mp ran
        obtain ⟨rfl, resolved⟩ := resolveOne_state first
        rcases ih next later with none | ⟨other, member, isOther⟩
        · cases resolved with
          | skipped none => exact .inl none
          | unnamed _ => exact .inl none
          | cached _ _ _ _ => cases none
          | found _ _ _ _ => cases none
          | missing given _ looked required =>
              exact .inr ⟨reference, List.mem_cons_self, required, _, given, fun id => lookupReference_none looked id⟩
          | «optional» _ _ _ => exact .inl none
        · exact .inr ⟨other, List.mem_cons_of_mem _ member, isOther⟩
  exact (folds _ _ ran).resolve_left (by simp)

end Lookups

end SmartProcurement.Integration
