import Mathlib.Data.List.Nodup
import Mathlib.Data.List.Basic

namespace SmartProcurement.Relational

/-! # Tables with a surrogate primary key

A table is the list of its rows in the order in which the database enumerates
them, together with the fact that no two rows share a primary key.  Every
operation re-establishes that fact, so clients never carry it as a hypothesis.
-/

/-- Rows that carry a generated primary key. -/
class Keyed (ρ : Type) where
  key : ρ → Nat
  withKey : Nat → ρ → ρ
  key_withKey : ∀ id row, key (withKey id row) = id
  withKey_key : ∀ row, withKey (key row) row = row

attribute [simp] Keyed.key_withKey Keyed.withKey_key

open Keyed

structure Table (ρ : Type) [Keyed ρ] where
  rows : List ρ
  distinct : (rows.map key).Nodup

namespace Table

variable {ρ : Type} [Keyed ρ] {table : Table ρ} {row other : ρ} {id : Nat}

theorem ext {left right : Table ρ} (same : left.rows = right.rows) : left = right := by
  cases left
  cases right
  cases same
  rfl

def empty : Table ρ := ⟨[], by simp⟩

instance : Inhabited (Table ρ) := ⟨empty⟩

@[simp] theorem empty_rows : (empty : Table ρ).rows = [] := rfl

theorem eq_of_key_eq (member : row ∈ table.rows) (otherMember : other ∈ table.rows)
    (same : key row = key other) : row = other :=
  List.inj_on_of_nodup_map table.distinct member otherMember same

/-- `session.get(Model, id)`. -/
def find? (table : Table ρ) (id : Nat) : Option ρ :=
  table.rows.find? fun row => key row == id

theorem find?_some (found : table.find? id = some row) : row ∈ table.rows ∧ key row = id :=
  ⟨List.mem_of_find?_eq_some found, by simpa using List.find?_some found⟩

theorem find?_none (missing : table.find? id = none) : ∀ row ∈ table.rows, key row ≠ id := by
  intro row member
  simpa using List.find?_eq_none.mp missing row member

theorem find?_of_mem (member : row ∈ table.rows) : table.find? (key row) = some row := by
  cases found : table.find? (key row) with
  | none => exact absurd rfl (find?_none found row member)
  | some other =>
      obtain ⟨otherMember, same⟩ := find?_some found
      rw [eq_of_key_eq otherMember member same]

theorem find?_eq_some_iff : table.find? id = some row ↔ row ∈ table.rows ∧ key row = id := by
  constructor
  · exact find?_some
  · rintro ⟨member, rfl⟩
    exact find?_of_mem member

theorem filter_key (table : Table ρ) (id : Nat) :
    table.rows.filter (fun row => key row == id) = (table.find? id).toList := by
  obtain ⟨rows, distinct⟩ := table
  simp only [find?]
  induction rows with
  | nil => rfl
  | cons first rest ih =>
      rw [List.map_cons, List.nodup_cons] at distinct
      by_cases hit : key first = id
      · have others : rest.filter (fun row => key row == id) = [] := by
          refine List.filter_eq_nil_iff.mpr fun row member same => distinct.1 ?_
          rw [hit, ← beq_iff_eq.mp same]
          exact List.mem_map_of_mem member
        rw [List.filter_cons_of_pos (by simp [hit]), List.find?_cons_of_pos (by simp [hit]), others]
        rfl
      · rw [List.filter_cons_of_neg (by simp [hit]), List.find?_cons_of_neg (by simp [hit]), ih distinct.2]

theorem filter_key_length (table : Table ρ) (id : Nat) : (table.rows.filter fun row => key row = id).length ≤ 1 := by
  have found : table.rows.filter (fun row => key row = id) = (table.find? id).toList := table.filter_key id
  rw [found]
  cases table.find? id with
  | none => exact Nat.zero_le 1
  | some row => exact Nat.le_refl 1

/-- A generated key: different from the key of every row already stored. -/
def freshKey (table : Table ρ) : Nat :=
  (table.rows.map key).foldr max 0 + 1

theorem key_lt_freshKey (member : row ∈ table.rows) : key row < table.freshKey := by
  have bound : ∀ keys : List Nat, ∀ id ∈ keys, id ≤ keys.foldr max 0 := by
    intro keys
    induction keys with
    | nil => simp
    | cons first rest ih =>
        intro id member
        rcases List.mem_cons.mp member with rfl | member
        · exact Nat.le_max_left _ _
        · exact Nat.le_trans (ih id member) (Nat.le_max_right _ _)
  exact Nat.lt_succ_of_le (bound _ _ (List.mem_map_of_mem member))

theorem freshKey_le {bound : Nat} (below : ∀ row ∈ table.rows, key row < bound) (positive : 0 < bound) :
    table.freshKey ≤ bound := by
  have least : ∀ keys : List Nat, (∀ id ∈ keys, id < bound) → keys.foldr max 0 < bound := by
    intro keys
    induction keys with
    | nil => exact fun _ => positive
    | cons first rest ih =>
        exact fun keys =>
          Nat.max_lt.mpr ⟨keys first List.mem_cons_self, ih fun id member => keys id (List.mem_cons_of_mem _ member)⟩
  exact least _ (List.forall_mem_map.mpr below)

/-- The row as `session.add` followed by a flush stores it. -/
def newRow (table : Table ρ) (row : ρ) : ρ :=
  withKey table.freshKey row

def insert (table : Table ρ) (row : ρ) : Table ρ where
  rows := table.rows ++ [table.newRow row]
  distinct := by
    simp only [List.map_append, List.map_cons, List.map_nil, newRow, key_withKey]
    refine List.Nodup.append table.distinct (List.nodup_singleton _) ?_
    simp only [List.disjoint_singleton, List.mem_map, not_exists, not_and]
    intro row member same
    exact absurd same (Nat.ne_of_lt (key_lt_freshKey member))

@[simp] theorem insert_rows (table : Table ρ) (row : ρ) :
    (table.insert row).rows = table.rows ++ [table.newRow row] := rfl

@[simp] theorem key_newRow (table : Table ρ) (row : ρ) : key (table.newRow row) = table.freshKey :=
  key_withKey _ _

theorem newRow_not_mem (table : Table ρ) (row : ρ) : table.newRow row ∉ table.rows := by
  intro member
  have below := key_lt_freshKey member
  rw [key_newRow] at below
  exact Nat.lt_irrefl _ below

theorem find?_insert_of_find? (found : table.find? id = some row) (added : ρ) :
    (table.insert added).find? id = some row := by
  obtain ⟨member, same⟩ := find?_some found
  exact find?_eq_some_iff.mpr ⟨by simp [member], same⟩

/-- One row as an update leaves it; the primary key is never assigned. -/
def assign (change : ρ → ρ) (row : ρ) : ρ :=
  withKey (key row) (change row)

@[simp] theorem key_assign (change : ρ → ρ) (row : ρ) : key (assign change row) = key row :=
  key_withKey _ _

theorem assign_eq {change : ρ → ρ} (keeps : key (change row) = key row) :
    assign change row = change row := by
  rw [assign, ← keeps, withKey_key]

/-- `UPDATE ... WHERE`: the selected rows change in place. -/
def updateWhere (table : Table ρ) (selected : ρ → Bool) (change : ρ → ρ) : Table ρ where
  rows := table.rows.map fun row => if selected row then assign change row else row
  distinct := by
    have keys : (table.rows.map fun row => if selected row then assign change row else row).map key =
        table.rows.map key := by
      rw [List.map_map]
      refine List.map_congr_left fun row _ => ?_
      simp only [Function.comp_apply]
      split <;> simp
    rw [keys]
    exact table.distinct

def update (table : Table ρ) (id : Nat) (change : ρ → ρ) : Table ρ :=
  table.updateWhere (fun row => key row == id) change

/-- An update of a known row writes one value. -/
theorem update_eq_const {change : ρ → ρ} (found : table.find? id = some row) :
    table.update id change = table.update id fun _ => change row := by
  refine ext (List.map_congr_left fun other member => ?_)
  split
  · next hit =>
    obtain ⟨rowMember, same⟩ := find?_some found
    rw [eq_of_key_eq member rowMember ((beq_iff_eq.mp hit).trans same.symm)]
    rfl
  · rfl

theorem mem_updateWhere {selected : ρ → Bool} {change : ρ → ρ} :
    row ∈ (table.updateWhere selected change).rows ↔
      ∃ old ∈ table.rows, row = if selected old then assign change old else old := by
  simp only [updateWhere, List.mem_map, eq_comm]

theorem mem_update {change : ρ → ρ} : row ∈ (table.update id change).rows ↔
    (∃ old ∈ table.rows, key old = id ∧ row = assign change old) ∨ (row ∈ table.rows ∧ key row ≠ id) := by
  rw [update, mem_updateWhere]
  constructor
  · rintro ⟨old, member, rfl⟩
    by_cases hit : key old = id
    · rw [if_pos (beq_iff_eq.mpr hit)]
      exact .inl ⟨old, member, hit, rfl⟩
    · rw [if_neg (by simpa using hit)]
      exact .inr ⟨member, hit⟩
  · rintro (⟨old, member, hit, rfl⟩ | ⟨member, different⟩)
    · exact ⟨old, member, by rw [if_pos (beq_iff_eq.mpr hit)]⟩
    · exact ⟨row, member, by rw [if_neg (by simpa using different)]⟩

/-- A row that takes the place of another. -/
theorem mem_update_const {existing stored : ρ} (member : existing ∈ table.rows)
    (same : key stored = key existing) :
    row ∈ (table.update (key existing) fun _ => stored).rows ↔
      (row ∈ table.rows ∧ key row ≠ key existing) ∨ row = stored := by
  have assigned : assign (fun _ => stored) existing = stored := assign_eq same
  rw [mem_update]
  constructor
  · rintro (⟨old, oldMember, hit, rfl⟩ | kept)
    · obtain rfl := eq_of_key_eq oldMember member hit
      exact .inr assigned
    · exact .inl kept
  · rintro (kept | rfl)
    · exact .inr kept
    · exact .inl ⟨existing, member, rfl, assigned.symm⟩

@[simp] theorem updateWhere_keys (table : Table ρ) (selected : ρ → Bool) (change : ρ → ρ) :
    (table.updateWhere selected change).rows.map key = table.rows.map key := by
  simp only [updateWhere, List.map_map]
  refine List.map_congr_left fun row _ => ?_
  simp only [Function.comp_apply]
  split <;> simp

theorem updateWhere_eq_self {selected : ρ → Bool} {change : ρ → ρ}
    (still : ∀ row ∈ table.rows, selected row = true → assign change row = row) :
    table.updateWhere selected change = table := by
  apply ext
  simp only [updateWhere]
  refine (List.map_congr_left fun row member => ?_).trans (List.map_id _)
  by_cases hit : selected row = true
  · simp [hit, still row member hit]
  · simp [hit]

/-- A query that an update does not move rows into or out of. -/
theorem filter_updateWhere {selected select : ρ → Bool} {change : ρ → ρ}
    (stable : ∀ row ∈ table.rows, selected row = true → select (assign change row) = select row) :
    (table.updateWhere selected change).rows.filter select =
      (table.rows.filter select).map fun row => if selected row then assign change row else row := by
  rw [updateWhere, List.filter_map]
  congr 1
  refine List.filter_congr fun row member => ?_
  by_cases hit : selected row = true
  · simpa [hit] using stable row member hit
  · simp [hit]

/-- A query that selects none of the updated rows, before or after. -/
theorem filter_updateWhere_of_not {selected select : ρ → Bool} {change : ρ → ρ}
    (skipped : ∀ row ∈ table.rows, selected row = true →
      select row = false ∧ select (assign change row) = false) :
    (table.updateWhere selected change).rows.filter select = table.rows.filter select := by
  rw [filter_updateWhere fun row member hit => (skipped row member hit).2.trans (skipped row member hit).1.symm]
  refine (List.map_congr_left fun row member => ?_).trans (List.map_id _)
  obtain ⟨member, kept⟩ := List.mem_filter.mp member
  by_cases hit : selected row = true
  · exact absurd kept (by simp [(skipped row member hit).1])
  · simp [hit]

/-- A query that an update takes a row out of. -/
theorem filter_update_leaves {select : ρ → Bool} {change : ρ → ρ}
    (leaves : ∀ row ∈ table.rows, key row = id → select (assign change row) = false) :
    (table.update id change).rows.filter select = (table.rows.filter select).filter fun row => key row != id := by
  rw [update, updateWhere, List.filter_map, List.filter_filter]
  have selects : ∀ row ∈ table.rows, (select ∘ fun row => if key row == id then assign change row else row) row =
      (key row != id && select row) := by
    intro row member
    by_cases hit : key row = id
    · simp [hit, leaves row member hit]
    · simp [hit]
  rw [List.filter_congr selects]
  refine (List.map_congr_left fun row member => ?_).trans (List.map_id _)
  have outside := (List.mem_filter.mp member).2
  have different : key row ≠ id := by
    simp only [Bool.and_eq_true, bne_iff_ne] at outside
    exact outside.1
  simp [different]

/-- A query that an update brings a row into. -/
theorem filter_update_enters {select : ρ → Bool} {change : ρ → ρ} (member : row ∈ table.rows)
    (outside : select row = false) (inside : select (assign change row) = true) :
    ((table.update (key row) change).rows.filter select).Perm (assign change row :: table.rows.filter select) := by
  obtain ⟨front, back, split⟩ := List.append_of_mem member
  have distinct := table.distinct
  rw [split, List.map_append, List.map_cons, List.nodup_append] at distinct
  obtain ⟨_, backDistinct, apart⟩ := distinct
  have keeps (rows : List ρ) (others : ∀ other ∈ rows, key other ≠ key row) :
      (rows.map fun other => if key other == key row then assign change other else other) = rows := by
    refine (List.map_congr_left fun other otherMember => ?_).trans (List.map_id _)
    simp [others other otherMember]
  have frontKept := keeps front fun other otherMember same =>
    apart (key other) (List.mem_map_of_mem otherMember) (key row) List.mem_cons_self same
  have backKept := keeps back fun other otherMember same =>
    (List.nodup_cons.mp backDistinct).1 (same ▸ List.mem_map_of_mem otherMember)
  have rows : (table.update (key row) change).rows = front ++ assign change row :: back := by
    change table.rows.map _ = _
    rw [split, List.map_append, List.map_cons, frontKept, backKept, if_pos (beq_self_eq_true _)]
  rw [rows, split, List.filter_append, List.filter_append, List.filter_cons_of_pos inside,
    List.filter_cons_of_neg (by simp [outside])]
  exact List.perm_middle

theorem mem_update_of_ne {change : ρ → ρ} (member : row ∈ table.rows) (different : key row ≠ id) :
    row ∈ (table.update id change).rows :=
  mem_updateWhere.mpr ⟨row, member, by simp [different]⟩

theorem filter_insert (table : Table ρ) (row : ρ) (select : ρ → Bool) :
    (table.insert row).rows.filter select =
      table.rows.filter select ++ if select (table.newRow row) then [table.newRow row] else [] := by
  rw [insert_rows, List.filter_append]
  congr 1
  by_cases hit : select (table.newRow row) = true <;> simp [hit]

theorem find?_updateWhere (table : Table ρ) (selected : ρ → Bool) (change : ρ → ρ) (id : Nat) :
    (table.updateWhere selected change).find? id =
      (table.find? id).map fun row => if selected row then assign change row else row := by
  have keys : ∀ row : ρ, (key (if selected row then assign change row else row) == id) =
      (key row == id) := by
    intro row
    split <;> simp
  simp only [find?, updateWhere, List.find?_map]
  congr 2
  funext row
  exact keys row

theorem find?_update_self (table : Table ρ) (change : ρ → ρ) (id : Nat) :
    (table.update id change).find? id = (table.find? id).map (assign change) := by
  rw [update, find?_updateWhere]
  cases found : table.find? id with
  | none => rfl
  | some row => simp [(find?_some found).2]

theorem find?_update_other (table : Table ρ) (change : ρ → ρ) {id other : Nat}
    (different : other ≠ id) : (table.update id change).find? other = table.find? other := by
  rw [update, find?_updateWhere]
  cases found : table.find? other with
  | none => rfl
  | some row => simp [(find?_some found).2, different]

theorem find?_insert (table : Table ρ) (row : ρ) (id : Nat) :
    (table.insert row).find? id = if id = table.freshKey then some (table.newRow row) else table.find? id := by
  apply Option.ext
  intro other
  split
  · next fresh =>
    subst fresh
    have below : ∀ old ∈ table.rows, key old ≠ table.freshKey := fun old member => Nat.ne_of_lt (key_lt_freshKey member)
    rw [find?_eq_some_iff, insert_rows, List.mem_append, List.mem_singleton, Option.some_inj]
    constructor
    · rintro ⟨old | rfl, same⟩
      · exact absurd same (below other old)
      · rfl
    · rintro rfl
      exact ⟨.inr rfl, key_newRow table row⟩
  · next different =>
    rw [find?_eq_some_iff, find?_eq_some_iff, insert_rows, List.mem_append, List.mem_singleton]
    constructor
    · rintro ⟨old | rfl, same⟩
      · exact ⟨old, same⟩
      · exact absurd (same.symm.trans (key_newRow table row)) different
    · rintro ⟨old, same⟩
      exact ⟨.inl old, same⟩

theorem find?_update_const {stored : ρ} (found : table.find? id = some row) (same : key stored = id) (other : Nat) :
    (table.update id fun _ => stored).find? other = if other = id then some stored else table.find? other := by
  split
  · next hit =>
    obtain ⟨_, keyed⟩ := find?_some found
    rw [hit, find?_update_self, found, Option.map_some, assign_eq (same.trans keyed.symm)]
  · next different => exact find?_update_other table _ different

end Table

/-- `scalar_one_or_none()`: `none` on no row, an error on more than one. -/
def scalarOneOrNone {ε α : Type} (ambiguous : ε) : List α → Except ε (Option α)
  | [] => .ok none
  | [value] => .ok (some value)
  | _ :: _ :: _ => .error ambiguous

theorem scalarOneOrNone_ok {ε α : Type} {ambiguous : ε} {values : List α} {result : Option α}
    (single : scalarOneOrNone ambiguous values = .ok result) : values = result.toList := by
  match values, single with
  | [], single => cases single; rfl
  | [_], single => cases single; rfl

theorem scalarOneOrNone_error {ε α : Type} {ambiguous reason : ε} {values : List α}
    (raised : scalarOneOrNone ambiguous values = .error reason) : reason = ambiguous := by
  match values, raised with
  | _ :: _ :: _, raised => cases raised; rfl

theorem mem_of_scalarOneOrNone {ε α : Type} {ambiguous : ε} {values : List α} {value : α}
    (single : scalarOneOrNone ambiguous values = .ok (some value)) : value ∈ values := by
  rw [scalarOneOrNone_ok single]
  exact List.mem_singleton_self value

theorem scalarOneOrNone_of_length_le {ε α : Type} (ambiguous : ε) {values : List α}
    (short : values.length ≤ 1) : scalarOneOrNone ambiguous values = .ok values.head? := by
  match values, short with
  | [], _ => rfl
  | [_], _ => rfl

end SmartProcurement.Relational
