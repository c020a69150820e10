import SmartProcurement.Relational.Table
import Mathlib.Logic.Function.Basic

namespace SmartProcurement.Relational

open Keyed

/-! # Tables read through an identity

An identity is what a program tells rows apart by, beside the generated key.  No
constraint enforces it; a row may also have none.
-/

variable {ρ κ : Type} [Keyed ρ]

def Unique (identity : ρ → Option κ) (table : Table ρ) : Prop :=
  ∀ first ∈ table.rows, ∀ second ∈ table.rows, ∀ value,
    identity first = some value → identity second = some value → first = second

variable {identity : ρ → Option κ} {table : Table ρ} {row stored existing : ρ} {value : κ}

theorem unique_empty : Unique identity Table.empty := fun _ member => absurd member List.not_mem_nil

theorem Unique.insert (unique : Unique identity table)
    (fresh : ∀ other ∈ table.rows, ∀ value, identity (table.newRow row) = some value → identity other ≠ some value) :
    Unique identity (table.insert row) := by
  intro first firstMember second secondMember value firstHas secondHas
  rw [Table.insert_rows, List.mem_append, List.mem_singleton] at firstMember secondMember
  rcases firstMember with firstOld | rfl
  · rcases secondMember with secondOld | rfl
    · exact unique first firstOld second secondOld value firstHas secondHas
    · exact absurd firstHas (fresh first firstOld value secondHas)
  · rcases secondMember with secondOld | rfl
    · exact absurd secondHas (fresh second secondOld value firstHas)
    · rfl

theorem Unique.replace (unique : Unique identity table) (member : existing ∈ table.rows)
    (sameKey : key stored = key existing) (same : identity stored = identity existing) :
    Unique identity (table.update (key existing) fun _ => stored) := by
  intro first firstMember second secondMember value firstHas secondHas
  rcases (Table.mem_update_const member sameKey).mp firstMember with ⟨firstOld, firstKey⟩ | rfl
  · rcases (Table.mem_update_const member sameKey).mp secondMember with ⟨secondOld, _⟩ | rfl
    · exact unique first firstOld second secondOld value firstHas secondHas
    · rw [same] at secondHas
      rw [unique first firstOld existing member value firstHas secondHas] at firstKey
      exact absurd rfl firstKey
  · rcases (Table.mem_update_const member sameKey).mp secondMember with ⟨secondOld, secondKey⟩ | rfl
    · rw [same] at firstHas
      rw [unique second secondOld existing member value secondHas firstHas] at secondKey
      exact absurd rfl secondKey
    · rfl

/-- An update that leaves the identity of every row as it is. -/
theorem Unique.update {id : Nat} {change : ρ → ρ} (unique : Unique identity table)
    (keeps : ∀ row, identity (Table.assign change row) = identity row) : Unique identity (table.update id change) := by
  intro first firstMember second secondMember value firstHas secondHas
  obtain ⟨firstOld, firstStored, rfl⟩ := Table.mem_updateWhere.mp firstMember
  obtain ⟨secondOld, secondStored, rfl⟩ := Table.mem_updateWhere.mp secondMember
  have same (row : ρ) : identity (if key row == id then Table.assign change row else row) = identity row := by
    split
    · exact keeps row
    · rfl
  rw [same] at firstHas secondHas
  rw [unique firstOld firstStored secondOld secondStored value firstHas secondHas]

variable [DecidableEq κ]

theorem Unique.filter_length (unique : Unique identity table) (value : κ) :
    (table.rows.filter fun row => identity row = some value).length ≤ 1 := by
  have distinct : (table.rows.filter fun row => identity row = some value).Nodup :=
    (List.Nodup.of_map key table.distinct).filter _
  have same : ∀ first ∈ table.rows.filter fun row => identity row = some value,
      ∀ second ∈ table.rows.filter fun row => identity row = some value, first = second := by
    intro first firstMember second secondMember
    obtain ⟨firstMember, firstHas⟩ := List.mem_filter.mp firstMember
    obtain ⟨secondMember, secondHas⟩ := List.mem_filter.mp secondMember
    exact unique first firstMember second secondMember value (of_decide_eq_true firstHas) (of_decide_eq_true secondHas)
  generalize table.rows.filter (fun row => decide (identity row = some value)) = rows at distinct same
  match rows, distinct with
  | [], _ => exact Nat.zero_le 1
  | [_], _ => exact Nat.le_refl 1
  | first :: second :: _, distinct =>
      have equal := same first List.mem_cons_self second (List.mem_cons_of_mem _ List.mem_cons_self)
      rw [equal] at distinct
      exact absurd List.mem_cons_self (List.nodup_cons.mp distinct).1

/-! ## The table as a finite map -/

def Table.identified? (table : Table ρ) (identity : ρ → Option κ) (value : κ) : Option ρ :=
  table.rows.find? fun row => identity row = some value

theorem identified?_some (found : table.identified? identity value = some row) :
    row ∈ table.rows ∧ identity row = some value :=
  by
  unfold Table.identified? at found
  exact ⟨List.mem_of_find?_eq_some found, by simpa using List.find?_some found⟩

theorem identified?_eq_none_iff :
    table.identified? identity value = none ↔ ∀ row ∈ table.rows, identity row ≠ some value := by
  simp [Table.identified?]

theorem Unique.identified?_eq_some_iff (unique : Unique identity table) :
    table.identified? identity value = some row ↔ row ∈ table.rows ∧ identity row = some value := by
  constructor
  · exact identified?_some
  · rintro ⟨member, has⟩
    cases found : table.identified? identity value with
    | none => exact absurd has (identified?_eq_none_iff.mp found row member)
    | some other =>
        obtain ⟨otherMember, otherHas⟩ := identified?_some found
        rw [unique other otherMember row member value otherHas has]

theorem identified?_insert (missing : table.identified? identity value = none)
    (has : identity (table.newRow row) = some value) :
    (table.insert row).identified? identity =
      Function.update (table.identified? identity) value (some (table.newRow row)) := by
  funext other
  have rows : (table.insert row).identified? identity other =
      (table.identified? identity other).or ([table.newRow row].find? fun row => identity row = some other) :=
    List.find?_append
  rw [rows]
  by_cases same : other = value
  · subst same
    rw [missing, Function.update_self, List.find?_singleton, if_pos (decide_eq_true has)]
    rfl
  · have different : identity (table.newRow row) ≠ some other := by
      rw [has]
      exact fun equal => same (Option.some.inj equal).symm
    rw [Function.update_of_ne same, List.find?_singleton, if_neg (by simpa using different), Option.or_none]

theorem Unique.identified?_replace (unique : Unique identity table) (member : existing ∈ table.rows)
    (sameKey : key stored = key existing) (has : identity existing = some value)
    (same : identity stored = identity existing) :
    (table.update (key existing) fun _ => stored).identified? identity =
      Function.update (table.identified? identity) value (some stored) := by
  have after := unique.replace member sameKey same
  have members (row : ρ) : row ∈ (table.update (key existing) fun _ => stored).rows ↔
      (row ∈ table.rows ∧ key row ≠ key existing) ∨ row = stored := Table.mem_update_const member sameKey
  funext other
  apply Option.ext
  intro row
  rw [after.identified?_eq_some_iff, members]
  by_cases equal : other = value
  · subst equal
    rw [Function.update_self, Option.some.injEq]
    constructor
    · rintro ⟨⟨old, different⟩ | rfl, rowHas⟩
      · rw [unique row old existing member other rowHas has] at different
        exact absurd rfl different
      · rfl
    · rintro rfl
      exact ⟨.inr rfl, same.trans has⟩
  · rw [Function.update_of_ne equal, unique.identified?_eq_some_iff]
    constructor
    · rintro ⟨⟨old, _⟩ | rfl, rowHas⟩
      · exact ⟨old, rowHas⟩
      · exact absurd (Option.some.inj (rowHas.symm.trans (same.trans has))) equal
    · rintro ⟨old, rowHas⟩
      refine ⟨.inl ⟨old, fun sameId => equal ?_⟩, rowHas⟩
      rw [Table.eq_of_key_eq old member sameId, has] at rowHas
      exact (Option.some.inj rowHas).symm

end SmartProcurement.Relational
