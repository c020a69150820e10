import SmartProcurement.Relational.Table
import Mathlib.Logic.Function.Basic

namespace SmartProcurement.Relational

open Keyed

/-! # Generated keys in two runs

Two tables that take the same insertions store the same rows under keys of their
own.  A map between the keys is extended with every insertion, and what it says of
the keys given before stays.
-/

variable {ρ τ : Type} [Keyed ρ] [Keyed τ] {table : Table ρ} {other : Table τ} {row : ρ} {id : Nat}

theorem Table.freshKey_congr {changed : Table ρ} (same : changed.rows.map key = table.rows.map key) :
    changed.freshKey = table.freshKey := by
  rw [Table.freshKey, same, ← Table.freshKey]

theorem Table.freshKey_lt_insert (table : Table ρ) (row : ρ) : table.freshKey < (table.insert row).freshKey := by
  have added : table.newRow row ∈ (table.insert row).rows := by simp
  simpa using key_lt_freshKey added

/-- The map of the keys after one more row in either table. -/
def withNext (table : Table ρ) (other : Table τ) (keys : Nat → Nat) : Nat → Nat :=
  Function.update keys table.freshKey other.freshKey

@[simp] theorem withNext_freshKey (keys : Nat → Nat) : withNext table other keys table.freshKey = other.freshKey :=
  Function.update_self ..

theorem withNext_of_lt (keys : Nat → Nat) (given : id < table.freshKey) : withNext table other keys id = keys id :=
  Function.update_of_ne (Nat.ne_of_lt given) _ _

/-- Rows that are those of another list, renumbered, also after one more row. -/
theorem map_append_new {α β : Type} {first : List α} {second : List β} {earlier later : α → β} {added : α}
    {counterpart : β} (mapped : second = first.map earlier) (same : ∀ row ∈ first, later row = earlier row)
    (new : later added = counterpart) : second ++ [counterpart] = (first ++ [added]).map later := by
  rw [List.map_append, List.map_congr_left same, ← mapped, List.map_singleton, new]

/-- A condition that the renumbering respects on the rows at hand. -/
theorem any_map_congr {α β : Type} {rows : List α} {renumber : α → β} {condition : α → Bool} {counterpart : β → Bool}
    (same : ∀ row ∈ rows, counterpart (renumber row) = condition row) :
    (rows.map renumber).any counterpart = rows.any condition := by
  rw [List.any_map, Bool.eq_iff_iff, List.any_eq_true, List.any_eq_true]
  refine exists_congr fun row => and_congr_right fun member => ?_
  rw [Function.comp_apply, same row member]

/-- An update of the only row that a query selects. -/
theorem Table.update_of_sole {select : ρ → Bool} {change : ρ → ρ} (sole : table.rows.filter select = [row]) :
    table.update (key row) change = table.updateWhere select change := by
  obtain ⟨member, selected⟩ := List.mem_filter.mp (sole ▸ List.mem_singleton_self row)
  refine ext (List.map_congr_left fun candidate candidateMember => ?_)
  have same : (key candidate == key row) = select candidate := by
    rw [Bool.eq_iff_iff, beq_iff_eq]
    constructor
    · intro equal
      rwa [eq_of_key_eq candidateMember member equal]
    · intro hit
      have listed : candidate ∈ table.rows.filter select := List.mem_filter.mpr ⟨candidateMember, hit⟩
      rw [sole, List.mem_singleton] at listed
      rw [listed]
  simp only [same]

theorem scalarOneOrNone_map {ε α β : Type} (ambiguous : ε) (f : α → β) (values : List α) :
    scalarOneOrNone ambiguous (values.map f) = (scalarOneOrNone ambiguous values).map (Option.map f) := by
  cases values with
  | nil => rfl
  | cons first rest =>
      cases rest with
      | nil => rfl
      | cons second rest => rfl

end SmartProcurement.Relational
