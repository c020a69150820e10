import SmartProcurement.Relational.Table

namespace SmartProcurement.Relational

/-! # Batched lookups

Rows that one query loads are put under their keys.  Looking a key up there is
looking it up in the table, as far as the query reaches.
-/

open Keyed

variable {ρ β : Type} [Keyed ρ] {id : Nat}

theorem lookup_batch {rows : List ρ} (distinct : (rows.map key).Nodup) (kept : ρ → Bool) (value : ρ → β) :
    ((rows.filter kept).map fun row => (key row, value row)).lookup id =
      ((rows.find? fun row => key row == id).filter kept).map value := by
  induction rows with
  | nil => rfl
  | cons row rest ih =>
      obtain ⟨own, distinct⟩ := List.nodup_cons.mp distinct
      by_cases same : key row = id
      · have found : (row :: rest).find? (fun row => key row == id) = some row :=
          List.find?_cons_of_pos (by simpa using same)
        cases isKept : kept row with
        | true =>
            have hit : (id == key row) = true := by simp [same]
            rw [found, List.filter_cons_of_pos isKept, List.map_cons, List.lookup_cons, hit, Option.filter_some, if_pos isKept]
            rfl
        | false =>
            have nobody : rest.find? (fun row => key row == id) = none := by
              rw [List.find?_eq_none]
              intro other member
              simpa [← same] using fun equal => own (List.mem_map.mpr ⟨other, member, equal⟩)
            rw [found, List.filter_cons_of_neg (by simp [isKept]), ih distinct, nobody, Option.filter_some, if_neg (by simp [isKept])]
            rfl
      · have found : (row :: rest).find? (fun row => key row == id) = rest.find? fun row => key row == id :=
          List.find?_cons_of_neg (by simpa using same)
        rw [found, ← ih distinct, List.filter_cons]
        split
        · have miss : (id == key row) = false := by simpa using Ne.symm same
          rw [List.map_cons, List.lookup_cons, miss]
        · rfl

/-- `{row.id: row for row in ...}.get(id)`. -/
theorem Table.lookup_batch (table : Table ρ) (id : Nat) (kept : ρ → Bool) (value : ρ → β) :
    ((table.rows.filter kept).map fun row => (key row, value row)).lookup id = ((table.find? id).filter kept).map value :=
  Relational.lookup_batch table.distinct kept value

end SmartProcurement.Relational
