import Mathlib.Data.List.Nodup

namespace SmartProcurement.Relational

/-! # Dictionaries in insertion order -/

variable {κ α : Type} [DecidableEq κ]

/-- `entries[key] = value`: an old key keeps its place. -/
def assign : List (κ × α) → κ → α → List (κ × α)
  | [], key, value => [(key, value)]
  | (other, old) :: rest, key, value =>
      if other = key then (other, value) :: rest else (other, old) :: assign rest key value

/-- `dict(pairs)`. -/
def fromPairs (pairs : List (κ × α)) : List (κ × α) :=
  pairs.foldl (fun entries pair => assign entries pair.1 pair.2) []

section Keys

variable {entries pairs : List (κ × α)} {key other : κ} {value : α}

theorem keys_assign : (assign entries key value).map Prod.fst =
    if key ∈ entries.map Prod.fst then entries.map Prod.fst else entries.map Prod.fst ++ [key] := by
  induction entries with
  | nil => rfl
  | cons first rest ih =>
      unfold assign
      by_cases same : first.1 = key
      · simp [same]
      · simp only [same, if_false, List.map_cons, ih, List.mem_cons, Ne.symm same, false_or]
        split <;> rfl

theorem mem_keys_assign :
    other ∈ (assign entries key value).map Prod.fst ↔ other = key ∨ other ∈ entries.map Prod.fst := by
  rw [keys_assign]
  split
  · next listed =>
    refine ⟨.inr, ?_⟩
    rintro (rfl | member)
    · exact listed
    · exact member
  · rw [List.mem_append, List.mem_singleton, or_comm]

theorem mem_keys_foldl_assign :
    other ∈ (pairs.foldl (fun entries pair => assign entries pair.1 pair.2) entries).map Prod.fst ↔
    other ∈ entries.map Prod.fst ∨ other ∈ pairs.map Prod.fst := by
  induction pairs generalizing entries with
  | nil => simp
  | cons first rest ih =>
      rw [List.foldl_cons, ih, mem_keys_assign, List.map_cons, List.mem_cons]
      tauto

theorem mem_keys_fromPairs : key ∈ (fromPairs pairs).map Prod.fst ↔ key ∈ pairs.map Prod.fst := by
  simp [fromPairs, mem_keys_foldl_assign]

theorem assign_of_not_mem (fresh : key ∉ entries.map Prod.fst) :
    assign entries key value = entries ++ [(key, value)] := by
  induction entries with
  | nil => rfl
  | cons first rest ih =>
      rw [List.map_cons, List.mem_cons, not_or] at fresh
      rw [assign, if_neg (Ne.symm fresh.1), ih fresh.2]
      rfl

/-- Entries under other keys are appended. -/
theorem foldl_assign_of_nodup (distinct : ((entries ++ pairs).map Prod.fst).Nodup) :
    pairs.foldl (fun entries pair => assign entries pair.1 pair.2) entries = entries ++ pairs := by
  induction pairs generalizing entries with
  | nil => simp
  | cons first rest ih =>
      have fresh : first.1 ∉ entries.map Prod.fst := by
        rw [List.map_append, List.map_cons] at distinct
        exact fun member => List.disjoint_of_nodup_append distinct member List.mem_cons_self
      rw [List.foldl_cons, assign_of_not_mem fresh, ih, List.append_assoc]
      · rfl
      · rwa [List.append_assoc]

end Keys

/-! ## Rows by their names -/

section Named

variable {ρ : Type} [BEq κ] [LawfulBEq κ] {name : ρ → κ} {value : ρ → α} {rows : List ρ} {row : ρ} {key : κ} {result : α}

theorem lookup_map_eq_some (found : (rows.map fun row => (name row, value row)).lookup key = some result) :
    ∃ row ∈ rows, name row = key ∧ value row = result := by
  induction rows with
  | nil => cases found
  | cons first rest ih =>
      rw [List.map_cons, List.lookup_cons] at found
      by_cases same : key = name first
      · rw [beq_iff_eq.mpr same] at found
        exact ⟨first, List.mem_cons_self, same.symm, Option.some.inj found⟩
      · rw [beq_false_of_ne same] at found
        obtain ⟨row, member, facts⟩ := ih found
        exact ⟨row, List.mem_cons_of_mem _ member, facts⟩

omit [DecidableEq κ] in
theorem lookup_map_eq_none (missing : (rows.map fun row => (name row, value row)).lookup key = none) :
    ∀ row ∈ rows, name row ≠ key := by
  intro row member named
  have different := List.lookup_eq_none_iff.mp missing _ (List.mem_map_of_mem member)
  simp [named] at different

theorem lookup_map_of_mem (distinct : (rows.map name).Nodup) (member : row ∈ rows) :
    (rows.map fun row => (name row, value row)).lookup (name row) = some (value row) := by
  cases found : (rows.map fun row => (name row, value row)).lookup (name row) with
  | none => exact absurd rfl (lookup_map_eq_none found row member)
  | some result =>
      obtain ⟨other, otherMember, same, rfl⟩ := lookup_map_eq_some found
      rw [List.inj_on_of_nodup_map distinct otherMember member same]

end Named

end SmartProcurement.Relational
