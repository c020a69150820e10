import Mathlib.Data.List.Sort

namespace SmartProcurement.Relational

/-! # Sorting by a key that is not unique

A query that sorts by such a key and returns the first rows may return any of the
rows that tie, whatever the order in which the rows are enumerated.
-/

variable {α : Type} {before : α → α → Prop} {rows others picked sorted : List α} {row other : α} {count : Nat}

/-- No row comes before this one. -/
structure Leads (before : α → α → Prop) (row : α) (rows : List α) : Prop where
  member : row ∈ rows
  first : ∀ other ∈ rows, before row other

/-- The rows that the first places of the sorted rows may be taken by. -/
inductive Limit (before : α → α → Prop) : Nat → List α → List α → Prop where
  | zero (rows : List α) : Limit before 0 rows []
  | empty (count : Nat) : Limit before count [] []
  | next {count : Nat} {rows others picked : List α} {row : α} (split : rows.Perm (row :: others))
      (first : ∀ other ∈ others, before row other) (rest : Limit before count others picked) :
      Limit before (count + 1) rows (row :: picked)

theorem Leads.split (leads : Leads before row rows) :
    ∃ others, rows.Perm (row :: others) ∧ ∀ other ∈ others, before row other := by
  obtain ⟨front, back, rfl⟩ := List.append_of_mem leads.member
  refine ⟨front ++ back, List.perm_middle, fun other member => leads.first other ?_⟩
  rw [List.mem_append, List.mem_cons]
  exact (List.mem_append.mp member).imp_right .inr

theorem Leads.perm (leads : Leads before row rows) (perm : rows.Perm others) : Leads before row others :=
  ⟨perm.subset leads.member, fun other member => leads.first other (perm.symm.subset member)⟩

theorem Leads.limit (leads : Leads before row rows) : Limit before 1 rows [row] := by
  obtain ⟨others, split, first⟩ := leads.split
  exact .next split first (.zero others)

theorem limit_of_sorted (order : sorted.Pairwise before) (perm : rows.Perm sorted) : Limit before count rows
    (sorted.take count) := by
  induction count generalizing rows sorted with
  | zero => exact .zero rows
  | succ count ih =>
      cases sorted with
      | nil =>
          rw [perm.eq_nil]
          exact .empty _
      | cons row rest =>
          obtain ⟨first, order⟩ := List.pairwise_cons.mp order
          exact .next perm first (ih order (.refl rest))

theorem Limit.nil (limit : Limit before (count + 1) rows []) : rows = [] := by
  cases limit
  rfl

/-- Of the rows that are left, those that tie with the first one lead all the rows. -/
theorem Leads.of_rest [IsTrans α before] (split : rows.Perm (row :: others)) (leads : Leads before other others)
    (tie : ∃ tied ∈ others, Leads before tied rows) : Leads before other rows := by
  obtain ⟨tied, inOthers, first⟩ := tie
  exact ⟨split.symm.subset (List.mem_cons_of_mem _ leads.member), fun later member =>
    Trans.trans (leads.first tied inOthers) (first.first later member)⟩

section Order

variable [Std.Total before]

theorem leads_of_split (split : rows.Perm (row :: others)) (first : ∀ other ∈ others, before row other) :
    Leads before row rows := by
  refine ⟨split.symm.subset List.mem_cons_self, fun other member => ?_⟩
  rcases List.mem_cons.mp (split.subset member) with rfl | member
  · exact (Std.Total.total other other).elim id id
  · exact first other member

theorem Limit.leads (limit : Limit before (count + 1) rows (row :: picked)) : Leads before row rows := by
  cases limit with
  | next split first _ => exact leads_of_split split first

variable [IsTrans α before] [DecidableRel before]

/-- The first places are taken by these rows in some enumeration of all rows. -/
theorem limit_iff : Limit before count rows picked ↔
    ∃ enumerated : List α, enumerated.Perm rows ∧ (enumerated.insertionSort before).take count = picked := by
  constructor
  · intro limit
    suffices ∃ sorted, List.Perm sorted rows ∧ sorted.Pairwise before ∧ sorted.take count = picked by
      obtain ⟨sorted, perm, order, taken⟩ := this
      exact ⟨sorted, perm, by rw [order.insertionSort_eq, taken]⟩
    induction limit with
    | zero rows =>
        exact ⟨rows.insertionSort before, List.perm_insertionSort before rows, List.pairwise_insertionSort before rows, rfl⟩
    | empty count => exact ⟨[], .refl _, .nil, List.take_nil⟩
    | @next count rows others picked row split first _ ih =>
        obtain ⟨sorted, perm, order, taken⟩ := ih
        refine ⟨row :: sorted, (perm.cons row).trans split.symm, List.pairwise_cons.mpr ⟨fun other member => ?_, order⟩, ?_⟩
        · exact first other (perm.subset member)
        · rw [List.take_succ_cons, taken]
  · rintro ⟨enumerated, perm, rfl⟩
    exact limit_of_sorted (List.pairwise_insertionSort before enumerated)
      (perm.symm.trans (List.perm_insertionSort before enumerated).symm)

end Order

end SmartProcurement.Relational
