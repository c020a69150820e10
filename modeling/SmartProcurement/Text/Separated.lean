import Mathlib.Data.List.DropRight
import Mathlib.Data.List.Infix

namespace SmartProcurement.Text

/-! # Separated fields

Fields joined by a separator and read back by splitting at it.  Nothing escapes
the separator, and the reader trims what it finds and drops blank fields.
-/

section Separated

variable {α : Type*} [DecidableEq α] {separator : α} {trim : List α → List α} {field text : List α}

/-- The trimmed pieces between the separators, without the blank ones. -/
def fieldsOf (separator : α) (trim : List α → List α) (text : List α) : List (List α) :=
  ((text.splitOn separator).map trim).filter (· ≠ [])

theorem fieldsOf_append (front rest : List α) : fieldsOf separator trim (front ++ separator :: rest) =
    fieldsOf separator trim front ++ fieldsOf separator trim rest := by
  simp only [fieldsOf, List.splitOn_append_cons_self, List.map_append, List.filter_append]

theorem fieldsOf_nil (blank : trim [] = []) : fieldsOf separator trim [] = [] := by
  simp [fieldsOf, blank]

/-- Joined fields are read one by one. -/
theorem fieldsOf_intercalate (blank : trim [] = []) (fields : List (List α)) :
    fieldsOf separator trim ([separator].intercalate fields) = fields.flatMap (fieldsOf separator trim) := by
  induction fields with
  | nil => exact fieldsOf_nil blank
  | cons first rest ih =>
      cases rest with
      | nil => simp
      | cons second rest =>
          rw [List.intercalate_cons_cons, List.append_assoc, List.singleton_append, fieldsOf_append, ih]
          rfl

/-- A text without separator is one field, unless it is blank. -/
theorem fieldsOf_whole (whole : separator ∉ field) :
    fieldsOf separator trim field = [trim field].filter (· ≠ []) := by
  rw [fieldsOf, List.splitOn_eq_singleton whole, List.map_singleton]

theorem separator_not_mem_splitOn (text : List α) : ∀ piece ∈ text.splitOn separator, separator ∉ piece := by
  induction text with
  | nil => simp
  | cons first rest ih =>
      rw [List.splitOn_cons_eq_if_modifyHead]
      split
      · simpa using ih
      · next different =>
        cases pieces : rest.splitOn separator with
        | nil => exact absurd pieces (List.splitOn_ne_nil _ _)
        | cons piece others =>
            rw [pieces] at ih
            obtain ⟨own, rest⟩ := List.forall_mem_cons.mp ih
            refine List.forall_mem_cons.mpr ⟨fun member => ?_, rest⟩
            rcases List.mem_cons.mp member with rfl | member
            · exact different (by simp)
            · exact own member

theorem separator_not_mem_fieldsOf (trims : ∀ piece, trim piece ⊆ piece)
    (member : field ∈ fieldsOf separator trim text) :
    separator ∉ field := by
  obtain ⟨mapped, _⟩ := List.mem_filter.mp member
  obtain ⟨piece, split, rfl⟩ := List.mem_map.mp mapped
  exact fun contains => separator_not_mem_splitOn text piece split (trims piece contains)

/-- The field reads back as itself. -/
structure Plain (separator : α) (trim : List α → List α) (field : List α) : Prop where
  whole : separator ∉ field
  trimmed : trim field = field

/-- Joined fields read back as they are exactly if each of them does. -/
theorem fieldsOf_intercalate_eq_iff (blank : trim [] = []) (trims : ∀ piece, trim piece ⊆ piece)
    {fields : List (List α)} (filled : ∀ field ∈ fields, field ≠ []) :
    fieldsOf separator trim ([separator].intercalate fields) = fields ↔
      ∀ field ∈ fields, Plain separator trim field := by
  rw [fieldsOf_intercalate blank]
  constructor
  · intro survives
    have whole : ∀ field ∈ fields, separator ∉ field := by
      intro field member
      rw [← survives] at member
      obtain ⟨source, _, read⟩ := List.mem_flatMap.mp member
      exact separator_not_mem_fieldsOf trims read
    have pieces : fields.flatMap (fieldsOf separator trim) = (fields.map trim).filter (· ≠ []) := by
      rw [← List.flatMap_singleton' (fields.map trim), List.flatMap_map, List.filter_flatMap]
      exact List.flatMap_congr fun field member => fieldsOf_whole (whole field member)
    rw [pieces] at survives
    -- no piece is blank, since as many are left as there were fields
    have kept : (fields.map trim).filter (· ≠ []) = fields.map trim :=
      List.filter_sublist.eq_of_length (by rw [survives, List.length_map])
    rw [kept] at survives
    have same : ∀ field ∈ fields, trim field = field := List.map_inj_left.mp (survives.trans (List.map_id fields).symm)
    exact fun field member => ⟨whole field member, same field member⟩
  · intro plain
    have own : ∀ field ∈ fields, fieldsOf separator trim field = [field] := by
      intro field member
      obtain ⟨whole, trimmed⟩ := plain field member
      rw [fieldsOf_whole whole, trimmed]
      simpa using filled field member
    rw [List.flatMap_congr own, List.flatMap_singleton']

/-- Fields without the separator are known by the text that joins them. -/
theorem intercalate_inj {fields others : List (List α)} (whole : ∀ field ∈ fields, separator ∉ field)
    (othersWhole : ∀ field ∈ others, separator ∉ field) (filled : fields ≠ []) (othersFilled : others ≠ [])
    (same : [separator].intercalate fields = [separator].intercalate others) : fields = others := by
  rw [← List.splitOn_intercalate separator whole filled, same, List.splitOn_intercalate separator othersWhole othersFilled]

end Separated

end SmartProcurement.Text
