import Mathlib.Data.List.AList

namespace SmartProcurement.Relational

/-! # String-keyed dictionaries -/

abbrev Dict (α : Type) := AList fun _ : String => α

namespace Dict

variable {α β : Type}

def filterMap (f : String → α → Option β) (dict : Dict α) : Dict β where
  entries := dict.entries.filterMap fun entry => (f entry.1 entry.2).map fun value => ⟨entry.1, value⟩
  nodupKeys := by
    have keys : ((dict.entries.filterMap fun entry =>
        (f entry.1 entry.2).map fun value => (⟨entry.1, value⟩ : Sigma fun _ : String => β)).map
          Sigma.fst).Sublist (dict.entries.map Sigma.fst) := by
      induction dict.entries with
      | nil => simp
      | cons entry rest ih =>
          cases kept : f entry.1 entry.2 with
          | none => simpa [kept] using ih.cons entry.1
          | some value => simpa [kept] using ih.cons_cons entry.1
    exact List.Nodup.sublist keys dict.nodupKeys

theorem lookup_eq_some_iff {dict : Dict α} {key : String} {value : α} :
    dict.lookup key = some value ↔ ⟨key, value⟩ ∈ dict.entries :=
  AList.mem_lookup_iff

@[simp] theorem lookup_filterMap (f : String → α → Option β) (dict : Dict α) (key : String) :
    (filterMap f dict).lookup key = (dict.lookup key).bind (f key) := by
  apply Option.ext
  intro value
  rw [lookup_eq_some_iff, Option.bind_eq_some_iff]
  simp only [filterMap, List.mem_filterMap, Option.map_eq_some_iff]
  constructor
  · rintro ⟨⟨found, old⟩, member, _, kept, same⟩
    cases same
    exact ⟨old, lookup_eq_some_iff.mpr member, kept⟩
  · rintro ⟨old, found, kept⟩
    exact ⟨⟨key, old⟩, lookup_eq_some_iff.mp found, value, kept, rfl⟩

/-- `{k: v for k, v in dict.items() if keep(k)}`. -/
def restrict (keep : String → Bool) (dict : Dict α) : Dict α :=
  filterMap (fun key value => if keep key then some value else none) dict

/-- `dict.setdefault(key, value)`. -/
def setDefault (dict : Dict α) (key : String) (value : α) : Dict α :=
  if (dict.lookup key).isSome then dict else dict.insert key value

theorem lookup_setDefault (dict : Dict α) (key other : String) (value : α) :
    (dict.setDefault key value).lookup other =
      if other = key then some ((dict.lookup key).getD value) else dict.lookup other := by
  unfold setDefault
  cases found : dict.lookup key with
  | some old =>
      by_cases same : other = key
      · subst same
        simp [found]
      · simp [same]
  | none =>
      by_cases same : other = key
      · subst same
        simp
      · simp [same, AList.lookup_insert_ne same]

/-- `dict.update(changes)`. -/
def update (dict changes : Dict α) : Dict α :=
  changes.entries.foldl (fun dict entry => dict.insert entry.1 entry.2) dict

theorem lookup_update_of_none (dict : Dict α) {changes : Dict α} {key : String} (absent : changes.lookup key = none) :
    (dict.update changes).lookup key = dict.lookup key := by
  have folds : ∀ (entries : List (Sigma fun _ : String => α)) (start : Dict α), (∀ entry ∈ entries, entry.1 ≠ key) →
      (entries.foldl (fun dict entry => dict.insert entry.1 entry.2) start).lookup key = start.lookup key := by
    intro entries
    induction entries with
    | nil => exact fun _ _ => rfl
    | cons first rest ih =>
        intro start others
        rw [List.foldl_cons, ih _ fun entry member => others entry (List.mem_cons_of_mem first member),
          AList.lookup_insert_ne (others first List.mem_cons_self).symm]
  refine folds changes.entries dict fun entry member same => ?_
  subst same
  rw [lookup_eq_some_iff.mpr member] at absent
  cases absent

def ofList (entries : List (String × α)) : Dict α :=
  entries.foldl (fun dict entry => dict.insert entry.1 entry.2) ∅

/-! ## Dictionaries with the same values -/

/-- Every key has the same value in both, whatever their order. -/
def Same (left right : Dict α) : Prop := ∀ key, left.lookup key = right.lookup key

section Same

variable {left right : Dict α}

theorem Same.refl (dict : Dict α) : Same dict dict := fun _ => rfl

theorem Same.symm (same : Same left right) : Same right left := fun key => (same key).symm

theorem Same.perm (same : Same left right) : left.entries.Perm right.entries := by
  refine List.lookup_ext left.nodupKeys right.nodupKeys fun key value => ?_
  have found := same key
  unfold AList.lookup at found
  rw [found]

theorem Same.isEmpty (same : Same left right) : left.entries.isEmpty = right.entries.isEmpty :=
  Bool.eq_iff_iff.mpr (by simp only [List.isEmpty_iff_length_eq_zero, same.perm.length_eq])

theorem Same.filterMap (same : Same left right) (f : String → α → Option β) : Same (filterMap f left) (filterMap f right) := by
  intro key
  rw [lookup_filterMap, lookup_filterMap, same key]

theorem Same.setDefault (same : Same left right) (key : String) (value : α) :
    Same (left.setDefault key value) (right.setDefault key value) := by
  intro other
  rw [lookup_setDefault, lookup_setDefault, same key, same other]

theorem Same.insert (same : Same left right) (key : String) (value : α) :
    Same (AList.insert key value left) (AList.insert key value right) := by
  intro other
  by_cases hit : other = key
  · subst hit
    rw [AList.lookup_insert, AList.lookup_insert]
  · rw [AList.lookup_insert_ne hit, AList.lookup_insert_ne hit, same other]

end Same

end Dict

end SmartProcurement.Relational
