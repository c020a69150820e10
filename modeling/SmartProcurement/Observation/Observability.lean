import SmartProcurement.Database

namespace SmartProcurement.Observation

open Relational Transaction

/-! # Opening and closing observability gaps -/

/-- What identifies a gap while it is open. -/
structure GapKey where
  enterpriseId : Uuid
  scope : GapScope
  scopeRef : ScopeRef
  reason : GapReason
deriving DecidableEq, Repr

def GapKey.current (key : GapKey) (gap : ObservabilityGap) : Bool :=
  gap.enterpriseId = key.enterpriseId ∧ gap.scope = key.scope ∧ gap.scopeRef = key.scopeRef ∧
    gap.reason = key.reason ∧ gap.closedAt = none

/-- `_current`. -/
def current (key : GapKey) : Session (Option ObservabilityGap) :=
  scalarOrNone fun db => db.observabilityGap.rows.filter key.current

def newGap (now : Timestamp) (key : GapKey) : ObservabilityGap where
  id := 0
  enterpriseId := key.enterpriseId
  scope := key.scope
  scopeRef := key.scopeRef
  reason := key.reason
  openedAt := now
  closedAt := none

def openGap (now : Timestamp) (key : GapKey) : Session PUnit := do
  match ← current key with
  | some _ => return ⟨⟩
  | none => write fun db => { db with observabilityGap := db.observabilityGap.insert (newGap now key) }

def closeGap (now : Timestamp) (key : GapKey) : Session PUnit := do
  match ← current key with
  | none => return ⟨⟩
  | some gap =>
      write fun db => { db with
        observabilityGap := db.observabilityGap.update gap.id fun row => { row with closedAt := some now } }

/-- The gap that a failed sync or connection test of a source opens. -/
def sourceUnavailable (enterpriseId dataSourceId : Uuid) : GapKey where
  enterpriseId
  scope := .source
  scopeRef := .id dataSourceId
  reason := .sourceUnavailable

/-- The gap that a persistent LLM failure opens for a capability. -/
def aiUnavailable (enterpriseId : Uuid) (capabilityKey : String) : GapKey where
  enterpriseId
  scope := .capability
  scopeRef := .key capabilityKey
  reason := .aiUnavailable

/-- Some gap with this key is open. -/
def GapKey.isOpen (key : GapKey) (db : DB) : Bool :=
  db.observabilityGap.rows.any key.current

def GapKey.openGaps (key : GapKey) (db : DB) : List ObservabilityGap :=
  db.observabilityGap.rows.filter key.current

@[simp] theorem current_newGap (now : Timestamp) (key : GapKey) (id : Uuid) :
    key.current { newGap now key with id } = true := by
  simp [GapKey.current, newGap]

section Results

variable {now : Timestamp} {key : GapKey} {before after : DB} {result : PUnit}

theorem openGap_ok (ran : openGap now key before = .ok result after) :
    key.isOpen after = true ∧
      ∃ gaps, after = { before with observabilityGap := gaps } := by
  simp only [openGap, current, bind_eq_ok, scalarOrNone_eq_ok] at ran
  obtain ⟨found, middle, ⟨single, rfl⟩, ran⟩ := ran
  have rows := scalarOneOrNone_ok single
  cases found with
  | none =>
      simp only [write_eq_ok] at ran
      subst ran
      refine ⟨?_, _, rfl⟩
      simp only [GapKey.isOpen, Table.insert_rows, List.any_append, List.any_cons, List.any_nil,
        Bool.or_false, Bool.or_eq_true]
      exact .inr (current_newGap now key _)
  | some gap =>
      simp only [pure_eq_ok] at ran
      obtain ⟨_, rfl⟩ := ran
      refine ⟨?_, _, rfl⟩
      have member : gap ∈ before.observabilityGap.rows.filter key.current := by
        rw [rows]
        simp
      obtain ⟨stored, isCurrent⟩ := List.mem_filter.mp member
      exact List.any_eq_true.mpr ⟨gap, stored, isCurrent⟩

theorem closeGap_ok (ran : closeGap now key before = .ok result after) :
    key.isOpen after = false ∧
      ∃ gaps, after = { before with observabilityGap := gaps } := by
  simp only [closeGap, current, bind_eq_ok, scalarOrNone_eq_ok] at ran
  obtain ⟨found, middle, ⟨single, rfl⟩, ran⟩ := ran
  have rows := scalarOneOrNone_ok single
  cases found with
  | none =>
      simp only [pure_eq_ok] at ran
      obtain ⟨_, rfl⟩ := ran
      refine ⟨?_, _, rfl⟩
      have nobody : before.observabilityGap.rows.filter key.current = [] := by simpa using rows
      simpa [GapKey.isOpen] using List.filter_eq_nil_iff.mp nobody
  | some gap =>
      simp only [write_eq_ok] at ran
      subst ran
      refine ⟨?_, _, rfl⟩
      apply Bool.eq_false_iff.mpr
      intro stillOpen
      obtain ⟨row, member, isCurrent⟩ := List.any_eq_true.mp stillOpen
      obtain ⟨old, oldMember, rfl⟩ := Table.mem_updateWhere.mp member
      by_cases hit : Keyed.key old == gap.id
      · simp [hit, GapKey.current, Table.assign, Keyed.withKey] at isCurrent
      · rw [if_neg hit] at isCurrent
        have filtered : old ∈ before.observabilityGap.rows.filter key.current :=
          List.mem_filter.mpr ⟨oldMember, isCurrent⟩
        rw [rows] at filtered
        have same : old = gap := by simpa using filtered
        exact hit (by simp [same, Keyed.key])

theorem isOpen_iff {db : DB} : key.isOpen db = true ↔
    ∃ gap ∈ db.observabilityGap.rows, key.current gap = true :=
  List.any_eq_true

theorem current_unique {other : GapKey} {gap : ObservabilityGap} (left : key.current gap = true)
    (right : other.current gap = true) : other = key := by
  simp only [GapKey.current, decide_eq_true_eq] at left right
  cases key
  cases other
  simp_all

theorem openGap_others {other : GapKey} (ran : openGap now key before = .ok result after)
    (different : other ≠ key) : other.isOpen after = other.isOpen before := by
  simp only [openGap, current, bind_eq_ok, scalarOrNone_eq_ok] at ran
  obtain ⟨found, _, ⟨_, rfl⟩, ran⟩ := ran
  cases found with
  | some gap =>
      obtain ⟨_, rfl⟩ := pure_eq_ok.mp ran
      rfl
  | none =>
      rw [write_eq_ok] at ran
      subst ran
      have foreign : other.current (before.observabilityGap.newRow (newGap now key)) = false :=
        Bool.eq_false_iff.mpr fun isCurrent => different (current_unique (current_newGap now key _) isCurrent)
      simp [GapKey.isOpen, foreign]

theorem closeGap_opens_none {other : GapKey} (ran : closeGap now key before = .ok result after)
    (isOpen : other.isOpen after = true) : other.isOpen before = true := by
  simp only [closeGap, current, bind_eq_ok, scalarOrNone_eq_ok] at ran
  obtain ⟨found, _, ⟨_, rfl⟩, ran⟩ := ran
  cases found with
  | none =>
      obtain ⟨_, rfl⟩ := pure_eq_ok.mp ran
      exact isOpen
  | some gap =>
      rw [write_eq_ok] at ran
      subst ran
      obtain ⟨row, member, isCurrent⟩ := isOpen_iff.mp isOpen
      obtain ⟨old, oldMember, rfl⟩ := Table.mem_updateWhere.mp member
      split at isCurrent
      · simp [GapKey.current, Table.assign, Keyed.withKey] at isCurrent
      · exact isOpen_iff.mpr ⟨old, oldMember, isCurrent⟩

theorem mem_openGaps {db : DB} {gap : ObservabilityGap} :
    gap ∈ key.openGaps db ↔ gap ∈ db.observabilityGap.rows ∧ key.current gap = true :=
  List.mem_filter

theorem isOpen_eq_false_iff {db : DB} : key.isOpen db = false ↔ key.openGaps db = [] := by
  rw [GapKey.isOpen, List.any_eq_false, GapKey.openGaps, List.filter_eq_nil_iff]

theorem current_ok {found : Option ObservabilityGap} (ran : current key before = .ok found after) :
    after = before ∧ key.openGaps before = found.toList := by
  obtain ⟨single, rfl⟩ := scalarOrNone_eq_ok.mp ran
  exact ⟨rfl, scalarOneOrNone_ok single⟩

theorem openGap_met (ran : openGap now key before = .ok result after) : (key.openGaps before).length ≤ 1 := by
  obtain ⟨found, _, looked, _⟩ := bind_eq_ok.mp ran
  rw [(current_ok looked).2]
  exact Option.length_toList_le

theorem current_returns (single : (key.openGaps before).length ≤ 1) :
    ∃ found, current key before = .ok found before :=
  ⟨_, scalarOrNone_eq_ok.mpr ⟨scalarOneOrNone_of_length_le _ single, rfl⟩⟩

/-- A call raises where it meets several open gaps, and writes nothing then. -/
theorem openGap_error {reason : Error} (raised : openGap now key before = .error reason after) :
    after = before ∧ ¬ (key.openGaps before).length ≤ 1 := by
  simp only [openGap, bind_eq_error] at raised
  rcases raised with looking | ⟨found, _, _, writing⟩
  · refine ⟨?_, fun single => ?_⟩
    · simp only [current, scalarOrNone, bind_eq_error, read_eq_error, false_or, read_eq_ok, lift_eq_error] at looking
      obtain ⟨_, _, ⟨_, rfl⟩, _, rfl⟩ := looking
      rfl
    · obtain ⟨_, returns⟩ := current_returns single
      rw [returns] at looking
      cases looking
  · cases found with
    | some _ => simp at writing
    | none => simp at writing

theorem openGap_returns (single : (key.openGaps before).length ≤ 1) :
    ∃ done after, openGap now key before = .ok done after := by
  obtain ⟨found, ran⟩ := current_returns single
  refine exists_ok_bind ran ?_
  cases found with
  | none => exact ⟨⟨⟩, _, write_eq_ok.mpr rfl⟩
  | some gap => exact ⟨⟨⟩, _, pure_eq_ok.mpr ⟨rfl, rfl⟩⟩

theorem closeGap_returns (single : (key.openGaps before).length ≤ 1) :
    ∃ done after, closeGap now key before = .ok done after := by
  obtain ⟨found, ran⟩ := current_returns single
  refine exists_ok_bind ran ?_
  cases found with
  | none => exact ⟨⟨⟩, _, pure_eq_ok.mpr ⟨rfl, rfl⟩⟩
  | some gap => exact ⟨⟨⟩, _, write_eq_ok.mpr rfl⟩

theorem closeGap_single (ran : closeGap now key before = .ok result after) : (key.openGaps before).length ≤ 1 := by
  obtain ⟨found, middle, looked, _⟩ := bind_eq_ok.mp ran
  obtain ⟨rfl, rows⟩ := current_ok looked
  rw [rows]
  cases found with
  | none => exact Nat.zero_le 1
  | some gap => exact Nat.le_refl 1

/-- A call that returns has met at most one open gap, and leaves exactly one. -/
theorem openGap_single (ran : openGap now key before = .ok result after) :
    (key.openGaps after).length = 1 := by
  obtain ⟨found, middle, looked, ran⟩ := bind_eq_ok.mp ran
  obtain ⟨rfl, rows⟩ := current_ok looked
  cases found with
  | some gap =>
      obtain ⟨_, rfl⟩ := pure_eq_ok.mp ran
      rw [rows]
      rfl
  | none =>
      rw [write_eq_ok] at ran
      subst ran
      have added : key.current (middle.observabilityGap.newRow (newGap now key)) = true :=
        current_newGap now key _
      have nobody : middle.observabilityGap.rows.filter key.current = [] := rows
      simp only [GapKey.openGaps, Table.filter_insert, nobody, added]
      rfl

theorem closeGap_none (ran : closeGap now key before = .ok result after) : key.openGaps after = [] :=
  isOpen_eq_false_iff.mp (closeGap_ok ran).1

theorem openGap_frame {other : GapKey} (ran : openGap now key before = .ok result after) (different : other ≠ key) :
    other.openGaps after = other.openGaps before := by
  obtain ⟨found, middle, looked, ran⟩ := bind_eq_ok.mp ran
  obtain ⟨rfl, _⟩ := current_ok looked
  cases found with
  | some gap =>
      obtain ⟨_, rfl⟩ := pure_eq_ok.mp ran
      rfl
  | none =>
      rw [write_eq_ok] at ran
      subst ran
      have foreign : other.current (middle.observabilityGap.newRow (newGap now key)) = false :=
        Bool.eq_false_iff.mpr fun isCurrent => different (current_unique (current_newGap now key _) isCurrent)
      refine (Table.filter_insert ..).trans ?_
      rw [foreign, if_neg Bool.false_ne_true, List.append_nil]
      rfl

theorem closeGap_frame {other : GapKey} (ran : closeGap now key before = .ok result after) (different : other ≠ key) :
    other.openGaps after = other.openGaps before := by
  obtain ⟨found, middle, looked, ran⟩ := bind_eq_ok.mp ran
  obtain ⟨rfl, rows⟩ := current_ok looked
  cases found with
  | none =>
      obtain ⟨_, rfl⟩ := pure_eq_ok.mp ran
      rfl
  | some gap =>
      rw [write_eq_ok] at ran
      subst ran
      have member : gap ∈ key.openGaps middle := rows ▸ List.mem_singleton_self gap
      obtain ⟨stored, isCurrent⟩ := mem_openGaps.mp member
      refine Table.filter_updateWhere_of_not fun row rowMember hit => ?_
      obtain rfl : row = gap := Table.eq_of_key_eq rowMember stored (beq_iff_eq.mp hit)
      refine ⟨Bool.eq_false_iff.mpr fun also => different (current_unique isCurrent also), ?_⟩
      simp [GapKey.current, Table.assign, Keyed.withKey]

end Results

end SmartProcurement.Observation
