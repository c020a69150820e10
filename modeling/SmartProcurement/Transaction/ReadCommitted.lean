import SmartProcurement.Relational.Identity

namespace SmartProcurement.Relational

open Keyed

/-! # Overlays

The rows that a transaction has written lie over the committed rows: it sees its
own version of a row it has changed, and its new rows after the others.
-/

namespace Table

variable {ρ : Type} [Keyed ρ] {base own : Table ρ} {row other : ρ}

theorem find?_eq_none_iff {table : Table ρ} {id : Nat} :
    table.find? id = none ↔ ∀ row ∈ table.rows, key row ≠ id := by
  simp [find?]

def overlay (base own : Table ρ) : Table ρ where
  rows := base.rows.map (fun row => (own.find? (key row)).getD row) ++
    own.rows.filter fun row => (base.find? (key row)).isNone
  distinct := by
    have kept : (base.rows.map fun row => (own.find? (key row)).getD row).map key = base.rows.map key := by
      rw [List.map_map]
      refine List.map_congr_left fun row _ => ?_
      simp only [Function.comp_apply]
      cases found : own.find? (key row) with
      | none => rfl
      | some version => exact (find?_some found).2
    rw [List.map_append, kept]
    refine List.Nodup.append base.distinct (own.distinct.sublist (List.filter_sublist.map key)) ?_
    intro id inBase inOwn
    obtain ⟨row, member, rfl⟩ := List.mem_map.mp inOwn
    obtain ⟨_, new⟩ := List.mem_filter.mp member
    obtain ⟨old, oldMember, same⟩ := List.mem_map.mp inBase
    exact find?_eq_none_iff.mp (Option.isNone_iff_eq_none.mp new) old oldMember same

theorem mem_overlay : row ∈ (base.overlay own).rows ↔
    row ∈ own.rows ∨ (row ∈ base.rows ∧ ∀ version ∈ own.rows, key version ≠ key row) := by
  rw [overlay, List.mem_append, List.mem_map, List.mem_filter]
  constructor
  · rintro (⟨old, member, rfl⟩ | ⟨member, _⟩)
    · cases found : own.find? (key old) with
      | none => exact .inr ⟨member, find?_eq_none_iff.mp found⟩
      | some version => exact .inl (find?_some found).1
    · exact .inl member
  · rintro (member | ⟨member, unchanged⟩)
    · cases found : base.find? (key row) with
      | none => exact .inr ⟨member, by simp⟩
      | some old =>
          obtain ⟨oldMember, same⟩ := find?_some found
          refine .inl ⟨old, oldMember, ?_⟩
          rw [same, find?_of_mem member, Option.getD_some]
    · refine .inl ⟨row, member, ?_⟩
      rw [find?_eq_none_iff.mpr unchanged, Option.getD_none]

/-- New rows alone are read after the others. -/
theorem overlay_rows (fresh : ∀ row ∈ own.rows, ∀ old ∈ base.rows, key row ≠ key old) :
    (base.overlay own).rows = base.rows ++ own.rows := by
  have unchanged : base.rows.map (fun row => (own.find? (key row)).getD row) = base.rows := by
    refine (List.map_congr_left fun old member => ?_).trans (List.map_id _)
    rw [find?_eq_none_iff.mpr fun row own => fresh row own old member, Option.getD_none, id]
  have kept : own.rows.filter (fun row => (base.find? (key row)).isNone) = own.rows := by
    refine List.filter_eq_self.mpr fun row member => ?_
    rw [find?_eq_none_iff.mpr fun old base => (fresh row member old base).symm]
    rfl
  exact congr (congrArg _ unchanged) kept

def single (row : ρ) : Table ρ := ⟨[row], List.nodup_singleton _⟩

def put (table : Table ρ) (row : ρ) : Table ρ := table.overlay (single row)

theorem mem_put {table : Table ρ} : other ∈ (table.put row).rows ↔
    other = row ∨ (other ∈ table.rows ∧ key other ≠ key row) := by
  rw [put, mem_overlay]
  simp only [single, List.mem_singleton, forall_eq, ne_comm]

theorem put_rows {table : Table ρ} (fresh : ∀ old ∈ table.rows, key row ≠ key old) :
    (table.put row).rows = table.rows ++ [row] := by
  refine overlay_rows fun new member => ?_
  rw [List.mem_singleton.mp member]
  exact fresh

end Table

end SmartProcurement.Relational

namespace SmartProcurement.Transaction

open Relational Keyed

/-! # Two transactions that read committed data

A transaction sees what is committed and what it has written itself.  It may look
an identity up, find no row, and await to insert one; it may write over a row
unless the other has.  As long as neither looks up what the other awaits or has
written, identities stay unique in everything that either sees or commits.
-/

structure Shared (ρ κ : Type) [Keyed ρ] where
  committed : Table ρ
  own : Bool → Table ρ
  awaited : Bool → Option κ

variable {ρ κ : Type} [Keyed ρ]

namespace Shared

variable (shared : Shared ρ κ) (party : Bool)

def view : Table ρ := shared.committed.overlay (shared.own party)

def await (value : Option κ) : Shared ρ κ :=
  { shared with awaited := Function.update shared.awaited party value }

def write (row : ρ) : Shared ρ κ :=
  { shared with
    own := Function.update shared.own party ((shared.own party).put row)
    awaited := Function.update shared.awaited party none }

def finish (committed : Table ρ) : Shared ρ κ where
  committed
  own := Function.update shared.own party .empty
  awaited := Function.update shared.awaited party none

def commit : Shared ρ κ := shared.finish party (shared.view party)

def abort : Shared ρ κ := shared.finish party shared.committed

end Shared

section Parties

variable {shared : Shared ρ κ} {party other : Bool} {value : Option κ} {row : ρ} {committed : Table ρ}

theorem eq_or_eq_not (party other : Bool) : other = party ∨ other = !party := by
  cases party <;> cases other <;> decide

@[simp] theorem await_self : (shared.await party value).awaited party = value := Function.update_self ..

@[simp] theorem await_other : (shared.await party value).awaited (!party) = shared.awaited (!party) :=
  Function.update_of_ne (by simp) ..

@[simp] theorem write_awaited_self : (shared.write party row).awaited party = none := Function.update_self ..

@[simp] theorem write_awaited_other : (shared.write party row).awaited (!party) = shared.awaited (!party) :=
  Function.update_of_ne (by simp) ..

@[simp] theorem write_own_self : (shared.write party row).own party = (shared.own party).put row :=
  Function.update_self ..

@[simp] theorem write_own_other : (shared.write party row).own (!party) = shared.own (!party) :=
  Function.update_of_ne (by simp) ..

@[simp] theorem finish_awaited_self : (shared.finish party committed).awaited party = none := Function.update_self ..

@[simp] theorem finish_awaited_other : (shared.finish party committed).awaited (!party) = shared.awaited (!party) :=
  Function.update_of_ne (by simp) ..

@[simp] theorem finish_own_self : (shared.finish party committed).own party = .empty := Function.update_self ..

@[simp] theorem finish_own_other : (shared.finish party committed).own (!party) = shared.own (!party) :=
  Function.update_of_ne (by simp) ..

end Parties

variable {identity : ρ → Option κ} {shared : Shared ρ κ} {party : Bool} {row existing stored : ρ} {value : κ}

theorem mem_view : row ∈ (shared.view party).rows ↔ row ∈ (shared.own party).rows ∨
    (row ∈ shared.committed.rows ∧ ∀ version ∈ (shared.own party).rows, key version ≠ key row) :=
  Table.mem_overlay

/-- No row of the other transaction, or to come from it, has the identity. -/
def Untouched (identity : ρ → Option κ) (shared : Shared ρ κ) (party : Bool) (value : κ) : Prop :=
  (∀ row ∈ (shared.own !party).rows, identity row ≠ some value) ∧ shared.awaited (!party) ≠ some value

instance [DecidableEq κ] : Decidable (Untouched identity shared party value) :=
  inferInstanceAs (Decidable (_ ∧ _))

/-- Two rows with one identity are never both there for a reader: one of them is
overwritten by the transaction that has written the other. -/
structure Exclusive (identity : ρ → Option κ) (shared : Shared ρ κ) : Prop where
  committed : Unique identity shared.committed
  own : ∀ party, Unique identity (shared.own party)
  apart : ∀ party, ∀ first ∈ (shared.own party).rows, ∀ second ∈ (shared.own !party).rows, ∀ value,
    identity first = some value → identity second ≠ some value
  overwritten : ∀ party, ∀ first ∈ shared.committed.rows, ∀ second ∈ (shared.own party).rows, ∀ value,
    identity first = some value → identity second = some value →
      ∃ version ∈ (shared.own party).rows, key version = key first
  locked : ∀ party, ∀ first ∈ (shared.own party).rows, ∀ second ∈ (shared.own !party).rows, key first ≠ key second
  awaited : ∀ party value, shared.awaited party = some value →
    (∀ row ∈ (shared.view party).rows, identity row ≠ some value) ∧ Untouched identity shared party value

namespace Exclusive

theorem view (exclusive : Exclusive identity shared) (party : Bool) : Unique identity (shared.view party) := by
  intro first firstMember second secondMember value firstHas secondHas
  rcases mem_view.mp firstMember with firstOwn | ⟨firstOld, firstKept⟩
  · rcases mem_view.mp secondMember with secondOwn | ⟨secondOld, secondKept⟩
    · exact exclusive.own party first firstOwn second secondOwn value firstHas secondHas
    · obtain ⟨version, member, same⟩ :=
        exclusive.overwritten party second secondOld first firstOwn value secondHas firstHas
      exact absurd same (secondKept version member)
  · rcases mem_view.mp secondMember with secondOwn | ⟨secondOld, _⟩
    · obtain ⟨version, member, same⟩ :=
        exclusive.overwritten party first firstOld second secondOwn value firstHas secondHas
      exact absurd same (firstKept version member)
    · exact exclusive.committed first firstOld second secondOld value firstHas secondHas

theorem start (committed : Table ρ) (unique : Unique identity committed) :
    Exclusive identity (⟨committed, fun _ => .empty, fun _ => none⟩ : Shared ρ κ) where
  committed := unique
  own _ := unique_empty
  apart _ _ member := absurd member List.not_mem_nil
  overwritten _ _ _ _ member := absurd member List.not_mem_nil
  locked _ _ member := absurd member List.not_mem_nil
  awaited _ _ awaits := nomatch awaits

theorem look (exclusive : Exclusive identity shared) (missing : ∀ row ∈ (shared.view party).rows, identity row ≠ some value)
    (untouched : Untouched identity shared party value) : Exclusive identity (shared.await party (some value)) where
  committed := exclusive.committed
  own := exclusive.own
  apart := exclusive.apart
  overwritten := exclusive.overwritten
  locked := exclusive.locked
  awaited := by
    intro other sought awaits
    rcases eq_or_eq_not party other with rfl | rfl
    · rw [await_self, Option.some.injEq] at awaits
      subst awaits
      refine ⟨missing, untouched.1, ?_⟩
      rw [await_other]
      exact untouched.2
    · rw [await_other] at awaits
      obtain ⟨unseen, outside, _⟩ := exclusive.awaited (!party) sought awaits
      refine ⟨unseen, outside, ?_⟩
      rw [Bool.not_not, await_self]
      rintro isSought
      obtain rfl := Option.some.inj isSought
      exact untouched.2 awaits

theorem release (exclusive : Exclusive identity shared) (party : Bool) :
    Exclusive identity (shared.await party none) where
  committed := exclusive.committed
  own := exclusive.own
  apart := exclusive.apart
  overwritten := exclusive.overwritten
  locked := exclusive.locked
  awaited := by
    intro other sought awaits
    rcases eq_or_eq_not party other with rfl | rfl
    · rw [await_self] at awaits
      cases awaits
    · rw [await_other] at awaits
      obtain ⟨unseen, outside, _⟩ := exclusive.awaited (!party) sought awaits
      refine ⟨unseen, outside, ?_⟩
      rw [Bool.not_not, await_self]
      nofun

/-- Nobody else has the identity of the row. -/
def Free (identity : ρ → Option κ) (shared : Shared ρ κ) (party : Bool) (stored : ρ) : Prop :=
  ∀ value, identity stored = some value →
    (∀ row ∈ (shared.view party).rows, identity row = some value → key row = key stored) ∧
      Untouched identity shared party value

theorem put_unique (exclusive : Exclusive identity shared) (free : Free identity shared party stored) :
    Unique identity ((shared.own party).put stored) := by
  have visible {row : ρ} (member : row ∈ (shared.own party).rows) : row ∈ (shared.view party).rows :=
    mem_view.mpr (.inl member)
  intro first firstMember second secondMember value firstHas secondHas
  rcases Table.mem_put.mp firstMember with rfl | ⟨firstOld, firstKey⟩
  · rcases Table.mem_put.mp secondMember with rfl | ⟨secondOld, secondKey⟩
    · rfl
    · exact absurd ((free value firstHas).1 second (visible secondOld) secondHas) secondKey
  · rcases Table.mem_put.mp secondMember with rfl | ⟨secondOld, _⟩
    · exact absurd ((free value secondHas).1 first (visible firstOld) firstHas) firstKey
    · exact exclusive.own party first firstOld second secondOld value firstHas secondHas

theorem put_apart (exclusive : Exclusive identity shared) (free : Free identity shared party stored) :
    ∀ first ∈ ((shared.own party).put stored).rows, ∀ second ∈ (shared.own !party).rows, ∀ value,
      identity first = some value → identity second ≠ some value := by
  intro first firstMember second secondMember value firstHas
  rcases Table.mem_put.mp firstMember with rfl | ⟨firstOld, _⟩
  · exact (free value firstHas).2.1 second secondMember
  · exact exclusive.apart party first firstOld second secondMember value firstHas

/-- A committed row with the identity of the new one is the one it is written over. -/
theorem put_overwritten (exclusive : Exclusive identity shared) (free : Free identity shared party stored) :
    ∀ first ∈ shared.committed.rows, ∀ second ∈ ((shared.own party).put stored).rows, ∀ value,
      identity first = some value → identity second = some value →
        ∃ version ∈ ((shared.own party).put stored).rows, key version = key first := by
  intro first firstMember second secondMember value firstHas secondHas
  by_cases same : key first = key stored
  · exact ⟨stored, Table.mem_put.mpr (.inl rfl), same.symm⟩
  · have overwrites : ∃ version ∈ (shared.own party).rows, key version = key first := by
      rcases Table.mem_put.mp secondMember with rfl | ⟨secondOld, _⟩
      · by_contra unchanged
        have seen : first ∈ (shared.view party).rows :=
          mem_view.mpr (.inr ⟨firstMember, fun version member equal => unchanged ⟨version, member, equal⟩⟩)
        exact same ((free value secondHas).1 first seen firstHas)
      · exact exclusive.overwritten party first firstMember second secondOld value firstHas secondHas
    obtain ⟨version, member, equal⟩ := overwrites
    exact ⟨version, Table.mem_put.mpr (.inr ⟨member, fun again => same (equal.symm.trans again)⟩), equal⟩

theorem put_locked (exclusive : Exclusive identity shared) (unlocked : ∀ row ∈ (shared.own !party).rows, key row ≠ key stored) :
    ∀ first ∈ ((shared.own party).put stored).rows, ∀ second ∈ (shared.own !party).rows, key first ≠ key second := by
  intro first firstMember second secondMember
  rcases Table.mem_put.mp firstMember with rfl | ⟨firstOld, _⟩
  · exact (unlocked second secondMember).symm
  · exact exclusive.locked party first firstOld second secondMember

/-- What the other transaction awaits is not written. -/
theorem put_awaited (exclusive : Exclusive identity shared) (free : Free identity shared party stored)
    (awaits : shared.awaited (!party) = some value) : ∀ row ∈ ((shared.own party).put stored).rows, identity row ≠ some value := by
  obtain ⟨_, outside, _⟩ := exclusive.awaited (!party) value awaits
  rw [Bool.not_not] at outside
  intro row member has
  rcases Table.mem_put.mp member with rfl | ⟨old, _⟩
  · exact (free value has).2.2 awaits
  · exact outside row old has

/-- A row is written that the other transaction has not written, under an identity
that nobody else has. -/
theorem write (exclusive : Exclusive identity shared) (unlocked : ∀ row ∈ (shared.own !party).rows, key row ≠ key stored)
    (free : Free identity shared party stored) : Exclusive identity (shared.write party stored) := by
  have apart := exclusive.put_apart free
  have locked := exclusive.put_locked unlocked
  refine ⟨exclusive.committed, fun other => ?_, fun other => ?_, fun other => ?_, fun other => ?_, fun other sought awaits => ?_⟩
  · rcases eq_or_eq_not party other with rfl | rfl
    · rw [write_own_self]
      exact exclusive.put_unique free
    · rw [write_own_other]
      exact exclusive.own _
  · rcases eq_or_eq_not party other with rfl | rfl
    · rw [write_own_self, write_own_other]
      exact apart
    · rw [write_own_other, Bool.not_not, write_own_self]
      intro first firstMember second secondMember value firstHas secondHas
      exact apart second secondMember first firstMember value secondHas firstHas
  · rcases eq_or_eq_not party other with rfl | rfl
    · rw [write_own_self]
      exact exclusive.put_overwritten free
    · rw [write_own_other]
      exact exclusive.overwritten _
  · rcases eq_or_eq_not party other with rfl | rfl
    · rw [write_own_self, write_own_other]
      exact locked
    · rw [write_own_other, Bool.not_not, write_own_self]
      intro first firstMember second secondMember
      exact (locked second secondMember first firstMember).symm
  · rcases eq_or_eq_not party other with rfl | rfl
    · rw [write_awaited_self] at awaits
      cases awaits
    · rw [write_awaited_other] at awaits
      refine ⟨?_, ?_, ?_⟩
      · rw [Shared.view, write_own_other]
        exact (exclusive.awaited (!party) sought awaits).1
      · rw [Bool.not_not, write_own_self]
        exact exclusive.put_awaited free awaits
      · rw [Bool.not_not, write_awaited_self]
        nofun

theorem insert (exclusive : Exclusive identity shared) (awaits : shared.awaited party = some value)
    (has : identity stored = some value) (fresh : ∀ row ∈ (shared.own !party).rows, key row ≠ key stored) :
    Exclusive identity (shared.write party stored) := by
  refine exclusive.write fresh fun other otherHas => ?_
  obtain rfl := Option.some.inj (has.symm.trans otherHas)
  obtain ⟨unseen, untouched⟩ := exclusive.awaited party value awaits
  exact ⟨fun row member rowHas => absurd rowHas (unseen row member), untouched⟩

theorem replace (exclusive : Exclusive identity shared) (seen : existing ∈ (shared.view party).rows)
    (unlocked : ∀ row ∈ (shared.own !party).rows, key row ≠ key stored) (sameKey : key stored = key existing)
    (same : identity stored = identity existing) : Exclusive identity (shared.write party stored) := by
  rw [sameKey] at unlocked
  refine exclusive.write (sameKey ▸ unlocked) fun value has => ?_
  rw [same] at has
  refine ⟨fun row member rowHas => ?_, fun row member rowHas => ?_, fun awaits => ?_⟩
  · rw [exclusive.view party row member existing seen value rowHas has, sameKey]
  · rcases mem_view.mp seen with isOwn | ⟨isCommitted, _⟩
    · exact exclusive.apart party existing isOwn row member value has rowHas
    · obtain ⟨version, versionMember, equal⟩ :=
        exclusive.overwritten (!party) existing isCommitted row member value has rowHas
      exact unlocked version versionMember equal
  · obtain ⟨unseen, outside, _⟩ := exclusive.awaited (!party) value awaits
    rw [Bool.not_not] at outside
    rcases mem_view.mp seen with isOwn | ⟨isCommitted, _⟩
    · exact outside existing isOwn has
    · exact unseen existing (mem_view.mpr (.inr ⟨isCommitted, unlocked⟩)) has

/-- A transaction ends: what is committed then was committed before or is its own. -/
theorem finish (exclusive : Exclusive identity shared) {committed : Table ρ} (unique : Unique identity committed)
    (origin : ∀ row ∈ committed.rows, row ∈ (shared.own party).rows ∨ row ∈ shared.committed.rows) :
    Exclusive identity (shared.finish party committed) := by
  constructor
  · exact unique
  · intro other
    rcases eq_or_eq_not party other with rfl | rfl
    · rw [finish_own_self]
      exact unique_empty
    · rw [finish_own_other]
      exact exclusive.own _
  · intro other first firstMember second secondMember
    rcases eq_or_eq_not party other with rfl | rfl
    · rw [finish_own_self] at firstMember
      exact absurd firstMember List.not_mem_nil
    · rw [Bool.not_not, finish_own_self] at secondMember
      exact absurd secondMember List.not_mem_nil
  · intro other first firstMember second secondMember value firstHas secondHas
    rcases eq_or_eq_not party other with rfl | rfl
    · rw [finish_own_self] at secondMember
      exact absurd secondMember List.not_mem_nil
    · rw [finish_own_other] at secondMember ⊢
      rcases origin first firstMember with isOwn | isCommitted
      · exact absurd secondHas (exclusive.apart party first isOwn second secondMember value firstHas)
      · exact exclusive.overwritten _ first isCommitted second secondMember value firstHas secondHas
  · intro other first firstMember second secondMember
    rcases eq_or_eq_not party other with rfl | rfl
    · rw [finish_own_self] at firstMember
      exact absurd firstMember List.not_mem_nil
    · rw [Bool.not_not, finish_own_self] at secondMember
      exact absurd secondMember List.not_mem_nil
  · intro other sought awaits
    rcases eq_or_eq_not party other with rfl | rfl
    · rw [finish_awaited_self] at awaits
      cases awaits
    · rw [finish_awaited_other] at awaits
      obtain ⟨unseen, outside, _⟩ := exclusive.awaited _ sought awaits
      rw [Bool.not_not] at outside
      refine ⟨fun row member => ?_, ?_, ?_⟩
      · rw [mem_view, finish_own_other] at member
        rcases member with isOwn | ⟨isCommitted, unchanged⟩
        · exact unseen row (mem_view.mpr (.inl isOwn))
        · rcases origin row isCommitted with written | old
          · exact outside row written
          · exact unseen row (mem_view.mpr (.inr ⟨old, unchanged⟩))
      · rw [Bool.not_not, finish_own_self]
        exact fun _ member => absurd member List.not_mem_nil
      · rw [Bool.not_not, finish_awaited_self]
        nofun

theorem abort (exclusive : Exclusive identity shared) (party : Bool) : Exclusive identity (shared.abort party) :=
  exclusive.finish exclusive.committed fun _ member => .inr member

theorem commit (exclusive : Exclusive identity shared) (party : Bool) : Exclusive identity (shared.commit party) :=
  exclusive.finish (exclusive.view party) fun _ member => (mem_view.mp member).imp_right And.left

end Exclusive

end SmartProcurement.Transaction
