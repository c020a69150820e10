import SmartProcurement.Relational.Identity

namespace SmartProcurement.Relational

open Keyed

/-! # Registries

A table together with a unique constraint, and the pairs of a link table together
with its composite primary key.  A row enters only past the constraint.
-/

structure Registry {ρ κ : Type} [Keyed ρ] (identity : ρ → Option κ) where
  table : Table ρ
  unique : Unique identity table

namespace Registry

variable {ρ κ : Type} [Keyed ρ] {identity : ρ → Option κ}

def empty : Registry identity := ⟨.empty, unique_empty⟩

instance : Inhabited (Registry identity) := ⟨empty⟩

def rows (registry : Registry identity) : List ρ := registry.table.rows

/-- No row is stored under the identity of the new one. -/
def Admits (registry : Registry identity) (row : ρ) : Prop :=
  ∀ other ∈ registry.rows, ∀ value, identity (registry.table.newRow row) = some value → identity other ≠ some value

def insert (registry : Registry identity) (row : ρ) (admits : registry.Admits row) : Registry identity where
  table := registry.table.insert row
  unique := registry.unique.insert admits

def update (registry : Registry identity) (id : Nat) (change : ρ → ρ)
    (keeps : ∀ row, identity (Table.assign change row) = identity row) : Registry identity where
  table := registry.table.update id change
  unique := registry.unique.update keeps

variable {registry : Registry identity} {row other : ρ} {value : κ}

@[simp] theorem insert_rows (admits : registry.Admits row) :
    (registry.insert row admits).rows = registry.rows ++ [registry.table.newRow row] := rfl

theorem mem_insert (admits : registry.Admits row) :
    other ∈ (registry.insert row admits).rows ↔ other ∈ registry.rows ∨ other = registry.table.newRow row := by
  rw [insert_rows, List.mem_append, List.mem_singleton]

variable [DecidableEq κ]

/-- `scalar_one_or_none()` of a query by the identity. -/
def lookup (registry : Registry identity) (value : κ) : Option ρ := registry.table.identified? identity value

theorem lookup_eq_some_iff : registry.lookup value = some row ↔ row ∈ registry.rows ∧ identity row = some value :=
  registry.unique.identified?_eq_some_iff

theorem lookup_eq_none_iff : registry.lookup value = none ↔ ∀ row ∈ registry.rows, identity row ≠ some value :=
  identified?_eq_none_iff

theorem lookup_of_mem (member : row ∈ registry.rows) (has : identity row = some value) : registry.lookup value = some row :=
  lookup_eq_some_iff.mpr ⟨member, has⟩

theorem admits_of_lookup (has : ∀ id, identity (withKey id row) = some value) (missing : registry.lookup value = none) :
    registry.Admits row := by
  intro other member found same
  obtain rfl := Option.some.inj ((has _).symm.trans same)
  exact lookup_eq_none_iff.mp missing other member

end Registry

/-! ## Link tables -/

structure Links where
  pairs : List (Nat × Nat)
  distinct : pairs.Nodup

namespace Links

def empty : Links := ⟨[], List.nodup_nil⟩

instance : Inhabited Links := ⟨empty⟩

def insert (links : Links) (pair : Nat × Nat) (absent : pair ∉ links.pairs) : Links where
  pairs := links.pairs ++ [pair]
  distinct := links.distinct.append (List.nodup_singleton pair) (List.disjoint_singleton.mpr absent)

theorem mem_insert {links : Links} {pair other : Nat × Nat} (absent : pair ∉ links.pairs) :
    other ∈ (links.insert pair absent).pairs ↔ other ∈ links.pairs ∨ other = pair := by
  rw [insert, List.mem_append, List.mem_singleton]

end Links

end SmartProcurement.Relational
