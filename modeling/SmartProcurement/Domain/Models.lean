import SmartProcurement.Core.Values
import SmartProcurement.Relational.Table
import Mathlib.Logic.Function.Basic

namespace SmartProcurement

open Relational

/-! # The canonical procurement domain

The eleven entities share the columns of the `UUIDPrimaryKey`, `Timestamps`,
`EnterpriseScoped` and `Provenanced` mixins; the columns of their own are kept
by name, because sync reads and assigns them by name.
-/

inductive Entity where
  | item
  | warehouse
  | supplier
  | itemSupplier
  | stockLevel
  | price
  | leadTime
  | consumption
  | productionDemand
  | qualityRecord
  | purchaseOrder
deriving DecidableEq, Repr

def Entity.name : Entity → String
  | .item => "item"
  | .warehouse => "warehouse"
  | .supplier => "supplier"
  | .itemSupplier => "item_supplier"
  | .stockLevel => "stock_level"
  | .price => "price"
  | .leadTime => "lead_time"
  | .consumption => "consumption"
  | .productionDemand => "production_demand"
  | .qualityRecord => "quality_record"
  | .purchaseOrder => "purchase_order"

inductive Observability where
  | fresh
  | stale
  | lost
deriving DecidableEq, Repr

structure Column where
  name : String
  type : ColumnType
  nullable : Bool := true
  default : Option Value := none
  allowed : Option (List String) := none
  references : Option Entity := none

def itemFk : Column := { name := "item_id", type := .uuid, nullable := false, references := some .item }

def supplierFk (nullable : Bool) : Column :=
  { name := "supplier_id", type := .uuid, nullable, references := some .supplier }

def warehouseFk : Column := { name := "warehouse_id", type := .uuid, references := some .warehouse }

def zeroQuantity (name : String) : Column :=
  { name, type := .numeric, nullable := false, default := some (.decimal (.finite 0)) }

def emptyText (name : String) : Column :=
  { name, type := .string none, nullable := false, default := some (.text "") }

def flag (name : String) (default : Bool) : Column :=
  { name, type := .boolean, nullable := false, default := some (.bool default) }

/-- The columns the mixins add to every canonical table. -/
def mixinColumns : List Column := [
  { name := "id", type := .uuid, nullable := false },
  { name := "created_at", type := .datetime, nullable := false },
  { name := "updated_at", type := .datetime, nullable := false },
  { name := "enterprise_id", type := .uuid, nullable := false },
  { name := "source_provenance", type := .json, nullable := false },
  { name := "observability", type := .string none, nullable := false,
    default := some (.text "fresh"), allowed := some ["fresh", "stale", "lost"] }]

def ownColumns : Entity → List Column
  | .item => [
      { name := "sku", type := .string none, nullable := false },
      emptyText "name",
      { name := "category", type := .string none },
      { name := "unit", type := .string none },
      flag "is_active" true]
  | .warehouse => [
      { name := "code", type := .string none, nullable := false },
      emptyText "name",
      { name := "location", type := .string none }]
  | .supplier => [
      { name := "code", type := .string none, nullable := false },
      emptyText "name",
      flag "is_approved" false,
      emptyText "notes"]
  | .stockLevel => [
      itemFk,
      warehouseFk,
      zeroQuantity "quantity",
      { name := "min_quantity", type := .numeric },
      { name := "as_of", type := .datetime }]
  | .itemSupplier => [
      itemFk,
      supplierFk false,
      flag "preferred" false]
  | .price => [
      itemFk,
      supplierFk false,
      zeroQuantity "unit_price",
      { name := "currency", type := .string (some 3) },
      { name := "valid_from", type := .date },
      { name := "valid_to", type := .date }]
  | .leadTime => [
      itemFk,
      supplierFk false,
      zeroQuantity "days",
      { name := "as_of", type := .datetime }]
  | .purchaseOrder => [
      { name := "external_ref", type := .string none, nullable := false },
      { itemFk with nullable := true },
      supplierFk true,
      zeroQuantity "quantity",
      { name := "unit_price", type := .numeric },
      { name := "status", type := .string none, nullable := false,
        default := some (.text "open"), allowed := some ["open", "received", "cancelled"] },
      { name := "ordered_at", type := .datetime },
      { name := "expected_at", type := .datetime },
      { name := "received_at", type := .datetime },
      { name := "received_quantity", type := .numeric },
      { name := "origin", type := .string none, nullable := false,
        default := some (.text "external"), allowed := some ["external", "smart_procurement"] },
      { name := "procurement_action_id", type := .uuid }]
  | .consumption => [
      itemFk,
      warehouseFk,
      zeroQuantity "quantity",
      { name := "period_start", type := .date },
      { name := "period_end", type := .date }]
  | .productionDemand => [
      itemFk,
      zeroQuantity "quantity",
      { name := "need_by", type := .date },
      { name := "source_ref", type := .string none }]
  | .qualityRecord => [
      itemFk,
      supplierFk true,
      { name := "defect_rate", type := .numeric },
      emptyText "note",
      { name := "as_of", type := .datetime }]

/-- `sa_inspect(model).columns`. -/
def columns (entity : Entity) : List Column :=
  mixinColumns ++ ownColumns entity

/-- The column that a unique constraint pairs with `enterprise_id`. -/
def uniqueColumn : Entity → Option String
  | .item => some "sku"
  | .warehouse => some "code"
  | .supplier => some "code"
  | .purchaseOrder => some "external_ref"
  | _ => none

def ownColumn? (entity : Entity) (name : String) : Option Column :=
  (ownColumns entity).find? fun column => column.name == name

/-- `source_provenance`. -/
structure Provenance where
  dataSourceId : Uuid
  sourceFieldPath : String
  fetchedAt : Timestamp
deriving DecidableEq, Repr

/-- A row of a canonical table.  `col` is total so that a row can be read at any
name; it is null at every name that is no column of the entity. -/
structure Row where
  id : Uuid
  enterpriseId : Uuid
  createdAt : Timestamp
  sourceProvenance : Option Provenance
  observability : Observability
  col : String → Value

instance : Keyed Row where
  key := Row.id
  withKey id row := { row with id }
  key_withKey _ _ := rfl
  withKey_key _ := rfl

namespace Row

/-- A row with the listed columns, the others null. -/
def ofColumns (enterpriseId : Uuid) (observability : Observability) (source : Option Uuid)
    (columns : List (String × Value)) : Row where
  id := 0
  enterpriseId
  createdAt := 0
  sourceProvenance := source.map fun dataSourceId => ⟨dataSourceId, "", 0⟩
  observability
  col := fun name => (columns.lookup name).getD .null

def set (row : Row) (name : String) (value : Value) : Row :=
  { row with col := Function.update row.col name value }

@[simp] theorem set_id (row : Row) (name : String) (value : Value) : (row.set name value).id = row.id := rfl

@[simp] theorem set_enterpriseId (row : Row) (name : String) (value : Value) :
    (row.set name value).enterpriseId = row.enterpriseId := rfl

@[simp] theorem set_createdAt (row : Row) (name : String) (value : Value) :
    (row.set name value).createdAt = row.createdAt := rfl

@[simp] theorem set_sourceProvenance (row : Row) (name : String) (value : Value) :
    (row.set name value).sourceProvenance = row.sourceProvenance := rfl

@[simp] theorem set_observability (row : Row) (name : String) (value : Value) :
    (row.set name value).observability = row.observability := rfl

@[simp] theorem set_col_self (row : Row) (name : String) (value : Value) :
    (row.set name value).col name = value := by
  simp [set]

theorem set_col_other (row : Row) (value : Value) {name other : String} (different : other ≠ name) :
    (row.set name value).col other = row.col other := by
  simp [set, different]

/-- Not lost: `observability != 'lost'`. -/
def trusted (row : Row) : Bool := row.observability != .lost

def uuid? (row : Row) (name : String) : Option Uuid := (row.col name).uuid?

def date? (row : Row) (name : String) : Option Date := (row.col name).date?

def timestamp? (row : Row) (name : String) : Option Timestamp := (row.col name).timestamp?

end Row

end SmartProcurement
