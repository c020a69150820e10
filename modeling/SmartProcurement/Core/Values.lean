import SmartProcurement.Text.Dates

namespace SmartProcurement

open Numeric Text

/-! # Values, columns and errors

A `Raw` value is what a connector delivers in a record, a `Value` what an
attribute of a mapped row holds.  Only the attribute types that the models use
are kept apart; anything else is known by its text.
-/

abbrev Uuid := Nat

export Text (Date Timestamp)

/-- JSON, as the `config` of a data source stores it. -/
inductive Json where
  | null
  | bool (value : Bool)
  | number (text : String)
  | string (text : String)
  | array (items : List Json)
  | object (fields : List (String × Json))

/-! ### Equality of JSON -/

mutual
def Json.same : Json → Json → Bool
  | .null, .null => true
  | .bool left, .bool right => left == right
  | .number left, .number right => left == right
  | .string left, .string right => left == right
  | .array left, .array right => sameItems left right
  | .object left, .object right => sameFields left right
  | _, _ => false

def sameItems : List Json → List Json → Bool
  | [], [] => true
  | first :: rest, other :: others => first.same other && sameItems rest others
  | _, _ => false

def sameField : String × Json → String × Json → Bool
  | (key, value), (other, counterpart) => key == other && value.same counterpart

def sameFields : List (String × Json) → List (String × Json) → Bool
  | [], [] => true
  | first :: rest, other :: others => sameField first other && sameFields rest others
  | _, _ => false
end

mutual
theorem Json.same_iff : (left right : Json) → (left.same right = true ↔ left = right)
  | .array items, right => by
      cases right with
      | array others => rw [Json.same, sameItems_iff items others, Json.array.injEq]
      | _ => simp [Json.same]
  | .object fields, right => by
      cases right with
      | object others => rw [Json.same, sameFields_iff fields others, Json.object.injEq]
      | _ => simp [Json.same]
  | .null, right => by cases right <;> simp [Json.same]
  | .bool _, right => by cases right <;> simp [Json.same]
  | .number _, right => by cases right <;> simp [Json.same]
  | .string _, right => by cases right <;> simp [Json.same]

theorem sameItems_iff : (left right : List Json) → (sameItems left right = true ↔ left = right)
  | [], right => by cases right <;> simp [sameItems]
  | first :: rest, right => by
      cases right with
      | nil => simp [sameItems]
      | cons other others =>
          rw [sameItems, Bool.and_eq_true, Json.same_iff first other, sameItems_iff rest others, List.cons.injEq]

theorem sameField_iff : (left right : String × Json) → (sameField left right = true ↔ left = right)
  | (key, value), (other, counterpart) => by
      rw [sameField, Bool.and_eq_true, Json.same_iff value counterpart, beq_iff_eq, Prod.mk.injEq]

theorem sameFields_iff : (left right : List (String × Json)) → (sameFields left right = true ↔ left = right)
  | [], right => by cases right <;> simp [sameFields]
  | first :: rest, right => by
      cases right with
      | nil => simp [sameFields]
      | cons other others =>
          rw [sameFields, Bool.and_eq_true, sameField_iff first other, sameFields_iff rest others, List.cons.injEq]
end

instance : DecidableEq Json := fun left right => decidable_of_iff _ (Json.same_iff left right)

/-! ### JSONB -/

/-- PostgreSQL takes no NUL in a text. -/
def storableText (text : String) : Bool := '\x00' ∉ text.toList

/-- The number that `json.loads` reads is finite, so that `json.dumps` writes it as JSON. -/
def isFiniteNumber (text : String) : Bool :=
  match Text.decimal? text with
  | some (.finite literal) =>
      let isInteger := !text.toList.any fun char => char = '.' || char = 'e' || char = 'E'
      isInteger || literal.coefficient = 0 || literal.adjusted < 308 ||
        (literal.adjusted = 308 && |literal.value| < 2 ^ 1024 - 2 ^ 970)
  | _ => false

mutual
/-- A JSONB column takes no NUL, and no number that is not finite. -/
def Json.storable : Json → Bool
  | .number text => isFiniteNumber text
  | .string text => storableText text
  | .array items => storableItems items
  | .object fields => storableFields fields
  | _ => true

def storableItems : List Json → Bool
  | [] => true
  | first :: rest => first.storable && storableItems rest

def storableField : String × Json → Bool
  | (key, value) => storableText key && value.storable

def storableFields : List (String × Json) → Bool
  | [] => true
  | first :: rest => storableField first && storableFields rest
end

inductive Raw where
  | null
  | text (text : String)
  | uuid (id : Uuid)
  | other (repr : String)
deriving DecidableEq, Repr

def hexDigits (width id : Nat) : List Char :=
  let digits := Nat.toDigits 16 id
  List.replicate (width - digits.length) '0' ++ digits

/-- `str(uuid)`. -/
def uuidText (id : Uuid) : String :=
  let hex := hexDigits 32 id
  .ofList (hex.take 8 ++ '-' :: (hex.drop 8).take 4 ++ '-' :: (hex.drop 12).take 4 ++
    '-' :: (hex.drop 16).take 4 ++ '-' :: hex.drop 20)

namespace Raw

/-- `value in (None, "")`. -/
def blank : Raw → Bool
  | .null => true
  | .text content => content.isEmpty
  | _ => false

def str : Raw → String
  | .null => "None"
  | .text content => content
  | .uuid id => uuidText id
  | .other shown => shown

end Raw

inductive Value where
  | null
  | text (text : String)
  | decimal (value : Decimal)
  | bool (value : Bool)
  | date (value : Date)
  | timestamp (value : Timestamp)
  | uuid (id : Uuid)
  | other (repr : String)
deriving DecidableEq

namespace Value

def isNull : Value → Bool
  | .null => true
  | _ => false

def ofRaw : Raw → Value
  | .null => .null
  | .text content => .text content
  | .uuid id => .uuid id
  | .other shown => .other shown

def uuid? : Value → Option Uuid
  | .uuid id => some id
  | _ => none

def timestamp? : Value → Option Timestamp
  | .timestamp value => some value
  | _ => none

def date? : Value → Option Date
  | .date value => some value
  | _ => none

def decimal? : Value → Option Decimal
  | .decimal value => some value
  | _ => none

end Value

/-- What the database refuses to store. -/
inductive Violation where
  | notNull (column : String)
  | check (column : String)
  | foreignKey (column : String)
  | unique (column : String)
  | numericOverflow (column : String)
  | invalidInput (column : String)
deriving DecidableEq, Repr

/-- The exceptions a session can end with. -/
inductive Error where
  | notFound (message : String)
  | conflict (message : String)
  | domainRule (message : String)
  | upstream (message : String)
  | connector (message : String)
  | llmUnavailable (message : String)
  | auditIntegrity (message : String)
  | multipleResultsFound
  | database (violation : Violation)
  | decimal (signal : Signal)
  | typeError (message : String)
  | missingGreenlet
  | other (message : String)
deriving DecidableEq, Repr

/-! ## Columns -/

inductive ColumnType where
  | string (limit : Option Nat)
  | numeric
  | boolean
  | date
  | datetime
  | uuid
  | json
deriving DecidableEq, Repr

/-- `_QTY = Numeric(18, 4)`. -/
def quantityColumn : Decimal.FixedPoint := ⟨18, 4⟩

/-- What the driver makes of a text parameter. -/
def bindText (column text : String) : Except Error Unit :=
  if storableText text then .ok ⟨⟩ else .error (.database (.invalidInput column))

theorem bindText_ok {column text : String} (storable : storableText text = true) : bindText column text = .ok ⟨⟩ :=
  if_pos storable

theorem bindText_error {column text : String} (unstorable : storableText text = false) :
    bindText column text = .error (.database (.invalidInput column)) :=
  if_neg (Bool.eq_false_iff.mp unstorable)

/-- The value a column stores for a bound parameter. -/
def ColumnType.bind (type : ColumnType) (column : String) : Value → Except Error Value
  | .null => .ok .null
  | .text text =>
      match type with
      | .string limit =>
          if storableText text = false ∨ limit.any (· < text.length) then
            .error (.database (.invalidInput column))
          else .ok (.text text)
      | .uuid =>
          match Text.uuid? text with
          | some id => .ok (.uuid id)
          | none => .error (.database (.invalidInput column))
      | _ => .error (.database (.invalidInput column))
  | .uuid id => if type = .uuid then .ok (.uuid id) else .error (.database (.invalidInput column))
  | .decimal value =>
      if type = .numeric then
        match quantityColumn.store value with
        | some stored => .ok (.decimal stored)
        | none => .error (.database (.numericOverflow column))
      else .error (.database (.invalidInput column))
  | .bool value => if type = .boolean then .ok (.bool value) else .error (.database (.invalidInput column))
  | .date value => if type = .date then .ok (.date value) else .error (.database (.invalidInput column))
  | .timestamp value =>
      if type = .datetime then .ok (.timestamp value) else .error (.database (.invalidInput column))
  | .other _ => .error (.database (.invalidInput column))

/-- A stored value is bound to itself, whatever its column is called. -/
theorem ColumnType.bind_stored {type : ColumnType} {column : String} {value stored : Value}
    (bound : type.bind column value = .ok stored) (other : String) :
    type.bind other value = .ok stored ∧ type.bind other stored = .ok stored := by
  cases value with
  | null => cases bound; exact ⟨rfl, rfl⟩
  | text text =>
      cases type with
      | string limit =>
          simp only [ColumnType.bind] at bound ⊢
          split at bound
          · cases bound
          · next fits =>
            cases bound
            simp only [if_neg fits, and_self]
      | uuid =>
          simp only [ColumnType.bind] at bound ⊢
          cases parsed : Text.uuid? text with
          | none => simp [parsed] at bound
          | some id =>
              simp only [parsed, Except.ok.injEq] at bound
              subst bound
              exact ⟨rfl, rfl⟩
      | _ => cases bound
  | decimal value =>
      cases type with
      | numeric =>
          simp only [ColumnType.bind, if_true] at bound ⊢
          cases kept : quantityColumn.store value with
          | none => simp [kept] at bound
          | some decimal =>
              simp only [kept, Except.ok.injEq] at bound
              subst bound
              simp [Decimal.FixedPoint.store_store kept]
      | _ => cases bound
  | other _ => cases bound
  | _ =>
      cases type <;> cases bound
      exact ⟨rfl, rfl⟩

theorem ColumnType.bind_idem {type : ColumnType} {column : String} {value stored : Value}
    (bound : type.bind column value = .ok stored) : type.bind column stored = .ok stored :=
  (ColumnType.bind_stored bound column).2

/-- The value that a column stores, null where it refuses to. -/
def ColumnType.stored (type : ColumnType) (value : Value) : Value :=
  match type.bind "" value with
  | .ok stored => stored
  | .error _ => .null

theorem ColumnType.stored_of_bind {type : ColumnType} {column : String} {value stored : Value}
    (bound : type.bind column value = .ok stored) : type.stored value = stored := by
  rw [ColumnType.stored, (ColumnType.bind_stored bound "").1]

def bindUuid (column : String) (value : Value) : Except Error (Option Uuid) :=
  (ColumnType.uuid.bind column value).map Value.uuid?

theorem bindUuid_none {column : String} {value : Value} (bound : bindUuid column value = .ok none) :
    value = .null := by
  cases value with
  | null => rfl
  | text text =>
      simp only [bindUuid, ColumnType.bind] at bound
      cases parsed : Text.uuid? text <;> simp [parsed, Except.map, Value.uuid?] at bound
  | uuid id => simp [bindUuid, ColumnType.bind, Except.map, Value.uuid?] at bound
  | _ => cases bound

/-- `Decimal(str(value))` of a stored attribute. -/
def toDecimal : Value → Except Error Decimal
  | .decimal value => .ok value
  | _ => .error (.decimal .invalidOperation)

/-- A decimal operation whose signal is trapped. -/
def trap {α : Type} : Except Signal α → Except Error α
  | .ok value => .ok value
  | .error signal => .error (.decimal signal)

end SmartProcurement
