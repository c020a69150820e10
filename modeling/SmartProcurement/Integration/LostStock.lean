import SmartProcurement.Integration.SignalHistory

namespace SmartProcurement.Integration

open Relational Transaction Numeric

/-! # Stock without a warehouse

A stock record is stored under its item and its warehouse.  A code that no
warehouse has is as good as none, so the records of an item without a known
warehouse share one row.
-/

/-- What a stock record says: how much of an item there is, and where. -/
structure StockEntry where
  sku : String
  code : Option String
  quantity : ℚ
deriving DecidableEq

/-- The record as a stock record with a numeric quantity, read through the mappings
of stock levels; it spells out no id. -/
def stockEntry (mappings : List FieldMapping) (record : Record) : Option StockEntry :=
  match extract record mappings with
  | .error _ => none
  | .ok attrs =>
      if attrs.keys.any endsWithId then none
      else
        match attrs.lookup "item_sku", (attrs.lookup "quantity").bind fun raw => Text.decimal? raw.str with
        | some sku, some number =>
            match number.value with
            | .finite quantity => some ⟨sku.str, (attrs.lookup "warehouse_code").map Raw.str, quantity⟩
            | _ => none
        | _, _ => none

/-- No stock record, or one with a numeric quantity. -/
def Legible (mappings : List FieldMapping) (record : Record) : Prop :=
  ∀ attrs, extract record mappings = .ok attrs → attrs.entries = [] ∨ (stockEntry mappings record).isSome

namespace SyncCall

/-- The mappings through which the call reads stock records. -/
def stockMappings (call : SyncCall) (before : DB) : List FieldMapping :=
  mappingsOf (confirmedMappings call.dataSourceId before) .stockLevel

def stockEntries (call : SyncCall) (before : DB) (batch : FetchBatch) : List StockEntry :=
  batch.records.filterMap (stockEntry (call.stockMappings before))

/-- The state that the stock records of a batch meet: its masters are in. -/
def masters (call : SyncCall) (before : DB) (batch : FetchBatch) : DB :=
  state (([.item, .warehouse, .supplier, .itemSupplier] : List Entity).foldlM
    (syncEntity (call.context batch) (confirmedMappings call.dataSourceId before) batch.records) .start before)

end SyncCall

/-- The first stock of an enterprise: legible records, each of an item that it has, and
each pair of item and warehouse code once. -/
structure FirstStock (call : SyncCall) (before : DB) (batch : FetchBatch) : Prop where
  fetched : call.Fetches before batch
  returns : returned (call.session before) = true
  fresh : ∀ row ∈ (before.canonical .stockLevel).rows, row.enterpriseId ≠ call.enterpriseId
  legible : ∀ record ∈ batch.records, Legible (call.stockMappings before) record
  known : ∀ entry ∈ call.stockEntries before batch,
    ∃! id, IsMaster call.enterpriseId itemRef entry.sku (call.masters before batch) id
  distinct : ((call.stockEntries before batch).map fun entry => (entry.sku, entry.code)).Nodup

/-! ## What is stored, and what is lost -/

def numberOf : Value → ℚ
  | .decimal (.finite number) => number
  | _ => 0

/-- The stock of an item over all its rows. -/
def onHand (db : DB) (enterpriseId itemId : Uuid) : ℚ :=
  (((db.canonical .stockLevel).rows.filter fun row =>
    row.enterpriseId = enterpriseId ∧ row.col "item_id" = .uuid itemId).map fun row => numberOf (row.col "quantity")).sum

def amount (entries : List StockEntry) : ℚ := (entries.map (·.quantity)).sum

/-- The entry names a warehouse that there is. -/
def placed (enterpriseId : Uuid) (db : DB) (entry : StockEntry) : Bool :=
  entry.code.any fun code => (db.canonical .warehouse).rows.any fun row =>
    row.enterpriseId = enterpriseId ∧ row.col "code" = .text code

/-- The entries that share the row without a warehouse. -/
def unplaced (enterpriseId : Uuid) (db : DB) (entries : List StockEntry) : List StockEntry :=
  entries.filter fun entry => !placed enterpriseId db entry

/-- The entries that end in a row of their own. -/
def kept (enterpriseId : Uuid) (db : DB) (entries : List StockEntry) : List StockEntry :=
  entries.filter (placed enterpriseId db) ++ (unplaced enterpriseId db entries).getLast?.toList

/-- What rounding to the digits of the column takes off. -/
def roundedOff (entries : List StockEntry) : ℚ :=
  (entries.map fun entry => entry.quantity - quantityColumn.quantize entry.quantity).sum

/-- What is lost of the entries of an item: all those without a warehouse but the
last, and what is rounded off the others. -/
def lost (enterpriseId : Uuid) (db : DB) (entries : List StockEntry) : ℚ :=
  amount (unplaced enterpriseId db entries).dropLast + roundedOff (kept enterpriseId db entries)

def NoStockLost (call : SyncCall) (before : DB) (batch : FetchBatch) : Prop :=
  ∀ item ∈ ((call.commit before).canonical .item).rows, item.enterpriseId = call.enterpriseId →
    ∀ sku, item.col "sku" = .text sku →
      onHand (call.commit before) call.enterpriseId item.id =
        amount ((call.stockEntries before batch).filter (·.sku = sku))

/-! ## One record -/

/-- The quantity as the column stores it. -/
def storedQuantity (entry : StockEntry) : Value := .decimal (.finite (quantityColumn.quantize entry.quantity))

/-- A record of stock as it is accepted: of an item, in a warehouse or in none. -/
structure StockAccepted (enterpriseId : Uuid) (db : DB) (entry : StockEntry) (itemId : Uuid) (place : Value)
    (accepted : Accepted) : Prop where
  entity : accepted.entity = .stockLevel
  isMaster : IsMaster enterpriseId itemRef entry.sku db itemId
  isPlace : (∃ code ∈ entry.code, ∃ id, IsMaster enterpriseId warehouseRef code db id ∧ place = .uuid id) ∨
    (placed enterpriseId db entry = false ∧ place = .null)
  identity : accepted.identity = (enterpriseId, [.uuid itemId, place])
  quantity : accepted.attrs.lookup "quantity" = some (.decimal (.finite entry.quantity))
  tenantless : accepted.attrs.lookup "enterprise_id" = none

section Records

variable {context : SyncContext} {mappings : List FieldMapping} {before after : DB} {entry : StockEntry}
variable {progress later : Progress} {record : Record} {attrs resolved : Dict Raw}

/-- What the attributes of a legible record are. -/
structure Reads (attrs : Dict Raw) (entry : StockEntry) : Prop where
  spelled : ∀ name, endsWithId name = true → attrs.lookup name = none
  sku : ∃ raw, attrs.lookup "item_sku" = some raw ∧ raw.str = entry.sku
  code : (attrs.lookup "warehouse_code").map Raw.str = entry.code
  quantity : ∃ raw number, attrs.lookup "quantity" = some raw ∧ Text.decimal? raw.str = some number ∧
    number.value = .finite entry.quantity

theorem stockEntry_eq_some (reads : stockEntry mappings record = some entry) :
    ∃ attrs, extract record mappings = .ok attrs ∧ Reads attrs entry := by
  unfold stockEntry at reads
  cases extracted : extract record mappings with
  | error reason => simp [extracted] at reads
  | ok attrs =>
      refine ⟨attrs, rfl, ?_⟩
      simp only [extracted] at reads
      split at reads
      · cases reads
      · next spelled =>
        have spelled : ∀ name, endsWithId name = true → attrs.lookup name = none := by
          intro name suffix
          refine AList.lookup_eq_none.mpr fun member => spelled ?_
          exact List.any_eq_true.mpr ⟨name, member, suffix⟩
        cases sku : attrs.lookup "item_sku" with
        | none => simp [sku] at reads
        | some sku =>
            cases given : attrs.lookup "quantity" with
            | none => simp [given] at reads
            | some raw =>
                cases read : Text.decimal? raw.str with
                | none => simp [given, read] at reads
                | some number =>
                    cases value : number.value with
                    | finite quantity =>
                        simp only [sku, given, Option.bind_some, read, value, Option.some.injEq] at reads
                        subst reads
                        exact ⟨spelled, ⟨_, sku, rfl⟩, rfl, raw, number, given, read, value⟩
                    | _ => simp [sku, given, read, value] at reads

theorem placed_iff {enterpriseId : Uuid} {db : DB} :
    placed enterpriseId db entry = true ↔ ∃ code ∈ entry.code, ∃ id, IsMaster enterpriseId warehouseRef code db id := by
  have named (code : String) : ((db.canonical .warehouse).rows.any fun row =>
      row.enterpriseId = enterpriseId ∧ row.col "code" = .text code) = true ↔
        ∃ id, IsMaster enterpriseId warehouseRef code db id := by
    rw [List.any_eq_true]
    constructor
    · rintro ⟨row, member, isNamed⟩
      exact ⟨row.id, row, member, rfl, of_decide_eq_true isNamed⟩
    · rintro ⟨_, row, member, _, isNamed⟩
      exact ⟨row, member, decide_eq_true isNamed⟩
  unfold placed
  cases entry.code with
  | none => simp
  | some code => simpa using named code

/-- The attributes under which a legible record is stored. -/
theorem stockAccepted_of_resolved {resolution : Resolution} (reads : Reads attrs entry)
    (filled : ∀ name raw, attrs.lookup name = some raw → raw.blank = false)
    (sound : CacheSound context.enterpriseId progress.cache before)
    (known : ∃ id, IsMaster context.enterpriseId itemRef entry.sku before id)
    (resolving : resolveRefs context.enterpriseId .stockLevel attrs progress.cache before = .ok resolution after)
    (accepted : resolution.resolved = some resolved) :
    ∃ itemId place, resolved.lookup "item_id" = some (.uuid itemId) ∧
      StockAccepted context.enterpriseId before entry itemId place
        ⟨.stockLevel, context.enterpriseId, coerced .stockLevel resolved⟩ := by
  have named := resolveRefs_ok sound resolving accepted
  have names {reference : Reference} {raw : Raw} {id : Uuid} (given : attrs.lookup reference.attr = some raw)
      (isMaster : IsMaster context.enterpriseId reference raw.str before id) :
      Names context.enterpriseId reference attrs before id := ⟨raw, given, filled _ raw given, isMaster⟩
  obtain ⟨itemId, isMaster, item⟩ : ∃ id, IsMaster context.enterpriseId itemRef entry.sku before id ∧
      resolved.lookup "item_id" = some (.uuid id) := by
    obtain ⟨raw, given, isSku⟩ := reads.sku
    rcases named itemRef (by decide) with ⟨id, ⟨other, otherGiven, _, isMaster⟩, key⟩ | ⟨_, nobody⟩
    · obtain rfl := Option.some.inj (given.symm.trans otherGiven)
      exact ⟨id, isSku ▸ isMaster, key⟩
    · obtain ⟨id, isMaster⟩ := known
      exact absurd (names given (isSku ▸ isMaster)) (nobody id)
  obtain ⟨place, isPlace, warehouse⟩ : ∃ place : Value,
      ((∃ code ∈ entry.code, ∃ id, IsMaster context.enterpriseId warehouseRef code before id ∧ place = .uuid id) ∨
        (placed context.enterpriseId before entry = false ∧ place = .null)) ∧
        (coerced .stockLevel resolved).lookup "warehouse_id" = some place := by
    have key (raw : Option Raw) (same : resolved.lookup "warehouse_id" = raw) :
        (coerced .stockLevel resolved).lookup "warehouse_id" = some ((raw.map Value.ofRaw).getD .null) := by
      rw [lookup_coerced, same, bind_coerceAttr (by decide), if_pos (by decide)]
      cases raw <;> rfl
    rcases named warehouseRef (by decide) with ⟨id, ⟨raw, given, _, isMaster⟩, isKey⟩ | ⟨same, nobody⟩
    · refine ⟨.uuid id, .inl ⟨raw.str, ?_, id, isMaster, rfl⟩, key _ isKey⟩
      exact reads.code ▸ Option.map_eq_some_iff.mpr ⟨raw, given, rfl⟩
    · refine ⟨.null, .inr ⟨Bool.eq_false_iff.mpr fun isPlaced => ?_, rfl⟩,
        key none (same.trans (reads.spelled _ (by decide)))⟩
      obtain ⟨code, isCode, id, isMaster⟩ := placed_iff.mp isPlaced
      obtain ⟨raw, given, rfl⟩ := Option.map_eq_some_iff.mp (reads.code.trans isCode)
      exact nobody id (names (show attrs.lookup warehouseRef.attr = some raw from given) isMaster)
  have itemKey : (coerced .stockLevel resolved).lookup "item_id" = some (.uuid itemId) := by
    rw [lookup_coerced, item]
    rfl
  refine ⟨itemId, place, item, rfl, isMaster, isPlace, ?_, ?_, ?_⟩
  · have stored : ColumnType.uuid.stored place = place := by
      rcases isPlace with ⟨_, _, _, _, rfl⟩ | ⟨_, rfl⟩ <;> rfl
    change (context.enterpriseId, [ColumnType.uuid.stored _, ColumnType.uuid.stored _]) = _
    rw [itemKey, warehouse, Option.getD_some, Option.getD_some, stored]
    rfl
  · obtain ⟨raw, number, given, read, value⟩ := reads.quantity
    have kept : resolved.lookup "quantity" = some raw :=
      (resolveRefs_other resolving accepted (by decide)).trans given
    have numeric : columnType? .stockLevel "quantity" = some .numeric := by decide
    rw [lookup_coerced, kept, Option.bind_some, coerceAttr, if_neg (by decide), numeric]
    simp [coerce, read, value]
  · rw [lookup_coerced_enterprise, resolveRefs_other resolving accepted (by decide), reads.spelled _ (by decide)]
    rfl

theorem quantityColumn_own : ownColumn? .stockLevel "quantity" = some (zeroQuantity "quantity") := rfl

theorem storedQuantity_of_bind {stored : Value}
    (bound : ColumnType.numeric.bind "quantity" (.decimal (.finite entry.quantity)) = .ok stored) :
    ColumnType.numeric.stored (.decimal (.finite entry.quantity)) = storedQuantity entry := by
  rw [ColumnType.stored_of_bind bound]
  simp only [ColumnType.bind, if_true, Decimal.FixedPoint.store] at bound
  split at bound
  · next kept =>
    split at kept
    · cases kept
      exact (Except.ok.inj bound).symm
    · cases kept
  · cases bound

/-- A legible record of a known item is accepted. -/
theorem stockRecord_accepted (reads : stockEntry mappings record = some entry)
    (sound : CacheSound context.enterpriseId progress.cache before)
    (known : ∃ id, IsMaster context.enterpriseId itemRef entry.sku before id)
    (ran : syncRecord context .stockLevel mappings progress record before = .ok later after) :
    ∃ accepted itemId place, StockAccepted context.enterpriseId before entry itemId place accepted ∧
      SuppliedTo accepted before after ∧
      ColumnType.numeric.stored (.decimal (.finite entry.quantity)) = storedQuantity entry := by
  obtain ⟨attrs, extracted, reads⟩ := stockEntry_eq_some reads
  have filled : ∀ name raw, attrs.lookup name = some raw → raw.blank = false :=
    fun _ _ given => extract_filled extracted given
  cases syncRecord_ok ran with
  | empty again nothing =>
      obtain rfl := Except.ok.inj (extracted.symm.trans again)
      obtain ⟨raw, given, _⟩ := reads.sku
      have member := Dict.lookup_eq_some_iff.mp given
      rw [List.isEmpty_iff.mp nothing] at member
      cases member
  | @skipped attrs resolution again resolving rejected =>
      obtain rfl := Except.ok.inj (extracted.symm.trans again)
      cases accepted : resolution.resolved with
      | none =>
          obtain ⟨reference, listed, required, raw, given, nobody⟩ := resolveRefs_rejected resolving accepted
          have only : ∀ reference ∈ (specs .stockLevel).refs,
              foreignKey reference.target ∈ requiredIdentity .stockLevel → reference = itemRef := by decide
          obtain rfl := only reference listed required
          obtain ⟨sku, skuGiven, isSku⟩ := reads.sku
          obtain ⟨id, isMaster⟩ := known
          obtain rfl := Option.some.inj (given.symm.trans skuGiven)
          exact absurd (isSku ▸ isMaster) (nobody id)
      | some resolved =>
          obtain ⟨itemId, _, item, _⟩ := stockAccepted_of_resolved reads filled sound known resolving accepted
          have lacks := rejected resolved accepted
          have required : requiredIdentity .stockLevel = ["item_id"] := by decide
          simp [lacksIdentity, required, item, Raw.blank] at lacks
  | upserted again _ resolving accepted _ stored =>
      obtain rfl := Except.ok.inj (extracted.symm.trans again)
      obtain ⟨itemId, place, _, is⟩ := stockAccepted_of_resolved reads filled sound known resolving accepted
      obtain ⟨table, others⟩ := stored.supplied
      obtain ⟨quantity, bound⟩ := stored.binds quantityColumn_own (by decide) is.quantity (by simp)
      exact ⟨_, itemId, place, is, ⟨table, others⟩, storedQuantity_of_bind bound⟩

end Records

/-! ## The rows of one item -/

/-- The row is one of the item's, and bare if it has no warehouse. -/
def onShelf (enterpriseId itemId : Uuid) (bare : Bool) (row : Row) : Bool :=
  row.enterpriseId = enterpriseId ∧ row.col "item_id" = .uuid itemId ∧ decide (row.col "warehouse_id" = .null) = bare

/-- The rows of the item hold the entries that have been processed: those with a
warehouse each, and the last of the others. -/
structure Shelved (enterpriseId : Uuid) (db : DB) (itemId : Uuid) (entries : List StockEntry) (table : Table Row) :
    Prop where
  settled : ∀ row ∈ table.rows, row.enterpriseId = enterpriseId → Settled .stockLevel row
  bare : (table.rows.filter (onShelf enterpriseId itemId true)).map (·.col "quantity") =
    (unplaced enterpriseId db entries).getLast?.toList.map storedQuantity
  housed : (table.rows.filter (onShelf enterpriseId itemId false)).map (·.col "quantity") =
    (entries.filter (placed enterpriseId db)).map storedQuantity
  codes : ∀ row ∈ table.rows.filter (onShelf enterpriseId itemId false), ∃ entry ∈ entries, ∃ code ∈ entry.code,
    ∃ id, IsMaster enterpriseId warehouseRef code db id ∧ row.col "warehouse_id" = .uuid id

section Shelves

variable {enterpriseId itemId otherId : Uuid} {db : DB} {entries : List StockEntry} {entry : StockEntry}
variable {table result : Table Row} {accepted : Accepted} {place : Value} {stored existing row : Row} {bare : Bool}

theorem onShelf_iff : onShelf enterpriseId itemId bare row = true ↔ row.enterpriseId = enterpriseId ∧
    row.col "item_id" = .uuid itemId ∧ decide (row.col "warehouse_id" = .null) = bare := decide_eq_true_iff

/-- What the row that a record leaves has in its columns. -/
structure Holds (enterpriseId : Uuid) (entry : StockEntry) (itemId : Uuid) (place : Value) (row : Row) : Prop where
  enterprise : row.enterpriseId = enterpriseId
  item : row.col "item_id" = .uuid itemId
  place : row.col "warehouse_id" = place
  quantity : row.col "quantity" = storedQuantity entry
  settled : Settled .stockLevel row

theorem identityOf_stock (row : Row) :
    identityOf .stockLevel row = (row.enterpriseId, [row.col "item_id", row.col "warehouse_id"]) := rfl

theorem StockAccepted.place_of_placed (accepts : StockAccepted enterpriseId db entry itemId place accepted)
    (isPlaced : placed enterpriseId db entry = true) : ∃ code ∈ entry.code, ∃ id,
      IsMaster enterpriseId warehouseRef code db id ∧ place = .uuid id := by
  rcases accepts.isPlace with housed | ⟨isBare, _⟩
  · exact housed
  · rw [isPlaced] at isBare
    cases isBare

theorem StockAccepted.place_of_bare (accepts : StockAccepted enterpriseId db entry itemId place accepted)
    (isBare : placed enterpriseId db entry = false) : place = .null := by
  rcases accepts.isPlace with ⟨code, given, id, isMaster, _⟩ | ⟨_, isNull⟩
  · rw [placed_iff.mpr ⟨code, given, id, isMaster⟩] at isBare
    cases isBare
  · exact isNull

theorem StockAccepted.inserted (accepts : StockAccepted enterpriseId db entry itemId place accepted)
    (fits : ColumnType.numeric.stored (.decimal (.finite entry.quantity)) = storedQuantity entry)
    (identity : identityOf accepted.entity stored = accepted.identity) (columns : stored.col = accepted.inserted)
    (settled : Settled accepted.entity stored) : Holds enterpriseId entry itemId place stored := by
  rw [accepts.entity] at identity settled
  rw [identityOf_stock, accepts.identity] at identity
  simp only [Prod.mk.injEq, List.cons.injEq, and_true] at identity
  obtain ⟨enterprise, item, isPlace⟩ := identity
  refine ⟨enterprise, item, isPlace, ?_, settled⟩
  rw [columns, Accepted.inserted, accepts.entity, quantityColumn_own, accepts.quantity]
  exact fits

theorem StockAccepted.overridden (accepts : StockAccepted enterpriseId db entry itemId place accepted)
    (fits : ColumnType.numeric.stored (.decimal (.finite entry.quantity)) = storedQuantity entry)
    (identity : identityOf accepted.entity existing = accepted.identity)
    (stays : stored.enterpriseId = existing.enterpriseId)
    (keys : (specs accepted.entity).identity.map stored.col = (specs accepted.entity).identity.map existing.col)
    (columns : stored.col = accepted.overridden existing.col) (settled : Settled accepted.entity stored) :
    Holds enterpriseId entry itemId place stored := by
  rw [accepts.entity] at identity settled keys
  rw [identityOf_stock, accepts.identity] at identity
  have keys : [stored.col "item_id", stored.col "warehouse_id"] = [existing.col "item_id", existing.col "warehouse_id"] :=
    keys
  simp only [Prod.mk.injEq, List.cons.injEq, and_true] at identity keys
  obtain ⟨enterprise, item, isPlace⟩ := identity
  refine ⟨stays.trans enterprise, keys.1.trans item, keys.2.trans isPlace, ?_, settled⟩
  rw [columns, Accepted.overridden, accepts.entity, if_neg (by decide), quantityColumn_own, accepts.quantity]
  exact fits

def Occupies (enterpriseId itemId : Uuid) (place : Value) (row : Row) : Prop :=
  row.enterpriseId = enterpriseId ∧ row.col "item_id" = .uuid itemId ∧ row.col "warehouse_id" = place

/-- An entry gets a row of its own, or takes over the row of its item and place. -/
inductive Written (enterpriseId : Uuid) (entry : StockEntry) (itemId : Uuid) (place : Value) (table : Table Row) :
    Table Row → Prop where
  | inserted {stored : Row} (holds : Holds enterpriseId entry itemId place stored)
      (vacant : ∀ row ∈ table.rows, ¬ Occupies enterpriseId itemId place row) :
      Written enterpriseId entry itemId place table (table.insert stored)
  | overridden {existing stored : Row} (holds : Holds enterpriseId entry itemId place stored)
      (id : stored.id = existing.id) (member : existing ∈ table.rows)
      (occupies : Occupies enterpriseId itemId place existing)
      (only : ∀ row ∈ table.rows, Occupies enterpriseId itemId place row → row = existing) :
      Written enterpriseId entry itemId place table (table.update existing.id fun _ => stored)

theorem StockAccepted.occupies_iff (accepts : StockAccepted enterpriseId db entry itemId place accepted) :
    identityOf accepted.entity row = accepted.identity ↔ Occupies enterpriseId itemId place row := by
  rw [accepts.entity, identityOf_stock, accepts.identity]
  simp [Occupies]

theorem StockAccepted.written (accepts : StockAccepted enterpriseId db entry itemId place accepted)
    (fits : ColumnType.numeric.stored (.decimal (.finite entry.quantity)) = storedQuantity entry)
    (settled : ∀ row ∈ table.rows, row.enterpriseId = enterpriseId → Settled .stockLevel row)
    (supplied : Supplied accepted table result) : Written enterpriseId entry itemId place table result := by
  cases supplied with
  | inserted missing identity columns settledNew _ =>
      refine .inserted (accepts.inserted fits identity columns settledNew) fun row member occupies => ?_
      exact missing row member (accepts.occupies_iff.mpr occupies)
  | @overridden existing stored member identity only id keys columns settledNew stays _ =>
      have occupies := accepts.occupies_iff.mp identity
      have settledOld : Settled accepted.entity existing := accepts.entity ▸ settled existing member occupies.1
      have holds := accepts.overridden fits identity (stays accepts.tenantless) keys (columns settledOld)
        (settledNew settledOld)
      exact .overridden holds id member occupies fun row rowMember occupies =>
        only row rowMember (accepts.occupies_iff.mpr occupies)

theorem Holds.newRow (holds : Holds enterpriseId entry itemId place stored) (table : Table Row) :
    Holds enterpriseId entry itemId place (table.newRow stored) :=
  ⟨holds.enterprise, holds.item, holds.place, holds.quantity, ⟨holds.settled.bound, holds.settled.others⟩⟩

theorem Holds.shelf (holds : Holds enterpriseId entry itemId place row) :
    onShelf enterpriseId itemId bare row = decide (decide (place = .null) = bare) := by
  rw [onShelf, holds.enterprise, holds.item, holds.place]
  simp

theorem Occupies.shelf (occupies : Occupies enterpriseId itemId place row) :
    onShelf enterpriseId itemId bare row = decide (decide (place = .null) = bare) := by
  rw [onShelf, occupies.1, occupies.2.1, occupies.2.2]
  simp

theorem Written.settled (written : Written enterpriseId entry itemId place table result)
    (settled : ∀ row ∈ table.rows, row.enterpriseId = enterpriseId → Settled .stockLevel row) :
    ∀ row ∈ result.rows, row.enterpriseId = enterpriseId → Settled .stockLevel row := by
  cases written with
  | @inserted stored holds _ =>
      intro row member owned
      rcases List.mem_append.mp member with old | new
      · exact settled row old owned
      · rw [List.mem_singleton.mp new]
        exact (holds.newRow table).settled
  | @overridden existing stored holds id member _ _ =>
      intro row rowMember owned
      rcases (Table.mem_update_const member id).mp rowMember with ⟨old, _⟩ | rfl
      · exact settled row old owned
      · exact holds.settled

/-- A shelf that the entry does not belong to stays as it is. -/
theorem Written.otherShelf (written : Written enterpriseId entry otherId place table result)
    (off : ∀ row : Row, Occupies enterpriseId otherId place row → onShelf enterpriseId itemId bare row = false) :
    result.rows.filter (onShelf enterpriseId itemId bare) = table.rows.filter (onShelf enterpriseId itemId bare) := by
  have offHolds {row : Row} (holds : Holds enterpriseId entry otherId place row) :
      onShelf enterpriseId itemId bare row = false := off row ⟨holds.enterprise, holds.item, holds.place⟩
  cases written with
  | @inserted stored holds _ =>
      have offNew : onShelf enterpriseId itemId bare (table.newRow stored) = false := offHolds (holds.newRow table)
      rw [Table.filter_insert, offNew]
      simp
  | @overridden existing stored holds id member occupies _ =>
      refine Table.filter_updateWhere_of_not fun row rowMember hit => ?_
      obtain rfl := Table.eq_of_key_eq rowMember member (eq_of_beq hit)
      rw [Table.assign_eq id]
      exact ⟨off row occupies, offHolds holds⟩

/-- On a shelf where the entry has no row yet, it gets one behind the others. -/
theorem Written.newShelf (written : Written enterpriseId entry itemId place table result)
    (vacant : ∀ row ∈ table.rows, ¬ Occupies enterpriseId itemId place row)
    (shelf : decide (place = .null) = bare) :
    ∃ stored, Holds enterpriseId entry itemId place stored ∧
      result.rows.filter (onShelf enterpriseId itemId bare) =
        table.rows.filter (onShelf enterpriseId itemId bare) ++ [stored] := by
  cases written with
  | @inserted stored holds _ =>
      have new := holds.newRow table
      refine ⟨table.newRow stored, new, ?_⟩
      rw [Table.filter_insert, new.shelf, shelf]
      simp
  | overridden _ _ member occupies _ => exact absurd occupies (vacant _ member)

theorem occupies_of_bare (is : onShelf enterpriseId itemId true row = true) : Occupies enterpriseId itemId .null row := by
  obtain ⟨enterprise, item, bare⟩ := onShelf_iff.mp is
  exact ⟨enterprise, item, of_decide_eq_true bare⟩

/-- An entry without a warehouse is alone on the shelf of such entries. -/
theorem Written.bareShelf (written : Written enterpriseId entry itemId .null table result) :
    ∃ stored, Holds enterpriseId entry itemId .null stored ∧
      result.rows.filter (onShelf enterpriseId itemId true) = [stored] := by
  by_cases vacant : ∀ row ∈ table.rows, ¬ Occupies enterpriseId itemId .null row
  · obtain ⟨stored, holds, rows⟩ := written.newShelf vacant (decide_eq_true rfl)
    have none : table.rows.filter (onShelf enterpriseId itemId true) = [] :=
      List.filter_eq_nil_iff.mpr fun row member is => vacant row member (occupies_of_bare is)
    exact ⟨stored, holds, by rw [rows, none, List.nil_append]⟩
  · cases written with
    | inserted _ nobody => exact absurd nobody vacant
    | @overridden existing stored holds id member occupies only =>
        have selects : ∀ row ∈ (table.update existing.id fun _ => stored).rows,
            onShelf enterpriseId itemId true row = (Keyed.key row == existing.id) := by
          intro row rowMember
          rcases (Table.mem_update_const member id).mp rowMember with ⟨old, different⟩ | rfl
          · have off : onShelf enterpriseId itemId true row = false :=
              Bool.eq_false_iff.mpr fun is => different (congrArg Row.id (only row old (occupies_of_bare is)))
            rw [off]
            exact (beq_eq_false_iff_ne.mpr different).symm
          · rw [holds.shelf]
            exact (beq_iff_eq.mpr id).symm
        refine ⟨stored, holds, ?_⟩
        have found : table.find? existing.id = some existing := Table.find?_of_mem member
        rw [List.filter_congr selects, Table.filter_key, Table.find?_update_self, found, Option.map_some,
          Table.assign_eq id]
        rfl

theorem IsMaster.key_unique {reference : Reference} {key other : String} {id : Uuid}
    (isMaster : IsMaster enterpriseId reference key db id) (isOther : IsMaster enterpriseId reference other db id) :
    key = other := by
  obtain ⟨row, member, same, _, named⟩ := isMaster
  obtain ⟨_, otherMember, again, _, otherNamed⟩ := isOther
  obtain rfl := Table.eq_of_key_eq member otherMember (same.trans again.symm)
  exact Value.text.inj (named.symm.trans otherNamed)

/-- An entry of another item leaves the rows of the item alone. -/
theorem Shelved.other (shelved : Shelved enterpriseId db itemId entries table) (other : otherId ≠ itemId)
    (written : Written enterpriseId entry otherId place table result) :
    Shelved enterpriseId db itemId entries result := by
  have shelves (bare : Bool) : result.rows.filter (onShelf enterpriseId itemId bare) =
      table.rows.filter (onShelf enterpriseId itemId bare) := by
    refine written.otherShelf fun row occupies => Bool.eq_false_iff.mpr fun is => other ?_
    have same := occupies.2.1.symm.trans (onShelf_iff.mp is).2.1
    exact Value.uuid.inj same
  refine ⟨written.settled shelved.settled, ?_, ?_, ?_⟩
  · rw [shelves]
    exact shelved.bare
  · rw [shelves]
    exact shelved.housed
  · rw [shelves]
    exact shelved.codes

/-- An entry of the item with a warehouse gets a row of its own. -/
theorem Shelved.housedEntry (shelved : Shelved enterpriseId db itemId entries table)
    (isPlaced : placed enterpriseId db entry = true) {code : String} {id : Uuid} (given : code ∈ entry.code)
    (isMaster : IsMaster enterpriseId warehouseRef code db id)
    (distinct : ∀ earlier ∈ entries, earlier.code ≠ entry.code)
    (written : Written enterpriseId entry itemId (.uuid id) table result) :
    Shelved enterpriseId db itemId (entries ++ [entry]) result := by
  have vacant : ∀ row ∈ table.rows, ¬ Occupies enterpriseId itemId (.uuid id) row := by
    intro row member occupies
    have housed : onShelf enterpriseId itemId false row = true := by rw [occupies.shelf]; rfl
    obtain ⟨earlier, listed, other, otherGiven, otherId, otherMaster, place⟩ :=
      shelved.codes row (List.mem_filter.mpr ⟨member, housed⟩)
    obtain rfl : id = otherId := Value.uuid.inj (occupies.2.2.symm.trans place)
    obtain rfl := isMaster.key_unique otherMaster
    exact distinct earlier listed (otherGiven.trans given.symm)
  obtain ⟨stored, holds, rows⟩ := written.newShelf vacant (decide_eq_false (by simp))
  have bare : result.rows.filter (onShelf enterpriseId itemId true) = _ :=
    written.otherShelf fun row occupies => by rw [occupies.shelf]; rfl
  refine ⟨written.settled shelved.settled, ?_, ?_, fun row member => ?_⟩
  · rw [bare, unplaced, List.filter_append, List.filter_cons_of_neg (by simp [isPlaced]), List.filter_nil,
      List.append_nil]
    exact shelved.bare
  · rw [rows, List.map_append, shelved.housed, List.filter_append, List.filter_cons_of_pos isPlaced, List.filter_nil,
      List.map_append, List.map_singleton, List.map_singleton, holds.quantity]
  · rw [rows] at member
    rcases List.mem_append.mp member with old | new
    · obtain ⟨earlier, listed, named⟩ := shelved.codes row old
      exact ⟨earlier, List.mem_append_left _ listed, named⟩
    · obtain rfl := List.mem_singleton.mp new
      exact ⟨entry, by simp, code, given, id, isMaster, holds.place⟩

/-- An entry of the item without a warehouse takes the place of the last such entry. -/
theorem Shelved.bareEntry (shelved : Shelved enterpriseId db itemId entries table)
    (isBare : placed enterpriseId db entry = false)
    (written : Written enterpriseId entry itemId .null table result) :
    Shelved enterpriseId db itemId (entries ++ [entry]) result := by
  obtain ⟨stored, holds, rows⟩ := written.bareShelf
  have housed : result.rows.filter (onShelf enterpriseId itemId false) = _ :=
    written.otherShelf fun row occupies => by rw [occupies.shelf]; rfl
  refine ⟨written.settled shelved.settled, ?_, ?_, fun row member => ?_⟩
  · rw [rows, unplaced, List.filter_append, List.filter_cons_of_pos (by simp [isBare]), List.filter_nil,
      List.getLast?_concat, List.map_singleton, holds.quantity]
    rfl
  · rw [housed, List.filter_append, List.filter_cons_of_neg (by simp [isBare]), List.filter_nil, List.append_nil]
    exact shelved.housed
  · rw [housed] at member
    obtain ⟨earlier, listed, named⟩ := shelved.codes row member
    exact ⟨earlier, List.mem_append_left _ listed, named⟩

end Shelves

/-! ## The stock records of a batch -/

section Runs

variable {context : SyncContext} {mappings : List FieldMapping} {progress later : Progress} {before after db : DB}
variable {records : List Record} {done : List StockEntry} {itemId : Uuid} {sku : String} {entity : Entity}

theorem IsMaster.congr {enterpriseId id : Uuid} {reference : Reference} {key : String}
    (same : before.canonical reference.target = db.canonical reference.target)
    (isMaster : IsMaster enterpriseId reference key before id) : IsMaster enterpriseId reference key db id := by
  unfold IsMaster at isMaster ⊢
  rwa [← same]

/-- The state has the masters that the other has. -/
structure SameMasters (before db : DB) : Prop where
  item : before.canonical .item = db.canonical .item
  supplier : before.canonical .supplier = db.canonical .supplier
  warehouse : before.canonical .warehouse = db.canonical .warehouse

theorem SameMasters.target (same : SameMasters before db) {reference : Reference}
    (master : reference ∈ masterReferences) : before.canonical reference.target = db.canonical reference.target := by
  simp only [masterReferences, List.mem_cons, List.not_mem_nil, or_false] at master
  rcases master with rfl | rfl | rfl
  · exact same.item
  · exact same.supplier
  · exact same.warehouse

/-- A dependent row leaves the masters and the soundness of the cache alone. -/
theorem syncNext_cacheSound {next : Entity × Record} (dependent : next.1 ≠ .item ∧ next.1 ≠ .supplier ∧ next.1 ≠ .warehouse)
    (ran : syncNext context mappings progress next before = .ok later after)
    (sound : CacheSound context.enterpriseId progress.cache before) :
    SameMasters after before ∧ CacheSound context.enterpriseId later.cache after := by
  have same : SameMasters after before :=
    ⟨syncNext_others ran dependent.1, syncNext_others ran dependent.2.1, syncNext_others ran dependent.2.2⟩
  have carried {cache : Cache} (soundBefore : CacheSound context.enterpriseId cache before) :
      CacheSound context.enterpriseId cache after := fun reference master key id hit =>
    (soundBefore reference master key id hit).congr (same.target master).symm
  refine ⟨same, ?_⟩
  cases syncRecord_ok ran with
  | empty _ _ => exact sound
  | skipped _ resolving _ => exact resolveRefs_sound sound resolving
  | upserted _ _ resolving _ _ _ =>
      rw [Progress.record_cache]
      exact carried (resolveRefs_sound sound resolving)

theorem StockAccepted.congr {enterpriseId : Uuid} {entry : StockEntry} {place : Value} {accepted : Accepted}
    (same : SameMasters before db) (accepts : StockAccepted enterpriseId before entry itemId place accepted) :
    StockAccepted enterpriseId db entry itemId place accepted := by
  have samePlaced : placed enterpriseId before entry = placed enterpriseId db entry := by
    rw [placed, same.warehouse, placed]
  refine { accepts with isMaster := accepts.isMaster.congr same.item, isPlace := ?_ }
  rcases accepts.isPlace with ⟨code, given, id, isMaster, isPlace⟩ | ⟨isBare, isPlace⟩
  · exact .inl ⟨code, given, id, isMaster.congr same.warehouse, isPlace⟩
  · exact .inr ⟨samePlaced ▸ isBare, isPlace⟩

theorem SameMasters.trans {first second third : DB} (later : SameMasters second third)
    (earlier : SameMasters first second) : SameMasters first third :=
  ⟨earlier.item.trans later.item, earlier.supplier.trans later.supplier, earlier.warehouse.trans later.warehouse⟩

/-- What the loop over the stock records keeps. -/
structure StockRun (enterpriseId : Uuid) (db : DB) (itemId : Uuid) (sku : String) (done : List StockEntry)
    (progress : Progress) (before : DB) : Prop where
  masters : SameMasters before db
  sound : CacheSound enterpriseId progress.cache before
  shelved : Shelved enterpriseId db itemId (done.filter (·.sku = sku)) (before.canonical .stockLevel)

theorem StockRun.step {record : Record} (run : StockRun context.enterpriseId db itemId sku done progress before)
    (legible : Legible (mappingsOf mappings .stockLevel) record)
    (item : IsMaster context.enterpriseId itemRef sku db itemId)
    (known : ∀ entry ∈ stockEntry (mappingsOf mappings .stockLevel) record,
      ∃! id, IsMaster context.enterpriseId itemRef entry.sku db id)
    (distinct : ∀ entry ∈ stockEntry (mappingsOf mappings .stockLevel) record, ∀ earlier ∈ done,
      (earlier.sku, earlier.code) ≠ (entry.sku, entry.code))
    (ran : syncNext context mappings progress (.stockLevel, record) before = .ok later after) :
    StockRun context.enterpriseId db itemId sku
      (done ++ (stockEntry (mappingsOf mappings .stockLevel) record).toList) later after := by
  obtain ⟨same, sound⟩ := syncNext_cacheSound (by simp) ran run.sound
  refine ⟨run.masters.trans same, sound, ?_⟩
  cases reads : stockEntry (mappingsOf mappings .stockLevel) record with
  | none =>
      have kept : after = before := by
        cases syncRecord_ok ran with
        | empty _ _ => rfl
        | skipped _ _ _ => rfl
        | upserted extracted filled _ _ _ _ =>
            rcases legible _ extracted with nothing | isEntry
            · rw [nothing] at filled
              cases filled
            · rw [reads] at isEntry
              cases isEntry
      rw [kept, Option.toList_none, List.append_nil]
      exact run.shelved
  | some entry =>
      obtain ⟨id, isMaster, sole⟩ := known entry reads
      have knownBefore : ∃ id, IsMaster context.enterpriseId itemRef entry.sku before id :=
        ⟨id, isMaster.congr run.masters.item.symm⟩
      obtain ⟨accepted, otherId, place, accepts, supplied, fits⟩ := stockRecord_accepted reads run.sound knownBefore ran
      have accepts := accepts.congr run.masters
      have table := supplied.table
      rw [accepts.entity] at table
      have written := accepts.written fits run.shelved.settled table
      rw [Option.toList_some, List.filter_append]
      by_cases same : entry.sku = sku
      · have isItem : otherId = itemId := (sole otherId accepts.isMaster).trans (sole itemId (same ▸ item)).symm
        subst isItem
        rw [List.filter_cons_of_pos (by simpa using same), List.filter_nil]
        cases isPlaced : placed context.enterpriseId db entry with
        | true =>
            obtain ⟨code, given, warehouseId, isWarehouse, rfl⟩ := accepts.place_of_placed isPlaced
            refine run.shelved.housedEntry isPlaced given isWarehouse (fun earlier listed sameCode => ?_) written
            obtain ⟨listed, isSku⟩ := List.mem_filter.mp listed
            exact distinct entry reads earlier listed (Prod.ext ((of_decide_eq_true isSku).trans same.symm) sameCode)
        | false =>
            obtain rfl := accepts.place_of_bare isPlaced
            exact run.shelved.bareEntry isPlaced written
      · rw [List.filter_cons_of_neg (by simpa using same), List.filter_nil, List.append_nil]
        refine run.shelved.other (fun isItem => same ?_) written
        subst isItem
        exact accepts.isMaster.key_unique item

theorem StockRun.along (run : StockRun context.enterpriseId db itemId sku done progress before)
    (legible : ∀ record ∈ records, Legible (mappingsOf mappings .stockLevel) record)
    (item : IsMaster context.enterpriseId itemRef sku db itemId)
    (known : ∀ entry ∈ records.filterMap (stockEntry (mappingsOf mappings .stockLevel)),
      ∃! id, IsMaster context.enterpriseId itemRef entry.sku db id)
    (distinct : ((done ++ records.filterMap (stockEntry (mappingsOf mappings .stockLevel))).map fun entry =>
      (entry.sku, entry.code)).Nodup)
    (ran : (records.map fun record => (Entity.stockLevel, record)).foldlM (syncNext context mappings) progress before =
      .ok later after) :
    StockRun context.enterpriseId db itemId sku
      (done ++ records.filterMap (stockEntry (mappingsOf mappings .stockLevel))) later after := by
  induction records generalizing progress before done with
  | nil =>
      obtain ⟨rfl, rfl⟩ := pure_eq_ok.mp ran
      rw [List.filterMap_nil, List.append_nil]
      exact run
  | cons record rest ih =>
      rw [List.map_cons, List.foldlM_cons] at ran
      obtain ⟨next, middle, first, ran⟩ := bind_eq_ok.mp ran
      have split : done ++ (record :: rest).filterMap (stockEntry (mappingsOf mappings .stockLevel)) =
          done ++ (stockEntry (mappingsOf mappings .stockLevel) record).toList ++
            rest.filterMap (stockEntry (mappingsOf mappings .stockLevel)) := by
        rw [List.append_assoc, List.filterMap_cons]
        cases stockEntry (mappingsOf mappings .stockLevel) record <;> rfl
      have inRecords : ∀ entry ∈ stockEntry (mappingsOf mappings .stockLevel) record,
          entry ∈ (record :: rest).filterMap (stockEntry (mappingsOf mappings .stockLevel)) := fun entry reads =>
        List.mem_filterMap.mpr ⟨record, List.mem_cons_self, reads⟩
      rw [split] at distinct ⊢
      refine ih (run.step (legible record List.mem_cons_self) item (fun entry reads => known entry (inRecords entry reads))
        (fun entry reads earlier listed same => ?_) first) (fun other member => legible other (List.mem_cons_of_mem _ member))
        (fun entry member => known entry ?_) distinct ran
      · rw [reads, List.map_append, List.nodup_append, List.map_append, List.nodup_append] at distinct
        exact distinct.1.2.2 _ (List.mem_map_of_mem listed) _ (by simp) same
      · obtain ⟨other, listed, reads⟩ := List.mem_filterMap.mp member
        exact List.mem_filterMap.mpr ⟨other, List.mem_cons_of_mem _ listed, reads⟩

/-! ## The whole batch -/

theorem syncEntity_others {other : Entity} (ran : syncEntity context mappings records progress entity before = .ok later after)
    (different : entity ≠ other) : after.canonical other = before.canonical other := by
  rw [syncEntity_schedule] at ran
  refine rest_others ran fun next member => ?_
  split at member
  · cases member
  · obtain ⟨record, _, rfl⟩ := List.mem_map.mp member
    exact different

theorem syncEntities_others {entities : List Entity} {other : Entity}
    (ran : entities.foldlM (syncEntity context mappings records) progress before = .ok later after)
    (different : other ∉ entities) : after.canonical other = before.canonical other := by
  induction entities generalizing progress before with
  | nil =>
      obtain ⟨_, rfl⟩ := pure_eq_ok.mp ran
      rfl
  | cons entity rest ih =>
      rw [List.foldlM_cons] at ran
      obtain ⟨next, middle, first, ran⟩ := bind_eq_ok.mp ran
      rw [List.mem_cons, not_or] at different
      exact (ih ran different.2).trans (syncEntity_others first (Ne.symm different.1))

theorem syncEntity_invariant (holds : Progress → DB → Prop)
    (keeps : ∀ progress record before next after, holds progress before →
      syncNext context mappings progress (entity, record) before = .ok next after → holds next after)
    (start : holds progress before)
    (ran : syncEntity context mappings records progress entity before = .ok later after) : holds later after := by
  rw [syncEntity_schedule] at ran
  split at ran
  · obtain ⟨rfl, rfl⟩ := pure_eq_ok.mp ran
    exact start
  · rw [List.foldlM_map] at ran
    exact foldlM_ok_invariant holds (fun progress record before next after holding first =>
      keeps progress record before next after holding first) start ran

/-- A record without references leaves the cache as it is. -/
theorem syncEntity_cache (free : (specs entity).refs = [])
    (ran : syncEntity context mappings records progress entity before = .ok later after) :
    later.cache = progress.cache := by
  refine syncEntity_invariant (fun next _ => next.cache = progress.cache) ?_ rfl ran
  intro earlier record db next last same ran
  have kept {attrs : Dict Raw} {resolution : Resolution}
      (resolving : resolveRefs context.enterpriseId entity attrs earlier.cache db = .ok resolution db) :
      resolution.cache = progress.cache := by
    rw [resolveRefs, free] at resolving
    obtain ⟨rfl, _⟩ := pure_eq_ok.mp resolving
    exact same
  cases syncRecord_ok ran with
  | empty _ _ => exact same
  | skipped _ resolving _ => exact kept resolving
  | upserted _ _ resolving _ _ _ =>
      rw [Progress.record_cache]
      exact kept resolving

theorem cacheSound_nil {enterpriseId : Uuid} {cache : Cache} (empty : cache = []) (db : DB) :
    CacheSound enterpriseId cache db := by
  intro reference _ key id hit
  rw [empty] at hit
  cases hit

theorem syncEntity_cacheSound (dependent : entity ≠ .item ∧ entity ≠ .supplier ∧ entity ≠ .warehouse)
    (ran : syncEntity context mappings records progress entity before = .ok later after)
    (sound : CacheSound context.enterpriseId progress.cache before) :
    CacheSound context.enterpriseId later.cache after :=
  syncEntity_invariant (fun next db => CacheSound context.enterpriseId next.cache db)
    (fun _ _ _ _ _ soundBefore first => (syncNext_cacheSound dependent first soundBefore).2) sound ran

/-- A batch comes to its stock records with sound references, and the entities after
them leave stock and masters alone. -/
structure StockStage (context : SyncContext) (mappings : List FieldMapping) (records : List Record) (before after : DB) where
  progress : Progress
  masters : DB
  next : Progress
  stocked : DB
  front : ([.item, .warehouse, .supplier, .itemSupplier] : List Entity).foldlM (syncEntity context mappings records)
    .start before = .ok progress masters
  sound : CacheSound context.enterpriseId progress.cache masters
  stage : syncEntity context mappings records progress .stockLevel masters = .ok next stocked
  stock : after.canonical .stockLevel = stocked.canonical .stockLevel
  item : after.canonical .item = masters.canonical .item
  untouched : masters.canonical .stockLevel = before.canonical .stockLevel

theorem syncBatch_stockStage (ran : syncBatch context mappings records before = .ok later after) :
    Nonempty (StockStage context mappings records before after) := by
  have order : entityOrder = [.item, .warehouse, .supplier, .itemSupplier] ++ .stockLevel ::
    [.price, .leadTime, .consumption, .productionDemand, .qualityRecord, .purchaseOrder] := rfl
  rw [syncBatch, order, List.foldlM_append] at ran
  obtain ⟨progress, masters, front, ran⟩ := bind_eq_ok.mp ran
  rw [List.foldlM_cons] at ran
  obtain ⟨next, stocked, stage, back⟩ := bind_eq_ok.mp ran
  have sound : CacheSound context.enterpriseId progress.cache masters := by
    have steps := front
    simp only [List.foldlM_cons, List.foldlM_nil, bind_eq_ok, pure_eq_ok] at steps
    obtain ⟨first, _, items, second, _, warehouses, third, middle, suppliers, _, _, pairs, rfl, rfl⟩ := steps
    have cache : third.cache = [] := by
      rw [syncEntity_cache rfl suppliers, syncEntity_cache rfl warehouses, syncEntity_cache rfl items]
    exact syncEntity_cacheSound (by decide) pairs (cacheSound_nil cache middle)
  exact ⟨⟨progress, masters, next, stocked, front, sound, stage, syncEntities_others back (by decide),
    (syncEntities_others back (by decide)).trans (syncEntity_others stage (by decide)),
    syncEntities_others front (by decide)⟩⟩

end Runs

/-! ## What is lost -/

section Totals

variable {enterpriseId itemId : Uuid} {db masters : DB} {entries : List StockEntry} {call : SyncCall} {before : DB}
variable {batch : FetchBatch} {sku : String}

def storedTotal (entries : List StockEntry) : ℚ :=
  (entries.map fun entry => quantityColumn.quantize entry.quantity).sum

theorem roundedOff_eq (entries : List StockEntry) : roundedOff entries = amount entries - storedTotal entries := by
  induction entries with
  | nil => simp [roundedOff, amount, storedTotal]
  | cons entry rest ih =>
      simp only [roundedOff, amount, storedTotal, List.map_cons, List.sum_cons] at ih ⊢
      rw [ih]
      ring

theorem amount_append (first second : List StockEntry) :
    amount (first ++ second) = amount first + amount second := by
  simp [amount]

theorem amount_dropLast (entries : List StockEntry) :
    amount entries = amount entries.dropLast + amount entries.getLast?.toList := by
  rw [← amount_append]
  cases last : entries.getLast? with
  | none => simp [List.getLast?_eq_none_iff.mp last]
  | some entry => rw [Option.toList_some, List.dropLast_append_getLast? entry last]

/-- What is kept and what is lost is what was delivered. -/
theorem storedTotal_add_lost (enterpriseId : Uuid) (db : DB) (entries : List StockEntry) :
    storedTotal (kept enterpriseId db entries) + lost enterpriseId db entries = amount entries := by
  have parts : amount entries =
      amount (entries.filter (placed enterpriseId db)) + amount (unplaced enterpriseId db entries) := by
    rw [← amount_append]
    exact ((List.filter_append_perm (placed enterpriseId db) entries).map (·.quantity)).sum_eq.symm
  rw [lost, roundedOff_eq, parts, amount_dropLast (unplaced enterpriseId db entries), kept, amount_append]
  ring

theorem Shelved.onHand (shelved : Shelved enterpriseId masters itemId entries (db.canonical .stockLevel)) :
    Integration.onHand db enterpriseId itemId = storedTotal (kept enterpriseId masters entries) := by
  have sumOf (list : List StockEntry) : ((list.map storedQuantity).map numberOf).sum = storedTotal list := by
    rw [List.map_map]
    rfl
  have shelf (bare : Bool) (select : Row → Bool) (selects : ∀ row, select row = (decide (row.col "warehouse_id" = .null) == bare)) :
      ((db.canonical .stockLevel).rows.filter fun row =>
        row.enterpriseId = enterpriseId ∧ row.col "item_id" = .uuid itemId).filter select =
        (db.canonical .stockLevel).rows.filter (onShelf enterpriseId itemId bare) := by
    rw [List.filter_filter]
    refine List.filter_congr fun row _ => ?_
    rw [Bool.eq_iff_iff, onShelf_iff, selects]
    simp only [Bool.and_eq_true, beq_iff_eq, decide_eq_true_eq]
    tauto
  have parts := ((List.filter_append_perm (fun row => decide (row.col "warehouse_id" = .null))
    ((db.canonical .stockLevel).rows.filter fun row =>
      row.enterpriseId = enterpriseId ∧ row.col "item_id" = .uuid itemId)).map fun row =>
        numberOf (row.col "quantity")).sum_eq
  rw [shelf true _ (by simp), shelf false _ (by simp), List.map_append, List.sum_append] at parts
  have sumShelf (bare : Bool) (list : List StockEntry)
      (holds : ((db.canonical .stockLevel).rows.filter (onShelf enterpriseId itemId bare)).map (·.col "quantity") =
        list.map storedQuantity) :
      (((db.canonical .stockLevel).rows.filter (onShelf enterpriseId itemId bare)).map fun row =>
        numberOf (row.col "quantity")).sum = storedTotal list := by
    rw [← sumOf, ← holds, List.map_map]
    rfl
  rw [Integration.onHand, ← parts, sumShelf true _ shelved.bare, sumShelf false _ shelved.housed, kept, storedTotal,
    storedTotal, storedTotal, List.map_append, List.sum_append, add_comm]

/-- The sync of a first stock, up to its stock records. -/
theorem FirstStock.stage (first : FirstStock call before batch) :
    ∃ stage : StockStage (call.context batch) (confirmedMappings call.dataSourceId before) batch.records before
      (call.commit before), call.masters before batch = stage.masters := by
  obtain ⟨result, ran⟩ := exists_of_returned first.returns
  obtain ⟨synced⟩ := syncSource_ok ran
  obtain ⟨source, found, fetched⟩ := first.fetched
  obtain rfl := Option.some.inj (found.symm.trans synced.found)
  obtain rfl := Except.ok.inj (fetched.symm.trans synced.fetched)
  obtain ⟨stage⟩ := syncBatch_stockStage synced.ran
  have canonical : (call.commit before).canonical = synced.batched.canonical := by
    rw [SyncCall.commit, transact_of_ok ran]
    exact synced.canonical
  refine ⟨{ stage with stock := ?_, item := ?_ }, ?_⟩
  · rw [canonical]
    exact stage.stock
  · rw [canonical]
    exact stage.item
  · rw [SyncCall.masters]
    exact congrArg state stage.front

/-- The stock of an item after the sync is what is kept of its entries. -/
theorem FirstStock.onHand (first : FirstStock call before batch)
    (item : IsMaster call.enterpriseId itemRef sku (call.commit before) itemId) :
    Integration.onHand (call.commit before) call.enterpriseId itemId =
      storedTotal (kept call.enterpriseId (call.masters before batch)
        ((call.stockEntries before batch).filter (·.sku = sku))) := by
  obtain ⟨stage, isMasters⟩ := first.stage
  have known := first.known
  rw [isMasters] at known ⊢
  have fresh : ∀ row ∈ (stage.masters.canonical .stockLevel).rows, row.enterpriseId ≠ call.enterpriseId :=
    stage.untouched ▸ first.fresh
  have empty (bare : Bool) :
      (stage.masters.canonical .stockLevel).rows.filter (onShelf call.enterpriseId itemId bare) = [] :=
    List.filter_eq_nil_iff.mpr fun row member is => fresh row member (onShelf_iff.mp is).1
  have start : StockRun call.enterpriseId stage.masters itemId sku [] stage.progress stage.masters := by
    refine ⟨⟨rfl, rfl, rfl⟩, stage.sound, fun row member owned => absurd owned (fresh row member), ?_, ?_, ?_⟩
    · rw [empty]
      rfl
    · rw [empty]
      rfl
    · simp [empty]
  have ran := stage.stage
  rw [syncEntity_schedule] at ran
  have shelved : Shelved call.enterpriseId stage.masters itemId
      ((call.stockEntries before batch).filter (·.sku = sku)) (stage.stocked.canonical .stockLevel) := by
    split at ran
    · next none =>
      obtain ⟨_, same⟩ := pure_eq_ok.mp ran
      have nothing : call.stockEntries before batch = [] := by
        refine List.filterMap_eq_nil_iff.mpr fun record _ => ?_
        rw [SyncCall.stockMappings, List.isEmpty_iff.mp none]
        rfl
      rw [nothing, ← same]
      exact start.shelved
    · have run : StockRun (call.context batch).enterpriseId stage.masters itemId sku
          ([] ++ call.stockEntries before batch) stage.next stage.stocked :=
        StockRun.along start first.legible (item.congr stage.item) known first.distinct ran
      exact run.shelved
  rw [← stage.stock] at shelved
  exact shelved.onHand

theorem FirstStock.items (first : FirstStock call before batch) :
    (call.commit before).canonical .item = (call.masters before batch).canonical .item := by
  obtain ⟨stage, isMasters⟩ := first.stage
  rw [isMasters]
  exact stage.item

end Totals

/-- No stock is lost exactly if, for every item, nothing is lost of its records
without a known warehouse and by rounding. -/
theorem noStockLost_iff {call : SyncCall} {before : DB} {batch : FetchBatch} (first : FirstStock call before batch) :
    NoStockLost call before batch ↔ ∀ sku, lost call.enterpriseId (call.masters before batch)
      ((call.stockEntries before batch).filter (·.sku = sku)) = 0 := by
  constructor
  · intro none sku
    cases named : (call.stockEntries before batch).filter (·.sku = sku) with
    | nil => simp [lost, unplaced, kept, amount, roundedOff]
    | cons entry rest =>
        have selected : entry ∈ (call.stockEntries before batch).filter (·.sku = sku) := named ▸ List.mem_cons_self
        obtain ⟨listed, isSku⟩ := List.mem_filter.mp selected
        obtain rfl := of_decide_eq_true isSku
        obtain ⟨itemId, ⟨item, member, rfl, owned, isNamed⟩, _⟩ := first.known entry listed
        rw [← named]
        have isMaster : IsMaster call.enterpriseId itemRef entry.sku (call.commit before) item.id :=
          ⟨item, first.items ▸ member, rfl, owned, isNamed⟩
        have stocked := none item (first.items ▸ member) owned entry.sku isNamed
        rw [first.onHand isMaster, ← storedTotal_add_lost call.enterpriseId (call.masters before batch)] at stocked
        linarith
  · intro nothing item member owned sku named
    have isMaster : IsMaster call.enterpriseId itemRef sku (call.commit before) item.id := ⟨item, member, rfl, owned, named⟩
    rw [first.onHand isMaster, ← storedTotal_add_lost call.enterpriseId (call.masters before batch), nothing, add_zero]

/-! ## A sheet with warehouses -/

/-- The sheet names the warehouse of a stock as well, and the enterprise has one. -/
def warehouseSheet : DB :=
  { sheetWithSource with
    canonical := fun
      | .warehouse => Table.empty.insert (.ofColumns 1 .fresh (some 1) [("code", .text "east"), ("name", .text "")])
      | _ => .empty
    fieldMapping := sheetWithSource.fieldMapping.insert (confirmedMapping "wh" .stockLevel "warehouse_code") }

/-- Bolts in two warehouses. -/
def twoStocks (first second : String) : FetchBatch where
  records := [
    Dict.ofList [("sku", .text "bolt"), ("wh", .text first), ("qty", .text "10")],
    Dict.ofList [("sku", .text "bolt"), ("wh", .text second), ("qty", .text "5")]]
  fetchedAt := 0

def twoStocksCall (first second : String) : SyncCall := ⟨1, delivering (twoStocks first second), 1, 1⟩

theorem firstStock_of_twoStocks {first second : String} (different : first ≠ second)
    (returns : returned ((twoStocksCall first second).session warehouseSheet) = true)
    (legible : ∀ record ∈ (twoStocks first second).records,
      (stockEntry ((twoStocksCall first second).stockMappings warehouseSheet) record).isSome)
    (entries : (twoStocksCall first second).stockEntries warehouseSheet (twoStocks first second) =
      [⟨"bolt", some first, 10⟩, ⟨"bolt", some second, 5⟩])
    (items : (((twoStocksCall first second).masters warehouseSheet (twoStocks first second)).canonical .item).rows.map
      (fun row => (row.id, row.enterpriseId, row.col "sku")) = [(1, 1, .text "bolt")]) :
    FirstStock (twoStocksCall first second) warehouseSheet (twoStocks first second) where
  fetched := ⟨_, rfl, rfl⟩
  returns := returns
  fresh _ member := absurd member List.not_mem_nil
  legible record member _ _ := .inr (legible record member)
  known entry listed := by
    have isBolt : entry.sku = "bolt" := by
      rw [entries] at listed
      rcases List.mem_cons.mp listed with rfl | listed
      · rfl
      · rw [List.mem_singleton.mp listed]
    obtain ⟨row, rows, same⟩ := List.map_eq_singleton_iff.mp items
    obtain ⟨id, enterprise, sku⟩ : row.id = 1 ∧ row.enterpriseId = 1 ∧ row.col "sku" = .text "bolt" := by simpa using same
    rw [isBolt]
    refine ⟨1, ⟨row, ?_, id, enterprise, sku⟩, ?_⟩
    · change row ∈ (((twoStocksCall first second).masters warehouseSheet (twoStocks first second)).canonical .item).rows
      rw [rows]
      exact List.mem_singleton_self row
    · rintro other ⟨otherRow, member, rfl, _⟩
      change otherRow ∈ (((twoStocksCall first second).masters warehouseSheet (twoStocks first second)).canonical .item).rows
        at member
      rw [rows, List.mem_singleton] at member
      rw [member, id]
  distinct := by simp [entries, different]

theorem eastAndWest_first : FirstStock (twoStocksCall "east" "west") warehouseSheet (twoStocks "east" "west") :=
  firstStock_of_twoStocks (by decide) (by decide +kernel) (by decide +kernel) (by decide +kernel) (by decide +kernel)

/-- One unknown warehouse is one row. -/
theorem noStockLost_eastAndWest : NoStockLost (twoStocksCall "east" "west") warehouseSheet (twoStocks "east" "west") := by
  refine (noStockLost_iff eastAndWest_first).mpr fun sku => ?_
  by_cases isBolt : sku = "bolt"
  · subst isBolt
    decide +kernel
  · have entries : (twoStocksCall "east" "west").stockEntries warehouseSheet (twoStocks "east" "west") =
        [⟨"bolt", some "east", 10⟩, ⟨"bolt", some "west", 5⟩] := by decide +kernel
    have other : "bolt" ≠ sku := fun same => isBolt same.symm
    have nothing : ((twoStocksCall "east" "west").stockEntries warehouseSheet (twoStocks "east" "west")).filter (·.sku = sku) =
        [] := by
      rw [entries]
      simp [other]
    rw [nothing]
    simp [lost, unplaced, kept, amount, roundedOff]

/-- Two unknown warehouses share a row, and the ten bolts of the first are lost. -/
theorem northAndWest_loses_stock :
    FirstStock (twoStocksCall "north" "west") warehouseSheet (twoStocks "north" "west") ∧
      ¬ NoStockLost (twoStocksCall "north" "west") warehouseSheet (twoStocks "north" "west") ∧
      onHand ((twoStocksCall "north" "west").commit warehouseSheet) 1 1 = 5 := by
  have first : FirstStock (twoStocksCall "north" "west") warehouseSheet (twoStocks "north" "west") :=
    firstStock_of_twoStocks (by decide) (by decide +kernel) (by decide +kernel) (by decide +kernel) (by decide +kernel)
  have stock : onHand ((twoStocksCall "north" "west").commit warehouseSheet) 1 1 = 5 := by decide +kernel
  have sent : amount (((twoStocksCall "north" "west").stockEntries warehouseSheet (twoStocks "north" "west")).filter
      (·.sku = "bolt")) = 15 := by decide +kernel
  have items : (((twoStocksCall "north" "west").commit warehouseSheet).canonical .item).rows.map
      (fun row => (row.id, row.enterpriseId, row.col "sku")) = [(1, 1, .text "bolt")] := by decide +kernel
  refine ⟨first, fun none => ?_, stock⟩
  obtain ⟨row, rows, same⟩ := List.map_eq_singleton_iff.mp items
  obtain ⟨id, enterprise, sku⟩ : row.id = 1 ∧ row.enterpriseId = 1 ∧ row.col "sku" = .text "bolt" := by simpa using same
  have kept := none row (rows ▸ List.mem_singleton_self row) enterprise "bolt" sku
  rw [id, sent] at kept
  exact absurd (stock.symm.trans kept) (by norm_num)

end SmartProcurement.Integration
