import SmartProcurement.Analysis.PriceAnomalies

namespace SmartProcurement.Analysis

open Relational Transaction Transition Numeric Observation Integration

/-! # A supplier changes its price

Sync keeps one price row for an item and a supplier, so that a new price takes the
place of the old one.  An item with a single supplier price has no trend.
-/

def itemPrices (itemId : Uuid) (db : DB) : List Row :=
  (db.canonical .price).rows.filter fun row => row.uuid? "item_id" = some itemId

/-- A price record of the item. -/
def PricesItem (itemId : Uuid) (accepted : Accepted) : Prop :=
  accepted.entity = .price ∧ accepted.identity.2.head? = some (.uuid itemId)

instance (itemId : Uuid) (accepted : Accepted) : Decidable (PricesItem itemId accepted) :=
  inferInstanceAs (Decidable (_ ∧ _))

/-- A sync of the only price record of the item, which carries a price at least a
tenth away from the one that is stored. -/
structure PriceJump (itemId : Uuid) (before : DB) where
  call : SyncCall
  row : Row
  old : ℚ
  new : ℚ
  returns : returned (call.session before) = true
  single : itemPrices itemId before = [row]
  stores : row.col "unit_price" = .decimal (.finite old)
  carries : ∃ accepted ∈ call.accepted before, accepted.entity = .price ∧
    accepted.identity = identityOf .price row ∧ accepted.attrs.lookup "unit_price" = some (.decimal (.finite new))
  only : ∀ accepted ∈ call.accepted before, PricesItem itemId accepted →
    accepted.identity = identityOf .price row ∧ accepted.attrs.lookup "enterprise_id" = none
  positive : 0 < old
  apart : 1 / 10 ≤ |new - old| / old

def PriceJump.after {itemId : Uuid} {before : DB} (jump : PriceJump itemId before) : DB := jump.call.commit before

/-- The item has a price anomaly that is not over. -/
def Alarmed (itemId : Uuid) (db : DB) : Prop :=
  ∃ finding ∈ db.riskFinding.rows, isPriceAnomaly itemId finding = true ∧ finding.status.terminal = false

section Single

variable {itemId : Uuid} {before after : DB} {identity : Identity} {rows result : Table Row} {accepted : Accepted}

theorem names_iff {row : Row} :
    (identityOf .price row).2.head? = some (.uuid itemId) ↔ row.uuid? "item_id" = some itemId := by
  change some (row.col "item_id") = some (.uuid itemId) ↔ (row.col "item_id").uuid? = some itemId
  cases row.col "item_id" <;> simp [Value.uuid?]

/-- One row prices the item, under this identity. -/
def SinglePrice (itemId : Uuid) (identity : Identity) (rows : Table Row) : Prop :=
  ∃ price ∈ rows.rows, price.uuid? "item_id" = some itemId ∧ identityOf .price price = identity ∧
    ∀ row ∈ rows.rows, row.uuid? "item_id" = some itemId → row = price

theorem SinglePrice.supplied (single : SinglePrice itemId identity rows) (isPrice : accepted.entity = .price)
    (supplied : Supplied accepted rows result)
    (same : PricesItem itemId accepted → accepted.identity = identity ∧ accepted.attrs.lookup "enterprise_id" = none) :
    SinglePrice itemId identity result := by
  obtain ⟨price, member, item, isIdentity, only⟩ := single
  cases supplied with
  | @inserted stored missing isNew _ _ _ =>
      rw [isPrice] at missing isNew
      refine ⟨price, List.mem_append_left _ member, item, isIdentity, fun row rowMember rowItem => ?_⟩
      rcases List.mem_append.mp rowMember with old | new
      · exact only row old rowItem
      · obtain rfl := List.mem_singleton.mp new
        have names : PricesItem itemId accepted := ⟨isPrice, isNew ▸ names_iff.mpr rowItem⟩
        exact absurd (isIdentity.trans (same names).1.symm) (missing price member)
  | @overridden existing stored existingMember isExisting _ id keys _ _ stays _ =>
      rw [isPrice] at isExisting keys
      have sameItem : stored.uuid? "item_id" = some itemId ↔ existing.uuid? "item_id" = some itemId := by
        have head : (identityOf .price stored).2.head? = (identityOf .price existing).2.head? := congrArg List.head? keys
        rw [← names_iff, head, names_iff]
      have rowsAfter (row : Row) := @Table.mem_update_const _ _ _ row _ _ existingMember id
      by_cases hit : existing = price
      · subst hit
        have names : PricesItem itemId accepted := ⟨isPrice, isExisting ▸ names_iff.mpr item⟩
        refine ⟨stored, (rowsAfter stored).mpr (.inr rfl), sameItem.mpr item, ?_, fun row rowMember rowItem => ?_⟩
        · rw [← isIdentity]
          exact Prod.ext (stays (same names).2) keys
        · rcases (rowsAfter row).mp rowMember with ⟨old, other⟩ | isStored
          · exact absurd (congrArg Row.id (only row old rowItem)) other
          · exact isStored
      · have other : price.id ≠ existing.id := fun same => hit (Table.eq_of_key_eq existingMember member same.symm)
        refine ⟨price, (rowsAfter price).mpr (.inl ⟨member, other⟩), item, isIdentity, fun row rowMember rowItem => ?_⟩
        rcases (rowsAfter row).mp rowMember with ⟨old, _⟩ | rfl
        · exact only row old rowItem
        · exact absurd (only existing existingMember (sameItem.mp rowItem)) hit

/-- An item with one price row has no two prices to compare. -/
theorem SinglePrice.agree {db : DB} (single : SinglePrice itemId identity (db.canonical .price)) : PricesAgree db itemId := by
  obtain ⟨price, _, _, _, only⟩ := single
  have alone (row : Row) (member : row ∈ sortNewestFirst (·.date? "valid_from") (trustedRows db .price itemId)) :
      row = price := by
    obtain ⟨stored, item, _⟩ := mem_trustedRows.mp ((List.mem_insertionSort _).mp member)
    exact only row stored item
  have distinct : (sortNewestFirst (·.date? "valid_from") (trustedRows db .price itemId)).Nodup := by
    have rows : (db.canonical .price).rows.Nodup := List.Nodup.of_map _ (db.canonical .price).distinct
    exact (List.perm_insertionSort _ _).nodup_iff.mpr (rows.filter _)
  intro prices found
  unfold newestPrices at found
  split at found
  · next row previous rest sorted =>
    rw [sorted] at alone distinct
    have same : row = previous := (alone row (by simp)).trans (alone previous (by simp)).symm
    simp [same] at distinct
  · cases found

end Single

/-! ## A check that meets prices that agree -/

theorem AnomalyCheck.alarmed_iff {itemId : Uuid} {db : DB} (check : AnomalyCheck itemId db) (stored : TrendsStored db)
    (agree : PricesAgree db itemId) : Alarmed itemId check.after ↔ Alarmed itemId db := by
  obtain ⟨row, _, item, only, ⟨values, computed, kept⟩, _⟩ := check.aggregate stored.level
  rw [← item] at computed agree
  have calm := (stored.derived computed kept).2.mpr agree
  have storedAfter := stored.recomputed check.recomputed
  have detected := check.detected
  rw [detectRisks_eq] at detected
  have added := runProbes_added (probes_sound check.later check.enterpriseId check.middle) detected
  have sameFindings : check.middle.riskFinding = db.riskFinding := by
    obtain ⟨table, same⟩ := (recomputeAggregates_ok check.recomputed).1
    rw [same]
  rw [Alarmed, Alarmed, ← sameFindings]
  constructor
  · rintro ⟨finding, member, anomaly, ongoing⟩
    rcases added.found finding member with old | ⟨probe, probeMember, candidate, found, matched⟩
    · exact ⟨finding, old, anomaly, ongoing⟩
    · obtain ⟨type, itemOf⟩ := of_decide_eq_true anomaly
      obtain ⟨_, sameType, _, sameItem, _⟩ := matchesCandidate_iff.mp matched
      refine absurd (sameItem.symm.trans itemOf) (storedAfter.quiet ?_ probeMember found (sameType.symm.trans type))
      intro other otherMember isItem
      rw [only other (List.mem_filter.mp otherMember).1 isItem]
      exact calm
  · rintro ⟨finding, member, anomaly, ongoing⟩
    exact ⟨finding, added.kept.subset member, anomaly, ongoing⟩

/-! ## After the jump -/

section Jump

variable {itemId : Uuid} {before : DB}

theorem PriceJump.single_after (jump : PriceJump itemId before) :
    SinglePrice itemId (identityOf .price jump.row) (jump.after.canonical .price) := by
  obtain ⟨result, ran⟩ := exists_of_returned jump.returns
  have start : SinglePrice itemId (identityOf .price jump.row) (before.canonical .price) := by
    have row (other : Row) : other ∈ (before.canonical .price).rows ∧ other.uuid? "item_id" = some itemId ↔
        other = jump.row := by
      have selected : other ∈ itemPrices itemId before ↔ other ∈ [jump.row] := by rw [jump.single]
      simpa [itemPrices] using selected
    obtain ⟨member, item⟩ := (row jump.row).mpr rfl
    exact ⟨jump.row, member, item, rfl, fun other stored sameItem => (row other).mp ⟨stored, sameItem⟩⟩
  rw [PriceJump.after, SyncCall.commit, transact_of_ok ran]
  refine SyncCall.accepted_invariant (fun canonical => SinglePrice itemId (identityOf .price jump.row) (canonical .price))
    ran start fun accepted member db later single supplied => ?_
  by_cases isPrice : accepted.entity = .price
  · have table := supplied.table
    rw [isPrice] at table
    exact single.supplied isPrice table (jump.only accepted member)
  · rw [supplied.others .price (Ne.symm isPrice)]
    exact single

/-- Recomputed and searched after the jump, the item has an ongoing anomaly exactly
if it had one before: the jump itself is never found. -/
theorem priceJump_undetected (itemId : Uuid) (initial : DB) (noAggregate : initial.skuAggregate.rows = [])
    (prices : ∀ row ∈ (initial.canonical .price).rows, StoredNumber "unit_price" row) (calls : List RiskCall)
    (jump : PriceJump itemId (calls.foldl RiskCall.commit initial)) (check : AnomalyCheck itemId jump.after) :
    Alarmed itemId check.after ↔ Alarmed itemId (calls.foldl RiskCall.commit initial) := by
  have stored := trendsStored_of_calls noAggregate prices calls
  obtain ⟨_, ran⟩ := exists_of_returned jump.returns
  have committed : jump.after = state (jump.call.session (calls.foldl RiskCall.commit initial)) := by
    rw [PriceJump.after, SyncCall.commit, transact_of_ok ran]
  have storedJump : TrendsStored jump.after := by
    rw [committed]
    exact (stored.synced ran).2
  have sameFindings : jump.after.riskFinding = (calls.foldl RiskCall.commit initial).riskFinding := by
    rw [committed]
    exact (syncSource_frame (findingsFrame_sync _) ran).1
  rw [check.alarmed_iff storedJump jump.single_after.agree, Alarmed, Alarmed, sameFindings]

end Jump

/-! ## A price that doubles -/

def oneQuote (price : String) : List (String × String) := [("acme", price)]

def quotedOnce : DB := [syncQuotes 0 (oneQuote "10")].foldl RiskCall.commit quoteSheet

def doubled : SyncCall := quoteCall 1 (oneQuote "20")

theorem priceJump_of_doubled : ∃ jump : PriceJump 1 quotedOnce, jump.call = doubled := by
  obtain ⟨row, single⟩ := List.length_eq_one_iff.mp (by decide +kernel : (itemPrices 1 quotedOnce).length = 1)
  have stores : ∀ row ∈ itemPrices 1 quotedOnce, row.col "unit_price" = .decimal (.finite 10) := by decide +kernel
  have carries : ∀ row ∈ itemPrices 1 quotedOnce, ∃ accepted ∈ doubled.accepted quotedOnce, accepted.entity = .price ∧
      accepted.identity = identityOf .price row ∧ accepted.attrs.lookup "unit_price" = some (.decimal (.finite 20)) := by
    decide +kernel
  have only : ∀ row ∈ itemPrices 1 quotedOnce, ∀ accepted ∈ doubled.accepted quotedOnce, PricesItem 1 accepted →
      accepted.identity = identityOf .price row ∧ accepted.attrs.lookup "enterprise_id" = none := by
    decide +kernel
  have member : row ∈ itemPrices 1 quotedOnce := by
    rw [single]
    exact List.mem_singleton_self row
  exact ⟨⟨doubled, row, 10, 20, by decide +kernel, single, stores row member, carries row member, only row member,
    by decide, by norm_num⟩, rfl⟩

theorem doubledPrice_undetected :
    ∃ (jump : PriceJump 1 quotedOnce) (check : AnomalyCheck 1 jump.after), ¬ Alarmed 1 check.after := by
  obtain ⟨jump, same⟩ := priceJump_of_doubled
  have after : jump.after = doubled.commit quotedOnce := by rw [PriceJump.after, same]
  obtain ⟨aggregates, recomputed⟩ := exists_of_returned
    (by decide +kernel : returned (recomputeAggregates 2 1 none (doubled.commit quotedOnce)) = true)
  obtain ⟨findings, detected⟩ := exists_of_returned
    (by decide +kernel : returned (detectRisks 3 1 (state (recomputeAggregates 2 1 none (doubled.commit quotedOnce)))) = true)
  rw [← after] at recomputed detected
  have check : AnomalyCheck 1 jump.after := by
    refine ⟨1, none, 2, 3, aggregates, _, findings, _, recomputed, detected, ?_, ?_⟩
    · rw [after]
      decide +kernel
    · rw [after, hasTrustedStock]
      decide +kernel
  have prices : ∀ row ∈ (quoteSheet.canonical .price).rows, StoredNumber "unit_price" row :=
    fun _ member => absurd member List.not_mem_nil
  refine ⟨jump, check, fun alarmed => ?_⟩
  obtain ⟨_, member, _⟩ := (priceJump_undetected 1 quoteSheet rfl prices _ jump check).mp alarmed
  have none : (quotedOnce.riskFinding.rows).length = 0 := by decide +kernel
  exact List.not_mem_nil (List.eq_nil_of_length_eq_zero none ▸ member)

/-- The price of the only supplier goes from 10 to 20, and nothing is found. -/
theorem doubled_price_raises_nothing :
    let second := doubled.commit quotedOnce
    let recomputed := transact (recomputeAggregates 2 1 none) second
    let detected := transact (detectRisks 3 1) recomputed.2
    (itemPrices 1 quotedOnce).map (·.col "unit_price") = [.decimal (.finite 10)] ∧
      (itemPrices 1 second).map (·.col "unit_price") = [.decimal (.finite 20)] ∧
      hasTrustedStock second 1 ∧ recomputed.1.isOk = true ∧ detected.1.isOk = true ∧ ¬ Alarmed 1 detected.2 := by
  unfold hasTrustedStock Alarmed
  decide +kernel

end SmartProcurement.Analysis
