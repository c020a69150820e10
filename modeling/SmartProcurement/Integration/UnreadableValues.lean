import SmartProcurement.Integration.Resync
import SmartProcurement.Integration.SyncLockstep

namespace SmartProcurement.Integration

open Relational Transaction Text

/-! # Values that cannot be read

Blank fields are dropped before a record is matched with its row, and unreadable
values become null after that.  Null takes the place of a stored value, and no
place in a column that is not nullable.
-/

/-- The same record with the field blank: missing, `None` or empty. -/
structure BlankAt (path : String) (record blanked : Record) : Prop where
  blank : ∀ value, blanked.lookup path = some value → value.blank = true
  others : ∀ key, key ≠ path → blanked.lookup key = record.lookup key

/-- The field and the value that an attribute is taken from, after one more mapping. -/
def takeOne (record : Record) (name : String) (taken : Option (String × Raw)) (mapping : FieldMapping) :
    Option (String × Raw) :=
  match supplied record mapping with
  | .ok (some raw) => if mapping.canonicalAttribute = name then some (mapping.sourceFieldPath, raw) else taken
  | _ => taken

def lastTaken (record : Record) (mappings : List FieldMapping) (name : String) : Option (String × Raw) :=
  mappings.foldl (takeOne record name) none

def otherMappings (path : String) (mappings : List FieldMapping) : List FieldMapping :=
  mappings.filter (·.sourceFieldPath ≠ path)

/-- Nobody can read what the field gives. -/
structure UnreadableAt (path : String) (record : Record) (entity : Entity) (mappings : List FieldMapping) : Prop where
  returns : ∀ mapping ∈ mappings, mapping.sourceFieldPath = path → ∃ given, supplied record mapping = .ok given
  unreadable : ∀ name raw, lastTaken record mappings name = some (path, raw) → Unreadable entity name raw

section Extract

variable {path : String} {record blanked : Record} {entity : Entity} {mappings : List FieldMapping} {mapping : FieldMapping}

theorem BlankAt.supplied_other (blank : BlankAt path record blanked) (other : mapping.sourceFieldPath ≠ path) :
    supplied blanked mapping = supplied record mapping := by
  unfold supplied
  rw [blank.others _ other]

/-- A transform leaves a blank value blank. -/
theorem applyTransform_blank {value : Raw} (blank : value.blank = true) (transform : Transform) :
    ∃ kept, applyTransform value transform = .ok kept ∧ kept.blank = true := by
  cases value with
  | null => exact ⟨.null, rfl, rfl⟩
  | uuid id => cases blank
  | other shown => cases blank
  | text content =>
      obtain rfl : content = "" := String.isEmpty_iff.mp blank
      refine ⟨.text "", ?_, rfl⟩
      have stripped : strip "" = "" := by decide +kernel
      have raised : upper "" = "" := by decide +kernel
      have lowered : lower "" = "" := by decide +kernel
      have unread : decimal? "" = none := by decide +kernel
      unfold applyTransform
      simp only [Raw.str, stripped, raised, lowered, ite_self]
      cases transform.multiply with
      | none => rfl
      | some factor => simp only [unread]

theorem BlankAt.supplied_none (blank : BlankAt path record blanked) (own : mapping.sourceFieldPath = path) :
    supplied blanked mapping = .ok none := by
  unfold supplied
  rw [own]
  cases found : blanked.lookup path with
  | none => rfl
  | some value =>
      have isBlank := blank.blank value found
      cases mapping.transform with
      | none =>
          dsimp only
          exact congrArg Except.ok (if_pos isBlank)
      | some transform =>
          obtain ⟨kept, ran, keptBlank⟩ := applyTransform_blank isBlank transform
          dsimp only
          rw [ran]
          exact congrArg Except.ok (if_pos keptBlank)

theorem lastTaken_append (front : List FieldMapping) (last : FieldMapping) (name : String) :
    lastTaken record (front ++ [last]) name = takeOne record name (lastTaken record front name) last := by
  rw [lastTaken, List.foldl_append]
  rfl

/-- A mapping gives the attribute, or it leaves it. -/
theorem takeOne_cases (record : Record) (name : String) (mapping : FieldMapping) :
    (∃ raw, supplied record mapping = .ok (some raw) ∧ mapping.canonicalAttribute = name ∧
        ∀ taken, takeOne record name taken mapping = some (mapping.sourceFieldPath, raw)) ∨
      ∀ taken, takeOne record name taken mapping = taken := by
  unfold takeOne
  cases supplied record mapping with
  | error reason => exact .inr fun _ => rfl
  | ok given =>
      cases given with
      | none => exact .inr fun _ => rfl
      | some raw =>
          by_cases hit : mapping.canonicalAttribute = name
          · exact .inl ⟨raw, rfl, hit, fun _ => if_pos hit⟩
          · exact .inr fun _ => if_neg hit

theorem mem_of_lastTaken {name : String} {raw : Raw} (taken : lastTaken record mappings name = some (path, raw)) :
    ∃ mapping ∈ mappings, mapping.sourceFieldPath = path ∧ mapping.canonicalAttribute = name ∧
      supplied record mapping = .ok (some raw) := by
  induction mappings using List.reverseRecOn with
  | nil => cases taken
  | append_singleton front last ih =>
      rw [lastTaken_append] at taken
      rcases takeOne_cases record name last with ⟨given, took, hit, gives⟩ | leaves
      · rw [gives] at taken
        cases taken
        exact ⟨last, List.mem_append_right _ List.mem_cons_self, rfl, hit, took⟩
      · rw [leaves] at taken
        obtain ⟨mapping, member, facts⟩ := ih taken
        exact ⟨mapping, List.mem_append_left _ member, facts⟩

/-- The later mapping wins. -/
theorem lookup_extract {out : Dict Raw} (ran : extract record mappings = .ok out) (name : String) :
    out.lookup name = (lastTaken record mappings name).map Prod.snd := by
  induction mappings using List.reverseRecOn generalizing out with
  | nil =>
      obtain rfl := except_pure_eq_ok.mp ran
      exact AList.lookup_empty name
  | append_singleton front last ih =>
      obtain ⟨before, frontRan, stepped⟩ := extract_append_ok ran
      rw [lastTaken_append, takeOne]
      rcases extractOne_eq_ok.mp stepped with ⟨took, rfl⟩ | ⟨raw, took, rfl⟩
      · rw [took]
        exact ih frontRan
      · rw [took]
        by_cases hit : last.canonicalAttribute = name
        · subst hit
          simp only [if_true, Option.map_some]
          exact AList.lookup_insert _
        · rw [AList.lookup_insert_ne (Ne.symm hit)]
          simp only [if_neg hit]
          exact ih frontRan

theorem otherMappings_append (front : List FieldMapping) (last : FieldMapping) :
    otherMappings path (front ++ [last]) =
      if last.sourceFieldPath = path then otherMappings path front else otherMappings path front ++ [last] := by
  rw [otherMappings, List.filter_append]
  by_cases own : last.sourceFieldPath = path
  · rw [if_pos own, List.filter_cons_of_neg (by simpa using own), List.filter_nil, List.append_nil]
    rfl
  · rw [if_neg own, List.filter_cons_of_pos (by simpa using own), List.filter_nil]
    rfl

theorem lastTaken_blanked (blank : BlankAt path record blanked) (name : String) :
    lastTaken blanked mappings name = lastTaken record (otherMappings path mappings) name := by
  induction mappings using List.reverseRecOn with
  | nil => rfl
  | append_singleton front last ih =>
      rw [lastTaken_append, ih, otherMappings_append]
      by_cases own : last.sourceFieldPath = path
      · rw [takeOne, blank.supplied_none own, if_pos own]
      · rw [takeOne, blank.supplied_other own, if_neg own, lastTaken_append, takeOne]

/-- An attribute that is finally taken from elsewhere is what the other mappings give. -/
theorem lastTaken_others {name : String} (elsewhere : ∀ raw, lastTaken record mappings name ≠ some (path, raw)) :
    lastTaken record (otherMappings path mappings) name = lastTaken record mappings name := by
  induction mappings using List.reverseRecOn with
  | nil => rfl
  | append_singleton front last ih =>
      rw [lastTaken_append] at elsewhere ⊢
      rw [otherMappings_append]
      by_cases own : last.sourceFieldPath = path
      · rw [if_pos own]
        rcases takeOne_cases record name last with ⟨raw, _, _, gives⟩ | leaves
        · exact absurd (own ▸ gives _) (elsewhere raw)
        · rw [leaves] at elsewhere ⊢
          exact ih elsewhere
      · rw [if_neg own, lastTaken_append]
        rcases takeOne_cases record name last with ⟨raw, _, _, gives⟩ | leaves
        · rw [gives, gives]
        · rw [leaves] at elsewhere ⊢
          rw [leaves]
          exact ih elsewhere

theorem extract_loses (blank : BlankAt path record blanked) (unreadable : UnreadableAt path record entity mappings) :
    Alike (Loses entity) (extract record mappings) (extract blanked mappings) := by
  have returns : (∃ attrs, extract record mappings = .ok attrs) ↔ ∃ others, extract blanked mappings = .ok others := by
    rw [extract_returns_iff, extract_returns_iff]
    refine forall₂_congr fun mapping member => ?_
    by_cases own : mapping.sourceFieldPath = path
    · exact iff_of_true (unreadable.returns mapping member own) ⟨none, blank.supplied_none own⟩
    · rw [blank.supplied_other own]
  refine alike_of_returns returns fun attrs others extracted otherExtracted name => ?_
  by_cases taken : ∃ raw, lastTaken record mappings name = some (path, raw)
  · obtain ⟨raw, taken⟩ := taken
    refine .inr ⟨raw, ?_, unreadable.unreadable name raw taken, fun other => extract_filled otherExtracted⟩
    rw [lookup_extract extracted, taken]
    rfl
  · rw [lookup_extract extracted, lookup_extract otherExtracted, lastTaken_blanked blank,
      lastTaken_others (not_exists.mp taken)]
    exact .inl rfl

end Extract

/-! ## Runs -/

/-- The run comes to the record behind `front`, in the phase of the entity. -/
def Meets (context : SyncContext) (mappings : List FieldMapping) (front : List Record) (record : Record) (rest : List Record)
    (before : DB) (entity : Entity) (progress : Progress) (db : DB) : Prop :=
  ∃ entered middle, Reaches (syncEntity context mappings (front ++ record :: rest)) entityOrder .start before entity entered
      middle ∧ front.foldlM (syncRecord context entity (mappingsOf mappings entity)) entered middle = .ok progress db

/-- Where the record is accepted nobody can read what another field gives for an attribute
of the field either, or no other field does, and the attribute identifies no row and is null
in every row that the record is for. -/
def Harmless (context : SyncContext) (mappings : List FieldMapping) (front : List Record) (record : Record)
    (rest : List Record) (path : String) (before : DB) : Prop :=
  ∀ entity progress db, Meets context mappings front record rest before entity progress db →
    ∀ accepted, acceptedOf context mappings progress (entity, record) db = some accepted →
      ∀ name raw, lastTaken record (mappingsOf mappings entity) name = some (path, raw) →
        match lastTaken record (otherMappings path (mappingsOf mappings entity)) name with
        | some (_, other) => Unreadable entity name other
        | none => name ∉ (specs entity).identity ∧
            ∀ row ∈ (db.canonical entity).rows, identityOf entity row = accepted.identity → row.col name = .null

section Runs

variable {context : SyncContext} {mappings : List FieldMapping} {front rest : List Record} {record blanked : Record}
variable {path : String} {before : DB}

theorem eq_syncView : SyncView Eq where
  canonical same := same ▸ rfl
  enterprise same := same ▸ rfl
  signal _ same := same ▸ rfl
  stores _ _ same := same ▸ rfl

/-- A record without attributes has no identity. -/
theorem lacksIdentity_of_empty {enterpriseId : Uuid} {entity : Entity} {attrs resolved : Dict Raw} {cache : Cache}
    {resolution : Resolution} {db after : DB} (nothing : attrs.entries.isEmpty = true)
    (ran : resolveRefs enterpriseId entity attrs cache db = .ok resolution after) (accepted : resolution.resolved = some resolved) :
    lacksIdentity entity resolved = true := by
  obtain rfl : attrs = ∅ := AList.ext (List.isEmpty_iff.mp nothing)
  cases entity <;> cases ran <;> cases accepted <;> rfl

theorem Harmless.spares (harmless : Harmless context mappings front record rest path before)
    (blank : BlankAt path record blanked) {entity : Entity}
    {progress : Progress} {db : DB} {attrs others : Dict Raw}
    (meets : Meets context mappings front record rest before entity progress db)
    (extracted : extract record (mappingsOf mappings entity) = .ok attrs)
    (otherExtracted : extract blanked (mappingsOf mappings entity) = .ok others) :
    Spared context entity attrs others progress.cache db := by
  intro resolution resolved resolving accepted identified name different
  rw [lookup_extract extracted, lookup_extract otherExtracted, lastTaken_blanked blank] at different
  rw [lookup_extract otherExtracted, lastTaken_blanked blank]
  have taken : ∃ raw, lastTaken record (mappingsOf mappings entity) name = some (path, raw) := by
    by_contra elsewhere
    rw [lastTaken_others (not_exists.mp elsewhere)] at different
    exact different rfl
  obtain ⟨raw, taken⟩ := taken
  have filled : attrs.entries.isEmpty = false :=
    Bool.eq_false_iff.mpr fun nothing => by simp [lacksIdentity_of_empty nothing resolving accepted] at identified
  have accepts : acceptedOf context mappings progress (entity, record) db =
      some ⟨entity, context.enterpriseId, coerced entity resolved⟩ := by
    simp [acceptedOf, extracted, filled, resolving, accepted, identified]
  have spared := harmless entity progress db meets _ accepts name raw taken
  cases others : lastTaken record (otherMappings path (mappingsOf mappings entity)) name with
  | none =>
      rw [others] at spared
      exact .inr ⟨rfl, spared⟩
  | some found =>
      rw [others] at spared
      exact .inl ⟨found.2, rfl, spared⟩

/-- A loop that one value is replaced in takes the same course if that iteration does. -/
theorem matched_foldlM_replaced {ε σ α β : Type} {step : β → α → EStateM ε σ β} {front rest : List α} {value other : α}
    {init : β} {before : σ} (replaced : ∀ acc reached, front.foldlM step init before = .ok acc reached →
      Matched Eq Eq (step acc value reached) (step acc other reached)) :
    Matched Eq Eq ((front ++ value :: rest).foldlM step init before) ((front ++ other :: rest).foldlM step init before) := by
  rw [List.foldlM_append, List.foldlM_append]
  refine (matched_refl _).bind ?_
  rintro acc _ reached _ ran _ rfl rfl
  rw [List.foldlM_cons, List.foldlM_cons]
  refine (replaced acc reached ran).bind ?_
  rintro next _ middle _ _ _ rfl rfl
  exact matched_refl _

theorem syncBatch_matched (unreadable : ∀ entity, UnreadableAt path record entity (mappingsOf mappings entity))
    (harmless : Harmless context mappings front record rest path before) (blank : BlankAt path record blanked) :
    Matched Eq Eq (syncBatch context mappings (front ++ record :: rest) before)
      (syncBatch context mappings (front ++ blanked :: rest) before) := by
  refine matched_foldlM rfl rfl ?_
  rintro entity entered _ middle _ reaches rfl rfl
  have grouped (group : List FieldMapping) (isGroup : group = mappingsOf mappings entity) :
      Matched Eq Eq ((front ++ record :: rest).foldlM (syncRecord context entity group) entered middle)
        ((front ++ blanked :: rest).foldlM (syncRecord context entity group) entered middle) := by
    subst isGroup
    refine matched_foldlM_replaced fun progress db ran => ?_
    exact syncRecord_lockstep eq_syncView eq_progressView (extract_loses blank (unreadable entity)) rfl rfl
      (fun attrs extracted others otherExtracted =>
        harmless.spares blank ⟨entered, middle, reaches, ran⟩ extracted otherExtracted) db db ⟨rfl, rfl⟩
  unfold syncEntity
  cases isGroup : mappings.filter fun mapping => mapping.canonicalEntity = entity with
  | nil => exact .ok rfl rfl
  | cons first others => exact grouped (first :: others) isGroup.symm

/-- A sync of the batch leaves the canonical rows that it would leave if the field were
blank in the record. -/
def AsGoodAsBlank (front : List Record) (record : Record) (rest : List Record) (path : String) (fetchedAt : Timestamp)
    (enterpriseId dataSourceId : Uuid) (now : Timestamp) (before : DB) : Prop :=
  ∀ blanked, BlankAt path record blanked →
    ((SyncCall.delivery ⟨front ++ record :: rest, fetchedAt⟩ enterpriseId dataSourceId now).commit before).canonical =
      ((SyncCall.delivery ⟨front ++ blanked :: rest, fetchedAt⟩ enterpriseId dataSourceId now).commit before).canonical

theorem asGoodAsBlank_of_harmless (front : List Record) (record : Record) (rest : List Record) (path : String)
    (fetchedAt : Timestamp) (enterpriseId dataSourceId : Uuid) (now : Timestamp) (before : DB)
    (unreadable : ∀ entity, UnreadableAt path record entity (mappingsOf (confirmedMappings dataSourceId before) entity))
    (harmless : Harmless { now, enterpriseId, dataSourceId, fetchedAt } (confirmedMappings dataSourceId before) front record rest
      path before) : AsGoodAsBlank front record rest path fetchedAt enterpriseId dataSourceId now before := by
  intro blanked blank
  have matched : Matched Eq Eq
      ((SyncCall.delivery ⟨front ++ record :: rest, fetchedAt⟩ enterpriseId dataSourceId now).session before)
      ((SyncCall.delivery ⟨front ++ blanked :: rest, fetchedAt⟩ enterpriseId dataSourceId now).session before) := by
    unfold SyncCall.session SyncCall.delivery syncSource
    refine (matched_refl (ownedSource enterpriseId dataSourceId before)).bind ?_
    rintro found _ middle _ looked _ rfl rfl
    obtain rfl := (ownedSource_ok looked).1
    cases found with
    | none => exact .error
    | some source =>
        refine (syncBatch_matched unreadable harmless blank).bind ?_
        rintro progress _ batched _ _ _ rfl rfl
        simp only [List.length_append, List.length_cons]
        exact matched_refl _
  have same := matched.transact rfl
  exact congrArg DB.canonical same

end Runs

/-! ## A quantity that cannot be read -/

def stockRecord (sku quantity : String) : Record := Dict.ofList [("sku", .text sku), ("qty", .text quantity)]

theorem qty_mappings : ∀ entity, ∀ mapping ∈ mappingsOf (confirmedMappings 1 sheetWithSource) entity,
    (mapping.sourceFieldPath = "qty" ↔ mapping.canonicalAttribute = "quantity") ∧
      (mapping.sourceFieldPath = "qty" → entity = .stockLevel ∧ mapping.transform = none) := by
  intro entity
  cases entity <;> decide +kernel

theorem quantity_supplied {entity : Entity} {mapping : FieldMapping}
    (member : mapping ∈ mappingsOf (confirmedMappings 1 sheetWithSource) entity) (own : mapping.sourceFieldPath = "qty") :
    supplied (stockRecord "bolt" "abc") mapping = .ok (some (.text "abc")) := by
  obtain ⟨rfl, plain⟩ := (qty_mappings entity mapping member).2 own
  unfold supplied
  rw [own, plain]
  rfl

/-- The quantity is all that is taken from the field. -/
theorem quantity_taken {entity : Entity} {name : String} {raw : Raw}
    (taken : lastTaken (stockRecord "bolt" "abc") (mappingsOf (confirmedMappings 1 sheetWithSource) entity) name =
      some ("qty", raw)) : entity = .stockLevel ∧ name = "quantity" ∧ raw = .text "abc" := by
  obtain ⟨mapping, member, own, named, took⟩ := mem_of_lastTaken taken
  obtain ⟨attr, only⟩ := qty_mappings entity mapping member
  rw [quantity_supplied member own] at took
  exact ⟨(only own).1, named.symm.trans (attr.mp own), (Option.some.inj (Except.ok.inj took)).symm⟩

theorem quantity_unreadable (entity : Entity) :
    UnreadableAt "qty" (stockRecord "bolt" "abc") entity (mappingsOf (confirmedMappings 1 sheetWithSource) entity) := by
  refine ⟨fun mapping member own => ⟨_, quantity_supplied member own⟩, fun name raw taken => ?_⟩
  obtain ⟨rfl, rfl, rfl⟩ := quantity_taken taken
  exact ⟨rfl, by decide, .numeric, rfl, by decide +kernel⟩

/-- A new row takes the default. -/
theorem unreadable_quantity_of_new_stock :
    AsGoodAsBlank [] (stockRecord "bolt" "abc") [stockRecord "nut" "5"] "qty" 0 1 1 1 sheetWithSource := by
  refine asGoodAsBlank_of_harmless _ _ _ _ _ _ _ _ _ quantity_unreadable ?_
  rintro entity progress db ⟨entered, middle, ⟨done, others, split, ran⟩, nothing⟩ accepted accepts name raw taken
  obtain ⟨rfl, rfl, rfl⟩ := quantity_taken taken
  have alone : lastTaken (stockRecord "bolt" "abc")
      (otherMappings "qty" (mappingsOf (confirmedMappings 1 sheetWithSource) .stockLevel)) "quantity" = none := by decide +kernel
  rw [alone]
  refine ⟨by decide, fun row stored _ => ?_⟩
  obtain ⟨rfl, rfl⟩ := pure_eq_ok.mp nothing
  have earlier : ∀ entity ∈ done, decide (entity ≠ .stockLevel) = true := by
    have distinct : entityOrder.Nodup := by decide
    rw [split] at distinct
    intro entity before
    refine decide_eq_true fun same => ?_
    exact (List.nodup_append.mp distinct).2.2 entity before .stockLevel List.mem_cons_self same
  have phases : entityOrder.takeWhile (· ≠ .stockLevel) = done := by
    rw [split, List.takeWhile_append_of_pos earlier]
    exact List.append_nil done
  have empty : ((state ((entityOrder.takeWhile (· ≠ .stockLevel)).foldlM
      (syncEntity { now := 1, enterpriseId := 1, dataSourceId := 1, fetchedAt := 0 } (confirmedMappings 1 sheetWithSource)
        ([] ++ stockRecord "bolt" "abc" :: [stockRecord "nut" "5"])) .start sheetWithSource)).canonical .stockLevel).rows.isEmpty =
      true := by decide +kernel
  rw [phases, ran, state_ok] at empty
  rw [List.isEmpty_iff.mp empty] at stored
  cases stored

/-- The quantity in stock may not be null, so the nut is not synced either. -/
theorem unreadable_quantity_of_known_stock :
    (∀ entity, UnreadableAt "qty" (stockRecord "bolt" "abc") entity (mappingsOf (confirmedMappings 1
        ((SyncCall.delivery (stockBatch "10") 1 1 1).commit sheetWithSource)) entity)) ∧
      ¬ AsGoodAsBlank [] (stockRecord "bolt" "abc") [stockRecord "nut" "5"] "qty" 0 1 1 2
        ((SyncCall.delivery (stockBatch "10") 1 1 1).commit sheetWithSource) := by
  constructor
  · have same : confirmedMappings 1 ((SyncCall.delivery (stockBatch "10") 1 1 1).commit sheetWithSource) =
        confirmedMappings 1 sheetWithSource := by decide +kernel
    rw [same]
    exact quantity_unreadable
  · intro blank
    have blanked : BlankAt "qty" (stockRecord "bolt" "abc") (stockRecord "bolt" "") := by
      refine ⟨by decide, fun key other => ?_⟩
      unfold stockRecord Dict.ofList
      simp only [List.foldl_cons, List.foldl_nil, AList.lookup_insert_ne other]
    have items := congrArg (fun table => table.rows.length) (congrFun (blank _ blanked) .item)
    exact absurd items (by decide +kernel)

end SmartProcurement.Integration
