import SmartProcurement.Integration.MappingService

namespace SmartProcurement.Integration

open Relational Transaction

/-! # Suggestions are grounded

Whatever the model returns, each triple that is new and whose field was introspected
becomes one mapping that waits for a human; nothing else is created or changed.
-/

/-- The database takes the row of the suggestion. -/
def Persistable (suggestion : Ai.MappingSuggestion) : Prop :=
  storableText suggestion.canonicalAttribute = true ∧ storableTransform suggestion.transform = true

instance (suggestion : Ai.MappingSuggestion) : Decidable (Persistable suggestion) := inferInstanceAs (Decidable (_ ∧ _))

/-- A triple is created from the first suggestion that names it. -/
def Storable (suggestions : List Ai.MappingSuggestion) (key : MappingKey) : Prop :=
  ∀ suggestion ∈ suggestions.find? (suggestionKey · = key), Persistable suggestion

instance (suggestions : List Ai.MappingSuggestion) (key : MappingKey) : Decidable (Storable suggestions key) :=
  inferInstanceAs (Decidable (∀ suggestion ∈ suggestions.find? (suggestionKey · = key), Persistable suggestion))

/-- The triples to be created, in the order in which the suggestions first name them. -/
def newKeys (known : List String) (seen : List MappingKey) (suggestions : List Ai.MappingSuggestion) : List MappingKey :=
  ((suggestions.map suggestionKey).filter fun key => key.1 ∈ known ∧ key ∉ seen).eraseDups

/-- One mapping and one event were created for each of the keys, and nothing was changed. -/
structure CreatedFor (now : Timestamp) (dataSourceId : Uuid) (keys : List MappingKey) (created : List FieldMapping)
    (before after : DB) : Prop where
  keys : created.map mappingKey = keys
  waiting : ∀ mapping ∈ created, mapping.dataSourceId = dataSourceId ∧ mapping.status = .suggested ∧
    mapping.confirmedBy = none ∧ mapping.confirmedAt = none
  mappings : after.fieldMapping.rows = before.fieldMapping.rows ++ created
  events : ∃ events, after.mappingChangeEvent.rows = before.mappingChangeEvent.rows ++ events ∧
    List.Forall₂ (fun event mapping => ∃ id, event = { suggestedEvent now mapping with id }) events created
  others : after = { before with
    fieldMapping := after.fieldMapping
    mappingChangeEvent := after.mappingChangeEvent }

/-- What the model returns within the attempts of the call. -/
def Returns (provider : Ai.Provider Ai.MappingSuggestionSet) (suggestions : List Ai.MappingSuggestion) : Prop :=
  Ai.retry provider (List.range Ai.defaultAttempts) "unknown" = .ok (.ok ⟨suggestions⟩)

section Keys

variable {known : List String} {seen : List MappingKey} {suggestion : Ai.MappingSuggestion}
variable {suggestions : List Ai.MappingSuggestion} {key : MappingKey}

theorem mem_newKeys : key ∈ newKeys known seen suggestions ↔
    key ∈ suggestions.map suggestionKey ∧ key.1 ∈ known ∧ key ∉ seen := by
  rw [newKeys, List.mem_eraseDups, List.mem_filter, decide_eq_true_iff]

theorem newKeys_cons_of_not (dropped : ¬ (suggestion.sourceFieldPath ∈ known ∧ suggestionKey suggestion ∉ seen)) :
    newKeys known seen (suggestion :: suggestions) = newKeys known seen suggestions := by
  have notTaken : ¬ decide ((suggestionKey suggestion).1 ∈ known ∧ suggestionKey suggestion ∉ seen) = true :=
    mt of_decide_eq_true dropped
  exact congrArg List.eraseDups (List.filter_cons_of_neg notTaken)

theorem newKeys_cons (introspected : suggestion.sourceFieldPath ∈ known) (isNew : suggestionKey suggestion ∉ seen) :
    newKeys known seen (suggestion :: suggestions) =
      suggestionKey suggestion :: newKeys known (suggestionKey suggestion :: seen) suggestions := by
  have taken : decide ((suggestionKey suggestion).1 ∈ known ∧ suggestionKey suggestion ∉ seen) = true :=
    decide_eq_true ⟨introspected, isNew⟩
  have kept := congrArg List.eraseDups
    (List.filter_cons_of_pos (p := fun key : MappingKey => key.1 ∈ known ∧ key ∉ seen)
      (l := suggestions.map suggestionKey) taken)
  refine Eq.trans kept ?_
  rw [List.eraseDups_cons, List.filter_filter, newKeys]
  congr 2
  refine List.filter_congr fun key _ => ?_
  by_cases same : key = suggestionKey suggestion
  · simp [same]
  · simp [same]

theorem storable_first : Storable (suggestion :: suggestions) (suggestionKey suggestion) ↔ Persistable suggestion := by
  simp [Storable]

theorem storable_cons (other : suggestionKey suggestion ≠ key) :
    Storable (suggestion :: suggestions) key ↔ Storable suggestions key := by
  simp [Storable, other]

/-- What is left to create after a suggestion is created from the later ones. -/
theorem storable_later (member : key ∈ newKeys known (suggestionKey suggestion :: seen) suggestions) :
    Storable (suggestion :: suggestions) key ↔ Storable suggestions key :=
  storable_cons fun same => (mem_newKeys.mp member).2.2 (same ▸ List.mem_cons_self)

theorem storable_dropped (dropped : ¬ (suggestion.sourceFieldPath ∈ known ∧ suggestionKey suggestion ∉ seen))
    (member : key ∈ newKeys known seen suggestions) : Storable (suggestion :: suggestions) key ↔ Storable suggestions key :=
  storable_cons fun same => by
    subst same
    exact dropped (mem_newKeys.mp member).2

end Keys

section Created

variable {now : Timestamp} {dataSourceId : Uuid} {keys moreKeys : List MappingKey} {created more : List FieldMapping}
variable {before middle after : DB} {suggestion : Ai.MappingSuggestion}

theorem CreatedFor.nothing : CreatedFor now dataSourceId [] [] before before where
  keys := rfl
  waiting := by simp
  mappings := by rw [List.append_nil]
  events := ⟨[], by rw [List.append_nil], .nil⟩
  others := rfl

theorem CreatedFor.append (first : CreatedFor now dataSourceId keys created before middle)
    (second : CreatedFor now dataSourceId moreKeys more middle after) :
    CreatedFor now dataSourceId (keys ++ moreKeys) (created ++ more) before after where
  keys := by rw [List.map_append, first.keys, second.keys]
  waiting mapping member := (List.mem_append.mp member).elim (first.waiting mapping) (second.waiting mapping)
  mappings := by rw [second.mappings, first.mappings, List.append_assoc]
  events := by
    obtain ⟨events, rows, matching⟩ := first.events
    obtain ⟨later, laterRows, laterMatching⟩ := second.events
    refine ⟨events ++ later, ?_, List.rel_append matching laterMatching⟩
    rw [laterRows, rows, List.append_assoc]
  others := second.others.trans (by rw [first.others])

theorem addSuggestion_creates (now : Timestamp) (dataSourceId : Uuid) (before : DB) (persistable : Persistable suggestion) :
    ∃ mapping after, addSuggestion now dataSourceId suggestion before = .ok mapping after ∧
      CreatedFor now dataSourceId [suggestionKey suggestion] [mapping] before after := by
  have ran : addSuggestion now dataSourceId suggestion before =
      .ok (before.fieldMapping.newRow (suggestedMapping dataSourceId suggestion))
        (recorded before (before.fieldMapping.insert (suggestedMapping dataSourceId suggestion))
          (suggestedEvent now (before.fieldMapping.newRow (suggestedMapping dataSourceId suggestion)))) := by
    rw [addSuggestion, bindText_ok persistable.1, bindTransform_ok persistable.2]
    rfl
  refine ⟨_, _, ran, rfl, ?_, Table.insert_rows .., ⟨_, Table.insert_rows .., .cons ⟨_, rfl⟩ .nil⟩, rfl⟩
  intro mapping member
  rw [List.mem_singleton.mp member]
  exact ⟨rfl, rfl, rfl, rfl⟩

theorem addSuggestion_refused (unfit : ¬ Persistable suggestion) :
    ∃ column, addSuggestion now dataSourceId suggestion before = .error (.database (.invalidInput column)) before := by
  cases named : storableText suggestion.canonicalAttribute with
  | false => exact ⟨_, bind_of_error (lift_eq_error.mpr ⟨bindText_error named, rfl⟩)⟩
  | true =>
      have transform : storableTransform suggestion.transform = false :=
        Bool.eq_false_iff.mpr fun taken => unfit ⟨named, taken⟩
      refine ⟨"transform", ?_⟩
      rw [addSuggestion, bindText_ok named, bindTransform_error transform]
      rfl

end Created

section Loop

variable {now : Timestamp} {dataSourceId : Uuid} {known : List String} {suggestions : List Ai.MappingSuggestion}
variable {suggestion : Ai.MappingSuggestion} {acc : Suggesting} {before : DB}

theorem suggestOne_drops (dropped : ¬ (suggestion.sourceFieldPath ∈ known ∧ suggestionKey suggestion ∉ acc.seen)) :
    suggestOne now dataSourceId known acc suggestion before = .ok acc before := by
  unfold suggestOne
  split
  · rfl
  · next introspected =>
    rw [if_pos (by simpa [not_not.mp introspected] using dropped)]
    rfl

theorem suggestOne_adds (introspected : suggestion.sourceFieldPath ∈ known) (isNew : suggestionKey suggestion ∉ acc.seen)
    {mapping : FieldMapping} {after : DB} (ran : addSuggestion now dataSourceId suggestion before = .ok mapping after) :
    suggestOne now dataSourceId known acc suggestion before =
      .ok { created := acc.created ++ [mapping], seen := suggestionKey suggestion :: acc.seen } after := by
  rw [suggestOne, if_neg (not_not.mpr introspected), if_neg isNew]
  exact bind_of_ok ran

theorem suggestOne_refused (introspected : suggestion.sourceFieldPath ∈ known)
    (isNew : suggestionKey suggestion ∉ acc.seen) (unfit : ¬ Persistable suggestion) :
    ∃ column, suggestOne now dataSourceId known acc suggestion before =
      .error (.database (.invalidInput column)) before := by
  obtain ⟨column, refused⟩ := addSuggestion_refused unfit
  refine ⟨column, ?_⟩
  rw [suggestOne, if_neg (not_not.mpr introspected), if_neg isNew]
  exact bind_of_error refused

/-- The set of the keys seen grows with the mappings, so that no key is created twice. -/
theorem suggestAll_creates (now : Timestamp) (dataSourceId : Uuid) (before : DB) (acc : Suggesting)
    (storable : ∀ key ∈ newKeys known acc.seen suggestions, Storable suggestions key) :
    ∃ created seen after,
      suggestions.foldlM (suggestOne now dataSourceId known) acc before = .ok ⟨acc.created ++ created, seen⟩ after ∧
      CreatedFor now dataSourceId (newKeys known acc.seen suggestions) created before after := by
  induction suggestions generalizing acc before with
  | nil => exact ⟨[], acc.seen, before, by rw [List.append_nil]; rfl, .nothing⟩
  | cons suggestion rest ih =>
      rw [List.foldlM_cons]
      by_cases wanted : suggestion.sourceFieldPath ∈ known ∧ suggestionKey suggestion ∉ acc.seen
      · obtain ⟨introspected, isNew⟩ := wanted
        rw [newKeys_cons introspected isNew] at storable ⊢
        obtain ⟨mapping, middle, ran, first⟩ :=
          addSuggestion_creates now dataSourceId before (storable_first.mp (storable _ List.mem_cons_self))
        obtain ⟨created, seen, after, looped, others⟩ :=
          ih middle { created := acc.created ++ [mapping], seen := suggestionKey suggestion :: acc.seen }
            fun key member => (storable_later member).mp (storable key (List.mem_cons_of_mem _ member))
        refine ⟨mapping :: created, seen, after, ?_, first.append others⟩
        rw [bind_of_ok (suggestOne_adds introspected isNew ran), looped, List.append_assoc]
        rfl
      · rw [newKeys_cons_of_not wanted] at storable ⊢
        rw [bind_of_ok (suggestOne_drops wanted)]
        exact ih before acc fun key member => (storable_dropped wanted member).mp (storable key member)

theorem suggestAll_idle (now : Timestamp) (dataSourceId : Uuid) (before : DB) (acc : Suggesting)
    (nothing : newKeys known acc.seen suggestions = []) :
    suggestions.foldlM (suggestOne now dataSourceId known) acc before = .ok acc before := by
  induction suggestions with
  | nil => rfl
  | cons suggestion rest ih =>
      by_cases wanted : suggestion.sourceFieldPath ∈ known ∧ suggestionKey suggestion ∉ acc.seen
      · rw [newKeys_cons wanted.1 wanted.2] at nothing
        cases nothing
      · rw [newKeys_cons_of_not wanted] at nothing
        rw [List.foldlM_cons, bind_of_ok (suggestOne_drops wanted)]
        exact ih nothing

/-- The first row that the database refuses ends the call. -/
theorem suggestAll_refused (now : Timestamp) (dataSourceId : Uuid) (before : DB) (acc : Suggesting)
    (unstorable : ∃ key ∈ newKeys known acc.seen suggestions, ¬ Storable suggestions key) :
    ∃ column after, suggestions.foldlM (suggestOne now dataSourceId known) acc before =
      .error (.database (.invalidInput column)) after := by
  induction suggestions generalizing acc before with
  | nil =>
      obtain ⟨_, member, _⟩ := unstorable
      cases member
  | cons suggestion rest ih =>
      rw [List.foldlM_cons]
      by_cases wanted : suggestion.sourceFieldPath ∈ known ∧ suggestionKey suggestion ∉ acc.seen
      · obtain ⟨introspected, isNew⟩ := wanted
        rw [newKeys_cons introspected isNew] at unstorable
        by_cases persistable : Persistable suggestion
        · obtain ⟨mapping, middle, ran, _⟩ := addSuggestion_creates now dataSourceId before persistable
          rw [bind_of_ok (suggestOne_adds introspected isNew ran)]
          obtain ⟨key, member, refused⟩ := unstorable
          rcases List.mem_cons.mp member with rfl | later
          · exact absurd (storable_first.mpr persistable) refused
          · exact ih middle _ ⟨key, later, mt (storable_later later).mpr refused⟩
        · obtain ⟨column, refused⟩ := suggestOne_refused introspected isNew persistable
          exact ⟨column, before, bind_of_error refused⟩
      · rw [newKeys_cons_of_not wanted] at unstorable
        rw [bind_of_ok (suggestOne_drops wanted)]
        obtain ⟨key, member, refused⟩ := unstorable
        exact ih before acc ⟨key, member, mt (storable_dropped wanted member).mpr refused⟩

end Loop

/-! ## The call -/

section Call

variable {now : Timestamp} {provider : Ai.Provider Ai.MappingSuggestionSet} {enterpriseId dataSourceId : Uuid}
variable {suggestions : List Ai.MappingSuggestion} {source : DataSource} {before after : DB} {keys : List MappingKey}
variable {created : List FieldMapping}

/-- The triples that a call creates mappings for. -/
def groundedKeys (dataSourceId : Uuid) (suggestions : List Ai.MappingSuggestion) (db : DB) : List MappingKey :=
  newKeys ((fieldsOf dataSourceId db).map (·.path)) (mappingKeysOf dataSourceId db) suggestions

/-- An answered call is the loop over what the model returned. -/
theorem suggestMappingsForSource_eq (found : before.dataSource.find? dataSourceId = some source)
    (owned : source.enterpriseId = enterpriseId) (introspected : fieldsOf dataSourceId before ≠ [])
    (returns : Returns provider suggestions) :
    suggestMappingsForSource now provider enterpriseId dataSourceId before = (do
      let final ← suggestions.foldlM (suggestOne now dataSourceId ((fieldsOf dataSourceId before).map (·.path)))
        { created := [], seen := mappingKeysOf dataSourceId before }
      return final.created : Session (List FieldMapping)) before := by
  have got := getDataSource_of_found found owned
  have key : source.id = dataSourceId := (Table.find?_some found).2
  have answered : Ai.generateStructured now provider
      { enterpriseId, capabilityKey := mappingCapabilityKey, schema := "MappingSuggestionSet" } before =
      .ok ⟨suggestions⟩ before := by
    have tried : (lift (Ai.retry provider (List.range Ai.defaultAttempts) "unknown") : Session _) before =
        .ok (.ok ⟨suggestions⟩) before := lift_eq_ok.mpr ⟨returns, rfl⟩
    exact bind_of_ok tried
  rw [suggestMappingsForSource, bind_of_ok got, key]
  refine (bind_of_ok rfl).trans ?_
  rw [if_neg (by simpa using introspected), bind_of_ok answered]
  exact bind_of_ok rfl

theorem CreatedFor.keysOf (creates : CreatedFor now dataSourceId keys created before after) :
    mappingKeysOf dataSourceId after = mappingKeysOf dataSourceId before ++ keys := by
  have all : created.filter (·.dataSourceId = dataSourceId) = created :=
    List.filter_eq_self.mpr fun mapping member => decide_eq_true (creates.waiting mapping member).1
  rw [mappingKeysOf, creates.mappings, List.filter_append, List.map_append, all, creates.keys]
  rfl

/-- Nothing is left to create after a call. -/
theorem CreatedFor.groundedKeys_nil
    (creates : CreatedFor now dataSourceId (groundedKeys dataSourceId suggestions before) created before after) :
    groundedKeys dataSourceId suggestions after = [] := by
  have fields : fieldsOf dataSourceId after = fieldsOf dataSourceId before := by rw [creates.others]; rfl
  refine List.eq_nil_iff_forall_not_mem.mpr fun key member => ?_
  rw [groundedKeys, fields, creates.keysOf] at member
  obtain ⟨suggested, introspected, isNew⟩ := mem_newKeys.mp member
  rw [List.mem_append, not_or] at isNew
  exact isNew.2 (mem_newKeys.mpr ⟨suggested, introspected, isNew.1⟩)

/-- One mapping and one event for each new triple of an introspected field, nothing for any
other suggestion, and nothing at all the second time. -/
theorem suggestions_grounded (found : before.dataSource.find? dataSourceId = some source)
    (owned : source.enterpriseId = enterpriseId) (returns : Returns provider suggestions) :
    (fieldsOf dataSourceId before = [] → groundedKeys dataSourceId suggestions before = [] ∧
      suggestMappingsForSource now provider enterpriseId dataSourceId before =
        .error (.domainRule "introspect the data source before requesting mapping suggestions") before) ∧
    (fieldsOf dataSourceId before ≠ [] → (∀ key ∈ groundedKeys dataSourceId suggestions before, Storable suggestions key) →
      ∃ created after, suggestMappingsForSource now provider enterpriseId dataSourceId before = .ok created after ∧
        CreatedFor now dataSourceId (groundedKeys dataSourceId suggestions before) created before after ∧
        ∀ later again, Returns again suggestions →
          suggestMappingsForSource later again enterpriseId dataSourceId after = .ok [] after) ∧
    (fieldsOf dataSourceId before ≠ [] → (∃ key ∈ groundedKeys dataSourceId suggestions before, ¬ Storable suggestions key) →
      ∃ column after, suggestMappingsForSource now provider enterpriseId dataSourceId before =
        .error (.database (.invalidInput column)) after) := by
  refine ⟨fun none => ⟨?_, ?_⟩, fun introspected storable => ?_, fun introspected unstorable => ?_⟩
  · refine List.eq_nil_iff_forall_not_mem.mpr fun key member => ?_
    rw [groundedKeys, none] at member
    cases (mem_newKeys.mp member).2.1
  · have got := getDataSource_of_found found owned
    have key : source.id = dataSourceId := (Table.find?_some found).2
    rw [suggestMappingsForSource, bind_of_ok got, key]
    refine (bind_of_ok rfl).trans ?_
    rw [none]
    rfl
  · obtain ⟨created, seen, after, looped, creates⟩ :=
      suggestAll_creates now dataSourceId before { created := [], seen := mappingKeysOf dataSourceId before } storable
    refine ⟨created, after, ?_, creates, fun later again returnsAgain => ?_⟩
    · rw [suggestMappingsForSource_eq found owned introspected returns, bind_of_ok looped]
      rfl
    · have foundAgain : after.dataSource.find? dataSourceId = some source := by rwa [creates.others]
      have introspectedAgain : fieldsOf dataSourceId after ≠ [] := by rwa [creates.others]
      have nothing : groundedKeys dataSourceId suggestions after = [] := creates.groundedKeys_nil
      rw [suggestMappingsForSource_eq foundAgain owned introspectedAgain returnsAgain,
        bind_of_ok (suggestAll_idle later dataSourceId after { created := [], seen := mappingKeysOf dataSourceId after } nothing)]
      rfl
  · obtain ⟨column, after, refused⟩ :=
      suggestAll_refused now dataSourceId before { created := [], seen := mappingKeysOf dataSourceId before } unstorable
    refine ⟨column, after, ?_⟩
    rw [suggestMappingsForSource_eq found owned introspected returns]
    exact bind_of_error refused

end Call

/-! ## A sheet that is mapped in part -/

def introspectedSheet : DB :=
  { sheetWithSource with
    sourceField := (Table.empty.insert { id := 0, dataSourceId := 1, path := "sku" }).insert
      { id := 0, dataSourceId := 1, path := "name" } }

def suggesting (path attr : String) : Ai.MappingSuggestion where
  sourceFieldPath := path
  canonicalEntity := .item
  canonicalAttribute := attr
  transform := none
  confidence := 1 / 2
  confidenceRange := by norm_num

/-- A model that answers at once. -/
def answering (suggestions : List Ai.MappingSuggestion) : Ai.Provider Ai.MappingSuggestionSet :=
  fun _ => .usable ⟨suggestions⟩

/-- A triple that is mapped, a new one twice, and a field that the source has not. -/
def mixedSuggestions : List Ai.MappingSuggestion :=
  [suggesting "sku" "sku", suggesting "name" "name", suggesting "price" "name", suggesting "name" "name"]

theorem suggestions_grounded_introspectedSheet :
    groundedKeys 1 mixedSuggestions introspectedSheet = [("name", .item, "name")] ∧
      ∃ created after, suggestMappingsForSource 0 (answering mixedSuggestions) 1 1 introspectedSheet = .ok created after ∧
        CreatedFor 0 1 (groundedKeys 1 mixedSuggestions introspectedSheet) created introspectedSheet after ∧
        ∀ later again, Returns again mixedSuggestions → suggestMappingsForSource later again 1 1 after = .ok [] after :=
  have found : introspectedSheet.dataSource.find? 1 = some { newSource 1 stockSheet none with id := 1 } := rfl
  have returns : Returns (answering mixedSuggestions) mixedSuggestions := rfl
  ⟨by decide +kernel, (suggestions_grounded found rfl returns).2.1 (by decide) (by decide +kernel)⟩

/-- A text column does not take a NUL, which JSON and the schema allow. -/
theorem nul_suggestion_creates_nothing :
    Returns (answering [suggesting "name" "na\x00me"]) [suggesting "name" "na\x00me"] ∧
      ¬ ∃ created after,
        suggestMappingsForSource 0 (answering [suggesting "name" "na\x00me"]) 1 1 introspectedSheet = .ok created after ∧
          CreatedFor 0 1 (groundedKeys 1 [suggesting "name" "na\x00me"] introspectedSheet) created introspectedSheet after := by
  refine ⟨rfl, ?_⟩
  rintro ⟨created, after, ran, _⟩
  have raised : returned (suggestMappingsForSource 0 (answering [suggesting "name" "na\x00me"]) 1 1 introspectedSheet) =
      false := by decide +kernel
  rw [ran] at raised
  cases raised

end SmartProcurement.Integration
