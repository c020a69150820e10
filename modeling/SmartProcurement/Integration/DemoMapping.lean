import SmartProcurement.Ai.MockDemo
import SmartProcurement.Integration.GroundedSuggestions
import SmartProcurement.Integration.Introspection

namespace SmartProcurement.Integration

open Relational Transaction Text JsonDecoder Ai.MockDemo

/-! # Suggestions of the mock provider

The fields of a source go into a prompt and come back out of it.  Whatever the samples
in the prompt say, the fields that are suggested for are those whose names are plain.
-/

/-! ## The prompt -/

def fieldLine (field : String × FieldDetails) : String :=
  "- " ++ field.1 ++ " (type=" ++ field.2.inferredType ++ "; e.g. " ++
    String.intercalate ", " (field.2.sampleValues.take 3) ++ ")"

/-- `_build_prompt`. -/
def buildPrompt (fields : Catalogue) : String :=
  String.intercalate "\n" ("Suggest canonical mappings for these source fields:" ::
    (fields.insertionSort fun first second => first.1 ≤ second.1).map fieldLine)

section Prompt

variable {fields : Catalogue} {field : String × FieldDetails} {path : String}

theorem intercalate_cons_of_mem {α : Type} (separator first : List α) {line : List α} {others : List (List α)} (member : line ∈ others) :
    ∃ front rest, separator.intercalate (first :: others) = front ++ (separator ++ (line ++ rest)) := by
  induction others generalizing first with
  | nil => cases member
  | cons second others ih =>
      rw [List.intercalate_cons_cons]
      rcases List.mem_cons.mp member with rfl | later
      · cases others with
        | nil => exact ⟨first, [], by simp [List.intercalate_singleton]⟩
        | cons third others => exact ⟨first, separator ++ separator.intercalate (third :: others), by simp⟩
      · obtain ⟨front, rest, same⟩ := ih second later
        exact ⟨first ++ separator ++ front, rest, by rw [same]; simp⟩

/-- A plain field is read back from the prompt, whatever else the prompt says. -/
theorem mem_fieldsFromPrompt_buildPrompt (listed : field ∈ fields) (plain : Plain field.1) :
    field.1 ∈ fieldsFromPrompt (buildPrompt fields) := by
  have line : (fieldLine field).toList ∈
      ((fields.insertionSort fun first second => first.1 ≤ second.1).map fieldLine).map String.toList :=
    List.mem_map_of_mem (List.mem_map_of_mem ((List.mem_insertionSort _).mpr listed))
  obtain ⟨front, rest, split⟩ := intercalate_cons_of_mem "\n".toList
    "Suggest canonical mappings for these source fields:".toList line
  obtain ⟨tail, shape⟩ : ∃ tail, (fieldLine field).toList = ['-', ' '] ++ (field.1.toList ++ ' ' :: '(' :: tail) := by
    refine ⟨"type=".toList ++ field.2.inferredType.toList ++ "; e.g. ".toList ++
      (String.intercalate ", " (field.2.sampleValues.take 3)).toList ++ [')'], ?_⟩
    simp only [fieldLine, String.toList_append, List.append_assoc]
    rfl
  refine mem_fieldsFromPrompt plain front (tail ++ rest) ?_
  rw [buildPrompt, String.toList_intercalate, List.map_cons, split, shape]
  simp

end Prompt

/-! ## The provider -/

/-- What `generate_structured` makes of a text; `validate` is the schema, and shows its errors. -/
def readAnswer (repr : String → String) (limits : Limits) (validate : Json → Except String Ai.MappingSuggestionSet) :
    Except String String → Ai.Attempt Ai.MappingSuggestionSet
  | .error message => .providerError ("LLMUnavailable(" ++ repr message ++ ")")
  | .ok text =>
      match loads limits text with
      | .error (.decode message left) => .invalidOutput ("JSONDecodeError(" ++ repr (errorText text message left) ++ ")")
      | .error reason => .raised (unhandled text reason)
      | .ok data =>
          match validate data with
          | .error shown => .invalidOutput shown
          | .ok set => .usable set

/-- The mock provider and what surrounds it: its fixtures, Python's `repr`, `str.lower` and
`json.loads`, and the schema. -/
structure Mock where
  responses : Responses
  repr : String → String
  lower : Lower
  limits : Limits
  validate : Json → Except String Ai.MappingSuggestionSet

/-- The mock answers every attempt alike. -/
def Mock.provider (mock : Mock) (generatedAt prompt : String) : Ai.Provider Ai.MappingSuggestionSet := fun _ =>
  readAnswer mock.repr mock.limits mock.validate
    (generate mock.repr mock.lower mock.responses "MappingSuggestionSet" generatedAt prompt)

/-- The validated suggestion says what was dumped. -/
structure Validated (demo : DemoSuggestion) (suggestion : Ai.MappingSuggestion) : Prop where
  field : suggestion.sourceFieldPath = demo.field
  entity : suggestion.canonicalEntity = demo.entity
  attr : suggestion.canonicalAttribute = demo.attr
  transform : suggestion.transform = none
  confidence : suggestion.confidence = demo.confidence.value

/-- The schema accepts a document whose members are of the declared types. -/
def Mock.Validates (mock : Mock) (generatedAt : String) : Prop :=
  ∀ demos, ∃ suggestions, mock.validate (demoDocument generatedAt demos) = .ok ⟨suggestions⟩ ∧
    List.Forall₂ Validated demos suggestions

/-- No fixture is registered for mapping suggestions. -/
def Mock.Bare (mock : Mock) : Prop := ∀ key, mock.responses.lookup ("MappingSuggestionSet", key) = none

/-- The triples that the rules have for a field. -/
def demoKeys (lower : Lower) (field : String) : List MappingKey :=
  (suggestionsFor field (lower field)).map fun demo => (demo.field, demo.entity, demo.attr)

section Provider

variable {mock : Mock} {generatedAt prompt : String} {key : MappingKey}

theorem suggestionsFor_field {field low : String} {demo : DemoSuggestion} (member : demo ∈ suggestionsFor field low) :
    demo.field = field := by
  rcases List.mem_append.mp member with named | identifying
  · obtain ⟨rule, _, rfl⟩ := Option.map_eq_some_iff.mp (Option.mem_toList.mp named)
    rfl
  · obtain ⟨rule, _, listed⟩ := List.mem_flatMap.mp identifying
    obtain ⟨ref, _, rfl⟩ := List.mem_map.mp listed
    rfl

theorem Mock.Bare.answers (bare : mock.Bare) (deep : 3 ≤ mock.limits.levels) (validates : mock.Validates generatedAt)
    (prompt : String) : ∃ suggestions, Returns (mock.provider generatedAt prompt) suggestions ∧
      List.Forall₂ Validated (demoSuggestions mock.lower prompt) suggestions := by
  obtain ⟨suggestions, accepted, matched⟩ := validates (demoSuggestions mock.lower prompt)
  refine ⟨suggestions, ?_, matched⟩
  have fallback : fixture? mock.responses "MappingSuggestionSet" (fixtureKey prompt) = none := by
    unfold fixture?
    rw [bare]
    exact bare "default"
  have usable : mock.provider generatedAt prompt 0 = .usable ⟨suggestions⟩ := by
    unfold Mock.provider generate
    dsimp only
    rw [fallback]
    simp only [if_true, readAnswer, loads_mappingSuggestionsJson deep, accepted]
  change Ai.retry _ (0 :: List.range' 1 2) _ = _
  rw [Ai.retry, usable]

theorem map_suggestionKey {demos : List DemoSuggestion} {suggestions : List Ai.MappingSuggestion}
    (matched : List.Forall₂ Validated demos suggestions) :
    suggestions.map suggestionKey = demos.map fun demo => (demo.field, demo.entity, demo.attr) := by
  induction matched with
  | nil => rfl
  | cons head _ ih =>
      rw [List.map_cons, List.map_cons, ih, suggestionKey, head.field, head.entity, head.attr]

/-- A suggestion is made for the plain fields of the prompt. -/
theorem mem_demoSuggestions : key ∈ ((demoSuggestions mock.lower prompt).map fun demo => (demo.field, demo.entity, demo.attr)) ↔
    key.1 ∈ fieldsFromPrompt prompt ∧ key ∈ demoKeys mock.lower key.1 := by
  unfold demoSuggestions demoKeys
  rw [List.map_flatMap, List.mem_flatMap]
  constructor
  · rintro ⟨field, read, member⟩
    obtain ⟨demo, listed, rfl⟩ := List.mem_map.mp member
    have own : demo.field = field := suggestionsFor_field listed
    subst own
    exact ⟨read, member⟩
  · rintro ⟨read, member⟩
    exact ⟨key.1, read, member⟩

end Provider

/-! ## The call -/

section Call

variable {mock : Mock} {generatedAt : String} {enterpriseId dataSourceId : Uuid} {state : Introspected} {source : DataSource}

theorem suggestionsFor_storable {field low : String} {demo : DemoSuggestion} (member : demo ∈ suggestionsFor field low) :
    storableText demo.attr = true := by
  have named : ∀ rule ∈ rules, storableText rule.attr = true := by decide
  have identifying : ∀ rule ∈ refRules, ∀ ref ∈ rule.2, storableText ref.2 = true := by decide
  rcases List.mem_append.mp member with isNamed | isIdentifying
  · obtain ⟨rule, found, rfl⟩ := Option.map_eq_some_iff.mp (Option.mem_toList.mp isNamed)
    exact named rule (List.mem_of_find?_eq_some found)
  · obtain ⟨rule, taken, listed⟩ := List.mem_flatMap.mp isIdentifying
    obtain ⟨ref, refListed, rfl⟩ := List.mem_map.mp listed
    exact identifying rule (List.mem_filter.mp taken).1 ref refListed

theorem storable_of_validated {demos : List DemoSuggestion} {suggestions : List Ai.MappingSuggestion} {key : MappingKey}
    (matched : List.Forall₂ Validated demos suggestions) (plain : ∀ demo ∈ demos, storableText demo.attr = true) :
    Storable suggestions key := by
  induction matched with
  | nil => simp [Storable]
  | @cons demo suggestion demos suggestions head rest ih =>
      by_cases same : suggestionKey suggestion = key
      · subst same
        refine storable_first.mpr ⟨?_, ?_⟩
        · rw [head.attr]
          exact plain demo List.mem_cons_self
        · rw [head.transform]
          rfl
      · exact (storable_cons same).mpr (ih fun demo member => plain demo (List.mem_cons_of_mem _ member))

theorem storable_demoSuggestions {prompt : String} {suggestions : List Ai.MappingSuggestion} (key : MappingKey)
    (matched : List.Forall₂ Validated (demoSuggestions mock.lower prompt) suggestions) : Storable suggestions key :=
  storable_of_validated matched fun _ member =>
    let ⟨_, _, listed⟩ := List.mem_flatMap.mp member
    suggestionsFor_storable listed

/-- What a call of the mock creates: the triples of the rules for the plain fields that are stored. -/
theorem mem_groundedKeys (state : Introspected) (key : MappingKey) {suggestions : List Ai.MappingSuggestion}
    (matched : List.Forall₂ Validated (demoSuggestions mock.lower (buildPrompt (catalogue dataSourceId state))) suggestions) :
    key ∈ groundedKeys dataSourceId suggestions state.db ↔
      key.1 ∈ (catalogue dataSourceId state).map Prod.fst ∧ Plain key.1 ∧ key ∈ demoKeys mock.lower key.1 ∧
        key ∉ mappingKeysOf dataSourceId state.db := by
  rw [groundedKeys, mem_newKeys, map_suggestionKey matched, mem_demoSuggestions, keys_catalogue]
  constructor
  · rintro ⟨⟨read, suggested⟩, known, isNew⟩
    exact ⟨known, plain_of_mem_fieldsFromPrompt read, suggested, isNew⟩
  · rintro ⟨known, plain, suggested, isNew⟩
    refine ⟨⟨?_, suggested⟩, known, isNew⟩
    rw [← keys_catalogue] at known
    obtain ⟨field, listed, same⟩ := List.mem_map.mp known
    rw [← same] at plain ⊢
    exact mem_fieldsFromPrompt_buildPrompt listed plain

/-- Whatever the stored samples say, the mock creates the mappings that the rules have for
the plain fields of the source and that are not there yet, and nothing the next time. -/
theorem demo_suggestions (bare : mock.Bare) (deep : 3 ≤ mock.limits.levels) (validates : mock.Validates generatedAt)
    (now : Timestamp) (found : state.db.dataSource.find? dataSourceId = some source) (owned : source.enterpriseId = enterpriseId)
    (introspected : catalogue dataSourceId state ≠ []) :
    ∃ created after,
      suggestMappingsForSource now (mock.provider generatedAt (buildPrompt (catalogue dataSourceId state))) enterpriseId
          dataSourceId state.db = .ok created after ∧
        CreatedFor now dataSourceId (created.map mappingKey) created state.db after ∧
        (∀ key, key ∈ created.map mappingKey ↔
          key.1 ∈ (catalogue dataSourceId state).map Prod.fst ∧ Plain key.1 ∧ key ∈ demoKeys mock.lower key.1 ∧
            key ∉ mappingKeysOf dataSourceId state.db) ∧
        ∀ later again details, mock.Validates again →
          suggestMappingsForSource later (mock.provider again (buildPrompt (catalogue dataSourceId ⟨after, details⟩)))
            enterpriseId dataSourceId after = .ok [] after := by
  have stored {details : Uuid → FieldDetails} {db : DB} (filled : catalogue dataSourceId ⟨db, details⟩ ≠ []) :
      fieldsOf dataSourceId db ≠ [] := fun empty => filled (by rw [catalogue, empty]; rfl)
  obtain ⟨suggestions, returns, matched⟩ := bare.answers deep validates (buildPrompt (catalogue dataSourceId state))
  have created_iff (key : MappingKey) := mem_groundedKeys state key matched
  obtain ⟨created, seen, after, looped, creates⟩ := suggestAll_creates now dataSourceId state.db
    { created := [], seen := mappingKeysOf dataSourceId state.db }
    fun key _ => storable_demoSuggestions key matched
  have keys : created.map mappingKey = groundedKeys dataSourceId suggestions state.db := creates.keys
  refine ⟨created, after, ?_, ?_, ?_, fun later again details validatesAgain => ?_⟩
  · rw [suggestMappingsForSource_eq found owned (stored introspected) returns, bind_of_ok looped]
    rfl
  · rw [keys]
    exact creates
  · rw [keys]
    exact created_iff
  · obtain ⟨others, returnsAgain, matchedAgain⟩ :=
      bare.answers deep validatesAgain (buildPrompt (catalogue dataSourceId ⟨after, details⟩))
    have sources : after.dataSource = state.db.dataSource := by rw [creates.others]
    have fields : fieldsOf dataSourceId after = fieldsOf dataSourceId state.db := by rw [creates.others]; rfl
    have nothing : groundedKeys dataSourceId others after = [] := by
      refine List.eq_nil_iff_forall_not_mem.mpr fun key member => ?_
      obtain ⟨known, plain, suggested, isNew⟩ := (mem_groundedKeys ⟨after, details⟩ key matchedAgain).mp member
      rw [keys_catalogue] at known
      dsimp only at known isNew
      rw [fields, ← keys_catalogue] at known
      rw [creates.keysOf, List.mem_append, not_or] at isNew
      exact isNew.2 ((created_iff key).mpr ⟨known, plain, suggested, isNew.1⟩)
    have idle := suggestAll_idle later dataSourceId after { created := [], seen := mappingKeysOf dataSourceId after } nothing
    rw [suggestMappingsForSource_eq (by rw [sources]; exact found) owned (by rw [fields]; exact stored introspected) returnsAgain,
      bind_of_ok idle]
    rfl

end Call

/-! ## A schema, and a sheet with a sample of several lines -/

def suggestionOf : Json → Except String Ai.MappingSuggestion
  | .object fields =>
      match fields.lookup "source_field_path", fields.lookup "canonical_entity", fields.lookup "canonical_attribute",
        fields.lookup "confidence" with
      | some (.string path), some (.string entity), some (.string attr), some (.number literal) =>
          match entityOrder.find? (·.name = entity), literal with
          | some entity, "0.75" => .ok ⟨path, entity, attr, none, Confidence.named.value, by norm_num [Confidence.value]⟩
          | some entity, "0.7" => .ok ⟨path, entity, attr, none, Confidence.identifying.value, by norm_num [Confidence.value]⟩
          | _, _ => .error "literal_error"
      | _, _, _, _ => .error "missing"
  | _ => .error "model_type"

def demoSchema : Json → Except String Ai.MappingSuggestionSet
  | .object fields =>
      match fields.lookup "suggestions" with
      | some (.array items) => do return ⟨← items.mapM suggestionOf⟩
      | some _ => .error "list_type"
      | none => .ok ⟨[]⟩
  | _ => .error "model_type"

def demoMock : Mock where
  responses := []
  repr text := "'" ++ text ++ "'"
  lower := lower
  limits := ⟨4300, 900⟩
  validate := demoSchema

theorem suggestionOf_json (demo : DemoSuggestion) : ∃ suggestion, suggestionOf demo.json = .ok suggestion ∧ Validated demo suggestion := by
  obtain ⟨field, entity, attr, confidence, reasoning⟩ := demo
  cases entity <;> cases confidence <;> exact ⟨_, rfl, rfl, rfl, rfl, rfl, rfl⟩

theorem demoMock_validates (generatedAt : String) : demoMock.Validates generatedAt := by
  intro demos
  have read : ∃ suggestions, (demos.map DemoSuggestion.json).mapM suggestionOf = .ok suggestions ∧
      List.Forall₂ Validated demos suggestions := by
    induction demos with
    | nil => exact ⟨[], rfl, .nil⟩
    | cons demo rest ih =>
        obtain ⟨suggestion, first, validated⟩ := suggestionOf_json demo
        obtain ⟨suggestions, later, matched⟩ := ih
        refine ⟨suggestion :: suggestions, ?_, .cons validated matched⟩
        rw [List.map_cons, List.mapM_cons, first, later]
        rfl
  obtain ⟨suggestions, mapped, matched⟩ := read
  refine ⟨suggestions, ?_, matched⟩
  change (do return ⟨← (demos.map DemoSuggestion.json).mapM suggestionOf⟩ : Except String Ai.MappingSuggestionSet) = _
  rw [mapped]
  rfl

/-- The second line of the sample looks like the line of a field. -/
def namedSheet : Introspected where
  db := { (default : DB) with
    dataSource := Table.empty.insert (newSource 1 stockSheet none)
    sourceField := (Table.empty.insert ⟨0, 1, "sku"⟩).insert ⟨0, 1, "unit price"⟩ }
  details _ := ⟨"string", ["A-1\n- title (type=string; e.g. )"]⟩

theorem demo_suggestions_namedSheet :
    ∃ created after,
      suggestMappingsForSource 0 (demoMock.provider "2024-05-01T00:00:00+00:00" (buildPrompt (catalogue 1 namedSheet))) 1 1
          namedSheet.db = .ok created after ∧
        ("sku", .item, "sku") ∈ created.map mappingKey ∧ ∀ key ∈ created.map mappingKey, key.1 = "sku" := by
  have found : namedSheet.db.dataSource.find? 1 = some { newSource 1 stockSheet none with id := 1 } := rfl
  obtain ⟨created, after, ran, _, exactly, _⟩ := demo_suggestions (show demoMock.Bare from fun _ => rfl) (by decide)
    (demoMock_validates "2024-05-01T00:00:00+00:00") 0 found rfl (show catalogue 1 namedSheet ≠ [] from nofun)
  refine ⟨created, after, ran, (exactly _).mpr (by decide), fun key member => ?_⟩
  obtain ⟨known, plain, _⟩ := (exactly key).mp member
  have known : key.1 ∈ ["sku", "unit price"] := known
  simp only [List.mem_cons, List.not_mem_nil, or_false] at known
  rcases known with isSku | isPrice
  · exact isSku
  · rw [isPrice] at plain
    exact absurd plain (by decide)

end SmartProcurement.Integration
