import SmartProcurement.Core.JsonEncoder
import SmartProcurement.Domain.Models
import SmartProcurement.Text.Lines

namespace SmartProcurement.Ai.MockDemo

open Text JsonDecoder JsonEncoder

/-! # The mock provider

Without a fixture, the mock provider reads the fields back from the prompt and answers
by their names.  It never names a field that is not in the prompt as a word of its own.
-/

/-! ## The rules -/

/-- The words of a name, between which there may be an underscore. -/
abbrev Name := List String

/-- The texts that `word_?word_?word` matches. -/
def spellings : Name → List String
  | [] => [""]
  | [word] => [word]
  | word :: rest => (spellings rest).flatMap fun text => [word ++ text, word ++ "_" ++ text]

/-- `re.match(r"^(name|name)$", text)`. -/
def isNamed (names : List Name) (text : String) : Bool := names.any fun name => text ∈ spellings name

structure Rule where
  names : List Name
  entity : Entity
  attr : String

/-- `_RULES`. -/
def rules : List Rule := [
  ⟨[["sku"], ["item", "code"], ["material"], ["part", "no"]], .item, "sku"⟩,
  ⟨[["name"], ["item", "name"], ["description"], ["title"]], .item, "name"⟩,
  ⟨[["category"], ["group"], ["item", "group"]], .item, "category"⟩,
  ⟨[["unit"], ["uom"], ["unit", "of", "measure"]], .item, "unit"⟩,
  ⟨[["warehouse", "code"], ["wh", "code"], ["location", "code"], ["site"]], .warehouse, "code"⟩,
  ⟨[["warehouse", "name"], ["wh", "name"]], .warehouse, "name"⟩,
  ⟨[["supplier", "code"], ["vendor", "code"], ["supplier", "id"]], .supplier, "code"⟩,
  ⟨[["supplier", "name"], ["vendor", "name"]], .supplier, "name"⟩,
  ⟨[["supplier", "approved"], ["is", "approved"], ["approved"]], .supplier, "is_approved"⟩,
  ⟨[["on", "hand"], ["on", "hand", "qty"], ["qty", "on", "hand"], ["stock"], ["quantity"]], .stockLevel, "quantity"⟩,
  ⟨[["min", "qty"], ["reorder", "point"], ["safety", "stock"], ["min", "quantity"]], .stockLevel, "min_quantity"⟩,
  ⟨[["unit", "price"], ["price"], ["cost"]], .price, "unit_price"⟩,
  ⟨[["currency"], ["ccy"]], .price, "currency"⟩,
  ⟨[["lead", "time"], ["lead", "time", "days"], ["leadtime"]], .leadTime, "days"⟩,
  ⟨[["monthly", "consumption"], ["consumption"], ["usage"], ["demand"]], .consumption, "quantity"⟩,
  ⟨[["production", "demand", "qty"], ["production", "qty"], ["prod", "demand"]], .productionDemand, "quantity"⟩,
  ⟨[["production", "need", "by"], ["need", "by"], ["required", "by"]], .productionDemand, "need_by"⟩,
  ⟨[["open", "po", "ref"], ["po", "ref"], ["po", "number"], ["purchase", "order"]], .purchaseOrder, "external_ref"⟩,
  ⟨[["open", "po", "qty"], ["po", "qty"]], .purchaseOrder, "quantity"⟩,
  ⟨[["open", "po", "expected", "at"], ["po", "expected", "at"], ["expected", "at"], ["eta"]], .purchaseOrder, "expected_at"⟩]

/-- `_REF_RULES`. -/
def refRules : List (List Name × List (Entity × String)) := [
  ([["sku"], ["item", "code"]], [
    (.stockLevel, "item_sku"), (.price, "item_sku"), (.leadTime, "item_sku"), (.consumption, "item_sku"),
    (.productionDemand, "item_sku"), (.purchaseOrder, "item_sku")]),
  ([["supplier", "code"], ["vendor", "code"]], [
    (.price, "supplier_code"), (.leadTime, "supplier_code"), (.purchaseOrder, "supplier_code")]),
  ([["warehouse", "code"], ["wh", "code"]], [
    (.stockLevel, "warehouse_code"), (.consumption, "warehouse_code")])]

/-- The two confidences, as they are dumped. -/
inductive Confidence where
  | named
  | identifying

def Confidence.literal : Confidence → String
  | .named => "0.75"
  | .identifying => "0.7"

/-- The floats that the literals are read as. -/
def Confidence.value : Confidence → ℚ
  | .named => 3 / 4
  | .identifying => 3152519739159347 / 4503599627370496

structure DemoSuggestion where
  field : String
  entity : Entity
  attr : String
  confidence : Confidence
  reasoning : String

def ruleSuggestion (field : String) (rule : Rule) : DemoSuggestion where
  field
  entity := rule.entity
  attr := rule.attr
  confidence := .named
  reasoning := "field name '" ++ field ++ "' matches " ++ rule.entity.name ++ "." ++ rule.attr

def refSuggestion (field : String) (ref : Entity × String) : DemoSuggestion where
  field
  entity := ref.1
  attr := ref.2
  confidence := .identifying
  reasoning := "'" ++ field ++ "' identifies the " ++ ref.1.name ++ " row's " ++ ref.2

/-- What is suggested for a field whose name is `low` in lower case: the first rule, and all references. -/
def suggestionsFor (field low : String) : List DemoSuggestion :=
  ((rules.find? fun rule => isNamed rule.names low).map (ruleSuggestion field)).toList ++
    (refRules.filter fun rule => isNamed rule.1 low).flatMap fun rule => rule.2.map (refSuggestion field)

/-! ## Reading the prompt -/

/-- `_FIELD_LINE.match`, of `^-\s+([^\s(]+)`. -/
def fieldOfLine : List Char → Option String
  | '-' :: blank :: rest =>
      let name := (rest.dropWhile isSpace).takeWhile fun char => !isSpace char && char != '('
      if isSpace blank && !name.isEmpty then some (.ofList name) else none
  | _ => none

def fieldsFromPrompt (prompt : String) : List String :=
  (splitLines prompt.toList).filterMap fun line => fieldOfLine (trimmed line)

/-- A name that is read back as it is. -/
def Plain (field : String) : Prop := field ≠ "" ∧ ∀ char ∈ field.toList, isSpace char = false ∧ char ≠ '('

instance (field : String) : Decidable (Plain field) :=
  decidable_of_iff (field ≠ "" ∧ (field.toList.all fun char => !isSpace char && char != '(') = true) (by simp [Plain])

/-! ## The answer -/

/-- Python's `str.lower`. -/
abbrev Lower := String → String

def demoSuggestions (lower : Lower) (prompt : String) : List DemoSuggestion :=
  (fieldsFromPrompt prompt).flatMap fun field => suggestionsFor field (lower field)

def DemoSuggestion.json (suggestion : DemoSuggestion) : Json :=
  .object [
    ("source_field_path", .string suggestion.field),
    ("canonical_entity", .string suggestion.entity.name),
    ("canonical_attribute", .string suggestion.attr),
    ("transform", .null),
    ("confidence", .number suggestion.confidence.literal),
    ("reasoning", .string suggestion.reasoning)]

/-- The document that is dumped; `generatedAt` is the text of the time. -/
def demoDocument (generatedAt : String) (suggestions : List DemoSuggestion) : Json :=
  .object [
    ("model_meta", .object [
      ("provider", .string "mock"), ("model", .string "deterministic-heuristic"), ("generated_at", .string generatedAt)]),
    ("suggestions", .array (suggestions.map DemoSuggestion.json))]

def mappingSuggestionsJson (lower : Lower) (generatedAt prompt : String) : String :=
  dumps (demoDocument generatedAt (demoSuggestions lower prompt))

/-- The fixtures of a `DeterministicMockProvider`, by task and key. -/
abbrev Responses := List ((String × String) × String)

/-- `_fixture_key`. -/
def fixtureKey (prompt : String) : String :=
  match splitLines (trimmed prompt.toList) with
  | [] => "default"
  | line :: _ => .ofList (line.take 64)

/-- An empty fixture counts as none under the key of the prompt. -/
def fixture? (responses : Responses) (task key : String) : Option String :=
  match responses.lookup (task, key) with
  | none | some "" => responses.lookup (task, "default")
  | some text => some text

/-- `DeterministicMockProvider.generate`; `repr` is Python's, and an error is the text of an `LLMUnavailable`. -/
def generate (repr : String → String) (lower : Lower) (responses : Responses) (task generatedAt prompt : String) :
    Except String String :=
  let key := fixtureKey prompt
  match fixture? responses task key with
  | none =>
      if task = "MappingSuggestionSet" then .ok (mappingSuggestionsJson lower generatedAt prompt)
      else .error ("no mock response for task=" ++ repr task ++ " key=" ++ repr key)
  | some "__FAIL__" => .error ("mock forced failure for task=" ++ repr task)
  | some text => .ok text

/-! ## What is read back -/

section Reading

variable {field low prompt : String} {line rest : List Char}

/-- The name ends with its last character that is neither white space nor a bracket. -/
theorem fieldOfLine_plain (plain : Plain field) {next : Char} (ends : isSpace next = true) (rest : List Char) :
    fieldOfLine (['-', ' '] ++ (field.toList ++ next :: rest)) = some field := by
  have filled : field.toList ≠ [] := by simpa using plain.1
  obtain ⟨first, others, same⟩ := List.exists_cons_of_ne_nil filled
  have solid : isSpace first = false := (plain.2 first (by simp [same])).1
  have name : ((field.toList ++ next :: rest).dropWhile isSpace).takeWhile (fun char => !isSpace char && char != '(') =
      field.toList := by
    have kept : (field.toList ++ next :: rest).dropWhile isSpace = field.toList ++ next :: rest := by
      rw [same, List.cons_append, List.dropWhile_cons_of_neg (by simp [solid])]
    rw [kept, List.takeWhile_append_of_pos, List.takeWhile_cons_of_neg (by simp [ends]), List.append_nil]
    intro char member
    simp [plain.2 char member]
  have blank : isSpace ' ' = true := by decide
  change (if isSpace ' ' && !(((field.toList ++ next :: rest).dropWhile isSpace).takeWhile
    fun char => !isSpace char && char != '(').isEmpty then
      some (String.ofList (((field.toList ++ next :: rest).dropWhile isSpace).takeWhile fun char => !isSpace char && char != '('))
    else none) = _
  rw [name, if_pos (by simp [filled, blank]), String.ofList_toList]

theorem plain_of_fieldOfLine (found : fieldOfLine line = some field) : Plain field := by
  unfold fieldOfLine at found
  split at found
  · next blank rest =>
    dsimp only at found
    split at found
    · next filled =>
      obtain rfl := Option.some.inj found
      rw [Bool.and_eq_true, Bool.not_eq_true', List.isEmpty_eq_false_iff] at filled
      refine ⟨fun empty => filled.2 (String.ofList_eq_empty_iff.mp empty), fun char member => ?_⟩
      rw [String.toList_ofList] at member
      simpa using List.mem_takeWhile_imp member
    · cases found
  · cases found

theorem plain_of_mem_fieldsFromPrompt (member : field ∈ fieldsFromPrompt prompt) : Plain field := by
  obtain ⟨line, _, found⟩ := List.mem_filterMap.mp member
  exact plain_of_fieldOfLine found

/-- Trimming a line keeps everything up to a character that is no white space. -/
theorem rdropWhile_append (front : List Char) {last : Char} (solid : isSpace last = false) (rest : List Char) :
    ∃ after, (front ++ last :: rest).rdropWhile isSpace = front ++ last :: after := by
  induction rest using List.reverseRecOn with
  | nil => exact ⟨[], List.rdropWhile_concat_neg isSpace front last (by simp [solid])⟩
  | append_singleton rest final ih =>
      rw [← List.cons_append, ← List.append_assoc]
      cases blank : isSpace final with
      | true =>
          rw [List.rdropWhile_concat_pos _ _ _ blank]
          exact ih
      | false =>
          rw [List.rdropWhile_concat_neg _ _ _ (by simp [blank])]
          exact ⟨rest ++ [final], by simp⟩

theorem isSpace_of_isBreak {char : Char} (isEnd : isBreak char = true) : isSpace char = true := by
  simp only [isBreak, isSpace, Bool.or_eq_true, Bool.and_eq_true, decide_eq_true_eq, beq_iff_eq] at isEnd ⊢
  omega

/-- A line that begins as the line of a field does is read as this field. -/
theorem mem_fieldsFromPrompt (plain : Plain field) (front rest : List Char)
    (split : prompt.toList = front ++ '\n' :: (['-', ' '] ++ (field.toList ++ ' ' :: '(' :: rest))) :
    field ∈ fieldsFromPrompt prompt := by
  have inside : ∀ char ∈ ['-', ' '] ++ (field.toList ++ [' ', '(']), isBreak char = false := by
    intro char member
    simp only [List.mem_append, List.mem_cons, List.not_mem_nil, or_false] at member
    rcases member with (rfl | rfl) | own | rfl | rfl
    · rfl
    · rfl
    · have solid := (plain.2 char own).1
      exact Bool.eq_false_iff.mpr fun isEnd => by rw [isSpace_of_isBreak isEnd] at solid; cases solid
    · rfl
    · rfl
  have shape : ['-', ' '] ++ (field.toList ++ ' ' :: '(' :: rest) =
      (['-', ' '] ++ (field.toList ++ [' ', '('])) ++ rest := by simp
  have ends : lineEnd (['-', ' '] ++ (field.toList ++ ' ' :: '(' :: rest)) =
      (['-', ' '] ++ field.toList ++ [' ']) ++ '(' :: lineEnd rest := by
    rw [shape, lineEnd, List.takeWhile_append_of_pos fun char member => by simp [inside char member], lineEnd]
    simp
  obtain ⟨lines, first⟩ := splitLines_head (show ['-', ' '] ++ (field.toList ++ ' ' :: '(' :: rest) ≠ [] by simp)
  refine List.mem_filterMap.mpr ⟨lineEnd (['-', ' '] ++ (field.toList ++ ' ' :: '(' :: rest)), ?_, ?_⟩
  · rw [split, splitLines_append (by decide) (fun isReturn => absurd isReturn (by decide)), first]
    exact List.mem_append_right _ List.mem_cons_self
  · obtain ⟨after, kept⟩ := rdropWhile_append (['-', ' '] ++ field.toList ++ [' ']) (show isSpace '(' = false by decide)
      (lineEnd rest)
    have starts : ((['-', ' '] ++ field.toList ++ [' ']) ++ '(' :: lineEnd rest).dropWhile isSpace =
        (['-', ' '] ++ field.toList ++ [' ']) ++ '(' :: lineEnd rest := rfl
    rw [trimmed, ends, starts, kept, List.append_assoc, List.append_assoc]
    exact fieldOfLine_plain plain (by decide) _

end Reading

/-! ## The answer is JSON -/

section Answer

variable {limits : Limits} {digits levels : Nat}

theorem isNumber_literal (confidence : Confidence) : IsNumber digits confidence.literal.toList := by
  have fraction (tail : List Char) (filled : tail ≠ []) (all : ∀ char ∈ tail, isDigit char = true) :
      IsNumber digits ('0' :: '.' :: tail) :=
    ⟨[], ['0'], '.' :: tail, [], .inl rfl, .inl rfl, .inr ⟨tail, ⟨filled, all⟩, rfl⟩, .inl rfl, nofun, by simp⟩
  cases confidence with
  | named => exact fraction ['7', '5'] (by decide) (by simp [isDigit])
  | identifying => exact fraction ['7'] (by decide) (by simp [isDigit])

theorem fits_json (suggestion : DemoSuggestion) : Fits digits (levels + 1) suggestion.json := by
  refine .object (by simp) fun field member => ?_
  simp only [List.mem_cons, List.not_mem_nil, or_false] at member
  rcases member with rfl | rfl | rfl | rfl | rfl | rfl
  · exact .string _
  · exact .string _
  · exact .string _
  · exact .null
  · exact .number (isNumber_literal _)
  · exact .string _

theorem fits_demoDocument (generatedAt : String) (suggestions : List DemoSuggestion) :
    Fits digits (levels + 3) (demoDocument generatedAt suggestions) := by
  refine .object (by simp) fun field member => ?_
  simp only [List.mem_cons, List.not_mem_nil, or_false] at member
  rcases member with rfl | rfl
  · refine .object (by simp) fun field member => ?_
    simp only [List.mem_cons, List.not_mem_nil, or_false] at member
    rcases member with rfl | rfl | rfl <;> exact .string _
  · refine .array fun item member => ?_
    obtain ⟨suggestion, _, rfl⟩ := List.mem_map.mp member
    exact fits_json suggestion

theorem loads_mappingSuggestionsJson (deep : 3 ≤ limits.levels) (lower : Lower) (generatedAt prompt : String) :
    loads limits (mappingSuggestionsJson lower generatedAt prompt) =
      .ok (demoDocument generatedAt (demoSuggestions lower prompt)) := by
  have fits : Fits limits.digits (limits.levels - 3 + 3) (demoDocument generatedAt (demoSuggestions lower prompt)) :=
    fits_demoDocument generatedAt _
  rw [Nat.sub_add_cancel deep] at fits
  exact loads_dumps fits

end Answer

end SmartProcurement.Ai.MockDemo
