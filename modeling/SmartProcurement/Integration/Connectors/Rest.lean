import SmartProcurement.Integration.Connectors.File

namespace SmartProcurement.Integration.Connectors

open Relational Text Observation

/-! # The REST connector

A resource is read page by page until a page is not full.  What a page lists is
filtered before it is counted, so that a full page can look like the last one.
-/

abbrev JsonObject := List (String × Json)

/-- What else is asked of the interpreter: `int` of a configured value and `isoformat`. -/
structure Interpreter extends Builtins where
  int : Json → Except Error Int
  isoformat : Timestamp → String

/-- What comes of a request: a body, an `HTTPError`, a body that is no JSON, or another exception. -/
inductive Reply where
  | json (body : Json)
  | httpError (shown : String)
  | notJson (message : String)
  | raised (reason : Error)

def object? : Json → Option JsonObject
  | .object fields => some fields
  | _ => none

/-- The objects among the entries of a list. -/
def objects (entries : List Json) : List JsonObject := entries.filterMap object?

/-! ## Flattening -/

def isContainer : Json → Bool
  | .array _ | .object _ => true
  | _ => false

/-- `flat.update(other)`. -/
def update (flat other : JsonObject) : JsonObject :=
  other.foldl (fun entries entry => assign entries entry.1 entry.2) flat

section Flatten

variable (builtins : Builtins)

/-- `",".join(str(x) for x in val if not isinstance(x, dict | list))`. -/
def joined (items : List Json) : String :=
  String.intercalate "," ((items.filter fun item => !isContainer item).map builtins.text)

mutual
def flattenValue (flat : JsonObject) (name : String) : Json → JsonObject
  | .object fields => update flat (flattenFields [] (name ++ ".") fields)
  | .array items => assign flat name (.string (joined builtins items))
  | value => assign flat name value

def flattenField (flat : JsonObject) (stem : String) : String × Json → JsonObject
  | (key, value) => flattenValue flat (stem ++ key) value

def flattenFields (flat : JsonObject) (stem : String) : JsonObject → JsonObject
  | [] => flat
  | field :: rest => flattenFields (flattenField flat stem field) stem rest
end

/-- `_flatten(row)`. -/
def flatten (row : JsonObject) : JsonObject := flattenFields builtins [] "" row

end Flatten

/-! ## The connector -/

/-- A name in the configuration; a blank one is as good as none. -/
def name? : Json → Option String
  | .string name => if name = "" then none else some name
  | _ => none

/-- The names of a list in the configuration. -/
def names : Json → List String
  | .array items => items.filterMap fun
      | .string name => some name
      | _ => none
  | _ => []

structure RestSourceConnector where
  baseUrl : String
  paths : List String
  pageParam : Option String
  sizeParam : Option String
  size : Json
  incrementalParam : Option String
  recordsKey : Option String

def stripSlashes (text : String) : String :=
  .ofList ((text.toList.dropWhile (· = '/')).reverse.dropWhile (· = '/')).reverse

namespace RestSourceConnector

def maxPages : Nat := 50

def sampleRows : Nat := 5

/-- `RestSourceConnector.__init__`. -/
def init (builtins : Builtins) (config : Dict Json) : Except Error RestSourceConnector :=
  let baseUrl := builtins.text ((config.lookup "base_url").getD (.string ""))
  let baseUrl := String.ofList (baseUrl.toList.reverse.dropWhile (· = '/')).reverse
  let pagination :=
    match config.lookup "pagination" with
    | some (.object fields) => fields
    | _ => []
  if baseUrl = "" then .error (.connector "rest connector requires config.base_url")
  else
    .ok {
      baseUrl
      paths := ((config.lookup "resource_paths").map names).getD []
      pageParam := (pagination.lookup "param").bind name?
      sizeParam := (pagination.lookup "size_param").bind name?
      size := (pagination.lookup "size").getD .null
      incrementalParam := (config.lookup "incremental_param").bind name?
      recordsKey := (config.lookup "records_key").bind name? }

def url (connector : RestSourceConnector) (path : String) : String :=
  if path = "" then connector.baseUrl
  else connector.baseUrl ++ "/" ++ .ofList (path.toList.dropWhile (· = '/'))

/-- The prefix of the names that are read at a path. -/
def stem (connector : RestSourceConnector) (path : String) : String :=
  if 1 < connector.paths.length ∧ path ≠ "" then stripSlashes path ++ "." else ""

def getJson (source : String → Reply) (url : String) : Except Error Json :=
  match source url with
  | .json body => .ok body
  | .httpError shown => .error (.connector ("GET " ++ url ++ " failed: " ++ shown))
  | .notJson message => .error (.connector ("GET " ++ url ++ " returned non-JSON: " ++ message))
  | .raised reason => .error reason

/-- The list of a response body, under the configured key or under a usual one. -/
def listed (connector : RestSourceConnector) (body : Json) : List Json :=
  let body :=
    match connector.recordsKey, body with
    | some key, .object fields => (fields.lookup key).getD (.array [])
    | _, _ => body
  let body :=
    match body with
    | .object fields =>
        (fields.lookup "records").getD
          ((fields.lookup "data").getD ((fields.lookup "items").getD (.array [body])))
    | _ => body
  match body with
  | .array items => items
  | _ => []

/-- `_extract`. -/
def extract (connector : RestSourceConnector) (body : Json) : List JsonObject := objects (connector.listed body)

section Methods

variable (interpreter : Interpreter) (source : String → Reply)

/-- The parameters of the query on one page. -/
def params (connector : RestSourceConnector) (since : Option Timestamp) (page : Nat) : List (String × String) :=
  let given :=
    match since, connector.incrementalParam with
    | some since, some param => assign [] param (interpreter.isoformat since)
    | _, _ => []
  let sized :=
    match connector.sizeParam with
    | some param => if interpreter.truthy connector.size then assign given param (interpreter.text connector.size) else given
    | none => given
  match connector.pageParam with
  | some param => assign sized param (toString page)
  | none => sized

def pageUrl (connector : RestSourceConnector) (url : String) (since : Option Timestamp) (page : Nat) : String :=
  let query := String.intercalate "&" ((connector.params interpreter since page).map fun (key, value) => key ++ "=" ++ value)
  if query = "" then url else url ++ "?" ++ query

/-- `not page_param or not rows or (size and len(rows) < int(size))`. -/
def stops (connector : RestSourceConnector) (rows : List JsonObject) : Except Error Bool :=
  if connector.pageParam.isNone ∨ rows.isEmpty then .ok true
  else if interpreter.truthy connector.size then do return rows.length < (← interpreter.int connector.size)
  else .ok false

/-- The walk from a page on, with so many pages left. -/
def walkFrom (connector : RestSourceConnector) (url : String) (since : Option Timestamp) :
    (left page : Nat) → Except Error (List JsonObject)
  | 0, _ => .ok []
  | left + 1, page => do
      let rows := connector.extract (← getJson source (connector.pageUrl interpreter url since page))
      if ← connector.stops interpreter rows then return rows
      else return rows ++ (← connector.walkFrom url since left (page + 1))

/-- `_walk`. -/
def walk (connector : RestSourceConnector) (url : String) (since : Option Timestamp) : Except Error (List JsonObject) :=
  connector.walkFrom interpreter source url since maxPages 1

/-- The paths that are read; without any, the base itself. -/
def resources (connector : RestSourceConnector) : List String :=
  if connector.paths.isEmpty then [""] else connector.paths

def sample (fields : List (String × List String)) (name : String) (value : Json) : List (String × List String) :=
  let samples := (fields.lookup name).getD []
  let filled : Bool :=
    match value with
    | .null => false
    | .string text => text ≠ ""
    | _ => true
  assign fields name (if filled ∧ samples.length < sampleRows then samples ++ [interpreter.text value] else samples)

def describeSchema (connector : RestSourceConnector) : Except Error (List SourceField) := do
  let fields ← connector.resources.foldlM (fun fields path => do
    let rows := connector.extract (← getJson source (connector.url path))
    return (rows.take sampleRows).foldl (fun fields row =>
      (flatten interpreter.toBuiltins row).foldl (fun fields entry =>
        sample interpreter fields (connector.stem path ++ entry.1) entry.2) fields) fields) []
  return fields.map fun (path, samples) =>
    { path, inferredType := inferType interpreter.toBuiltins samples, sampleValues := samples }

/-- The record of a row that is read at a path. -/
def record (connector : RestSourceConnector) (path : String) (row : JsonObject) : JsonObject :=
  (flatten interpreter.toBuiltins row).map fun (name, value) => (connector.stem path ++ name, value)

def fetch (connector : RestSourceConnector) (now : Timestamp) (since : Option Timestamp) : Except Error FetchBatch := do
  let records ← connector.resources.mapM fun path => do
    return (← connector.walk interpreter source (connector.url path) since).map (connector.record interpreter path)
  return { records := records.flatten, cursor := some (interpreter.isoformat now), fetchedAt := now }

end Methods

/-! ## Pages -/

/-- The source serves these bodies, one a page. -/
def Serves (interpreter : Interpreter) (connector : RestSourceConnector) (source : String → Reply) (url : String)
    (since : Option Timestamp) (bodies : List Json) : Prop :=
  ∀ index body, bodies[index]? = some body → source (connector.pageUrl interpreter url since (index + 1)) = .json body

/-- Every page but the last is full, and the last is not. -/
def Paged (size : Nat) : List (List Json) → Prop
  | [] => False
  | [last] => last.length < size
  | page :: rest => page.length = size ∧ Paged size rest

/-- A page param is configured, and a size that is this number. -/
structure PagedBy (interpreter : Interpreter) (connector : RestSourceConnector) (size : Nat) : Prop where
  param : connector.pageParam.isSome = true
  truthy : interpreter.truthy connector.size = true
  size : interpreter.int connector.size = .ok size

def AllObjects (page : List Json) : Prop := ∀ entry ∈ page, (object? entry).isSome = true

/-- What is read of a list of pages: up to the first page with an entry that is no object. -/
def reached : List (List Json) → List JsonObject
  | [] => []
  | page :: rest => if (objects page).length < page.length then objects page else objects page ++ reached rest

section Walk

variable {interpreter : Interpreter} {connector : RestSourceConnector} {source : String → Reply} {url : String}
variable {since : Option Timestamp} {size : Nat} {page : List Json} {pages : List (List Json)}

theorem objects_append (front rest : List Json) : objects (front ++ rest) = objects front ++ objects rest :=
  List.filterMap_append

theorem objects_eq_nil_iff : objects page = [] ↔ ∀ entry ∈ page, object? entry = none := by
  rw [objects, List.filterMap_eq_nil_iff]

theorem length_objects_le (page : List Json) : (objects page).length ≤ page.length := List.length_filterMap_le _ _

theorem length_objects_eq_iff : (objects page).length = page.length ↔ AllObjects page := by
  rw [objects, List.filterMap_length_eq_length]
  rfl

theorem reached_eq_iff (pages : List (List Json)) : reached pages = objects pages.flatten ↔
    pages.Pairwise fun page later => AllObjects page ∨ objects later = [] := by
  induction pages with
  | nil => simp [reached, objects]
  | cons page rest ih =>
      rw [reached, List.flatten_cons, objects_append, List.pairwise_cons]
      by_cases whole : AllObjects page
      · have full : ¬ (objects page).length < page.length := by
          have same := length_objects_eq_iff.mpr whole
          omega
        rw [if_neg full, List.append_cancel_left_eq, ih]
        exact ⟨fun later => ⟨fun _ _ => .inl whole, later⟩, fun both => both.2⟩
      · have short : (objects page).length < page.length := by
          have bound := length_objects_le page
          have different := mt length_objects_eq_iff.mp whole
          omega
        rw [if_pos short, List.self_eq_append_right]
        constructor
        · intro nothing
          have none : ∀ later ∈ rest, objects later = [] := by
            intro later member
            rw [objects_eq_nil_iff] at nothing ⊢
            exact fun entry listed => nothing entry (List.mem_flatten_of_mem member listed)
          exact ⟨fun later member => .inr (none later member),
            List.pairwise_of_forall_mem_list fun _ _ later member => .inr (none later member)⟩
        · rintro ⟨none, _⟩
          rw [objects_eq_nil_iff]
          intro entry listed
          obtain ⟨later, member, inside⟩ := List.mem_flatten.mp listed
          exact objects_eq_nil_iff.mp ((none later member).resolve_left whole) entry inside

theorem stops_of_full (paged : PagedBy interpreter connector size) (filled : 0 < size) (full : page.length = size) :
    connector.stops interpreter (objects page) = .ok (decide ((objects page).length < page.length)) := by
  unfold stops
  by_cases nothing : objects page = []
  · have short : (objects page).length < page.length := by
      rw [nothing, List.length_nil]
      omega
    rw [if_pos (.inr (by simp [nothing])), decide_eq_true short]
  · have listing : ¬ (connector.pageParam.isNone = true ∨ (objects page).isEmpty = true) := by
      obtain ⟨name, isParam⟩ := Option.isSome_iff_exists.mp paged.param
      simp [isParam, nothing]
    rw [if_neg listing, if_pos paged.truthy, paged.size, ← full]
    simp [bind, Except.bind, pure, Except.pure]

theorem stops_of_last (paged : PagedBy interpreter connector size) (last : page.length < size) :
    connector.stops interpreter (objects page) = .ok true := by
  unfold stops
  split
  · rfl
  · have short : ((objects page).length : Int) < size := by
      have bound := length_objects_le page
      omega
    rw [if_pos paged.truthy, paged.size]
    simp [bind, Except.bind, pure, Except.pure, short]

theorem Paged.size_pos : ∀ {pages : List (List Json)}, Paged size pages → 0 < size
  | [_], last => Nat.zero_lt_of_lt last
  | _ :: _ :: _, full => Paged.size_pos full.2

/-- The walk from a page on reads what is reached there. -/
theorem walkFrom_eq (paged : PagedBy interpreter connector size) (bodies : List Json) (left page : Nat)
    (enough : bodies.length ≤ left) (shape : Paged size (bodies.map connector.listed))
    (served : ∀ index body, bodies[index]? = some body →
      source (connector.pageUrl interpreter url since (page + index)) = .json body) :
    connector.walkFrom interpreter source url since left page = .ok (reached (bodies.map connector.listed)) := by
  induction bodies generalizing left page with
  | nil => exact shape.elim
  | cons body rest ih =>
      obtain ⟨left, rfl⟩ : ∃ before, left = before + 1 := ⟨left - 1, by simp at enough; omega⟩
      have answered : getJson source (connector.pageUrl interpreter url since page) = .ok body := by
        unfold getJson
        rw [show source (connector.pageUrl interpreter url since page) = .json body from served 0 body rfl]
      unfold walkFrom
      rw [answered]
      cases rest with
      | nil =>
          have last : (connector.listed body).length < size := shape
          simp only [bind, Except.bind, extract, stops_of_last paged last]
          simp [reached, pure, Except.pure, objects]
      | cons second rest =>
          obtain ⟨full, shape⟩ := shape
          have filled := shape.size_pos
          have later := ih left (page + 1) (by simpa using enough) shape fun index body found => by
            rw [Nat.add_assoc, Nat.add_comm 1]
            exact served (index + 1) body found
          simp only [bind, Except.bind, extract, stops_of_full paged filled full, later]
          change _ = Except.ok (if (objects (connector.listed body)).length < (connector.listed body).length then
            objects (connector.listed body) else
              objects (connector.listed body) ++ reached ((second :: rest).map connector.listed))
          by_cases short : (objects (connector.listed body)).length < (connector.listed body).length
          · simp only [short, decide_true, if_true]
            rfl
          · simp only [short, decide_false, Bool.false_eq_true, if_false]
            rfl

/-- The walk returns all objects of all pages exactly if no page that lists something
else stands before a page that lists an object. -/
theorem walk_complete_iff (paged : PagedBy interpreter connector size) {bodies : List Json}
    (few : bodies.length ≤ maxPages) (shape : Paged size (bodies.map connector.listed))
    (served : Serves interpreter connector source url since bodies) :
    connector.walk interpreter source url since = .ok (objects (bodies.map connector.listed).flatten) ↔
      (bodies.map connector.listed).Pairwise fun page later => AllObjects page ∨ objects later = [] := by
  rw [← reached_eq_iff, walk, walkFrom_eq paged bodies maxPages 1 few shape fun index body found => by
    rw [Nat.add_comm]
    exact served index body found]
  exact ⟨Except.ok.inj, congrArg Except.ok⟩

end Walk

/-! ## A page with a blank entry -/

def interpreter : Interpreter where
  toBuiltins := python
  int
    | .number "2" => .ok 2
    | _ => .error (.typeError "int() argument must be a string, a bytes-like object or a real number")
  isoformat _ := "1970-01-01T00:00:00+00:00"

def articles : RestSourceConnector where
  baseUrl := "https://erp"
  paths := ["articles"]
  pageParam := some "page"
  sizeParam := some "per_page"
  size := .number "2"
  incrementalParam := none
  recordsKey := none

def article (sku : String) : Json := .object [("sku", .string sku)]

/-- The bodies of the pages, and no more afterwards. -/
def serving (bodies : List Json) (url : String) : Reply :=
  match (List.range bodies.length).find? fun index => articles.pageUrl interpreter "https://erp/articles" none (index + 1) = url with
  | none => .json (.array [])
  | some index => .json (bodies.getD index .null)

def fullPages : List Json := [.array [article "A-1", article "A-2"], .array [article "A-3"]]

def blankEntry : List Json := [.array [article "A-1", .null], .array [article "A-2"]]

theorem pagedBy_articles : PagedBy interpreter articles 2 := ⟨rfl, rfl, rfl⟩

theorem fullPages_complete : articles.walk interpreter (serving fullPages) "https://erp/articles" none =
    .ok (objects [article "A-1", article "A-2", article "A-3"]) := by
  have served : Serves interpreter articles (serving fullPages) "https://erp/articles" none fullPages := by
    intro index body found
    match index with
    | 0 => cases found; rfl
    | 1 => cases found; rfl
    | _ + 2 => cases found
  have shape : Paged 2 (fullPages.map articles.listed) := ⟨rfl, Nat.lt_succ_self 1⟩
  apply (walk_complete_iff pagedBy_articles (by decide) shape served).mpr
  simp [fullPages, articles, listed, AllObjects, object?, article]

/-- The first of two pages is full, but lists a null, and the second page is not read. -/
theorem blank_entry_ends_walk :
    Paged 2 (blankEntry.map articles.listed) ∧
      serving blankEntry (articles.pageUrl interpreter "https://erp/articles" none 1) = .json (.array [article "A-1", .null]) ∧
      serving blankEntry (articles.pageUrl interpreter "https://erp/articles" none 2) = .json (.array [article "A-2"]) ∧
      articles.walk interpreter (serving blankEntry) "https://erp/articles" none = .ok [[("sku", .string "A-1")]] ∧
      objects (blankEntry.map articles.listed).flatten = [[("sku", .string "A-1")], [("sku", .string "A-2")]] ∧
      articles.walk interpreter (serving blankEntry) "https://erp/articles" none ≠
        .ok (objects (blankEntry.map articles.listed).flatten) := by
  have walked : articles.walk interpreter (serving blankEntry) "https://erp/articles" none = .ok [[("sku", .string "A-1")]] := rfl
  have all : objects (blankEntry.map articles.listed).flatten = [[("sku", .string "A-1")], [("sku", .string "A-2")]] := rfl
  refine ⟨⟨rfl, Nat.lt_succ_self 1⟩, rfl, rfl, walked, all, fun same => ?_⟩
  rw [walked, all] at same
  have lengths := congrArg List.length (Except.ok.inj same)
  cases lengths

end RestSourceConnector

end SmartProcurement.Integration.Connectors
