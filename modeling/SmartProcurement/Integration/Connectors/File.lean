import SmartProcurement.Core.JsonDecoder
import SmartProcurement.Integration.Service
import SmartProcurement.Text.Csv

namespace SmartProcurement.Integration.Connectors

open Relational Text Transaction JsonDecoder Observation

/-! # The file connector

Testing, describing and fetching parse the same text.  Only the last two put the
rows into models that take string keys, and only one exception counts as an outage.
-/

/-- What the interpreter answers: `str` of a value that is no string, `repr` of a
string, which number texts are zero, what `float` and `strptime` accept, and the
limits of `json.loads`. -/
structure Builtins where
  str : Json → String
  repr : String → String
  isZero : String → Bool
  float : String → Bool
  strptime : String → String → Bool
  limits : Limits

namespace Builtins

variable (builtins : Builtins)

def text : Json → String
  | .string text => text
  | value => builtins.str value

/-- `bool(value)`. -/
def truthy : Json → Bool
  | .null => false
  | .bool value => value
  | .number text => !builtins.isZero text
  | .string text => !text.isEmpty
  | .array items => !items.isEmpty
  | .object fields => !fields.isEmpty

end Builtins

/-- A row as it is parsed.  The surplus fields of a row are found under no name. -/
abbrev ParsedRow := List (Option String × Json)

structure SourceField where
  path : String
  inferredType : String
  sampleValues : List String
deriving DecidableEq, Repr

structure FetchBatch where
  records : List (List (String × Json))
  cursor : Option String
  fetchedAt : Timestamp

/-- A model refuses a key that is no string. -/
def validationError : Error := .other "ValidationError"

def stringKey : Option String → Except Error String
  | none => .error validationError
  | some key => .ok key

/-! ## `infer_type` -/

section InferType

variable (builtins : Builtins)

def dateFormats : List String := ["%Y-%m-%d", "%Y-%m-%dT%H:%M:%S", "%Y-%m-%dT%H:%M:%S%z", "%d.%m.%Y"]

def isDate (value : String) : Bool := dateFormats.any (builtins.strptime value)

def inferType (values : List String) : String :=
  let nonEmpty := values.filter (· ≠ "")
  if nonEmpty.isEmpty then "string"
  else if nonEmpty.all builtins.float then "number"
  else if nonEmpty.all (isDate builtins) then "date"
  else "string"

end InferType

/-! ## Parsing -/

structure FileSourceConnector where
  format : String
  delimiter : String
  hasHeader : Bool
  content : Json

/-- A row of `csv.DictReader`: surplus fields under no name, missing ones as null. -/
def dictRow (fieldnames row : List String) : ParsedRow :=
  let named := fromPairs ((fieldnames.zip row).map fun (name, value) => (some name, Json.string value))
  if fieldnames.length < row.length then assign named none (.array ((row.drop fieldnames.length).map .string))
  else (fieldnames.drop row.length).foldl (fun entries name => assign entries (some name) .null) named

/-- `list(csv.DictReader(...))` on the rows of its reader. -/
def dictRows : List (List String) → List ParsedRow
  | [] => []
  | fieldnames :: rows => (rows.filter (· ≠ [])).map (dictRow fieldnames)

def numberedRow (row : List String) : ParsedRow :=
  row.zipIdx.map fun (value, index) => (some ("col_" ++ toString index), .string value)

def sampleRows : Nat := 5

namespace FileSourceConnector

variable (builtins : Builtins)

/-- `FileSourceConnector.__init__`. -/
def init (config : Dict Json) : FileSourceConnector where
  format := lower (builtins.text ((config.lookup "format").getD (.string "csv")))
  delimiter := builtins.text ((config.lookup "delimiter").getD (.string ","))
  hasHeader := builtins.truthy ((config.lookup "has_header").getD (.bool true))
  content := (config.lookup "content").getD .null

def parseCsv (connector : FileSourceConnector) (content : String) : Except Error (List ParsedRow) :=
  match connector.delimiter.toList with
  | [delimiter] =>
      match Csv.rows delimiter content with
      | .error failure => .error (.connector ("CSV parse error: " ++ failure.str))
      | .ok rows =>
          if connector.hasHeader then .ok (dictRows rows) else .ok ((rows.filter (· ≠ [])).map numberedRow)
  | _ => .error (.typeError "\"delimiter\" must be a 1-character string")

/-- The exceptions of `json.loads` that go through. -/
def loadsError (content : String) : LoadsError → Error
  | .decode message left => .connector ("JSON parse error: " ++ errorText content message left)
  | .tooManyDigits _ => .other "ValueError"
  | .recursion => .other "RecursionError"

/-- The rows of a list, without what is no object. -/
def objectsOf (items : List Json) : List ParsedRow :=
  items.filterMap fun
    | .object fields => some (fields.map fun (name, value) => (some name, value))
    | _ => none

def parseJson (content : String) : Except Error (List ParsedRow) :=
  match loads builtins.limits content with
  | .error reason => .error (loadsError content reason)
  | .ok data =>
      let data :=
        match data with
        | .object fields => (fields.lookup "records").getD (.array [data])
        | _ => data
      match data with
      | .array items => .ok (objectsOf items)
      | _ => .error (.connector "JSON file must be a list of objects or {records: [...]}")

def noContent : Error := .connector "file source has no content"

def parse (connector : FileSourceConnector) : Except Error (List ParsedRow) :=
  match connector.content with
  | .string content =>
      if strip content = "" then .error noContent
      else if connector.format = "json" then parseJson builtins content
      else if connector.format = "csv" then connector.parseCsv content
      else .error (.connector ("unsupported file format " ++ builtins.repr connector.format))
  | _ => .error noContent

/-! ## The methods of the protocol -/

def testConnection (now : Timestamp) (connector : FileSourceConnector) : Except Error ConnectionCheck :=
  if !builtins.truthy connector.content then
    .ok { health := "unavailable", detail := "no file uploaded yet", checkedAt := now }
  else
    match connector.parse builtins with
    | .error (.connector detail) => .ok { health := "unavailable", detail, checkedAt := now }
    | .error reason => .error reason
    | .ok rows =>
        .ok { health := "available", detail := toString rows.length ++ " record(s) parsed", checkedAt := now }

/-- The texts at a path in the first rows, where it is filled. -/
def samples (path : Option String) (rows : List ParsedRow) : List String :=
  (rows.take sampleRows).filterMap fun row =>
    match row.lookup path with
    | none | some .null => none
    | some (.string "") => none
    | some value => some (builtins.text value)

def describeField (rows : List ParsedRow) (path : Option String) : Except Error SourceField := do
  let sampleValues := samples builtins path rows
  return { path := ← stringKey path, inferredType := inferType builtins sampleValues, sampleValues }

def describeSchema (connector : FileSourceConnector) : Except Error (List SourceField) := do
  match ← connector.parse builtins with
  | [] => return []
  | first :: rest => (first.map Prod.fst).mapM (describeField builtins (first :: rest))

def record (row : ParsedRow) : Except Error (List (String × Json)) :=
  row.mapM fun (key, value) => do return (← stringKey key, value)

def fetch (now : Timestamp) (connector : FileSourceConnector) : Except Error FetchBatch := do
  let rows ← connector.parse builtins
  return { records := ← rows.mapM record, cursor := none, fetchedAt := now }

/-! ## Agreement -/

/-- Every field of the row has a name. -/
def Named (row : ParsedRow) : Prop := none ∉ row.map Prod.fst

def IsConnector (reason : Error) : Prop := ∃ detail, reason = .connector detail

/-- A file that tests as available can be fetched and described, and a fetch that fails
does so as a connector does. -/
structure Dependable (now : Timestamp) (connector : FileSourceConnector) : Prop where
  available : ∀ check, connector.testConnection builtins now = .ok check → check.health = "available" →
    (∃ batch, connector.fetch builtins now = .ok batch) ∧ ∃ fields, connector.describeSchema builtins = .ok fields
  refuses : Refuses IsConnector (connector.fetch builtins now)

/-- The text that a connector parses. -/
def Parses (connector : FileSourceConnector) (content : String) : Prop :=
  connector.content = .string content ∧ strip content ≠ ""

/-- JSON is within the limits of `json.loads`, or malformed before it meets them.  CSV has
a delimiter of one character and, below a header, no row that is longer. -/
structure Readable (connector : FileSourceConnector) : Prop where
  json : ∀ content, connector.Parses content → connector.format = "json" → Refuses IsDecode (loads builtins.limits content)
  delimiter : ∀ content, connector.Parses content → connector.format = "csv" →
    ∃ delimiter, connector.delimiter.toList = [delimiter]
  even : ∀ content, connector.Parses content → connector.format = "csv" → connector.hasHeader = true →
    ∀ delimiter, connector.delimiter.toList = [delimiter] →
      ∀ header rows, Csv.rows delimiter content = .ok (header :: rows) → ∀ row ∈ rows, row.length ≤ header.length

section Rows

variable {fieldnames row : List String} {parsed : ParsedRow} {rows : List ParsedRow}

/-- Only a row that is longer than the header has fields without a name. -/
theorem named_dictRow : Named (dictRow fieldnames row) ↔ row.length ≤ fieldnames.length := by
  have zipped : none ∉ (fromPairs ((fieldnames.zip row).map fun (name, value) => (some name, Json.string value))).map Prod.fst := by
    rw [mem_keys_fromPairs]
    simp
  unfold Named dictRow
  dsimp only
  split
  · next longer => simp [mem_keys_assign, longer]
  · next fits =>
    refine iff_of_true (fun missing => ?_) (not_lt.mp fits)
    rw [← List.foldl_map (f := fun name => (some name, Json.null)) (g := fun entries pair => assign entries pair.1 pair.2),
      mem_keys_foldl_assign] at missing
    rcases missing with missing | missing
    · exact zipped missing
    · obtain ⟨entry, listed, unnamed⟩ := List.mem_map.mp missing
      obtain ⟨name, _, rfl⟩ := List.mem_map.mp listed
      cases unnamed

theorem named_numberedRow (row : List String) : Named (numberedRow row) := by
  simp [Named, numberedRow]

theorem named_objectsOf (items : List Json) : ∀ row ∈ objectsOf items, Named row := by
  intro row member
  obtain ⟨item, _, isRow⟩ := List.mem_filterMap.mp member
  cases item with
  | object fields =>
      cases isRow
      simp [Named]
  | _ => cases isRow

theorem exists_stringKey {key : Option String} : (∃ name, stringKey key = .ok name) ↔ key ≠ none := by
  cases key <;> simp [stringKey]

theorem refuses_stringKey (key : Option String) : Refuses (· = validationError) (stringKey key) := by
  cases key with
  | none => exact refuses_error rfl
  | some name => exact refuses_ok name

theorem exists_record : (∃ fields, record parsed = .ok fields) ↔ Named parsed := by
  have field (entry : Option String × Json) :
      (∃ named, (do return (← stringKey entry.1, entry.2) : Except Error (String × Json)) = .ok named) ↔ entry.1 ≠ none := by
    rw [← exists_stringKey]
    cases stringKey entry.1 <;> simp [bind, Except.bind, pure, Except.pure]
  unfold record Named
  rw [exists_mapM_iff]
  simp only [field, List.mem_map, not_exists, not_and]

theorem refuses_record (parsed : ParsedRow) : Refuses (· = validationError) (record parsed) :=
  refuses_mapM fun entry _ => (refuses_stringKey entry.1).bind fun _ _ => refuses_ok _

theorem exists_describeField (rows : List ParsedRow) (path : Option String) :
    (∃ field, describeField builtins rows path = .ok field) ↔ path ≠ none := by
  rw [← exists_stringKey]
  unfold describeField
  cases stringKey path <;> simp [bind, Except.bind, pure, Except.pure]

end Rows

section Agreement

variable {builtins : Builtins} {now : Timestamp} {connector : FileSourceConnector} {content : String} {rows : List ParsedRow}

theorem Parses.parse (parses : connector.Parses content) : connector.parse builtins =
    if connector.format = "json" then parseJson builtins content
    else if connector.format = "csv" then connector.parseCsv content
    else .error (.connector ("unsupported file format " ++ builtins.repr connector.format)) := by
  unfold FileSourceConnector.parse
  rw [parses.1]
  exact if_neg parses.2

/-- The outcomes of a parser that dependable methods can be built on. -/
def Sound (parsed : Except Error (List ParsedRow)) : Prop :=
  (∃ detail, parsed = .error (.connector detail)) ∨ ∃ rows, parsed = .ok rows ∧ ∀ row ∈ rows, Named row

theorem sound_parseJson (decodes : Refuses IsDecode (loads builtins.limits content)) : Sound (parseJson builtins content) := by
  unfold parseJson
  split
  · next reason failed =>
    obtain ⟨message, left, rfl⟩ := decodes reason failed
    exact .inl ⟨_, rfl⟩
  · dsimp only
    split
    · next items _ => exact .inr ⟨_, rfl, named_objectsOf items⟩
    · exact .inl ⟨_, rfl⟩

theorem Readable.sound_parseCsv (readable : Readable builtins connector) (parses : connector.Parses content)
    (csv : connector.format = "csv") : Sound (connector.parseCsv content) := by
  obtain ⟨delimiter, single⟩ := readable.delimiter content parses csv
  unfold parseCsv
  rw [single]
  dsimp only
  split
  · exact .inl ⟨_, rfl⟩
  · next rows read =>
    split
    · next headed =>
      refine .inr ⟨_, rfl, ?_⟩
      cases rows with
      | nil => nofun
      | cons header rows =>
          intro parsed member
          obtain ⟨row, kept, rfl⟩ := List.mem_map.mp member
          have listed := (List.mem_filter.mp kept).1
          exact named_dictRow.mpr (readable.even content parses csv headed delimiter single header rows read row listed)
    · refine .inr ⟨_, rfl, ?_⟩
      intro parsed member
      obtain ⟨row, _, rfl⟩ := List.mem_map.mp member
      exact named_numberedRow row

theorem Readable.sound_parse (readable : Readable builtins connector) : Sound (connector.parse builtins) := by
  by_cases parsed : ∃ content, connector.Parses content
  · obtain ⟨content, parses⟩ := parsed
    rw [parses.parse]
    split
    · next json => exact sound_parseJson (readable.json content parses json)
    · split
      · next csv => exact readable.sound_parseCsv parses csv
      · exact .inl ⟨_, rfl⟩
  · unfold FileSourceConnector.parse
    split
    · next content isText =>
      have blank : strip content = "" := by
        by_contra filled
        exact parsed ⟨content, isText, filled⟩
      exact .inl ⟨_, if_pos blank⟩
    · exact .inl ⟨_, rfl⟩

theorem exists_fetch (parsed : connector.parse builtins = .ok rows) :
    (∃ batch, connector.fetch builtins now = .ok batch) ↔ ∀ row ∈ rows, Named row := by
  have each : (∃ records, rows.mapM record = .ok records) ↔ ∀ row ∈ rows, Named row := by
    rw [exists_mapM_iff]
    exact forall₂_congr fun row _ => exists_record
  rw [← each]
  unfold fetch
  rw [parsed]
  cases read : rows.mapM record <;> simp [read, bind, Except.bind, pure, Except.pure]

theorem refuses_fetch (parsed : connector.parse builtins = .ok rows) : Refuses (· = validationError)
    (connector.fetch builtins now) := by
  unfold fetch
  rw [parsed]
  exact (refuses_mapM fun row _ => refuses_record row).bind fun _ _ => refuses_ok _

theorem exists_describeSchema (parsed : connector.parse builtins = .ok rows) (named : ∀ row ∈ rows, Named row) :
    ∃ fields, connector.describeSchema builtins = .ok fields := by
  unfold describeSchema
  rw [parsed]
  cases rows with
  | nil => exact ⟨[], rfl⟩
  | cons first rest =>
      refine exists_mapM_iff.mpr fun path member => (exists_describeField builtins _ path).mpr ?_
      rintro rfl
      exact named first List.mem_cons_self member

theorem Readable.dependable (readable : Readable builtins connector) : Dependable builtins now connector := by
  rcases readable.sound_parse with ⟨detail, refused⟩ | ⟨rows, parsed, named⟩
  · constructor
    · intro check tested available
      unfold testConnection at tested
      rw [refused] at tested
      split at tested
      · cases tested
        exact absurd available (by simp)
      · cases tested
        exact absurd available (by simp)
    · unfold fetch
      rw [refused]
      exact refuses_error ⟨detail, rfl⟩
  · have fetched : ∃ batch, connector.fetch builtins now = .ok batch := (exists_fetch parsed).mpr named
    refine ⟨fun _ _ _ => ⟨fetched, exists_describeSchema parsed named⟩, ?_⟩
    obtain ⟨batch, fetched⟩ := fetched
    rw [fetched]
    exact refuses_ok batch

/-- JSON within the limits can be read. -/
theorem readable_of_within (json : connector.format = "json")
    (within : ∀ content, connector.Parses content → Within builtins.limits content.toList) : Readable builtins connector where
  json content parses _ := refuses_loads (within content parses)
  delimiter content parses csv := by simp [json] at csv
  even content parses csv := by simp [json] at csv

theorem not_isConnector_validationError : ¬ IsConnector validationError := by
  rintro ⟨detail, same⟩
  cases same

theorem json_of_refuses (refuses : Refuses IsConnector (connector.fetch builtins now)) (parses : connector.Parses content)
    (json : connector.format = "json") : Refuses IsDecode (loads builtins.limits content) := by
  intro reason failed
  have raised : connector.fetch builtins now = .error (loadsError content reason) := by
    unfold fetch
    rw [parses.parse, if_pos json, parseJson, failed]
    rfl
  obtain ⟨detail, same⟩ := refuses _ raised
  cases reason with
  | decode message left => exact ⟨message, left, rfl⟩
  | _ => cases same

theorem delimiter_of_refuses (refuses : Refuses IsConnector (connector.fetch builtins now)) (parses : connector.Parses content)
    (csv : connector.format = "csv") : ∃ delimiter, connector.delimiter.toList = [delimiter] := by
  by_contra several
  have raised : connector.fetch builtins now = .error (.typeError "\"delimiter\" must be a 1-character string") := by
    unfold fetch
    rw [parses.parse, if_neg (by simp [csv]), if_pos csv, parseCsv]
    split
    · next delimiter single => exact absurd ⟨delimiter, single⟩ several
    · rfl
  obtain ⟨detail, same⟩ := refuses _ raised
  cases same

theorem even_of_refuses {delimiter : Char} {header : List String} {rows : List (List String)}
    (refuses : Refuses IsConnector (connector.fetch builtins now)) (parses : connector.Parses content)
    (csv : connector.format = "csv") (headed : connector.hasHeader = true) (single : connector.delimiter.toList = [delimiter])
    (read : Csv.rows delimiter content = .ok (header :: rows)) : ∀ row ∈ rows, row.length ≤ header.length := by
  have parsed : connector.parse builtins = .ok (dictRows (header :: rows)) := by
    rw [parses.parse, if_neg (by simp [csv]), if_pos csv, parseCsv, single]
    simp [read, headed]
  have fetched : ∃ batch, connector.fetch builtins now = .ok batch := by
    cases outcome : connector.fetch builtins now with
    | ok batch => exact ⟨batch, rfl⟩
    | error reason =>
        obtain rfl : reason = validationError := refuses_fetch parsed reason outcome
        exact absurd (refuses _ outcome) not_isConnector_validationError
  intro row member
  by_cases blank : row = []
  · simp [blank]
  · have kept : row ∈ rows.filter (· ≠ []) := List.mem_filter.mpr ⟨member, by simp [blank]⟩
    exact named_dictRow.mp ((exists_fetch parsed).mp fetched _ (List.mem_map_of_mem kept))

/-- The three methods agree exactly on the configurations that can be read. -/
theorem dependable_iff (builtins : Builtins) (now : Timestamp) (config : Dict Json) :
    Dependable builtins now (init builtins config) ↔ Readable builtins (init builtins config) := by
  constructor
  · intro dependable
    exact ⟨fun _ parses json => json_of_refuses dependable.refuses parses json,
      fun _ parses csv => delimiter_of_refuses dependable.refuses parses csv,
      fun _ parses csv headed _ single _ _ read => even_of_refuses dependable.refuses parses csv headed single read⟩
  · exact Readable.dependable

end Agreement

end FileSourceConnector

/-! ## Sync on a file -/

def Builtins.raw (builtins : Builtins) : Json → Raw
  | .null => .null
  | .string text => .text text
  | value => .other (builtins.str value)

def Builtins.record (builtins : Builtins) (fields : List (String × Json)) : Record :=
  Dict.ofList (fields.map fun (name, value) => (name, builtins.raw value))

/-- The registry: the file connector for files, the given ones for everything else. -/
def withFiles (builtins : Builtins) (now : Timestamp) (connectors : Connectors) : Connectors where
  loadCredential := connectors.loadCredential
  build source := if source.connectorType = "file" then .ok ⟨⟩ else connectors.build source
  testConnection source :=
    if source.connectorType = "file" then (FileSourceConnector.init builtins source.config).testConnection builtins now
    else connectors.testConnection source
  fetch source :=
    if source.connectorType = "file" then
      ((FileSourceConnector.init builtins source.config).fetch builtins now).map fun batch =>
        { records := batch.records.map builtins.record, fetchedAt := batch.fetchedAt }
    else connectors.fetch source

/-- The source and its gap both say that it is unavailable. -/
structure OutageRecorded (source : DataSource) (db : DB) : Prop where
  health : (db.dataSource.find? source.id).map (·.health) = some .unavailable
  gap : (sourceUnavailable source.enterpriseId source.id).isOpen db = true

section Sync

variable {builtins : Builtins} {now : Timestamp} {connectors : Connectors} {source : DataSource} {db : DB} {reason : Error}

theorem syncSource_outage {detail : String} (found : db.dataSource.find? source.id = some source)
    (loaded : connectors.loadCredential source = .ok ⟨⟩)
    (failed : connectors.build source >>= (fun _ => connectors.fetch source) = .error (.connector detail))
    (single : ((sourceUnavailable source.enterpriseId source.id).openGaps db).length ≤ 1) :
    ∃ message after, syncSource now connectors source.enterpriseId source.id db = .error (.upstream message) after ∧
      OutageRecorded source after := by
  let marked := { db with
    dataSource := db.dataSource.update source.id fun row =>
      { row with health := .unavailable, lastError := some detail, lastCheckAt := some now } }
  obtain ⟨done, after, opened⟩ : ∃ done after,
      openGap now (sourceUnavailable source.enterpriseId source.id) marked = .ok done after :=
    openGap_returns single
  have recorded : recordOutage now source.enterpriseId source detail db = .ok done after :=
    opened
  refine ⟨"sync failed for data source '" ++ source.name ++ "': " ++ detail, after, ?_, ?_⟩
  · unfold syncSource
    refine (bind_of_ok (ownedSource_of_found found rfl)).trans ?_
    refine (bind_of_ok (lift_eq_ok.mpr ⟨loaded, rfl⟩)).trans ?_
    rw [failed]
    exact (bind_of_ok recorded).trans rfl
  · obtain ⟨isOpen, gaps, rfl⟩ := openGap_ok opened
    refine ⟨?_, isOpen⟩
    rw [Table.find?_update_self, found]
    rfl

/-- Any other exception leaves no trace. -/
theorem syncSource_unrecorded (found : db.dataSource.find? source.id = some source)
    (loaded : connectors.loadCredential source = .ok ⟨⟩)
    (failed : connectors.build source >>= (fun _ => connectors.fetch source) = .error reason)
    (other : ¬ FileSourceConnector.IsConnector reason) :
    syncSource now connectors source.enterpriseId source.id db = .error reason db := by
  unfold syncSource
  refine (bind_of_ok (ownedSource_of_found found rfl)).trans ?_
  refine (bind_of_ok (lift_eq_ok.mpr ⟨loaded, rfl⟩)).trans ?_
  rw [failed]
  cases reason with
  | connector detail => exact absurd ⟨detail, rfl⟩ other
  | _ => rfl

/-- A fetch that fails on a readable file is recorded as an outage. -/
theorem outage_of_readable (isFile : source.connectorType = "file")
    (readable : FileSourceConnector.Readable builtins (.init builtins source.config))
    (found : db.dataSource.find? source.id = some source) (loaded : connectors.loadCredential source = .ok ⟨⟩)
    (failed : (FileSourceConnector.init builtins source.config).fetch builtins now = .error reason)
    (single : ((sourceUnavailable source.enterpriseId source.id).openGaps db).length ≤ 1) :
    ∃ message after, syncSource now (withFiles builtins now connectors) source.enterpriseId source.id db =
      .error (.upstream message) after ∧ OutageRecorded source after := by
  have dependable : FileSourceConnector.Dependable builtins now (.init builtins source.config) := readable.dependable
  obtain ⟨detail, rfl⟩ := dependable.refuses reason failed
  have unavailable : (withFiles builtins now connectors).build source >>=
      (fun _ => (withFiles builtins now connectors).fetch source) =
      .error (.connector detail) := by
    simp only [withFiles, isFile, if_true, failed]
    rfl
  exact syncSource_outage found loaded unavailable single

end Sync

/-! ## A row with a surplus field -/

def shown : Json → String
  | .null => "None"
  | .bool value => if value then "True" else "False"
  | .number text | .string text => text
  | .array _ => "[...]"
  | .object _ => "\x7b...\x7d"

def python : Builtins where
  str := shown
  repr text := "'" ++ text ++ "'"
  isZero text := text = "0"
  float text := (decimal? text).isSome
  strptime text format := format = "%Y-%m-%d" && (yearFirst? '-' text.toList).isSome
  limits := ⟨4300, 900⟩

def uploaded (content : String) : FileSourceConnector :=
  .init python (.ofList [("format", .string "csv"), ("has_header", .bool true), ("content", .string content)])

/-- The rows are counted, but the third line has a field that no column names. -/
theorem surplus_field_not_fetched :
    (uploaded "sku,qty\nA-1,5\nA-2,7,kg\n").testConnection python 0 =
        .ok { health := "available", detail := "2 record(s) parsed", checkedAt := 0 } ∧
      (uploaded "sku,qty\nA-1,5\nA-2,7,kg\n").fetch python 0 = .error validationError ∧
      ¬ FileSourceConnector.Dependable python 0 (uploaded "sku,qty\nA-1,5\nA-2,7,kg\n") := by
  refine ⟨rfl, rfl, fun dependable => ?_⟩
  obtain ⟨⟨batch, fetched⟩, _⟩ := dependable.available _ rfl rfl
  cases (show Except.error validationError = .ok batch from fetched)

end SmartProcurement.Integration.Connectors
