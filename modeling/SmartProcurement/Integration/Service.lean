import SmartProcurement.Integration.SyncSteps

namespace SmartProcurement.Integration

open Relational Transaction Observation

/-! # The data-source service -/

def sourceKinds : List String := ["erp", "mes", "wms", "db", "api", "file", "other"]

def connectorTypes : List String := ["rest", "file", "sql"]

def defaultObservationIntervalSeconds : Int := 900

def secretKeysInConfig : List String := ["credential", "password", "token", "secret", "api_key"]

/-- `f"{names}"` of a tuple of texts. -/
def tupleText (names : List String) : String :=
  "(" ++ String.intercalate ", " (names.map fun name => "'" ++ name ++ "'") ++ ")"

structure NewSource where
  name : String
  kind : String
  connectorType : String
  config : Dict Json
  credential : Dict Json
  createdBy : Option Uuid
  observationIntervalSeconds : Option Int

def checkNewSource (new : NewSource) : Except Error PUnit := do
  if new.kind ∉ sourceKinds then throw (.domainRule ("kind must be one of " ++ tupleText sourceKinds))
  if new.connectorType ∉ connectorTypes then
    throw (.domainRule ("connector_type must be one of " ++ tupleText connectorTypes))

/-- Store the credential, if there is one; `encrypt` is the configured cipher. -/
def putCredential (encrypt : Dict Json → Except Error String) (enterpriseId : Uuid) (new : NewSource) :
    Session (Option Uuid) :=
  if new.credential.entries.isEmpty then return none
  else do
    let ciphertext ← lift (encrypt new.credential)
    let secret : Secret :=
      { id := 0, enterpriseId, purpose := "source_credential", ciphertext, createdBy := new.createdBy }
    let id ← read fun db => db.secret.freshKey
    write fun db => { db with secret := db.secret.insert secret }
    return some id

def newSource (enterpriseId : Uuid) (new : NewSource) (credentialRef : Option Uuid) : DataSource where
  id := 0
  enterpriseId
  name := new.name
  kind := new.kind
  connectorType := new.connectorType
  config := new.config.restrict fun key => key ∉ secretKeysInConfig
  credentialRef
  observationIntervalSeconds :=
    match new.observationIntervalSeconds with
    | none | some 0 => defaultObservationIntervalSeconds
    | some interval => interval
  health := .unavailable
  lastSuccessAt := none
  lastCheckAt := none
  lastError := none

/-- What the driver makes of the columns that a user sets. -/
def bindSource (source : DataSource) : Except Error Unit := do
  bindText "name" source.name
  if !(Json.object (source.config.entries.map fun entry => (entry.1, entry.2))).storable then
    throw (.database (.invalidInput "config"))
  if source.observationIntervalSeconds < -2 ^ 31 ∨ 2 ^ 31 ≤ source.observationIntervalSeconds then
    throw (.database (.invalidInput "observation_interval_seconds"))

def createDataSource (encrypt : Dict Json → Except Error String) (enterpriseId : Uuid) (new : NewSource) :
    Session Uuid := do
  lift (checkNewSource new)
  let credentialRef ← putCredential encrypt enterpriseId new
  lift (bindSource (newSource enterpriseId new credentialRef))
  let id ← read fun db => db.dataSource.freshKey
  write fun db => { db with dataSource := db.dataSource.insert (newSource enterpriseId new credentialRef) }
  return id

def getDataSource (enterpriseId dataSourceId : Uuid) : Session DataSource := do
  match ← ownedSource enterpriseId dataSourceId with
  | none => raise (.notFound "data source not found")
  | some source => return source

structure SourceUpdate where
  name : Option String
  config : Option (Dict Json)
  observationIntervalSeconds : Option Int
  credential : Dict Json
  createdBy : Option Uuid

def SourceUpdate.apply (update : SourceUpdate) (source : DataSource) : DataSource :=
  { source with
    name := update.name.getD source.name
    config :=
      match update.config with
      | none => source.config
      | some config => source.config.update (config.restrict fun key => key ∉ secretKeysInConfig)
    observationIntervalSeconds := update.observationIntervalSeconds.getD source.observationIntervalSeconds }

/-- `DbSecretStore.put`. -/
def putSecret (encrypt : Dict Json → Except Error String) (enterpriseId : Uuid) (credential : Dict Json)
    (createdBy : Option Uuid) : Session Uuid := do
  let ciphertext ← lift (encrypt credential)
  let id ← read fun db => db.secret.freshKey
  write fun db => { db with
    secret := db.secret.insert { id := 0, enterpriseId, purpose := "source_credential", ciphertext, createdBy } }
  return id

/-- The credential of the source after the update: replaced if one is given. -/
def updateCredential (encrypt : Dict Json → Except Error String) (source : DataSource) (update : SourceUpdate) :
    Session (Option Uuid) :=
  if update.credential.entries.isEmpty then return source.credentialRef
  else some <$> putSecret encrypt source.enterpriseId update.credential update.createdBy

def updateDataSource (encrypt : Dict Json → Except Error String) (enterpriseId dataSourceId : Uuid)
    (update : SourceUpdate) : Session DataSource := do
  let source ← getDataSource enterpriseId dataSourceId
  let credentialRef ← updateCredential encrypt source update
  let changed := { update.apply source with credentialRef }
  lift (bindSource changed)
  write fun db => { db with dataSource := db.dataSource.update source.id fun _ => changed }
  return changed

def uploadFileContent (enterpriseId dataSourceId : Uuid) (content : String) : Session DataSource := do
  let source ← getDataSource enterpriseId dataSourceId
  if source.connectorType ≠ "file" then raise (.domainRule "upload is only valid for a 'file' connector")
  else do
    let changed := { source with config := source.config.insert "content" (.string content) }
    lift (bindSource changed)
    write fun db => { db with dataSource := db.dataSource.update source.id fun _ => changed }
    return changed

/-- `_connector`: a connector that cannot be built is an upstream failure. -/
def buildConnector (connectors : Connectors) (source : DataSource) : Except Error PUnit := do
  connectors.loadCredential source
  match connectors.build source with
  | .error (.connector detail) => .error (.upstream detail)
  | built => built

/-- The result of a connection test; a connector error is a failed check. -/
def checkResult (now : Timestamp) (connectors : Connectors) (source : DataSource) :
    Except Error ConnectionCheck :=
  match connectors.testConnection source with
  | .error (.connector detail) => .ok { health := "unavailable", detail, checkedAt := now }
  | answered => answered

def checked (check : ConnectionCheck) (source : DataSource) : DataSource :=
  if check.health = "available" then
    { source with lastCheckAt := some check.checkedAt, health := .available, lastError := none }
  else
    { source with lastCheckAt := some check.checkedAt, health := .unavailable, lastError := some check.detail }

/-- A successful check closes the gap of the source, any other one opens it. -/
def settleGap (now : Timestamp) (key : GapKey) (check : ConnectionCheck) : Session PUnit :=
  if check.health = "available" then closeGap now key else openGap now key

def checkConnection (now : Timestamp) (connectors : Connectors) (enterpriseId dataSourceId : Uuid) :
    Session ConnectionCheck := do
  let source ← getDataSource enterpriseId dataSourceId
  lift (buildConnector connectors source)
  let check ← lift (checkResult now connectors source)
  write fun db => { db with dataSource := db.dataSource.update dataSourceId (checked check) }
  settleGap now (sourceUnavailable enterpriseId dataSourceId) check
  return check

section Results

variable {now : Timestamp} {connectors : Connectors} {enterpriseId dataSourceId : Uuid} {before after : DB}

theorem createDataSource_ok {encrypt : Dict Json → Except Error String} {new : NewSource} {id : Uuid}
    (ran : createDataSource encrypt enterpriseId new before = .ok id after) :
    ∃ secrets credentialRef, after = { before with
      secret := secrets
      dataSource := before.dataSource.insert (newSource enterpriseId new credentialRef) } := by
  simp only [createDataSource, bind_eq_ok, lift_eq_ok, read_eq_ok, write_eq_ok, pure_eq_ok] at ran
  obtain ⟨_, _, ⟨_, rfl⟩, credentialRef, middle, stored, _, _, ⟨_, rfl⟩, _, _, ⟨_, rfl⟩, _, _, rfl, _, rfl⟩ := ran
  have secrets : ∃ secrets, middle = { before with secret := secrets } := by
    unfold putCredential at stored
    split at stored
    · exact ⟨before.secret, (pure_eq_ok.mp stored).2.symm⟩
    · simp only [bind_eq_ok, lift_eq_ok, read_eq_ok, write_eq_ok, pure_eq_ok] at stored
      obtain ⟨_, _, ⟨_, rfl⟩, _, _, ⟨_, rfl⟩, _, _, rfl, _, rfl⟩ := stored
      exact ⟨_, rfl⟩
  obtain ⟨secrets, rfl⟩ := secrets
  exact ⟨secrets, credentialRef, rfl⟩

theorem getDataSource_ok {source : DataSource} (ran : getDataSource enterpriseId dataSourceId before = .ok source after) :
    after = before ∧ before.dataSource.find? dataSourceId = some source ∧ source.enterpriseId = enterpriseId := by
  obtain ⟨found, middle, looked, ran⟩ := bind_eq_ok.mp ran
  obtain ⟨rfl, facts⟩ := ownedSource_ok looked
  cases found with
  | none => simp at ran
  | some row =>
      obtain ⟨rfl, rfl⟩ := pure_eq_ok.mp ran
      exact ⟨rfl, facts row rfl⟩

theorem getDataSource_of_found {source : DataSource} (found : before.dataSource.find? dataSourceId = some source)
    (owned : source.enterpriseId = enterpriseId) : getDataSource enterpriseId dataSourceId before = .ok source before :=
  bind_of_ok (ownedSource_of_found found owned)

theorem getDataSource_of_missing
    (missing : ¬ ∃ source, before.dataSource.find? dataSourceId = some source ∧ source.enterpriseId = enterpriseId) :
    getDataSource enterpriseId dataSourceId before = .error (.notFound "data source not found") before :=
  bind_of_ok (ownedSource_of_missing missing)

/-- A change of a source that leaves its health alone. -/
structure Reconfigured (before after : DB) : Prop where
  gaps : after.observabilityGap = before.observabilityGap
  source : ∃ source changed, source ∈ before.dataSource.rows ∧ changed.id = source.id ∧
    changed.enterpriseId = source.enterpriseId ∧ changed.health = source.health ∧
    after.dataSource = before.dataSource.update source.id fun _ => changed

theorem updateDataSource_ok {encrypt : Dict Json → Except Error String} {update : SourceUpdate} {result : DataSource}
    (ran : updateDataSource encrypt enterpriseId dataSourceId update before = .ok result after) :
    Reconfigured before after := by
  simp only [updateDataSource, bind_eq_ok, lift_eq_ok, write_eq_ok, pure_eq_ok] at ran
  obtain ⟨source, read, got, credentialRef, middle, stored, _, _, ⟨_, rfl⟩, _, _, rfl, _, rfl⟩ := ran
  obtain ⟨rfl, found, _⟩ := getDataSource_ok got
  have secrets : ∃ secrets, middle = { read with secret := secrets } := by
    unfold updateCredential at stored
    split at stored
    · exact ⟨read.secret, (pure_eq_ok.mp stored).2.symm⟩
    · simp only [putSecret, map_eq_ok, bind_eq_ok, lift_eq_ok, read_eq_ok, write_eq_ok, pure_eq_ok] at stored
      obtain ⟨_, ⟨_, _, ⟨_, rfl⟩, _, _, ⟨_, rfl⟩, _, _, rfl, _, rfl⟩, _⟩ := stored
      exact ⟨_, rfl⟩
  obtain ⟨secrets, rfl⟩ := secrets
  exact ⟨rfl, source, { update.apply source with credentialRef }, (Table.find?_some found).1, rfl, rfl, rfl, rfl⟩

theorem uploadFileContent_ok {content : String} {result : DataSource}
    (ran : uploadFileContent enterpriseId dataSourceId content before = .ok result after) :
    Reconfigured before after := by
  obtain ⟨source, _, got, rest⟩ := bind_eq_ok.mp ran
  obtain ⟨rfl, found, _⟩ := getDataSource_ok got
  split at rest
  · simp at rest
  · have ran := rest
    simp only [bind_eq_ok, lift_eq_ok, write_eq_ok, pure_eq_ok] at ran
    obtain ⟨_, _, ⟨_, rfl⟩, _, _, rfl, _, rfl⟩ := ran
    exact ⟨rfl, source, { source with config := source.config.insert "content" (.string content) },
      (Table.find?_some found).1, rfl, rfl, rfl, rfl⟩

theorem settleGap_ok {key : GapKey} {check : ConnectionCheck} {done : PUnit}
    (ran : settleGap now key check before = .ok done after) :
    key.isOpen after = !(decide (check.health = "available")) ∧
      (∃ gaps, after = { before with observabilityGap := gaps }) ∧
      ∀ other : GapKey, other ≠ key → other.isOpen after = true → other.isOpen before = true := by
  unfold settleGap at ran
  by_cases available : check.health = "available"
  · rw [if_pos available] at ran
    obtain ⟨closed, gaps⟩ := closeGap_ok ran
    exact ⟨by simp [closed, available], gaps, fun _ _ isOpen => closeGap_opens_none ran isOpen⟩
  · rw [if_neg available] at ran
    obtain ⟨isOpen, gaps⟩ := openGap_ok ran
    refine ⟨by simp [isOpen, available], gaps, fun other different isOpen => ?_⟩
    rwa [openGap_others ran different] at isOpen

/-- A check writes the health it has found and settles the gap of the source. -/
theorem checkConnection_settled {check : ConnectionCheck}
    (ran : checkConnection now connectors enterpriseId dataSourceId before = .ok check after) :
    ∃ source done, before.dataSource.find? dataSourceId = some source ∧ source.enterpriseId = enterpriseId ∧
      checkResult now connectors source = .ok check ∧
      settleGap now (sourceUnavailable enterpriseId dataSourceId) check
        { before with dataSource := before.dataSource.update dataSourceId (checked check) } = .ok done after := by
  obtain ⟨source, _, got, rest⟩ := bind_eq_ok.mp ran
  obtain ⟨rfl, found, owned⟩ := getDataSource_ok got
  simp only [bind_eq_ok, lift_eq_ok, write_eq_ok, pure_eq_ok] at rest
  obtain ⟨_, _, ⟨_, rfl⟩, answer, _, ⟨answered, rfl⟩, _, _, rfl, done, final, settled, rfl, rfl⟩ := rest
  exact ⟨source, done, found, owned, answered, settled⟩

theorem checkConnection_ok {check : ConnectionCheck}
    (ran : checkConnection now connectors enterpriseId dataSourceId before = .ok check after) :
    ∃ source gaps, before.dataSource.find? dataSourceId = some source ∧
      source.enterpriseId = enterpriseId ∧ checkResult now connectors source = .ok check ∧
      after = { before with
        dataSource := before.dataSource.update dataSourceId (checked check)
        observabilityGap := gaps } ∧
      (sourceUnavailable enterpriseId dataSourceId).isOpen after = !(decide (check.health = "available")) ∧
      ∀ key : GapKey, key ≠ sourceUnavailable enterpriseId dataSourceId → key.isOpen after = true →
        key.isOpen before = true := by
  obtain ⟨source, done, found, owned, answered, settled⟩ := checkConnection_settled ran
  obtain ⟨isOpen, ⟨gaps, same⟩, others⟩ := settleGap_ok settled
  exact ⟨source, gaps, found, owned, answered, same, isOpen, others⟩

end Results

/-! ## A sheet of stock quantities -/

def confirmedMapping (path : String) (entity : Entity) (attr : String) : FieldMapping where
  id := 0
  dataSourceId := 1
  sourceFieldPath := path
  canonicalEntity := entity
  canonicalAttribute := attr
  transform := none
  status := .confirmed
  aiConfidence := none
  confirmedBy := none
  confirmedAt := none

/-- An enterprise that has confirmed how a sheet of stock quantities is read. -/
def mappedStockSheet : DB :=
  { (default : DB) with
    enterprise := [1]
    fieldMapping := ((Table.empty.insert (confirmedMapping "sku" .item "sku")).insert
      (confirmedMapping "sku" .stockLevel "item_sku")).insert (confirmedMapping "qty" .stockLevel "quantity") }

def stockSheet : NewSource where
  name := "sheet"
  kind := "file"
  connectorType := "file"
  config := ∅
  credential := ∅
  createdBy := none
  observationIntervalSeconds := none

/-- ... and has the sheet as its data source. -/
def sheetWithSource : DB :=
  { mappedStockSheet with dataSource := Table.empty.insert (newSource 1 stockSheet none) }

/-- A source that delivers one record and whose connection test fails. -/
def flaky (quantity : String) : Connectors where
  loadCredential _ := .ok ⟨⟩
  build _ := .ok ⟨⟩
  testConnection _ := .error (.connector "timeout")
  fetch _ := .ok {
    records := [Dict.ofList [("sku", .text "bolt"), ("qty", .text quantity)]]
    fetchedAt := 0 }

end SmartProcurement.Integration
