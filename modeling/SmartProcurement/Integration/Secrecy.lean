import SmartProcurement.Integration.DemoMapping
import SmartProcurement.Integration.SyncLockstep
import SmartProcurement.Transaction.Oblivious

namespace SmartProcurement.Integration

open Relational Transaction Observation JsonDecoder JsonEncoder

/-! # Secrecy of credentials

Credentials go in and never come out: what the data-source endpoints reply, and every
table but the ciphertexts, is the same for credentials that the systems outside do not
tell apart.
-/

/-! ## Services that do not read secrets -/

def withSecrets (secrets : Table Secret) (db : DB) : DB := { db with secret := secrets }

/-- The session neither reads nor writes secrets. -/
abbrev Blind {α : Type} (body : Session α) : Prop := ∀ secrets, Oblivious (withSecrets secrets) body

section Blind

variable {now : Timestamp} {connectors : Connectors} {enterpriseId dataSourceId : Uuid}

theorem blind_scalarOrNone {α : Type} {query : DB → List α} (unseen : ∀ secrets db, query (withSecrets secrets db) = query db) :
    Blind (scalarOrNone query) :=
  fun secrets => (oblivious_read (unseen secrets)).bind fun _ => oblivious_lift _

theorem blind_current (key : GapKey) : Blind (current key) := blind_scalarOrNone fun _ _ => rfl

theorem blind_openGap (now : Timestamp) (key : GapKey) : Blind (openGap now key) := by
  refine fun secrets => (blind_current key secrets).bind fun found => ?_
  cases found with
  | none => exact oblivious_write fun _ => rfl
  | some gap => exact oblivious_pure _

theorem blind_closeGap (now : Timestamp) (key : GapKey) : Blind (closeGap now key) := by
  refine fun secrets => (blind_current key secrets).bind fun found => ?_
  cases found with
  | none => exact oblivious_pure _
  | some gap => exact oblivious_write fun _ => rfl

theorem blind_ownedSource (enterpriseId dataSourceId : Uuid) : Blind (ownedSource enterpriseId dataSourceId) :=
  blind_scalarOrNone fun _ _ => rfl

theorem blind_getDataSource (enterpriseId dataSourceId : Uuid) : Blind (getDataSource enterpriseId dataSourceId) := by
  refine fun secrets => (blind_ownedSource enterpriseId dataSourceId secrets).bind fun found => ?_
  cases found with
  | none => exact oblivious_raise _
  | some source => exact oblivious_pure source

theorem blind_uploadFileContent (enterpriseId dataSourceId : Uuid) (content : String) :
    Blind (uploadFileContent enterpriseId dataSourceId content) := by
  refine fun secrets => (blind_getDataSource enterpriseId dataSourceId secrets).bind fun source => ?_
  split
  · exact oblivious_raise _
  · dsimp only
    exact (oblivious_lift _).bind fun _ => Oblivious.bind (oblivious_write fun _ => rfl) fun _ => oblivious_pure _

theorem blind_settleGap (now : Timestamp) (key : GapKey) (check : ConnectionCheck) : Blind (settleGap now key check) := by
  unfold settleGap
  split
  · exact blind_closeGap now key
  · exact blind_openGap now key

theorem blind_checkConnection (now : Timestamp) (connectors : Connectors) (enterpriseId dataSourceId : Uuid) :
    Blind (checkConnection now connectors enterpriseId dataSourceId) := by
  refine fun secrets => (blind_getDataSource enterpriseId dataSourceId secrets).bind fun source => ?_
  refine (oblivious_lift _).bind fun _ => (oblivious_lift _).bind fun check => ?_
  refine Oblivious.bind (oblivious_write fun _ => rfl) fun _ => ?_
  exact (blind_settleGap now _ check secrets).bind fun _ => oblivious_pure check

/-! ### Synchronisation -/

theorem blind_resolveOne (entity : Entity) (attrs : Dict Raw) (acc : Resolution) (reference : Reference) :
    Blind (resolveOne enterpriseId entity attrs acc reference) := by
  intro secrets
  unfold resolveOne
  split
  · exact oblivious_pure acc
  · split
    · exact oblivious_pure acc
    · split
      · exact oblivious_pure acc
      · dsimp only
        split
        · exact oblivious_pure _
        · refine Oblivious.bind ?_ fun found => ?_
          · refine (oblivious_lift _).bind fun _ => ?_
            exact (blind_scalarOrNone (fun _ _ => rfl) secrets).bind fun _ => oblivious_pure _
          · split
            · exact oblivious_pure _
            · split
              · exact oblivious_pure _
              · exact oblivious_pure _

theorem blind_diffSignal (context : SyncContext) (entity : Entity) (existing : Row) (attrs : Dict Value) (resolved : Dict Raw) :
    Blind (diffSignal context entity existing attrs resolved) := by
  intro secrets
  unfold diffSignal
  split
  · exact oblivious_pure none
  · split
    · exact oblivious_pure none
    · refine (oblivious_lift _).bind fun same => ?_
      split
      · exact oblivious_pure none
      · refine Oblivious.bind (oblivious_read fun _ => rfl) fun item => (oblivious_lift _).bind fun itemId => ?_
        refine Oblivious.bind (oblivious_read fun _ => rfl) fun supplier => (oblivious_lift _).bind fun supplierId => ?_
        exact Oblivious.bind (oblivious_write fun _ => rfl) fun _ => oblivious_pure _

theorem blind_upsert (context : SyncContext) (entity : Entity) (resolved : Dict Raw) (provenance : Provenance) :
    Blind (upsert context entity resolved provenance) := by
  intro secrets
  have same (row : Row) (db : DB) : storeRow (withSecrets secrets db) entity row = storeRow db entity row :=
    storeRow_congr rfl rfl row
  refine (oblivious_lift _).bind fun identity => ?_
  refine (blind_scalarOrNone (fun _ _ => rfl) secrets).bind fun existing => ?_
  cases existing with
  | none =>
      refine (oblivious_lift _).bind fun row => Oblivious.bind (oblivious_read fun db => same _ db) fun computed => ?_
      exact (oblivious_lift _).bind fun stored => Oblivious.bind (oblivious_write fun _ => rfl) fun _ => oblivious_pure _
  | some existing =>
      refine (blind_diffSignal context entity existing _ resolved secrets).bind fun signal => ?_
      refine (oblivious_lift _).bind fun changed => Oblivious.bind (oblivious_read fun db => same _ db) fun computed => ?_
      exact (oblivious_lift _).bind fun stored => Oblivious.bind (oblivious_write fun _ => rfl) fun _ => oblivious_pure _

theorem blind_syncRecord (context : SyncContext) (entity : Entity) (mappings : List FieldMapping) (progress : Progress)
    (record : Record) : Blind (syncRecord context entity mappings progress record) := by
  intro secrets
  refine (oblivious_lift _).bind fun attrs => ?_
  split
  · exact oblivious_pure progress
  · refine (Oblivious.foldlM (fun acc reference => blind_resolveOne entity attrs acc reference secrets) _ _).bind fun resolution => ?_
    dsimp only
    split
    · exact oblivious_pure _
    · split
      · exact oblivious_pure _
      · exact (blind_upsert context entity _ _ secrets).bind fun _ => oblivious_pure _

theorem blind_syncBatch (context : SyncContext) (mappings : List FieldMapping) (records : List Record) :
    Blind (syncBatch context mappings records) := by
  refine fun secrets => Oblivious.foldlM (fun progress entity => ?_) _ _
  unfold syncEntity
  split
  · exact oblivious_pure progress
  · exact Oblivious.foldlM (fun progress record => blind_syncRecord context entity _ progress record secrets) _ _

theorem blind_syncSource (now : Timestamp) (connectors : Connectors) (enterpriseId dataSourceId : Uuid) :
    Blind (syncSource now connectors enterpriseId dataSourceId) := by
  refine fun secrets => (blind_ownedSource enterpriseId dataSourceId secrets).bind fun found => ?_
  cases found with
  | none => exact oblivious_raise _
  | some source =>
      refine (oblivious_lift _).bind fun _ => ?_
      split
      · refine Oblivious.bind ?_ fun _ => oblivious_raise _
        exact Oblivious.bind (oblivious_write fun _ => rfl) fun _ => blind_openGap now _ secrets
      · exact oblivious_raise _
      · refine Oblivious.bind (oblivious_read fun _ => rfl) fun mappings => ?_
        refine (blind_syncBatch _ mappings _ secrets).bind fun progress => ?_
        refine Oblivious.bind (Oblivious.bind (oblivious_write fun _ => rfl) fun _ => blind_closeGap now _ secrets) fun _ => ?_
        refine Oblivious.bind ?_ fun _ => oblivious_pure _
        unfold enqueueRecompute
        split
        · exact oblivious_pure _
        · exact oblivious_write fun _ => rfl

/-! ### Suggestions -/

theorem blind_suggestOne (now : Timestamp) (known : List String) (acc : Suggesting) (suggestion : Ai.MappingSuggestion) :
    Blind (suggestOne now dataSourceId known acc suggestion) := by
  intro secrets
  unfold suggestOne
  split
  · exact oblivious_pure acc
  · split
    · exact oblivious_pure acc
    · refine Oblivious.bind ?_ fun _ => oblivious_pure _
      refine (oblivious_lift _).bind fun _ => (oblivious_lift _).bind fun _ => ?_
      refine Oblivious.bind (oblivious_read fun _ => rfl) fun mapping => ?_
      exact Oblivious.bind (oblivious_write fun _ => rfl) fun _ => oblivious_pure mapping

theorem blind_suggestMappingsForSource (now : Timestamp) (provider : Ai.Provider Ai.MappingSuggestionSet)
    (enterpriseId dataSourceId : Uuid) : Blind (suggestMappingsForSource now provider enterpriseId dataSourceId) := by
  refine fun secrets => (blind_getDataSource enterpriseId dataSourceId secrets).bind fun source => ?_
  refine Oblivious.bind (oblivious_read fun _ => rfl) fun fields => ?_
  split
  · exact oblivious_raise _
  · refine Oblivious.bind ?_ fun result => Oblivious.bind (oblivious_read fun _ => rfl) fun seen => ?_
    · refine (oblivious_lift _).bind fun tried => ?_
      cases tried with
      | ok value => exact oblivious_pure value
      | error lastError =>
          refine Oblivious.bind (Oblivious.bind (blind_openGap now _ secrets) fun _ => ?_) fun _ => oblivious_raise _
          exact (oblivious_lift _).bind fun _ => oblivious_write fun _ => rfl
    · refine (Oblivious.foldlM (fun acc suggestion => blind_suggestOne now _ acc suggestion secrets) _ _).bind fun final => ?_
      exact oblivious_pure _

end Blind

/-! ## The endpoints -/

/-- `DataSourceOut`. -/
structure DataSourceOut where
  id : Uuid
  name : String
  kind : String
  connectorType : String
  config : Dict Json
  health : SourceHealth
  observationIntervalSeconds : Int
  hasCredential : Bool
  lastSuccessAt : Option Timestamp
  lastCheckAt : Option Timestamp
  lastError : Option String

/-- `type(value).__name__`. -/
def typeName : Json → String
  | .null => "NoneType"
  | .bool _ => "bool"
  | .number text => if text.toList.any (· ∈ ['.', 'e', 'E', 'N', 'I']) then "float" else "int"
  | .string _ => "str"
  | .array _ => "list"
  | .object _ => "dict"

/-- `len(value)`. -/
def len : Json → Except Error Nat
  | .string text => .ok text.length
  | .array items => .ok items.length
  | .object fields => .ok fields.length
  | value => .error (.typeError ("object of type '" ++ typeName value ++ "' has no len()"))

/-- `_safe_config`: of an uploaded file only the size is shown. -/
def safeConfig (builtins : Connectors.Builtins) (config : Dict Json) : Except Error (Dict Json) :=
  let out := config.restrict (· ≠ "content")
  match config.lookup "content" with
  | none => .ok out
  | some content =>
      if builtins.truthy content then do return out.insert "content_bytes" (.number (toString (← len content)))
      else .ok out

/-- `_ds_out`. -/
def dataSourceOut (builtins : Connectors.Builtins) (source : DataSource) : Except Error DataSourceOut := do
  return {
    id := source.id
    name := source.name
    kind := source.kind
    connectorType := source.connectorType
    config := ← safeConfig builtins source.config
    health := source.health
    observationIntervalSeconds := source.observationIntervalSeconds
    hasCredential := source.credentialRef.isSome
    lastSuccessAt := source.lastSuccessAt
    lastCheckAt := source.lastCheckAt
    lastError := source.lastError }

structure HealthHistory where
  health : SourceHealth
  lastCheckAt : Option Timestamp
  lastSuccessAt : Option Timestamp
  lastError : Option String
  events : List (GapReason × Timestamp × Option Timestamp)

/-- The gaps of the source, the newest first. -/
def sourceGaps (enterpriseId dataSourceId : Uuid) (db : DB) : List ObservabilityGap :=
  (db.observabilityGap.rows.filter fun gap =>
    gap.enterpriseId = enterpriseId ∧ gap.scope = .source ∧ gap.scopeRef = .id dataSourceId).insertionSort
      fun first second => second.openedAt ≤ first.openedAt

def healthHistory (enterpriseId dataSourceId : Uuid) : Session HealthHistory := do
  let source ← getDataSource enterpriseId dataSourceId
  let gaps ← read (sourceGaps enterpriseId source.id)
  return {
    health := source.health
    lastCheckAt := source.lastCheckAt
    lastSuccessAt := source.lastSuccessAt
    lastError := source.lastError
    events := gaps.map fun gap => (gap.reason, gap.openedAt, gap.closedAt) }

/-- A connector, as one call uses it. -/
structure Connector where
  testConnection : Except Error ConnectionCheck
  fetch : Except Error FetchBatch
  describeSchema : Except Error (List Connectors.SourceField)

/-- `build_connector`, with what the systems outside answer to the connector. -/
abbrev BuildConnector := DataSource → Option (Dict Json) → Except Error Connector

section Connecting

variable (vault : Vault) (build : BuildConnector) (db : DB)

/-- The connector is built with the credential that is stored for the source. -/
def connect (source : DataSource) : Except Error Connector := do
  build source (← outcome (loadCredential vault source db))

/-- The outside as a call meets it that starts in `db`: secrets are read before anything
is written. -/
def connectorsOf : Connectors where
  loadCredential source := (outcome (loadCredential vault source db)).map fun _ => ⟨⟩
  build source := (connect vault build db source).map fun _ => ⟨⟩
  testConnection source := do (← connect vault build db source).testConnection
  fetch source := do (← connect vault build db source).fetch

def describeOf : Describe := fun source => do (← connect vault build db source).describeSchema

end Connecting

/-- A request of a data-source endpoint, with what it meets outside of the process, or a
sync of the worker.  A model is asked with the prompt that it gets. -/
inductive ApiCall where
  | list (enterpriseId : Uuid)
  | get (enterpriseId dataSourceId : Uuid)
  | create (entropy : Nat) (enterpriseId : Uuid) (new : NewSource)
  | patch (entropy : Nat) (enterpriseId dataSourceId : Uuid) (update : SourceUpdate)
  | upload (enterpriseId dataSourceId : Uuid) (content : String)
  | test (now : Timestamp) (build : BuildConnector) (enterpriseId dataSourceId : Uuid)
  | introspect (build : BuildConnector) (enterpriseId dataSourceId : Uuid)
  | suggest (now : Timestamp) (model : String → Ai.Provider Ai.MappingSuggestionSet) (enterpriseId dataSourceId : Uuid)
  | history (enterpriseId dataSourceId : Uuid)
  | sync (now : Timestamp) (build : BuildConnector) (enterpriseId dataSourceId : Uuid)

inductive Reply where
  | sources (items : List DataSourceOut)
  | source (out : DataSourceOut)
  | check (check : ConnectionCheck)
  | fields (fields : List Connectors.SourceField)
  | mappings (created : List FieldMapping)
  | history (history : HealthHistory)
  | synced (result : SyncResult)

/-- A failure of the model is committed with its gap and its audit record. -/
def committedFailure : Error → IntrospectionSession (Except Error Reply)
  | .llmUnavailable message => return .error (.upstream ("AI mapping suggestion unavailable: " ++ message))
  | reason => raise reason

/-- What an endpoint does in its transaction.  The row is put into the reply after the
commit, so that an error there leaves the writes. -/
def ApiCall.endpoint (builtins : Connectors.Builtins) (vault : Vault) : ApiCall → IntrospectionSession (Except Error Reply)
  | .list enterpriseId => read fun state =>
      Reply.sources <$> (state.db.dataSource.rows.reverse.filter (·.enterpriseId = enterpriseId)).mapM (dataSourceOut builtins)
  | .get enterpriseId dataSourceId => do
      let source ← onDb (getDataSource enterpriseId dataSourceId)
      return Reply.source <$> dataSourceOut builtins source
  | .create entropy enterpriseId new => do
      let id ← onDb (createDataSource (vault.encrypt entropy) enterpriseId new)
      let row ← onDb (getDataSource enterpriseId id)
      return Reply.source <$> dataSourceOut builtins row
  | .patch entropy enterpriseId dataSourceId update => do
      let source ← onDb (updateDataSource (vault.encrypt entropy) enterpriseId dataSourceId update)
      return Reply.source <$> dataSourceOut builtins source
  | .upload enterpriseId dataSourceId content => do
      let source ← onDb (uploadFileContent enterpriseId dataSourceId content)
      return Reply.source <$> dataSourceOut builtins source
  | .test now build enterpriseId dataSourceId => do
      let connectors ← read fun state => connectorsOf vault build state.db
      return .ok (.check (← onDb (checkConnection now connectors enterpriseId dataSourceId)))
  | .introspect build enterpriseId dataSourceId => do
      let (connectors, describe) ← read fun state => (connectorsOf vault build state.db, describeOf vault build state.db)
      return .ok (.fields (← describeAndStore connectors describe enterpriseId dataSourceId))
  | .suggest now model enterpriseId dataSourceId =>
      handle (do
        let prompt ← read fun state => buildPrompt (catalogue dataSourceId state)
        return .ok (.mappings (← onDb (suggestMappingsForSource now (model prompt) enterpriseId dataSourceId))))
        committedFailure
  | .history enterpriseId dataSourceId => do
      return .ok (.history (← onDb (healthHistory enterpriseId dataSourceId)))
  | .sync now build enterpriseId dataSourceId => do
      let connectors ← read fun state => connectorsOf vault build state.db
      return .ok (.synced (← onDb (syncSource now connectors enterpriseId dataSourceId)))

def hide (secrets : Table Secret) (state : Introspected) : Introspected :=
  { state with db := withSecrets secrets state.db }

section Introspections

variable {connectors : Connectors} {enterpriseId dataSourceId : Uuid}

theorem oblivious_onDb {α : Type} {body : Session α} (blind : Blind body) (secrets : Table Secret) :
    Oblivious (hide secrets) (onDb body) := by
  intro state
  have hidden := blind secrets state.db
  unfold onDb
  rw [hide, hidden]
  cases body state.db with
  | ok value after => rfl
  | error reason after => rfl

theorem oblivious_addField (path : String) (secrets : Table Secret) : Oblivious (hide secrets) (addField dataSourceId path) := by
  refine Oblivious.bind (oblivious_read fun _ => rfl) fun paths => ?_
  split
  · exact oblivious_raise _
  · split
    · exact oblivious_raise _
    · refine Oblivious.bind (oblivious_read fun _ => rfl) fun id => ?_
      exact Oblivious.bind (oblivious_write fun _ => rfl) fun _ => oblivious_pure id

theorem oblivious_storeField (existing : List (String × SourceField)) (field : Connectors.SourceField) (secrets : Table Secret) :
    Oblivious (hide secrets) (storeField dataSourceId existing field) := by
  unfold storeField
  split
  · exact (oblivious_pure _).bind fun id => Oblivious.bind (oblivious_write fun _ => rfl) fun _ => oblivious_pure _
  · exact (oblivious_addField field.path secrets).bind fun id =>
      Oblivious.bind (oblivious_write fun _ => rfl) fun _ => oblivious_pure _

theorem oblivious_describeAndStore (describe : Describe) (secrets : Table Secret) :
    Oblivious (hide secrets) (describeAndStore connectors describe enterpriseId dataSourceId) := by
  refine (oblivious_onDb (blind_getDataSource enterpriseId dataSourceId) secrets).bind fun source => ?_
  refine (oblivious_lift _).bind fun discovered => Oblivious.bind (oblivious_read fun _ => rfl) fun existing => ?_
  refine Oblivious.bind ?_ fun rows => Oblivious.bind (oblivious_read fun _ => rfl) fun out => ?_
  · refine Oblivious.foldlM (fun rows field => ?_) _ _
    exact (oblivious_storeField existing field secrets).bind fun entry => oblivious_pure _
  · split
    · exact oblivious_pure out
    · exact oblivious_raise _

theorem blind_healthHistory (enterpriseId dataSourceId : Uuid) : Blind (healthHistory enterpriseId dataSourceId) := by
  refine fun secrets => (blind_getDataSource enterpriseId dataSourceId secrets).bind fun source => ?_
  exact Oblivious.bind (oblivious_read fun _ => rfl) fun gaps => oblivious_pure _

end Introspections

/-! ## Two deployments -/

/-- What `load_credential` makes of a ciphertext. -/
def Vault.opens (vault : Vault) (ciphertext : String) : Except Error (Option (Dict Json)) := do
  match (← vault.cipher).decrypt ciphertext with
  | none => .error (.other "InvalidToken")
  | some raw =>
      match loads vault.limits raw with
      | .error reason => .error (unhandled raw reason)
      | .ok (.object fields) => .ok (some (credentialOf fields))
      | .ok _ => .ok none

def Vault.Reads (vault : Vault) (credential : Dict Json) : Prop :=
  Fits vault.limits.digits vault.limits.levels (.object (credentialFields credential))

/-- Two configurations of the cipher, and which credentials of the first one stand for
which of the second one. -/
structure Deployments where
  vault : Vault
  other : Vault
  configured : vault.fernet.isSome = other.fernet.isSome
  sound : ∀ fernet ∈ vault.fernet, fernet.Sound
  otherSound : ∀ fernet ∈ other.fernet, fernet.Sound
  alike : Dict Json → Dict Json → Prop

def erased (secret : Secret) : Secret := { secret with ciphertext := "" }

/-- The same secret but for its ciphertext, of which each deployment reads a credential
that stands for the one that the other reads. -/
structure Deployments.Counterparts (deployments : Deployments) (secret mate : Secret) : Prop where
  same : erased secret = erased mate
  read : ∃ credential counterpart, deployments.vault.opens secret.ciphertext = .ok credential ∧
    deployments.other.opens mate.ciphertext = .ok counterpart ∧ Option.Rel deployments.alike credential counterpart

def Deployments.SameSecrets (deployments : Deployments) (secrets others : Table Secret) : Prop :=
  List.Forall₂ deployments.Counterparts secrets.rows others.rows

/-- The databases differ in the ciphertexts at most. -/
abbrev Deployments.SameButCiphertexts (deployments : Deployments) : Introspected → Introspected → Prop :=
  DiffersIn hide (·.db.secret) deployments.SameSecrets

/-- What is built for a credential answers as what is built for its counterpart. -/
def Deployments.AnswersAlike (deployments : Deployments) (build counterpart : BuildConnector) : Prop :=
  ∀ source credential mate, Option.Rel deployments.alike credential mate → build source credential = counterpart source mate

/-- Neither request gives a credential, or both do, which can be read back. -/
inductive Deployments.GivenAlike (deployments : Deployments) : Dict Json → Dict Json → Prop where
  | neither {credential mate : Dict Json} (empty : credential.entries.isEmpty = true) (mateEmpty : mate.entries.isEmpty = true) :
      GivenAlike deployments credential mate
  | both {credential mate : Dict Json} (filled : credential.entries.isEmpty = false) (mateFilled : mate.entries.isEmpty = false)
      (alike : deployments.alike credential mate) (reads : deployments.vault.Reads credential)
      (mateReads : deployments.other.Reads mate) : GivenAlike deployments credential mate

/-- The rest of the request. -/
def NewSource.redact (new : NewSource) : NewSource :=
  { new with config := new.config.restrict fun key => key ∉ secretKeysInConfig, credential := ∅ }

def SourceUpdate.redact (update : SourceUpdate) : SourceUpdate :=
  { update with
    config := update.config.map fun config => config.restrict fun key => key ∉ secretKeysInConfig
    credential := ∅ }

/-- The requests differ in the credentials that they give, and the systems outside in what
they are given. -/
inductive Deployments.Match (deployments : Deployments) : ApiCall → ApiCall → Prop where
  | list (enterpriseId : Uuid) : Match deployments (.list enterpriseId) (.list enterpriseId)
  | get (enterpriseId dataSourceId : Uuid) : Match deployments (.get enterpriseId dataSourceId) (.get enterpriseId dataSourceId)
  | create (entropy counterpart : Nat) (enterpriseId : Uuid) {new mate : NewSource} (same : new.redact = mate.redact)
      (given : deployments.GivenAlike new.credential mate.credential) :
      Match deployments (.create entropy enterpriseId new) (.create counterpart enterpriseId mate)
  | patch (entropy counterpart : Nat) (enterpriseId dataSourceId : Uuid) {update mate : SourceUpdate}
      (same : update.redact = mate.redact) (given : deployments.GivenAlike update.credential mate.credential) :
      Match deployments (.patch entropy enterpriseId dataSourceId update) (.patch counterpart enterpriseId dataSourceId mate)
  | upload (enterpriseId dataSourceId : Uuid) (content : String) :
      Match deployments (.upload enterpriseId dataSourceId content) (.upload enterpriseId dataSourceId content)
  | test (now : Timestamp) (enterpriseId dataSourceId : Uuid) {build counterpart : BuildConnector}
      (answers : deployments.AnswersAlike build counterpart) :
      Match deployments (.test now build enterpriseId dataSourceId) (.test now counterpart enterpriseId dataSourceId)
  | introspect (enterpriseId dataSourceId : Uuid) {build counterpart : BuildConnector}
      (answers : deployments.AnswersAlike build counterpart) :
      Match deployments (.introspect build enterpriseId dataSourceId) (.introspect counterpart enterpriseId dataSourceId)
  | suggest (now : Timestamp) (model : String → Ai.Provider Ai.MappingSuggestionSet) (enterpriseId dataSourceId : Uuid) :
      Match deployments (.suggest now model enterpriseId dataSourceId) (.suggest now model enterpriseId dataSourceId)
  | history (enterpriseId dataSourceId : Uuid) :
      Match deployments (.history enterpriseId dataSourceId) (.history enterpriseId dataSourceId)
  | sync (now : Timestamp) (enterpriseId dataSourceId : Uuid) {build counterpart : BuildConnector}
      (answers : deployments.AnswersAlike build counterpart) :
      Match deployments (.sync now build enterpriseId dataSourceId) (.sync now counterpart enterpriseId dataSourceId)

/-! ## What the deployments read -/

section Opening

variable {deployments : Deployments} {secrets others : Table Secret} {db mate : DB} {build counterpart : BuildConnector}

theorem opens_encrypt {vault : Vault} {fernet : Fernet} {credential : Dict Json} (configured : vault.fernet = some fernet)
    (sound : ∀ fernet ∈ vault.fernet, fernet.Sound) (reads : vault.Reads credential) (entropy : Nat) :
    vault.opens (fernet.encrypt entropy (dumps (.object (credentialFields credential)))) = .ok (some credential) := by
  have ciphered : vault.cipher = .ok fernet := by rw [Vault.cipher, configured]
  simp only [Vault.opens, ciphered, bind, Except.bind]
  rw [sound fernet configured]
  dsimp only
  rw [loads_dumps reads]
  dsimp only
  rw [credentialOf_credentialFields]

/-- Loading reads the secret that the source refers to. -/
theorem outcome_loadCredential (vault : Vault) (source : DataSource) (db : DB) :
    outcome (loadCredential vault source db) =
      match source.credentialRef with
      | none => .ok none
      | some credentialRef =>
          match db.secret.find? credentialRef with
          | none => .error (.notFound "secret not found")
          | some secret => vault.opens secret.ciphertext := by
  unfold loadCredential
  cases source.credentialRef with
  | none => rfl
  | some credentialRef =>
      refine (outcome_bind (getSecret_eq vault credentialRef db)).trans ?_
      dsimp only
      cases db.secret.find? credentialRef with
      | none => rfl
      | some secret =>
          unfold Vault.opens
          cases vault.cipher with
          | error reason => rfl
          | ok fernet =>
              dsimp only [bind, Except.bind]
              cases fernet.decrypt secret.ciphertext with
              | none => rfl
              | some raw =>
                  dsimp only
                  cases loads vault.limits raw with
                  | error reason => rfl
                  | ok value => cases value <;> rfl

theorem Deployments.Counterparts.key {secret mate : Secret} (counterparts : deployments.Counterparts secret mate) :
    Keyed.key secret = Keyed.key mate := by
  have id : (erased secret).id = (erased mate).id := congrArg Secret.id counterparts.same
  exact id

theorem Deployments.SameSecrets.freshKey (same : deployments.SameSecrets secrets others) : others.freshKey = secrets.freshKey := by
  have keys : secrets.rows.map Keyed.key = others.rows.map Keyed.key := by
    unfold Deployments.SameSecrets at same
    generalize secrets.rows = rows, others.rows = mates at same
    induction same with
    | nil => rfl
    | cons first _ ih => exact congrArg₂ List.cons first.key ih
  unfold Table.freshKey
  exact congrArg (fun keys : List Nat => keys.foldr max 0 + 1) keys.symm

theorem Deployments.SameSecrets.find? (same : deployments.SameSecrets secrets others) (id : Uuid) :
    Option.Rel deployments.Counterparts (secrets.find? id) (others.find? id) := by
  unfold Deployments.SameSecrets at same
  unfold Table.find?
  generalize secrets.rows = rows, others.rows = mates at same
  induction same with
  | nil => exact .none
  | @cons secret mate _ _ first _ ih =>
      rw [List.find?_cons, List.find?_cons, first.key]
      split
      · exact .some first
      · exact ih

/-- Both load credentials that stand for each other, or none, or fail in the same way. -/
theorem loaded_alike (same : deployments.SameSecrets db.secret mate.secret) (source : DataSource) :
    (∃ credential counterpart, outcome (loadCredential deployments.vault source db) = .ok credential ∧
      outcome (loadCredential deployments.other source mate) = .ok counterpart ∧
        Option.Rel deployments.alike credential counterpart) ∨
    ∃ reason, outcome (loadCredential deployments.vault source db) = .error reason ∧
      outcome (loadCredential deployments.other source mate) = .error reason := by
  rw [outcome_loadCredential, outcome_loadCredential]
  cases source.credentialRef with
  | none => exact .inl ⟨none, none, rfl, rfl, .none⟩
  | some credentialRef =>
      dsimp only
      have found := same.find? credentialRef
      generalize db.secret.find? credentialRef = secret, mate.secret.find? credentialRef = counterpart at found
      cases found with
      | none => exact .inr ⟨_, rfl, rfl⟩
      | some counterparts => exact .inl counterparts.read

/-- The two deployments meet the same outside. -/
theorem connect_alike (same : deployments.SameSecrets db.secret mate.secret) (answers : deployments.AnswersAlike build counterpart) :
    connect deployments.other counterpart mate = connect deployments.vault build db := by
  funext source
  unfold connect
  rcases loaded_alike same source with ⟨credential, other, loads, mateLoads, alike⟩ | ⟨reason, fails, mateFails⟩
  · rw [loads, mateLoads]
    exact (answers source credential other alike).symm
  · rw [fails, mateFails]
    rfl

theorem connectorsOf_alike (same : deployments.SameSecrets db.secret mate.secret)
    (answers : deployments.AnswersAlike build counterpart) :
    connectorsOf deployments.other counterpart mate = connectorsOf deployments.vault build db := by
  have loads (source : DataSource) : (outcome (loadCredential deployments.other source mate)).map (fun _ => PUnit.unit) =
      (outcome (loadCredential deployments.vault source db)).map fun _ => PUnit.unit := by
    rcases loaded_alike same source with ⟨_, _, loads, mateLoads, _⟩ | ⟨_, fails, mateFails⟩
    · rw [loads, mateLoads]
      rfl
    · rw [fails, mateFails]
  unfold connectorsOf
  rw [connect_alike same answers]
  congr 1
  exact funext loads

end Opening

/-! ## Services of the two deployments -/

section Same

variable {deployments : Deployments} {secrets others : Table Secret}

theorem Deployments.SameSecrets.insert (same : deployments.SameSecrets secrets others) (enterpriseId : Uuid) (purpose : String)
    (createdBy : Option Uuid) {ciphertext counterpart : String} {credential mate : Option (Dict Json)}
    (opens : deployments.vault.opens ciphertext = .ok credential) (mateOpens : deployments.other.opens counterpart = .ok mate)
    (alike : Option.Rel deployments.alike credential mate) :
    deployments.SameSecrets (secrets.insert { id := 0, enterpriseId, purpose, ciphertext, createdBy })
      (others.insert { id := 0, enterpriseId, purpose, ciphertext := counterpart, createdBy }) := by
  unfold Deployments.SameSecrets
  rw [Table.insert_rows, Table.insert_rows]
  refine List.rel_append same (.cons ⟨?_, _, _, opens, mateOpens, alike⟩ .nil)
  change erased ⟨secrets.freshKey, enterpriseId, purpose, ciphertext, createdBy⟩ =
    erased ⟨others.freshKey, enterpriseId, purpose, counterpart, createdBy⟩
  rw [same.freshKey]
  rfl

/-- What concurs on the databases concurs in the session of an introspection. -/
theorem concurs_onDb {α : Type} {left right : Session α}
    (concurs : Concurs (DiffersIn withSecrets DB.secret deployments.SameSecrets) left right) :
    Concurs deployments.SameButCiphertexts (onDb left) (onDb right) := by
  intro state other same
  obtain ⟨rest, secrets⟩ := same
  have databases : DiffersIn withSecrets DB.secret deployments.SameSecrets state.db other.db := by
    refine ⟨?_, secrets⟩
    rw [rest]
    rfl
  have details : other.details = state.details := by
    rw [rest]
    rfl
  have ran := concurs state.db other.db databases
  have moved {after later : DB} (differs : DiffersIn withSecrets DB.secret deployments.SameSecrets after later) :
      deployments.SameButCiphertexts { state with db := after } { other with db := later } := by
    obtain ⟨laterRest, laterSecrets⟩ := differs
    refine ⟨?_, laterSecrets⟩
    rw [details]
    exact congrArg (fun db => (⟨db, state.details⟩ : Introspected)) laterRest
  unfold onDb
  generalize left state.db = ended, right other.db = finished at ran
  cases ran with
  | ok differs => exact .ok (moved differs)
  | error differs => exact .error (moved differs)

theorem concurs_hidden {α : Type} {body : IntrospectionSession α} (oblivious : ∀ secrets, Oblivious (hide secrets) body) :
    Concurs deployments.SameButCiphertexts body body :=
  Oblivious.concurs (fun _ => rfl) (fun _ _ => rfl) oblivious

theorem concurs_blind {α : Type} {body : Session α} (blind : Blind body) :
    Concurs deployments.SameButCiphertexts (onDb body) (onDb body) :=
  concurs_hidden (oblivious_onDb blind)

/-- A row for the ciphertext. -/
def putCiphertext (enterpriseId : Uuid) (createdBy : Option Uuid) (ciphertext : String) : Session Uuid := do
  let id ← read fun db => db.secret.freshKey
  write fun db => { db with
    secret := db.secret.insert { id := 0, enterpriseId, purpose := "source_credential", ciphertext, createdBy } }
  return id

theorem putSecret_eq (encrypt : Dict Json → Except Error String) (enterpriseId : Uuid) (credential : Dict Json)
    (createdBy : Option Uuid) : putSecret encrypt enterpriseId credential createdBy =
      lift (encrypt credential) >>= putCiphertext enterpriseId createdBy := rfl

theorem concurs_putCiphertext (enterpriseId : Uuid) (createdBy : Option Uuid) {ciphertext counterpart : String}
    {credential mate : Option (Dict Json)} (opens : deployments.vault.opens ciphertext = .ok credential)
    (mateOpens : deployments.other.opens counterpart = .ok mate) (alike : Option.Rel deployments.alike credential mate) :
    Concurs (DiffersIn withSecrets DB.secret deployments.SameSecrets) (putCiphertext enterpriseId createdBy ciphertext)
      (putCiphertext enterpriseId createdBy counterpart) := by
  refine Concurs.bind (concurs_read fun _ _ same => same.2.freshKey) fun id => ?_
  refine Concurs.bind (concurs_write fun before later same => ?_) fun _ => concurs_pure id
  obtain ⟨rest, secrets⟩ := same
  refine ⟨?_, secrets.insert _ _ _ opens mateOpens alike⟩
  rw [rest]
  rfl

/-- Whatever is encrypted with whichever key: a row of the same number is stored, or
neither deployment has a key. -/
theorem concurs_putSecret (entropy counterpart : Nat) (enterpriseId : Uuid) {credential mate : Dict Json}
    (createdBy : Option Uuid) (alike : deployments.alike credential mate) (reads : deployments.vault.Reads credential)
    (mateReads : deployments.other.Reads mate) :
    Concurs (DiffersIn withSecrets DB.secret deployments.SameSecrets)
      (putSecret (deployments.vault.encrypt entropy) enterpriseId credential createdBy)
      (putSecret (deployments.other.encrypt counterpart) enterpriseId mate createdBy) := by
  rw [putSecret_eq, putSecret_eq]
  unfold Vault.encrypt Vault.cipher
  have configured := deployments.configured
  cases key : deployments.vault.fernet with
  | none =>
      cases otherKey : deployments.other.fernet with
      | none => exact concurs_raise _
      | some _ => simp [key, otherKey] at configured
  | some fernet =>
      cases otherKey : deployments.other.fernet with
      | none => simp [key, otherKey] at configured
      | some cipher =>
          exact concurs_putCiphertext enterpriseId createdBy (opens_encrypt key deployments.sound reads entropy)
            (opens_encrypt otherKey deployments.otherSound mateReads counterpart) (.some alike)

theorem putCredential_eq (encrypt : Dict Json → Except Error String) (enterpriseId : Uuid) (new : NewSource) :
    putCredential encrypt enterpriseId new =
      if new.credential.entries.isEmpty then return none
      else some <$> putSecret encrypt enterpriseId new.credential new.createdBy := by
  unfold putCredential
  split
  · rfl
  · rw [putSecret_eq]
    generalize encrypt new.credential = encrypted
    cases encrypted with
    | ok ciphertext => rfl
    | error reason => rfl

theorem concurs_putCredential (entropy counterpart : Nat) (enterpriseId : Uuid) {new mate : NewSource}
    (createdBy : mate.createdBy = new.createdBy) (given : deployments.GivenAlike new.credential mate.credential) :
    Concurs (DiffersIn withSecrets DB.secret deployments.SameSecrets)
      (putCredential (deployments.vault.encrypt entropy) enterpriseId new)
      (putCredential (deployments.other.encrypt counterpart) enterpriseId mate) := by
  rw [putCredential_eq, putCredential_eq, createdBy]
  cases given with
  | neither empty mateEmpty =>
      rw [if_pos empty, if_pos mateEmpty]
      exact concurs_pure none
  | both filled mateFilled alike reads mateReads =>
      rw [if_neg (by simp [filled]), if_neg (by simp [mateFilled])]
      exact (concurs_putSecret entropy counterpart enterpriseId _ alike reads mateReads).bind fun id => concurs_pure (some id)

theorem restrict_restrict (config : Dict Json) (kept : String → Prop) [DecidablePred kept] :
    (config.restrict kept).restrict kept = config.restrict kept := by
  apply AList.ext
  unfold Dict.restrict Dict.filterMap
  dsimp only
  rw [List.filterMap_filterMap]
  apply List.filterMap_congr
  intro entry _
  by_cases keeps : kept entry.1 <;> simp [keeps]

theorem newSource_redact (enterpriseId : Uuid) (new : NewSource) (ref : Option Uuid) :
    newSource enterpriseId new.redact ref = newSource enterpriseId new ref := by
  unfold newSource NewSource.redact
  dsimp only
  congr 1
  exact restrict_restrict new.config _

theorem concurs_createDataSource (entropy counterpart : Nat) (enterpriseId : Uuid) {new mate : NewSource}
    (same : new.redact = mate.redact) (given : deployments.GivenAlike new.credential mate.credential) :
    Concurs (DiffersIn withSecrets DB.secret deployments.SameSecrets)
      (createDataSource (deployments.vault.encrypt entropy) enterpriseId new)
      (createDataSource (deployments.other.encrypt counterpart) enterpriseId mate) := by
  have checks : checkNewSource mate = checkNewSource new := by
    change checkNewSource mate.redact = checkNewSource new.redact
    rw [same]
  have creator : mate.createdBy = new.createdBy := (congrArg NewSource.createdBy same).symm
  unfold createDataSource
  rw [checks]
  refine (concurs_lift _).bind fun _ => (concurs_putCredential entropy counterpart enterpriseId creator given).bind fun ref => ?_
  rw [← newSource_redact enterpriseId mate, ← newSource_redact enterpriseId new, same]
  refine Oblivious.concurs (fun _ => rfl) (fun _ _ => rfl) fun secrets => (oblivious_lift _).bind fun _ => ?_
  refine Oblivious.bind (oblivious_read fun _ => rfl) fun id => ?_
  exact Oblivious.bind (oblivious_write fun _ => rfl) fun _ => oblivious_pure id

theorem SourceUpdate.apply_redact (update : SourceUpdate) (source : DataSource) :
    update.redact.apply source = update.apply source := by
  unfold SourceUpdate.apply SourceUpdate.redact
  cases update.config with
  | none => rfl
  | some config =>
      dsimp only [Option.map_some]
      congr 2
      exact restrict_restrict config _

theorem concurs_updateDataSource (entropy counterpart : Nat) (enterpriseId dataSourceId : Uuid) {update mate : SourceUpdate}
    (same : update.redact = mate.redact) (given : deployments.GivenAlike update.credential mate.credential) :
    Concurs (DiffersIn withSecrets DB.secret deployments.SameSecrets)
      (updateDataSource (deployments.vault.encrypt entropy) enterpriseId dataSourceId update)
      (updateDataSource (deployments.other.encrypt counterpart) enterpriseId dataSourceId mate) := by
  have found : Concurs (DiffersIn withSecrets DB.secret deployments.SameSecrets) (getDataSource enterpriseId dataSourceId)
      (getDataSource enterpriseId dataSourceId) :=
    Oblivious.concurs (fun _ => rfl) (fun _ _ => rfl) (blind_getDataSource enterpriseId dataSourceId)
  have creator : mate.createdBy = update.createdBy := (congrArg SourceUpdate.createdBy same).symm
  refine found.bind fun source => Concurs.bind ?_ fun ref => ?_
  · unfold updateCredential
    rw [creator]
    cases given with
    | neither empty mateEmpty =>
        rw [if_pos empty, if_pos mateEmpty]
        exact concurs_pure _
    | both filled mateFilled alike reads mateReads =>
        rw [if_neg (by simp [filled]), if_neg (by simp [mateFilled])]
        exact (concurs_putSecret entropy counterpart source.enterpriseId _ alike reads mateReads).bind fun id =>
          concurs_pure (some id)
  · rw [← update.apply_redact, ← mate.apply_redact, same]
    refine Oblivious.concurs (fun _ => rfl) (fun _ _ => rfl) fun secrets => (oblivious_lift _).bind fun _ => ?_
    exact Oblivious.bind (oblivious_write fun _ => rfl) fun _ => oblivious_pure _

end Same

/-! ## Requests -/

section Requests

variable (builtins : Connectors.Builtins) {deployments : Deployments} {state twin : Introspected}

/-- Requests that match take the same course in both deployments. -/
theorem Deployments.Match.concurs {call counterpart : ApiCall} (matching : deployments.Match call counterpart) :
    Concurs deployments.SameButCiphertexts (call.endpoint builtins deployments.vault)
      (counterpart.endpoint builtins deployments.other) := by
  cases matching with
  | list enterpriseId => exact concurs_hidden fun secrets => oblivious_read fun _ => rfl
  | get enterpriseId dataSourceId =>
      exact (concurs_blind (blind_getDataSource enterpriseId dataSourceId)).bind fun source => concurs_pure _
  | create entropy counterpart enterpriseId same given =>
      refine (concurs_onDb (concurs_createDataSource entropy counterpart enterpriseId same given)).bind fun id => ?_
      exact (concurs_blind (blind_getDataSource enterpriseId id)).bind fun row => concurs_pure _
  | patch entropy counterpart enterpriseId dataSourceId same given =>
      exact (concurs_onDb (concurs_updateDataSource entropy counterpart enterpriseId dataSourceId same given)).bind
        fun source => concurs_pure _
  | upload enterpriseId dataSourceId content =>
      exact (concurs_blind (blind_uploadFileContent enterpriseId dataSourceId content)).bind fun source => concurs_pure _
  | test now enterpriseId dataSourceId answers =>
      refine (concurs_read fun _ _ same => connectorsOf_alike same.2 answers).bind fun connectors => ?_
      exact (concurs_blind (blind_checkConnection now connectors enterpriseId dataSourceId)).bind fun check => concurs_pure _
  | introspect enterpriseId dataSourceId answers =>
      refine Concurs.bind (concurs_read fun _ _ same => ?_) fun outside => ?_
      · unfold describeOf
        rw [connectorsOf_alike same.2 answers, connect_alike same.2 answers]
      · exact (concurs_hidden (oblivious_describeAndStore outside.2)).bind fun fields => concurs_pure _
  | suggest now model enterpriseId dataSourceId =>
      refine Concurs.handle ?_ fun reason => ?_
      · refine (concurs_hidden fun secrets => oblivious_read fun _ => rfl).bind fun prompt => ?_
        exact (concurs_blind (blind_suggestMappingsForSource now (model prompt) enterpriseId dataSourceId)).bind
          fun created => concurs_pure _
      · unfold committedFailure
        split
        · exact concurs_pure _
        · exact concurs_raise _
  | history enterpriseId dataSourceId =>
      exact (concurs_blind (blind_healthHistory enterpriseId dataSourceId)).bind fun history => concurs_pure _
  | sync now enterpriseId dataSourceId answers =>
      refine (concurs_read fun _ _ same => connectorsOf_alike same.2 answers).bind fun connectors => ?_
      exact (concurs_blind (blind_syncSource now connectors enterpriseId dataSourceId)).bind fun result => concurs_pure _

end Requests

/-- A service that lets bearers of its tokens in. -/
def guarded (tokens : List String) : BuildConnector := fun _ credential =>
  match credential.bind (·.lookup "token") with
  | some (.string token) =>
      if token ∈ tokens then .ok ⟨.ok ⟨"available", "200", 5⟩, .error (.connector "no records"), .ok []⟩
      else .error (.connector "401")
  | _ => .error (.connector "401")

end SmartProcurement.Integration
