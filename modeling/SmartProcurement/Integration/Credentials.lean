import SmartProcurement.Core.JsonEncoder
import SmartProcurement.Integration.SourceHealth
import SmartProcurement.Transaction.Achieves

namespace SmartProcurement.Integration

open Relational Transaction JsonDecoder JsonEncoder

/-! # Credentials of data sources

A credential is stored as an encrypted text of its own, and the source refers to it.
What a connector is built with is the credential that the callers have last given the
source, whatever else was called in between.
-/

/-! ## The secret store -/

/-- `Fernet(key)`; every encryption draws its own initialization vector. -/
structure Fernet where
  encrypt : (entropy : Nat) → (plaintext : String) → String
  /-- Nothing for an `InvalidToken`. -/
  decrypt : String → Option String

/-- What was encrypted with the key decrypts. -/
def Fernet.Sound (fernet : Fernet) : Prop :=
  ∀ entropy plaintext, fernet.decrypt (fernet.encrypt entropy plaintext) = some plaintext

/-- The settings that credentials depend on; without a key there is no cipher. -/
structure Vault where
  fernet : Option Fernet
  limits : Limits

/-- `_fernet`. -/
def Vault.cipher (vault : Vault) : Except Error Fernet :=
  match vault.fernet with
  | none => .error (.other "FERNET_KEY is not configured")
  | some fernet => .ok fernet

def credentialFields (dict : Dict Json) : List (String × Json) := dict.entries.map fun entry => (entry.1, entry.2)

def credentialOf (fields : List (String × Json)) : Dict Json :=
  (fields.map fun field => (⟨field.1, field.2⟩ : Sigma fun _ : String => Json)).toAList

/-- The ciphertext that `put` stores of a credential. -/
def Vault.encrypt (vault : Vault) (entropy : Nat) (credential : Dict Json) : Except Error String := do
  return (← vault.cipher).encrypt entropy (dumps (.object (credentialFields credential)))

/-- `DbSecretStore.get`. -/
def getSecret (vault : Vault) (secretId : Uuid) : Session String := do
  match ← read (·.secret.find? secretId) with
  | none => raise (.notFound "secret not found")
  | some row =>
      let fernet ← lift vault.cipher
      match fernet.decrypt row.ciphertext with
      | none => raise (.other "InvalidToken")
      | some plaintext => return plaintext

/-- The exceptions of `json.loads`, none of which is handled. -/
def unhandled (content : String) : LoadsError → Error
  | .decode message left => .other (errorText content message left)
  | .tooManyDigits _ => .other "ValueError"
  | .recursion => .other "RecursionError"

def loadCredential (vault : Vault) (source : DataSource) : Session (Option (Dict Json)) :=
  match source.credentialRef with
  | none => return none
  | some credentialRef => do
      let raw ← getSecret vault credentialRef
      match loads vault.limits raw with
      | .error reason => raise (unhandled raw reason)
      | .ok (.object fields) => return some (credentialOf fields)
      | .ok _ => return none

/-! ## What callers do -/

/-- A call of a client or of the worker. -/
inductive SourceRequest where
  | create (entropy : Nat) (enterpriseId : Uuid) (new : NewSource)
  | patch (entropy : Nat) (enterpriseId dataSourceId : Uuid) (update : SourceUpdate)
  | upload (enterpriseId dataSourceId : Uuid) (content : String)
  | test (now : Timestamp) (connectors : Connectors) (enterpriseId dataSourceId : Uuid)
  | sync (now : Timestamp) (connectors : Connectors) (enterpriseId dataSourceId : Uuid)

def SourceRequest.call (vault : Vault) : SourceRequest → ServiceCall
  | .create entropy enterpriseId new => .createDataSource (vault.encrypt entropy) enterpriseId new
  | .patch entropy enterpriseId dataSourceId update =>
      .updateDataSource (vault.encrypt entropy) enterpriseId dataSourceId update
  | .upload enterpriseId dataSourceId content => .uploadFileContent enterpriseId dataSourceId content
  | .test now connectors enterpriseId dataSourceId => .checkConnection now connectors enterpriseId dataSourceId
  | .sync now connectors enterpriseId dataSourceId => .syncSource now connectors enterpriseId dataSourceId

/-- The credential that the request gives. -/
def SourceRequest.credential : SourceRequest → Dict Json
  | .create _ _ new => new.credential
  | .patch _ _ _ update => update.credential
  | .upload _ _ _ | .test _ _ _ _ | .sync _ _ _ _ => ∅

/-- What the callers have last given each source. -/
abbrev Given := Uuid → Option (Dict Json)

/-- An empty credential is none. -/
def Given.give (given : Given) (id : Uuid) (credential : Dict Json) : Given :=
  if credential.entries.isEmpty then given else Function.update given id (some credential)

/-- A request that succeeds gives its credential, to the new source or to its own. -/
def SourceRequest.give (vault : Vault) (db : DB) (given : Given) : SourceRequest → Given
  | .create entropy enterpriseId new =>
      match (transact (createDataSource (vault.encrypt entropy) enterpriseId new) db).1 with
      | .ok id => given.give id new.credential
      | .error _ => given
  | .patch entropy enterpriseId dataSourceId update =>
      match (transact (updateDataSource (vault.encrypt entropy) enterpriseId dataSourceId update) db).1 with
      | .ok _ => given.give dataSourceId update.credential
      | .error _ => given
  | .upload _ _ _ | .test _ _ _ _ | .sync _ _ _ _ => given

/-- The calls one after another, and what they have given. -/
def serve (vault : Vault) (state : DB × Given) (request : SourceRequest) : DB × Given :=
  ((request.call vault).commit state.1, request.give vault state.1 state.2)

/-! ## Reading back -/

/-- The source refers to a secret of its enterprise that holds the credential, or to none. -/
inductive Keeps (vault : Vault) (db : DB) (source : DataSource) : Option (Dict Json) → Prop where
  | noSecret (unset : source.credentialRef = none) : Keeps vault db source none
  | encrypted {secret : Secret} {fernet : Fernet} {entropy : Nat} {credential : Dict Json}
      (refers : source.credentialRef = some secret.id) (stored : db.secret.find? secret.id = some secret)
      (enterprise : secret.enterpriseId = source.enterpriseId) (configured : vault.fernet = some fernet)
      (holds : secret.ciphertext = fernet.encrypt entropy (dumps (.object (credentialFields credential))))
      (fits : Fits vault.limits.digits vault.limits.levels (.object (credentialFields credential))) :
      Keeps vault db source (some credential)

section Reading

variable {vault : Vault} {db : DB} {source : DataSource} {given : Option (Dict Json)}

theorem dedupKeys_of_nodup {entries : List (Sigma fun _ : String => Json)} (distinct : entries.NodupKeys) :
    entries.dedupKeys = entries := by
  induction entries with
  | nil => rfl
  | cons first rest ih =>
      rw [List.nodupKeys_cons] at distinct
      rw [List.dedupKeys_cons, ih distinct.2, List.kinsert_def, List.kerase_of_notMem_keys distinct.1]

theorem credentialOf_credentialFields (dict : Dict Json) : credentialOf (credentialFields dict) = dict := by
  apply AList.ext
  rw [credentialOf, AList.entries_toAList, credentialFields, List.map_map]
  have same : dict.entries.map ((fun field : String × Json => (⟨field.1, field.2⟩ : Sigma fun _ : String => Json)) ∘
      fun entry => (entry.1, entry.2)) = dict.entries := List.map_id _
  rw [same, dedupKeys_of_nodup dict.nodupKeys]

theorem getSecret_eq (vault : Vault) (secretId : Uuid) (db : DB) :
    getSecret vault secretId db = lift (
      match db.secret.find? secretId with
      | none => .error (.notFound "secret not found")
      | some secret => do
          match (← vault.cipher).decrypt secret.ciphertext with
          | none => .error (.other "InvalidToken")
          | some raw => .ok raw) db := by
  unfold getSecret
  rw [read_bind]
  cases db.secret.find? secretId with
  | none => rfl
  | some secret =>
      cases vault.cipher with
      | error reason => rfl
      | ok fernet =>
          dsimp only
          rw [bind_of_ok (lift_eq_ok.mpr ⟨rfl, rfl⟩)]
          dsimp only [bind, Except.bind]
          cases fernet.decrypt secret.ciphertext with
          | none => rfl
          | some raw => rfl

/-- What the source keeps is what a connector is built with. -/
theorem Keeps.load (keeps : Keeps vault db source given) (sound : ∀ fernet ∈ vault.fernet, fernet.Sound) :
    loadCredential vault source db = .ok given db := by
  unfold loadCredential
  cases keeps with
  | noSecret unset =>
      rw [unset]
      rfl
  | @encrypted secret fernet entropy credential refers stored enterprise configured holds fits =>
      have decrypted : getSecret vault secret.id db = .ok (dumps (.object (credentialFields credential))) db := by
        have ciphered : vault.cipher = .ok fernet := by rw [Vault.cipher, configured]
        rw [getSecret_eq, stored]
        dsimp only
        rw [ciphered]
        dsimp only [bind, Except.bind]
        rw [holds, sound fernet configured]
        rfl
      rw [refers]
      dsimp only
      rw [bind_of_ok decrypted, loads_dumps fits]
      dsimp only
      rw [credentialOf_credentialFields]
      rfl

end Reading

/-! ## What the calls store -/

/-- What becomes of the secrets and of the reference of a source that a credential is
given to: an empty one leaves them, another one is stored anew. -/
inductive Stores (encrypt : Dict Json → Except Error String) (enterpriseId : Uuid) (credential : Dict Json) (secrets : Table Secret)
    (old : Option Uuid) : Table Secret → Option Uuid → Prop where
  | kept (empty : credential.entries.isEmpty = true) : Stores encrypt enterpriseId credential secrets old secrets old
  | put {ciphertext : String} (createdBy : Option Uuid) (filled : credential.entries.isEmpty = false)
      (encrypted : encrypt credential = .ok ciphertext) :
      Stores encrypt enterpriseId credential secrets old
        (secrets.insert { id := 0, enterpriseId, purpose := "source_credential", ciphertext, createdBy })
        (some secrets.freshKey)

section Calls

variable {encrypt : Dict Json → Except Error String} {enterpriseId dataSourceId : Uuid} {before after : DB}

theorem createDataSource_stores {new : NewSource} {id : Uuid}
    (ran : createDataSource encrypt enterpriseId new before = .ok id after) :
    ∃ secrets ref, Stores encrypt enterpriseId new.credential before.secret none secrets ref ∧ id = before.dataSource.freshKey ∧
      after = { before with
        secret := secrets, dataSource := before.dataSource.insert (newSource enterpriseId new ref) } := by
  simp only [createDataSource, bind_eq_ok, lift_eq_ok, read_eq_ok, write_eq_ok, pure_eq_ok] at ran
  obtain ⟨_, _, ⟨_, rfl⟩, ref, middle, stored, _, _, ⟨_, rfl⟩, _, _, ⟨rfl, rfl⟩, _, _, rfl, rfl, rfl⟩ := ran
  unfold putCredential at stored
  split at stored
  · next empty =>
    obtain ⟨rfl, rfl⟩ := pure_eq_ok.mp stored
    exact ⟨_, _, .kept empty, rfl, rfl⟩
  · next filled =>
    simp only [bind_eq_ok, lift_eq_ok, read_eq_ok, write_eq_ok, pure_eq_ok] at stored
    obtain ⟨ciphertext, _, ⟨encrypted, rfl⟩, _, _, ⟨rfl, rfl⟩, _, _, rfl, rfl, rfl⟩ := stored
    exact ⟨_, _, .put new.createdBy (eq_false_of_ne_true filled) encrypted, rfl, rfl⟩

theorem updateDataSource_stores {update : SourceUpdate} {result : DataSource}
    (ran : updateDataSource encrypt enterpriseId dataSourceId update before = .ok result after) :
    ∃ source secrets ref, before.dataSource.find? dataSourceId = some source ∧ source.enterpriseId = enterpriseId ∧
      Stores encrypt enterpriseId update.credential before.secret source.credentialRef secrets ref ∧
      after = { before with
        secret := secrets
        dataSource := before.dataSource.update dataSourceId fun _ => { update.apply source with credentialRef := ref } } := by
  simp only [updateDataSource, bind_eq_ok, lift_eq_ok, write_eq_ok, pure_eq_ok] at ran
  obtain ⟨source, _, got, ref, middle, stored, _, _, ⟨_, rfl⟩, _, _, rfl, _, rfl⟩ := ran
  obtain ⟨rfl, found, owned⟩ := getDataSource_ok got
  obtain ⟨_, sameId⟩ := Table.find?_some found
  have same : source.id = dataSourceId := sameId
  refine ⟨source, ?_⟩
  unfold updateCredential at stored
  split at stored
  · next empty =>
    obtain ⟨rfl, rfl⟩ := pure_eq_ok.mp stored
    exact ⟨_, _, found, owned, .kept empty, by rw [same]⟩
  · next filled =>
    simp only [putSecret, map_eq_ok, bind_eq_ok, lift_eq_ok, read_eq_ok, write_eq_ok, pure_eq_ok] at stored
    obtain ⟨_, ⟨ciphertext, _, ⟨encrypted, rfl⟩, _, _, ⟨rfl, rfl⟩, _, _, rfl, rfl, rfl⟩, rfl⟩ := stored
    rw [owned] at *
    exact ⟨_, _, found, owned, .put update.createdBy (eq_false_of_ne_true filled) encrypted, by rw [same]⟩

theorem uploadFileContent_stores {content : String} {result : DataSource}
    (ran : uploadFileContent enterpriseId dataSourceId content before = .ok result after) :
    ∃ source, before.dataSource.find? dataSourceId = some source ∧
      after = { before with
        dataSource := before.dataSource.update dataSourceId fun _ =>
          { source with config := source.config.insert "content" (.string content) } } := by
  obtain ⟨source, _, got, rest⟩ := bind_eq_ok.mp ran
  obtain ⟨rfl, found, _⟩ := getDataSource_ok got
  obtain ⟨_, sameId⟩ := Table.find?_some found
  have same : source.id = dataSourceId := sameId
  split at rest
  · simp at rest
  · have ran := rest
    simp only [bind_eq_ok, lift_eq_ok, write_eq_ok, pure_eq_ok] at ran
    obtain ⟨_, _, ⟨_, rfl⟩, _, _, rfl, _, rfl⟩ := ran
    exact ⟨source, found, by rw [same]⟩

end Calls

/-! ## The invariant -/

/-- Every source keeps what it was last given, in a secret of its own, and no secrets in
its configuration. -/
structure Kept (vault : Vault) (given : Given) (db : DB) : Prop where
  keeps : ∀ id source, db.dataSource.find? id = some source → Keeps vault db source (given id)
  unshared : ∀ id other source mate, db.dataSource.find? id = some source → db.dataSource.find? other = some mate →
    source.credentialRef ≠ none → mate.credentialRef = source.credentialRef → other = id
  clean : ∀ id source, db.dataSource.find? id = some source → ∀ key ∈ secretKeysInConfig, source.config.lookup key = none
  absent : ∀ id, db.dataSource.find? id = none → given id = none

section Steps

variable {vault : Vault} {before after : DB} {given : Given} {entropy : Nat} {credential : Dict Json}

theorem Given.give_other (given : Given) {id other : Uuid} (different : other ≠ id) :
    given.give id credential other = given other := by
  unfold Given.give
  split
  · rfl
  · exact Function.update_of_ne different _ _

/-- A stored secret stays what it is. -/
theorem Stores.find? {encrypt : Dict Json → Except Error String} {enterpriseId : Uuid} {secrets later : Table Secret}
    {old ref : Option Uuid} (stores : Stores encrypt enterpriseId credential secrets old later ref) {id : Uuid} {secret : Secret}
    (found : secrets.find? id = some secret) : later.find? id = some secret := by
  cases stores with
  | kept _ => exact found
  | put _ _ _ => exact Table.find?_insert_of_find? found _

theorem Keeps.later {source : DataSource} {held : Option (Dict Json)} (keeps : Keeps vault before source held)
    (stays : ∀ id secret, before.secret.find? id = some secret → after.secret.find? id = some secret) :
    Keeps vault after source held := by
  cases keeps with
  | noSecret unset => exact .noSecret unset
  | encrypted refers stored enterprise configured holds fits =>
      exact .encrypted refers (stays _ _ stored) enterprise configured holds fits

theorem Keeps.refers {source : DataSource} {held : Option (Dict Json)} (keeps : Keeps vault before source held) {ref : Uuid}
    (refers : source.credentialRef = some ref) :
    ∃ secret, before.secret.find? ref = some secret ∧ secret.enterpriseId = source.enterpriseId := by
  cases keeps with
  | noSecret unset => simp [unset] at refers
  | @encrypted secret _ _ _ own stored enterprise _ _ _ =>
      obtain rfl := Option.some.inj (own.symm.trans refers)
      exact ⟨secret, stored, enterprise⟩

/-- The reference of a source is the key of a stored secret. -/
theorem Keeps.stored {source : DataSource} {held : Option (Dict Json)} (keeps : Keeps vault before source held) {ref : Uuid}
    (refers : source.credentialRef = some ref) : ref < before.secret.freshKey := by
  obtain ⟨secret, stored, _⟩ := keeps.refers refers
  obtain ⟨member, rfl⟩ := Table.find?_some stored
  exact Table.key_lt_freshKey member

theorem encrypt_ok {ciphertext : String} (encrypted : vault.encrypt entropy credential = .ok ciphertext) :
    ∃ fernet, vault.fernet = some fernet ∧ ciphertext = fernet.encrypt entropy (dumps (.object (credentialFields credential))) := by
  unfold Vault.encrypt Vault.cipher at encrypted
  cases configured : vault.fernet with
  | none =>
      rw [configured] at encrypted
      cases encrypted
  | some fernet =>
      rw [configured] at encrypted
      exact ⟨fernet, rfl, (Except.ok.inj encrypted).symm⟩

/-- What one call does to the source of this key. -/
structure Writes (vault : Vault) (entropy : Nat) (credential : Dict Json) (before after : DB) (id : Uuid) (old : Option Uuid)
    (changed : DataSource) : Prop where
  looked : ∀ other, after.dataSource.find? other = if other = id then some changed else before.dataSource.find? other
  stores : Stores (vault.encrypt entropy) changed.enterpriseId credential before.secret old after.secret changed.credentialRef
  clean : ∀ key ∈ secretKeysInConfig, changed.config.lookup key = none

theorem Kept.write {id : Uuid} {old : Option Uuid} {changed : DataSource} (kept : Kept vault given before)
    (writes : Writes vault entropy credential before after id old changed)
    (held : Keeps vault before { changed with credentialRef := old } (given id))
    (own : ∀ other mate, before.dataSource.find? other = some mate → old ≠ none → mate.credentialRef = old → other = id)
    (fits : credential.entries.isEmpty = false →
      Fits vault.limits.digits vault.limits.levels (.object (credentialFields credential))) :
    Kept vault (given.give id credential) after := by
  have stays : ∀ secretId secret, before.secret.find? secretId = some secret → after.secret.find? secretId = some secret :=
    fun _ _ found => writes.stores.find? found
  have mine : ∀ source, after.dataSource.find? id = some source → source = changed := by
    intro source found
    rw [writes.looked, if_pos rfl] at found
    exact (Option.some.inj found).symm
  have others {other : Uuid} {mate : DataSource} (different : other ≠ id) (found : after.dataSource.find? other = some mate) :
      before.dataSource.find? other = some mate := by rwa [writes.looked, if_neg different] at found
  -- only this source can refer to what its reference becomes
  have private_ : ∀ other mate, other ≠ id → before.dataSource.find? other = some mate → changed.credentialRef ≠ none →
      mate.credentialRef ≠ changed.credentialRef := by
    intro other mate different found refers same
    have stores := writes.stores
    generalize changed.credentialRef = ref at stores refers same
    generalize after.secret = later at stores
    cases stores with
    | kept _ => exact different (own other mate found refers same)
    | put _ _ _ => exact Nat.lt_irrefl _ ((kept.keeps other mate found).stored same)
  constructor
  · intro other source found
    by_cases same : other = id
    · subst same
      obtain rfl := mine source found
      have stores := writes.stores
      generalize secrets : after.secret = later at stores
      generalize reference : source.credentialRef = ref at stores
      unfold Given.give
      cases stores with
      | kept empty =>
          have same : { source with credentialRef := old } = source := by rw [← reference]
          rw [same] at held
          rw [if_pos empty]
          exact held.later stays
      | put createdBy filled encrypted =>
          obtain ⟨fernet, configured, rfl⟩ := encrypt_ok encrypted
          rw [if_neg (by simp [filled]), Function.update_self]
          refine @Keeps.encrypted _ _ _ (before.secret.newRow ⟨0, source.enterpriseId, "source_credential", _, createdBy⟩) fernet
            entropy credential reference ?_ rfl configured rfl (fits filled)
          rw [secrets]
          exact Table.find?_eq_some_iff.mpr ⟨by simp, Table.key_newRow _ _⟩
    · rw [given.give_other same]
      exact (kept.keeps other source (others same found)).later stays
  · intro first second source mate found foundMate refers shared
    by_cases firstHere : first = id
    · subst firstHere
      obtain rfl := mine source found
      by_contra different
      exact private_ second mate different (others different foundMate) refers shared
    · by_cases secondHere : second = id
      · subst secondHere
        obtain rfl := mine mate foundMate
        exact absurd shared.symm (private_ first source firstHere (others firstHere found) (shared ▸ refers))
      · exact kept.unshared first second source mate (others firstHere found) (others secondHere foundMate) refers shared
  · intro other source found
    by_cases same : other = id
    · subst same
      obtain rfl := mine source found
      exact writes.clean
    · exact kept.clean other source (others same found)
  · intro other none
    rw [writes.looked] at none
    split at none
    · cases none
    · next different =>
      rw [given.give_other different]
      exact kept.absent other none

theorem Keeps.congr {source other : DataSource} {held : Option (Dict Json)} (keeps : Keeps vault before source held)
    (reference : other.credentialRef = source.credentialRef) (enterprise : other.enterpriseId = source.enterpriseId) :
    Keeps vault before other held := by
  cases keeps with
  | noSecret unset => exact .noSecret (reference.trans unset)
  | encrypted refers stored owned configured holds fits =>
      exact .encrypted (reference.trans refers) stored (owned.trans enterprise.symm) configured holds fits

/-- A call that changes one source and stores what it is given. -/
theorem Kept.changed {dataSourceId : Uuid} {source : DataSource} (kept : Kept vault given before) (changed : DataSource)
    (entropy : Nat) (credential : Dict Json) (found : before.dataSource.find? dataSourceId = some source)
    (sameId : changed.id = source.id)
    (enterprise : changed.enterpriseId = source.enterpriseId)
    (written : after.dataSource = before.dataSource.update dataSourceId fun _ => changed)
    (stores : Stores (vault.encrypt entropy) changed.enterpriseId credential before.secret source.credentialRef after.secret
      changed.credentialRef)
    (clean : ∀ key ∈ secretKeysInConfig, source.config.lookup key = none → changed.config.lookup key = none)
    (fits : credential.entries.isEmpty = false →
      Fits vault.limits.digits vault.limits.levels (.object (credentialFields credential))) :
    Kept vault (given.give dataSourceId credential) after := by
  have keyed : changed.id = dataSourceId := sameId.trans (Table.find?_some found).2
  have writes : Writes vault entropy credential before after dataSourceId source.credentialRef changed := by
    refine ⟨fun other => ?_, stores, fun key secret => clean key secret (kept.clean dataSourceId source found key secret)⟩
    rw [written]
    exact Table.find?_update_const found keyed other
  refine kept.write writes ?_ ?_ fits
  · exact (kept.keeps dataSourceId source found).congr rfl enterprise
  · intro other mate foundMate refers shared
    exact kept.unshared dataSourceId other source mate found foundMate refers shared

theorem notSecret_lookup {config : Dict Json} {key : String} (secret : key ∈ secretKeysInConfig) :
    (config.restrict fun key => key ∉ secretKeysInConfig).lookup key = none := by
  rw [Dict.restrict, Dict.lookup_filterMap]
  cases config.lookup key with
  | none => rfl
  | some value => simp [secret]

theorem SourceUpdate.apply_clean (update : SourceUpdate) {source : DataSource} {key : String} (secret : key ∈ secretKeysInConfig)
    (clean : source.config.lookup key = none) : (update.apply source).config.lookup key = none := by
  unfold SourceUpdate.apply
  dsimp only
  cases update.config with
  | none => exact clean
  | some config =>
      dsimp only
      rw [Dict.lookup_update_of_none _ (notSecret_lookup secret), clean]

theorem fixesSecrets (dataSourceId : Uuid) : SyncFrame dataSourceId (Frame.fixes DB.secret) where
  signal _ _ := rfl
  insert _ _ _ _ := rfl
  update _ _ _ _ _ := rfl
  source _ _ _ := rfl
  gaps _ _ := rfl
  job _ _ _ _ := rfl

/-- A sync rewrites its own source, and only its health. -/
theorem syncSource_source {now : Timestamp} {connectors : Connectors} {enterpriseId dataSourceId : Uuid} {result : SyncResult}
    (ran : syncSource now connectors enterpriseId dataSourceId before = .ok result after) :
    ∃ source fetchedAt, before.dataSource.find? dataSourceId = some source ∧
      after.dataSource = before.dataSource.update dataSourceId fun _ => succeeded now fetchedAt source := by
  obtain ⟨source, batch, _, batched, closed, found, rfl, batchRan, closing, sources, _⟩ := syncSource_settled ran
  obtain ⟨sameSources, _⟩ := Prod.mk.inj (syncBatch_frame (fixesHealth_batch dataSourceId) batchRan)
  have closedSources : closed.dataSource = batched.dataSource.update source.id (succeeded now batch.fetchedAt) := by
    obtain ⟨_, _, rfl⟩ := Observation.closeGap_ok closing
    rfl
  have same : source.id = dataSourceId := (Table.find?_some found).2
  refine ⟨source, batch.fetchedAt, found, ?_⟩
  rw [sources, closedSources, sameSources, same]
  exact Table.update_eq_const found

theorem checked_same (check : ConnectionCheck) (source : DataSource) : (checked check source).id = source.id ∧
    (checked check source).enterpriseId = source.enterpriseId ∧ (checked check source).credentialRef = source.credentialRef ∧
    (checked check source).config = source.config := by
  unfold checked
  split <;> exact ⟨rfl, rfl, rfl, rfl⟩

theorem Kept.served {state : DB × Given} (kept : Kept vault state.2 state.1) (request : SourceRequest)
    (fits : request.credential.entries.isEmpty = false →
      Fits vault.limits.digits vault.limits.levels (.object (credentialFields request.credential))) :
    Kept vault (serve vault state request).2 (serve vault state request).1 := by
  obtain ⟨db, given⟩ := state
  cases request with
  | create entropy enterpriseId new =>
      simp only [serve, SourceRequest.call, ServiceCall.commit, SourceRequest.give]
      cases ran : createDataSource (vault.encrypt entropy) enterpriseId new db with
      | error reason after =>
          rw [transact_of_error ran]
          exact kept
      | ok id after =>
          rw [transact_of_ok ran]
          obtain ⟨secrets, ref, stores, rfl, rfl⟩ := createDataSource_stores ran
          have absent : db.dataSource.find? db.dataSource.freshKey = none := by
            cases found : db.dataSource.find? db.dataSource.freshKey with
            | none => rfl
            | some source =>
                obtain ⟨member, same⟩ := Table.find?_some found
                exact absurd same (Nat.ne_of_lt (Table.key_lt_freshKey member))
          refine kept.write ⟨Table.find?_insert db.dataSource _, stores, fun key secret => notSecret_lookup secret⟩ ?_
            (fun _ _ _ none _ => absurd rfl none) fits
          rw [kept.absent _ absent]
          exact .noSecret rfl
  | patch entropy enterpriseId dataSourceId update =>
      simp only [serve, SourceRequest.call, ServiceCall.commit, SourceRequest.give]
      cases ran : updateDataSource (vault.encrypt entropy) enterpriseId dataSourceId update db with
      | error reason after =>
          rw [transact_of_error ran]
          exact kept
      | ok result after =>
          rw [transact_of_ok ran]
          obtain ⟨source, secrets, ref, found, rfl, stores, rfl⟩ := updateDataSource_stores ran
          exact kept.changed { update.apply source with credentialRef := ref } entropy update.credential found rfl rfl rfl stores
            (fun _ secret clean => update.apply_clean secret clean) fits
  | upload enterpriseId dataSourceId content =>
      refine transact_preserves kept fun result after ran => ?_
      obtain ⟨source, found, rfl⟩ := uploadFileContent_stores ran
      have content_clean : ∀ key ∈ secretKeysInConfig, source.config.lookup key = none →
          (source.config.insert "content" (.string content)).lookup key = none := by
        intro key secret clean
        rw [AList.lookup_insert_ne, clean]
        rintro rfl
        revert secret
        decide
      exact kept.changed { source with config := source.config.insert "content" (.string content) } 0 ∅ found rfl rfl rfl (.kept rfl)
        content_clean nofun
  | test now connectors enterpriseId dataSourceId =>
      refine transact_preserves kept fun check after ran => ?_
      obtain ⟨source, _, found, _, _, rfl, _⟩ := checkConnection_ok ran
      obtain ⟨id, enterprise, reference, config⟩ := checked_same check source
      refine kept.changed (checked check source) 0 ∅ found id enterprise (Table.update_eq_const found) ?_ ?_ nofun
      · rw [reference]
        exact .kept rfl
      · rw [config]
        exact fun _ _ clean => clean
  | sync now connectors enterpriseId dataSourceId =>
      refine transact_preserves kept fun result after ran => ?_
      obtain ⟨source, fetchedAt, found, written⟩ := syncSource_source ran
      have secrets : after.secret = db.secret := syncSource_frame (fixesSecrets dataSourceId) ran
      refine kept.changed (succeeded now fetchedAt source) 0 ∅ found rfl rfl written ?_ (fun _ _ clean => clean) nofun
      rw [secrets]
      exact .kept rfl

end Steps

/-! ## Runs -/

/-- The credential of the request can be written and read as JSON. -/
def SourceRequest.Storable (limits : Limits) (request : SourceRequest) : Prop :=
  Fits limits.digits limits.levels (.object (credentialFields request.credential))

/-- The source refers to a secret of its enterprise, which no other source refers to. -/
def OwnSecret (db : DB) (id : Uuid) (source : DataSource) (ref : Uuid) : Prop :=
  (∃ secret, db.secret.find? ref = some secret ∧ secret.enterpriseId = source.enterpriseId) ∧
    ∀ other mate, db.dataSource.find? other = some mate → mate.credentialRef = some ref → other = id

/-- Whatever is called in whatever order: a connector is built with the credential that
its source was last given, from a secret that belongs to this source alone; and no
configuration holds a credential. -/
theorem credentials_of_run (vault : Vault) (sound : ∀ fernet ∈ vault.fernet, fernet.Sound) (initial : DB)
    (noSource : initial.dataSource.rows = []) (requests : List SourceRequest)
    (storable : ∀ request ∈ requests, request.Storable vault.limits) :
    let final := requests.foldl (serve vault) (initial, fun _ => none)
    ∀ id source, final.1.dataSource.find? id = some source →
      loadCredential vault source final.1 = .ok (final.2 id) final.1 ∧
        (∀ ref, source.credentialRef = some ref → OwnSecret final.1 id source ref) ∧
        ∀ key ∈ secretKeysInConfig, source.config.lookup key = none := by
  have start : Kept vault (fun _ => none) initial := by
    have unknown : ∀ id source, initial.dataSource.find? id ≠ some source := by
      intro id source found
      have member := (Table.find?_some found).1
      rw [noSource] at member
      cases member
    exact ⟨fun id source found => absurd found (unknown id source), fun id _ source _ found => absurd found (unknown id source),
      fun id source found => absurd found (unknown id source), fun _ _ => rfl⟩
  have kept : Kept vault (requests.foldl (serve vault) (initial, fun _ => none)).2
      (requests.foldl (serve vault) (initial, fun _ => none)).1 := by
    induction requests using List.reverseRecOn with
    | nil => exact start
    | append_singleton requests request ih =>
        rw [List.foldl_append]
        exact (ih fun other member => storable other (List.mem_append_left _ member)).served request fun _ =>
          storable request (by simp)
  intro final id source found
  have keeps := kept.keeps id source found
  refine ⟨keeps.load sound, fun ref refers => ⟨keeps.refers refers, fun other mate foundMate shared => ?_⟩, ?_⟩
  · exact kept.unshared id other source mate found foundMate (by simp [refers]) (shared.trans refers.symm)
  · exact kept.clean id source found

/-- A cipher that puts the version of the token in front. -/
def versioned : Fernet where
  encrypt _ plaintext := "gAAAAA" ++ plaintext
  decrypt token := some (.ofList (token.toList.drop 6))

theorem versioned_sound : versioned.Sound := by
  intro entropy plaintext
  simp [versioned]

def bearer (text : String) : Dict Json := Dict.ofList [("token", .string text)]

theorem storable_bearer (levels digits : Nat) (text : String) : Fits digits (levels + 1) (.object (credentialFields (bearer text))) := by
  refine .object (List.nodup_singleton "token") fun field member => ?_
  obtain rfl := List.mem_singleton.mp member
  exact .string text

def rotation : List SourceRequest := [
  .create 1 7 { stockSheet with credential := bearer "first" },
  .patch 2 7 1 ⟨none, some (Dict.ofList [("token", .string "second")]), none, bearer "second", none⟩,
  .upload 7 1 "sku,qty"]

theorem credentials_of_rotation :
    let final := rotation.foldl (serve ⟨some versioned, ⟨4300, 1000⟩⟩) (default, fun _ => none)
    ∃ source, final.1.dataSource.find? 1 = some source ∧
      loadCredential ⟨some versioned, ⟨4300, 1000⟩⟩ source final.1 = .ok (some (bearer "second")) final.1 := by
  have run := credentials_of_run ⟨some versioned, ⟨4300, 1000⟩⟩
    (fun fernet member => Option.some.inj member ▸ versioned_sound) default rfl rotation ?_
  · exact ⟨_, rfl, (run 1 _ rfl).1⟩
  · intro request member
    simp only [rotation, List.mem_cons, List.not_mem_nil, or_false] at member
    rcases member with rfl | rfl | rfl
    · exact storable_bearer _ _ _
    · exact storable_bearer _ _ _
    · exact .object (by decide) nofun

end SmartProcurement.Integration
