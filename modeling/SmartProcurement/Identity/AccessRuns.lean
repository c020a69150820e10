import SmartProcurement.Identity.Access
import SmartProcurement.Transition.Runs

namespace SmartProcurement.Identity.Access

open Relational Transaction Transition

/-! # Sign-ins over whole runs

Requests come from any client and interleave statement by statement, the accounts are
administered meanwhile, and time passes.  Whoever is let in has signed in before.
-/

/-! ## Requests at the same time -/

inductive Request where
  | login (newRaw email password : String)
  | refresh (newRaw : String) (cookie : Option String)
  | logout (cookie : Option String)
  | authorize (permission : String) (credentials : Option Credentials)
deriving DecidableEq, Repr

/-- What a request has written when it commits. -/
structure Writes where
  revoked : Option (Uuid × Timestamp)
  token : RefreshToken
  raw : String
deriving DecidableEq, Repr

inductive Phase where
  | waiting
  | entered (enterpriseId : Uuid)
  | authenticated (user : AuthenticatedUser)
  | signed (userId : Uuid) (access : String)
  | found (row : RefreshToken)
  | rotated (writes : Writes)
  | ready (writes : Writes) (access : String)
  | leaving (row : Option RefreshToken)
  | loaded (user : User)
  | done (response : Response)
  | refused (reason : Refusal)
deriving DecidableEq, Repr

def Phase.ofExcept {α : Type} (next : α → Phase) : Except Refusal α → Phase
  | .ok value => next value
  | .error reason => .refused reason

def Tokens.revokeIf (tokens : Tokens) : Option (Uuid × Timestamp) → Tokens
  | none => tokens
  | some (id, now) => tokens.revoke now id

def Writes.commit (writes : Writes) (access : String) (tokens : Tokens) : Tokens × Phase :=
  match (Tokens.revokeIf tokens writes.revoked).add writes.token with
  | .ok after => (after, .done (.tokens access writes.raw))
  | .error reason => (tokens, .refused (.service reason))

/-- A statement of the request, or its commit. -/
def Request.next (config : Config) (request : Request) (now : Timestamp) (accounts : Accounts) :
    Phase → Tokens × Phase
  | .waiting =>
      (accounts.tokens,
        match request with
        | .login _ _ _ => .ofExcept .entered (getActiveEnterpriseId accounts.directory)
        | .refresh _ cookie =>
            match cookieValue cookie with
            | none => .refused (unauthorized "no refresh token")
            | some raw =>
                match accounts.tokens.byHash? (config.settings.hashRefresh raw) with
                | none => .refused (unauthorized "invalid refresh token")
                | some row => if row.usable now then .found row else .refused (unauthorized "invalid refresh token")
        | .logout cookie =>
            match cookieValue cookie with
            | none => .done .loggedOut
            | some raw => .leaving (accounts.tokens.byHash? (config.settings.hashRefresh raw))
        | .authorize _ credentials =>
            .ofExcept .loaded do activeUser accounts.directory (← bearer config.crypto now credentials))
  | .entered enterpriseId =>
      (accounts.tokens,
        match request with
        | .login _ email password =>
            .ofExcept .authenticated do accepted (← authenticate config.crypto accounts.directory enterpriseId email password)
        | _ => .entered enterpriseId)
  | .authenticated user =>
      (accounts.tokens, .signed user.id (issueAccessToken config now user.id (accounts.directory.effectivePermissions user.id)))
  | .signed userId access =>
      (accounts.tokens,
        match request with
        | .login newRaw _ _ => .ready ⟨none, newToken config.settings now newRaw userId, newRaw⟩ access
        | _ => .signed userId access)
  | .found row =>
      (accounts.tokens,
        match request with
        | .refresh newRaw _ => .rotated ⟨some (row.id, now), newToken config.settings now newRaw row.userId, newRaw⟩
        | _ => .found row)
  | .rotated writes =>
      let userId := writes.token.userId
      (accounts.tokens, .ready writes (issueAccessToken config now userId (accounts.directory.effectivePermissions userId)))
  | .ready writes access => writes.commit access accounts.tokens
  | .leaving row =>
      match row with
      | none => (accounts.tokens, .done .loggedOut)
      | some row =>
          if row.revokedAt.isNone then (accounts.tokens.revoke now row.id, .done .loggedOut)
          else (accounts.tokens, .done .loggedOut)
  | .loaded user =>
      (accounts.tokens,
        match request with
        | .authorize permission _ =>
            .ofExcept (.done ∘ .user) (permit permission
              ⟨user.id, user.enterpriseId, accounts.directory.effectivePermissions user.id⟩)
        | _ => .loaded user)
  | .done response => (accounts.tokens, .done response)
  | .refused reason => (accounts.tokens, .refused reason)

/-- The access tokens that clients hold are those that responses have carried. -/
structure State where
  clock : Timestamp
  accounts : Accounts
  issued : List String
  phase : Nat → Phase

inductive Event where
  | advance (call : Nat)
  | abort (call : Nat)
  | tick (elapsed : Nat)
  | administer (directory : Directory)

/-- The access token that a response carries. -/
def Phase.access? : Phase → Option String
  | .done (.tokens access _) => some access
  | _ => none

def step (config : Config) (requests : Nat → Request) (state : State) : Event → State
  | .advance call =>
      let (tokens, phase) := (requests call).next config state.clock state.accounts (state.phase call)
      { state with
        accounts := { state.accounts with tokens }
        issued := state.issued ++ phase.access?.toList
        phase := Function.update state.phase call phase }
  | .abort call =>
      match state.phase call with
      | .done _ | .refused _ => state
      | _ => { state with phase := Function.update state.phase call (.refused (.unexpected "aborted")) }
  | .tick elapsed => { state with clock := state.clock + elapsed }
  | .administer directory => { state with accounts := { state.accounts with directory } }

/-- The request as its endpoint runs it. -/
def Request.run (config : Config) (now : Timestamp) : Request → AccountSession Response
  | .login newRaw email password => Access.login config now newRaw email password
  | .refresh newRaw cookie => Access.refresh config now newRaw cookie
  | .logout cookie => Access.logout config now cookie
  | .authorize permission credentials => .user <$> require config.crypto now permission credentials

/-! ## A request that nobody interrupts -/

section Uninterrupted

variable {config : Config} {requests : Nat → Request} {request : Request} {state : State} {call : Nat}
variable {now : Timestamp} {accounts : Accounts} {tokens : Tokens} {phase : Phase}

/-- The statements of one request, one after another. -/
def Request.follow (config : Config) (request : Request) (now : Timestamp) (directory : Directory) :
    Nat → Tokens × Phase → Tokens × Phase
  | 0, reached => reached
  | count + 1, reached => request.follow config now directory count (request.next config now ⟨directory, reached.1⟩ reached.2)

theorem foldl_advance (count : Nat) :
    let final := (List.replicate count (.advance call)).foldl (step config requests) state
    let reached := (requests call).follow config state.clock state.accounts.directory count (state.accounts.tokens, state.phase call)
    final.accounts = ⟨state.accounts.directory, reached.1⟩ ∧ final.phase call = reached.2 := by
  induction count generalizing state with
  | zero => exact ⟨rfl, rfl⟩
  | succ count ih =>
      have rest := @ih (step config requests state (.advance call))
      dsimp only at rest ⊢
      rw [List.replicate_succ, List.foldl_cons]
      simp only [step, Function.update_self] at rest ⊢
      exact rest

/-- What a commit of the endpoint leaves, and how the client sees it end. -/
def ended (result : Except Refusal Response × Accounts) : Tokens × Phase :=
  (result.2.tokens, .ofExcept .done result.1)

theorem lift_of_ok {α : Type} {computed : Except Refusal α} {value : α} (isOk : computed = .ok value) :
    (lift computed : AccountSession α) accounts = .ok value accounts := by
  rw [isOk]
  rfl

theorem lift_of_error {α : Type} {computed : Except Refusal α} {reason : Refusal} (isError : computed = .error reason) :
    (lift computed : AccountSession α) accounts = .error reason accounts := by
  rw [isError]
  rfl

theorem ended_of_ok {body : AccountSession Response} {response : Response} {after : Accounts}
    (ran : body accounts = .ok response after) : ended (transact body accounts) = (after.tokens, .done response) := by
  rw [transact_of_ok ran]
  rfl

theorem ended_of_error {body : AccountSession Response} {reason : Refusal} {after : Accounts}
    (ran : body accounts = .error reason after) : ended (transact body accounts) = (accounts.tokens, .refused reason) := by
  rw [transact_of_error ran]
  rfl

theorem withTokens_of_ok {α : Type} {body : Identity.Session α} {value : α} {after : Tokens}
    (ran : body accounts.tokens = .ok value after) : withTokens body accounts = .ok value { accounts with tokens := after } := by
  rw [withTokens, ran]

theorem withTokens_of_error {α : Type} {body : Identity.Session α} {reason : Error} {after : Tokens}
    (ran : body accounts.tokens = .error reason after) :
    withTokens body accounts = .error (.service reason) { accounts with tokens := after } := by
  rw [withTokens, ran]

/-- The new token of a request is stored, unless the database refuses it. -/
theorem withTokens_issue (config : Config) (now : Timestamp) (accounts : Accounts) (newRaw : String) (userId : Uuid) :
    withTokens (issueRefreshToken config.settings now newRaw userId) accounts =
      match accounts.tokens.add (newToken config.settings now newRaw userId) with
      | .ok after => .ok newRaw { accounts with tokens := after }
      | .error reason => .error (.service reason) accounts := by
  have issues := issueRefreshToken_eq config.settings now newRaw userId accounts.tokens
  cases added : accounts.tokens.add (newToken config.settings now newRaw userId) with
  | ok after =>
      rw [added] at issues
      exact withTokens_of_ok issues
  | error reason =>
      rw [added] at issues
      exact withTokens_of_error issues

theorem login_eq (config : Config) (now : Timestamp) (accounts : Accounts) (newRaw email password : String) :
    login config now newRaw email password accounts =
    match getActiveEnterpriseId accounts.directory with
    | .error reason => .error reason accounts
    | .ok enterpriseId =>
        match authenticate config.crypto accounts.directory enterpriseId email password >>= accepted with
        | .error reason => .error reason accounts
        | .ok user =>
            match accounts.tokens.add (newToken config.settings now newRaw user.id) with
            | .ok after => .ok (.tokens (issueAccessToken config now user.id
                (accounts.directory.effectivePermissions user.id)) newRaw) { accounts with tokens := after }
            | .error reason => .error (.service reason) accounts := by
  unfold login
  rw [read_bind]
  cases entered : getActiveEnterpriseId accounts.directory with
  | error reason => exact bind_of_error (lift_of_error rfl)
  | ok enterpriseId =>
      rw [bind_of_ok (lift_of_ok rfl), read_bind]
      dsimp only
      cases tried : authenticate config.crypto accounts.directory enterpriseId email password with
      | error reason => exact bind_of_error (lift_of_error rfl)
      | ok authed =>
          rw [bind_of_ok (lift_of_ok rfl)]
          change _ = match accepted authed with | .error reason => _ | .ok user => _
          cases allowed : accepted authed with
          | error reason => exact bind_of_error (lift_of_error rfl)
          | ok user =>
              rw [bind_of_ok (lift_of_ok rfl), read_bind]
              have issues := withTokens_issue config now accounts newRaw user.id
              dsimp only
              cases added : accounts.tokens.add (newToken config.settings now newRaw user.id) with
              | ok after =>
                  rw [added] at issues
                  rw [bind_of_ok issues]
                  rfl
              | error reason =>
                  rw [added] at issues
                  exact bind_of_error issues

theorem follow_login (newRaw email password : String) :
    (Request.login newRaw email password).follow config now accounts.directory 5 (accounts.tokens, .waiting) =
      ended (transact (login config now newRaw email password) accounts) := by
  have ran := login_eq config now accounts newRaw email password
  cases entered : getActiveEnterpriseId accounts.directory with
  | error reason =>
      rw [entered] at ran
      rw [ended_of_error ran]
      simp only [Request.follow, Request.next, entered, Phase.ofExcept]
  | ok enterpriseId =>
      rw [entered] at ran
      dsimp only at ran
      cases tried : authenticate config.crypto accounts.directory enterpriseId email password >>= accepted with
      | error reason =>
          rw [tried] at ran
          rw [ended_of_error ran]
          simp only [Request.follow, Request.next, entered, tried, Phase.ofExcept]
      | ok user =>
          rw [tried] at ran
          dsimp only at ran
          cases added : accounts.tokens.add (newToken config.settings now newRaw user.id) with
          | ok after =>
              rw [added] at ran
              rw [ended_of_ok ran]
              simp only [Request.follow, Request.next, entered, tried, Phase.ofExcept, Writes.commit, Tokens.revokeIf, added]
          | error reason =>
              rw [added] at ran
              rw [ended_of_error ran]
              simp only [Request.follow, Request.next, entered, tried, Phase.ofExcept, Writes.commit, Tokens.revokeIf, added]

/-- The row of a usable token, or nothing. -/
def usableRow (config : Config) (now : Timestamp) (tokens : Tokens) (raw : String) : Option RefreshToken :=
  (tokens.byHash? (config.settings.hashRefresh raw)).filter (·.usable now)

theorem withTokens_consume (config : Config) (now : Timestamp) (accounts : Accounts) (newRaw raw : String) :
    withTokens (consumeRefreshToken config.settings now newRaw raw) accounts =
      match usableRow config now accounts.tokens raw with
      | none => .ok none accounts
      | some row =>
          match (accounts.tokens.revoke now row.id).add (newToken config.settings now newRaw row.userId) with
          | .ok after => .ok (some (row.userId, newRaw)) { accounts with tokens := after }
          | .error reason => .error (.service reason) { accounts with tokens := accounts.tokens.revoke now row.id } := by
  have consumes : consumeRefreshToken config.settings now newRaw raw accounts.tokens =
      match usableRow config now accounts.tokens raw with
      | none => .ok none accounts.tokens
      | some row =>
          match (accounts.tokens.revoke now row.id).add (newToken config.settings now newRaw row.userId) with
          | .ok after => .ok (some (row.userId, newRaw)) after
          | .error reason => .error reason (accounts.tokens.revoke now row.id) := by
    unfold consumeRefreshToken usableRow
    rw [read_bind]
    cases accounts.tokens.byHash? (config.settings.hashRefresh raw) with
    | none => rfl
    | some row =>
        dsimp only
        cases usable : row.usable now with
        | false =>
            rw [Option.filter_some, usable]
            rfl
        | true =>
            rw [Option.filter_some, usable, if_pos rfl, if_pos rfl]
            have revokes : (write (·.revoke now row.id) : Identity.Session PUnit) accounts.tokens =
                .ok ⟨⟩ (accounts.tokens.revoke now row.id) := rfl
            rw [bind_of_ok revokes]
            have issues := issueRefreshToken_eq config.settings now newRaw row.userId (accounts.tokens.revoke now row.id)
            dsimp only
            cases added : (accounts.tokens.revoke now row.id).add (newToken config.settings now newRaw row.userId) with
            | ok after =>
                rw [added] at issues
                rw [bind_of_ok issues]
                rfl
            | error reason =>
                rw [added] at issues
                rw [bind_of_error issues]
  cases found : usableRow config now accounts.tokens raw with
  | none =>
      rw [found] at consumes
      exact withTokens_of_ok consumes
  | some row =>
      rw [found] at consumes
      dsimp only at consumes ⊢
      cases added : (accounts.tokens.revoke now row.id).add (newToken config.settings now newRaw row.userId) with
      | ok after =>
          rw [added] at consumes
          exact withTokens_of_ok consumes
      | error reason =>
          rw [added] at consumes
          exact withTokens_of_error consumes

theorem follow_refresh (newRaw : String) (cookie : Option String) :
    (Request.refresh newRaw cookie).follow config now accounts.directory 5 (accounts.tokens, .waiting) =
      ended (transact (refresh config now newRaw cookie) accounts) := by
  cases given : cookieValue cookie with
  | none =>
      have ran : refresh config now newRaw cookie accounts = .error (unauthorized "no refresh token") accounts := by
        simp only [refresh, given, raise]
      rw [ended_of_error ran]
      simp only [Request.follow, Request.next, given]
  | some raw =>
      have consumes := withTokens_consume config now accounts newRaw raw
      unfold usableRow at consumes
      cases stored : accounts.tokens.byHash? (config.settings.hashRefresh raw) with
      | none =>
          rw [stored] at consumes
          have ran : refresh config now newRaw cookie accounts = .error (unauthorized "invalid refresh token") accounts := by
            simp only [refresh, given]
            rw [bind_of_ok consumes]
            rfl
          rw [ended_of_error ran]
          simp only [Request.follow, Request.next, given, stored]
      | some row =>
          rw [stored] at consumes
          cases usable : row.usable now with
          | false =>
              rw [Option.filter_some, usable, if_neg Bool.false_ne_true] at consumes
              have ran : refresh config now newRaw cookie accounts = .error (unauthorized "invalid refresh token") accounts := by
                simp only [refresh, given]
                rw [bind_of_ok consumes]
                rfl
              rw [ended_of_error ran]
              simp [Request.follow, Request.next, given, stored, usable]
          | true =>
              rw [Option.filter_some, usable, if_pos rfl] at consumes
              dsimp only at consumes
              cases added : (accounts.tokens.revoke now row.id).add (newToken config.settings now newRaw row.userId) with
              | ok after =>
                  rw [added] at consumes
                  have ran : refresh config now newRaw cookie accounts = .ok (.tokens (issueAccessToken config now row.userId
                      (accounts.directory.effectivePermissions row.userId)) newRaw) { accounts with tokens := after } := by
                    simp only [refresh, given]
                    rw [bind_of_ok consumes]
                    rfl
                  rw [ended_of_ok ran]
                  simp only [Request.follow, Request.next, given, stored, usable, if_true, Writes.commit, Tokens.revokeIf, added]
                  rfl
              | error reason =>
                  rw [added] at consumes
                  have ran : refresh config now newRaw cookie accounts =
                      .error (.service reason) { accounts with tokens := accounts.tokens.revoke now row.id } := by
                    simp only [refresh, given]
                    exact bind_of_error consumes
                  rw [ended_of_error ran]
                  simp only [Request.follow, Request.next, given, stored, usable, if_true, Writes.commit, Tokens.revokeIf, added]

theorem follow_logout (cookie : Option String) :
    (Request.logout cookie).follow config now accounts.directory 5 (accounts.tokens, .waiting) =
      ended (transact (logout config now cookie) accounts) := by
  cases given : cookieValue cookie with
  | none =>
      have ran : logout config now cookie accounts = .ok .loggedOut accounts := by
        simp only [logout, given]
        rfl
      rw [ended_of_ok ran]
      simp only [Request.follow, Request.next, given]
  | some raw =>
      have revokes (after : Tokens)
          (ran : revokeRefreshToken config.settings now raw accounts.tokens = .ok ⟨⟩ after) :
          logout config now cookie accounts = .ok .loggedOut { accounts with tokens := after } := by
        simp only [logout, given]
        rw [bind_of_ok (withTokens_of_ok ran)]
        rfl
      cases stored : accounts.tokens.byHash? (config.settings.hashRefresh raw) with
      | none =>
          have ran : revokeRefreshToken config.settings now raw accounts.tokens = .ok ⟨⟩ accounts.tokens := by
            unfold revokeRefreshToken
            rw [read_bind, stored]
            rfl
          rw [ended_of_ok (revokes _ ran)]
          simp only [Request.follow, Request.next, given, stored]
      | some row =>
          cases standing : row.revokedAt.isNone with
          | false =>
              have ran : revokeRefreshToken config.settings now raw accounts.tokens = .ok ⟨⟩ accounts.tokens := by
                unfold revokeRefreshToken
                rw [read_bind, stored]
                simp only [standing, Bool.false_eq_true, if_false]
                rfl
              rw [ended_of_ok (revokes _ ran)]
              simp [Request.follow, Request.next, given, stored, standing]
          | true =>
              have ran : revokeRefreshToken config.settings now raw accounts.tokens =
                  .ok ⟨⟩ (accounts.tokens.revoke now row.id) := by
                unfold revokeRefreshToken
                rw [read_bind, stored]
                simp only [standing, if_true]
                rfl
              rw [ended_of_ok (revokes _ ran)]
              simp [Request.follow, Request.next, given, stored, standing]

theorem follow_authorize (permission : String) (credentials : Option Credentials) :
    (Request.authorize permission credentials).follow config now accounts.directory 5 (accounts.tokens, .waiting) =
      ended (transact (.user <$> require config.crypto now permission credentials) accounts) := by
  have mapped {α : Type} {f : α → Response} {body : AccountSession α} {reason : Refusal}
      (ran : body accounts = .error reason accounts) : (f <$> body) accounts = .error reason accounts := by
    change EStateM.map f body accounts = _
    simp only [EStateM.map, ran]
  cases named : bearer config.crypto now credentials with
  | error reason =>
      have ran : require config.crypto now permission credentials accounts = .error reason accounts :=
        bind_of_error (bind_of_error (lift_of_error named))
      rw [ended_of_error (mapped ran)]
      simp only [Request.follow, Request.next, named]
      rfl
  | ok userId =>
      have current {rest : CurrentUser → AccountSession CurrentUser} :
          (getCurrentUser config.crypto now credentials >>= rest) accounts =
            ((lift (activeUser accounts.directory userId) >>= fun user => rest
              ⟨user.id, user.enterpriseId, accounts.directory.effectivePermissions userId⟩) : AccountSession CurrentUser)
                accounts := by
        unfold getCurrentUser
        simp only [bind_assoc]
        rw [bind_of_ok (lift_of_ok named), read_bind]
        cases activeUser accounts.directory userId with
        | error reason => rfl
        | ok user => rfl
      cases active : activeUser accounts.directory userId with
      | error reason =>
          have ran : require config.crypto now permission credentials accounts = .error reason accounts := by
            unfold require
            rw [current]
            exact bind_of_error (lift_of_error active)
          rw [ended_of_error (mapped ran)]
          simp only [Request.follow, Request.next, named, bind, Except.bind, active, Phase.ofExcept]
      | ok user =>
          have same : user.id = userId := by
            unfold activeUser Directory.getUser at active
            cases found : accounts.directory.user.table.find? userId with
            | none => simp [found] at active
            | some row =>
                simp only [found] at active
                split at active
                · cases active
                  exact (Table.find?_some found).2
                · cases active
          have ran : require config.crypto now permission credentials accounts =
              (lift (permit permission ⟨user.id, user.enterpriseId, accounts.directory.effectivePermissions user.id⟩) :
                AccountSession CurrentUser) accounts := by
            unfold require
            rw [current, bind_of_ok (lift_of_ok active), same]
          cases allowed : permit permission ⟨user.id, user.enterpriseId, accounts.directory.effectivePermissions user.id⟩ with
          | error reason =>
              rw [allowed] at ran
              rw [ended_of_error (mapped ran)]
              simp only [Request.follow, Request.next, named, bind, Except.bind, active, Phase.ofExcept, allowed]
          | ok current =>
              rw [allowed] at ran
              have mappedRan : ((.user <$> require config.crypto now permission credentials) : AccountSession Response) accounts =
                  .ok (.user current) accounts := map_eq_ok.mpr ⟨current, ran, rfl⟩
              rw [ended_of_ok mappedRan]
              simp only [Request.follow, Request.next, named, bind, Except.bind, active, Phase.ofExcept, allowed,
                Function.comp_apply]

/-- A request that nobody interrupts does what its endpoint does, and ends as it does. -/
theorem uninterrupted (config : Config) (requests : Nat → Request) (state : State) (call : Nat)
    (waiting : state.phase call = .waiting) :
    let final := (List.replicate 5 (.advance call)).foldl (step config requests) state
    (final.accounts.tokens, final.phase call) =
      ended (transact ((requests call).run config state.clock) state.accounts) := by
  dsimp only
  obtain ⟨accounts, phase⟩ := @foldl_advance config requests state call 5
  rw [accounts, phase, waiting]
  cases requests call with
  | login newRaw email password => exact follow_login newRaw email password
  | refresh newRaw cookie => exact follow_refresh newRaw cookie
  | logout cookie => exact follow_logout cookie
  | authorize permission credentials => exact follow_authorize permission credentials

end Uninterrupted

end SmartProcurement.Identity.Access
