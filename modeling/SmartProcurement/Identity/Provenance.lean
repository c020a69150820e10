import SmartProcurement.Identity.AccessRuns

namespace SmartProcurement.Identity.Access

open Relational Transaction Transition

/-! # Where a request that is let in comes from

What an access token says was signed for the response to a login, or to a refresh whose
token goes back to one.
-/

/-- Nobody has signed in yet. -/
def opened (clock : Timestamp) (directory : Directory) : State where
  clock
  accounts := ⟨directory, ⟨.empty, unique_empty⟩⟩
  issued := []
  phase _ := .waiting

section History

variable (config : Config) (requests : Nat → Request) (initial : State)

def reached (events : List Event) : State := events.foldl (step config requests) initial

/-- At some moment of the run the request did its next statement in such a state. -/
def Did (events : List Event) (call : Nat) (in_ : State → Prop) : Prop :=
  ∃ earlier later, events = earlier ++ .advance call :: later ∧ in_ (reached config requests initial earlier)

/-- The request is a login, and it found an active user of this password. -/
def LoggedIn (events : List Event) (call : Nat) (userId : Uuid) : Prop :=
  ∃ newRaw email password, requests call = .login newRaw email password ∧ Did config requests initial events call fun state =>
    ∃ user ∈ state.accounts.directory.user.rows, user.id = userId ∧ user.email = email ∧ user.isActive = true ∧
      config.crypto.verify user.passwordHash password = .ok true

/-- The refresh token that a response of the request carries. -/
def Request.newRaw? : Request → Option String
  | .login newRaw _ _ => some newRaw
  | .refresh newRaw _ => some newRaw
  | .logout _ | .authorize _ _ => none

/-- The request was made in a session of the user: it is a login, or a refresh with the
token of such a request, before that token expired. -/
inductive InSession : List Event → Nat → Uuid → Prop where
  | login {events : List Event} {call : Nat} {userId : Uuid} (loggedIn : LoggedIn config requests initial events call userId) :
      InSession events call userId
  | refresh {events earlier later : List Event} {call previous : Nat} {userId : Uuid} {newRaw raw issued : String}
      {stored : Timestamp} (isRefresh : requests call = .refresh newRaw (some raw))
      (split : events = earlier ++ .advance call :: later)
      (session : InSession earlier previous userId)
      (token : (requests previous).newRaw? = some issued)
      (same : config.settings.hashRefresh raw = config.settings.hashRefresh issued)
      (wasStored : Did config requests initial earlier previous fun state => state.clock = stored)
      (fresh : (reached config requests initial earlier).clock < stored + config.settings.refreshTtl) :
      InSession events call userId

/-- The access token was signed for the user by a request of a session, at this time. -/
def SignedAt (events : List Event) (access : String) (userId : Uuid) (now : Timestamp) : Prop :=
  ∃ source, InSession config requests initial events source userId ∧ Did config requests initial events source fun state =>
    state.clock = now ∧ access = issueAccessToken config now userId (state.accounts.directory.effectivePermissions userId)

/-- The request presented a token: it says what a token says that was signed for the user
in a session and had not expired, and the user was active when the request looked. -/
def Admitted (events : List Event) (call : Nat) (credentials : Option Credentials) (user : User) : Prop :=
  ∃ earlier later token claims access signed, events = earlier ++ .advance call :: later ∧
    bearerToken credentials = .ok token ∧
    config.crypto.decode (reached config requests initial earlier).clock token = some claims ∧
    config.crypto.decode (reached config requests initial earlier).clock access = some claims ∧
    SignedAt config requests initial earlier access user.id signed ∧
    (reached config requests initial earlier).clock < 1000000 * seconds (signed + config.accessTtl) ∧
    user ∈ (reached config requests initial earlier).accounts.directory.user.rows ∧ user.isActive = true

/-- The request was let in as this user: admitted on its own credentials, and with the
permissions that the user had in the accounts when they were read, the required one
among them. -/
def LetIn (events : List Event) (call : Nat) (current : CurrentUser) : Prop :=
  ∃ permission credentials user, requests call = .authorize permission credentials ∧
    Admitted config requests initial events call credentials user ∧ current.id = user.id ∧
    current.enterpriseId = user.enterpriseId ∧ permission ∈ current.permissions ∧
    Did config requests initial events call fun state =>
      current.permissions = state.accounts.directory.effectivePermissions user.id

/-- What a token decodes to is what one that responses have carried decodes to: nobody
else knows the secret. -/
def Unforged (state : State) : Event → Prop
  | .advance call => ∀ permission credentials token claims, requests call = .authorize permission credentials →
      bearerToken credentials = .ok token → config.crypto.decode state.clock token = some claims →
        ∃ access ∈ state.issued, config.crypto.decode state.clock access = some claims
  | _ => True

end History

section Monotone

variable {config : Config} {requests : Nat → Request} {initial : State} {events : List Event} {call : Nat}
variable {userId : Uuid}

theorem Did.append {in_ : State → Prop} (did : Did config requests initial events call in_) (event : Event) :
    Did config requests initial (events ++ [event]) call in_ := by
  obtain ⟨earlier, later, rfl, holds⟩ := did
  exact ⟨earlier, later ++ [event], by rw [List.append_assoc, List.cons_append], holds⟩

theorem Did.now {in_ : State → Prop} (holds : in_ (reached config requests initial events)) :
    Did config requests initial (events ++ [.advance call]) call in_ :=
  ⟨events, [], rfl, holds⟩

theorem LoggedIn.append (loggedIn : LoggedIn config requests initial events call userId) (event : Event) :
    LoggedIn config requests initial (events ++ [event]) call userId := by
  obtain ⟨newRaw, email, password, isLogin, did⟩ := loggedIn
  exact ⟨newRaw, email, password, isLogin, did.append event⟩

theorem InSession.append (session : InSession config requests initial events call userId) (event : Event) :
    InSession config requests initial (events ++ [event]) call userId := by
  cases session with
  | login loggedIn => exact .login (loggedIn.append event)
  | @refresh _ earlier later _ _ _ _ _ _ _ isRefresh split session token same wasStored fresh =>
      have extended : events ++ [event] = earlier ++ .advance call :: (later ++ [event]) := by
        rw [split, List.append_assoc, List.cons_append]
      exact .refresh isRefresh extended session token same wasStored fresh

theorem SignedAt.append {access : String} {now : Timestamp}
    (signed : SignedAt config requests initial events access userId now) (event : Event) :
    SignedAt config requests initial (events ++ [event]) access userId now := by
  obtain ⟨source, session, did⟩ := signed
  exact ⟨source, session.append event, did.append event⟩

theorem Admitted.append {credentials : Option Credentials} {user : User}
    (admitted : Admitted config requests initial events call credentials user) (event : Event) :
    Admitted config requests initial (events ++ [event]) call credentials user := by
  obtain ⟨earlier, later, token, claims, access, signed, rfl, rest⟩ := admitted
  exact ⟨earlier, later ++ [event], token, claims, access, signed, by rw [List.append_assoc, List.cons_append], rest⟩

theorem LetIn.append {current : CurrentUser} (letIn : LetIn config requests initial events call current) (event : Event) :
    LetIn config requests initial (events ++ [event]) call current := by
  obtain ⟨permission, credentials, user, isRequest, admitted, id, enterprise, has, did⟩ := letIn
  exact ⟨permission, credentials, user, isRequest, admitted.append event, id, enterprise, has, did.append event⟩

end Monotone

/-! ## The invariant -/

section Invariant

variable (config : Config) (requests : Nat → Request) (initial : State)

/-- The row goes back to a request of a session of its user. -/
def Rooted (events : List Event) (row : RefreshToken) : Prop :=
  ∃ source issued stored, InSession config requests initial events source row.userId ∧
    (requests source).newRaw? = some issued ∧ row.tokenHash = config.settings.hashRefresh issued ∧
    Did config requests initial events source (fun state => state.clock = stored) ∧
    row.expiresAt = stored + config.settings.refreshTtl

/-- What a request has found out so far. -/
def Knows (events : List Event) (call : Nat) : Phase → Prop
  | .authenticated user => LoggedIn config requests initial events call user.id
  | .signed userId access => LoggedIn config requests initial events call userId ∧
      ∃ now, SignedAt config requests initial events access userId now
  | .found row => InSession config requests initial events call row.userId
  | .rotated writes => InSession config requests initial events call writes.token.userId ∧
      Rooted config requests initial events writes.token
  | .ready writes access => Rooted config requests initial events writes.token ∧
      ∃ userId now, SignedAt config requests initial events access userId now
  | .loaded user => ∃ permission credentials, requests call = .authorize permission credentials ∧
      Admitted config requests initial events call credentials user
  | .done (.tokens access _) => ∃ userId now, SignedAt config requests initial events access userId now
  | .done (.user current) => LetIn config requests initial events call current
  | .waiting | .entered _ | .leaving _ | .done .loggedOut | .refused _ => True

structure Grounded (events : List Event) (state : State) : Prop where
  rows : ∀ row ∈ state.accounts.tokens.table.rows, Rooted config requests initial events row
  issued : ∀ access ∈ state.issued, ∃ userId now, SignedAt config requests initial events access userId now
  phases : ∀ call, Knows config requests initial events call (state.phase call)

end Invariant

section Steps

variable {config : Config} {requests : Nat → Request} {initial : State} {events : List Event} {call : Nat}
variable {userId : Uuid} {row : RefreshToken} {phase : Phase}

theorem Rooted.append (rooted : Rooted config requests initial events row) (event : Event) :
    Rooted config requests initial (events ++ [event]) row := by
  obtain ⟨source, issued, stored, session, token, hash, did, expires⟩ := rooted
  exact ⟨source, issued, stored, session.append event, token, hash, did.append event, expires⟩

/-- Revoking a row leaves it rooted where it was. -/
theorem Rooted.congr {other : RefreshToken} (rooted : Rooted config requests initial events row)
    (user : other.userId = row.userId) (hash : other.tokenHash = row.tokenHash) (expires : other.expiresAt = row.expiresAt) :
    Rooted config requests initial events other := by
  unfold Rooted
  rw [user, hash, expires]
  exact rooted

theorem Knows.append (knows : Knows config requests initial events call phase) (event : Event) :
    Knows config requests initial (events ++ [event]) call phase := by
  cases phase with
  | authenticated user => exact LoggedIn.append knows event
  | signed userId access => exact ⟨knows.1.append event, knows.2.imp fun _ signed => signed.append event⟩
  | found row => exact InSession.append knows event
  | rotated writes => exact ⟨knows.1.append event, knows.2.append event⟩
  | ready writes access =>
      obtain ⟨rooted, userId, now, signed⟩ := knows
      exact ⟨rooted.append event, userId, now, signed.append event⟩
  | loaded user =>
      obtain ⟨permission, credentials, asked, admitted⟩ := knows
      exact ⟨permission, credentials, asked, admitted.append event⟩
  | done response =>
      cases response with
      | tokens access refresh =>
          obtain ⟨userId, now, signed⟩ := knows
          exact ⟨userId, now, signed.append event⟩
      | loggedOut => trivial
      | user current => exact LetIn.append knows event
  | waiting => trivial
  | entered enterpriseId => trivial
  | leaving row => trivial
  | refused reason => trivial

theorem rooted_revoke {tokens : Tokens} {now : Timestamp} {id : Uuid}
    (rooted : ∀ row ∈ tokens.table.rows, Rooted config requests initial events row) :
    ∀ row ∈ (tokens.revoke now id).table.rows, Rooted config requests initial events row := by
  intro row member
  rcases mem_revoke.mp member with ⟨old, oldMember, _, rfl⟩ | ⟨old, _⟩
  · exact (rooted old oldMember).congr rfl rfl rfl
  · exact rooted row old

theorem rooted_revokeIf {tokens : Tokens} {revoked : Option (Uuid × Timestamp)}
    (rooted : ∀ row ∈ tokens.table.rows, Rooted config requests initial events row) :
    ∀ row ∈ (Tokens.revokeIf tokens revoked).table.rows, Rooted config requests initial events row := by
  cases revoked with
  | none => exact rooted
  | some pair => exact rooted_revoke rooted

/-- A commit stores the token of its session. -/
theorem rooted_commit {tokens : Tokens} {writes : Writes} {access : String}
    (rooted : ∀ row ∈ tokens.table.rows, Rooted config requests initial events row)
    (token : Rooted config requests initial events writes.token) :
    ∀ row ∈ (writes.commit access tokens).1.table.rows, Rooted config requests initial events row := by
  unfold Writes.commit
  cases added : (Tokens.revokeIf tokens writes.revoked).add writes.token with
  | ok after =>
      intro row member
      rw [(add_ok added).2, List.mem_append, List.mem_singleton] at member
      rcases member with old | rfl
      · exact rooted_revokeIf rooted row old
      · exact token.congr rfl rfl rfl
  | error reason => exact rooted

theorem knows_commit {tokens : Tokens} {writes : Writes} {access : String}
    (signed : ∃ userId now, SignedAt config requests initial events access userId now) :
    Knows config requests initial events call (writes.commit access tokens).2 := by
  unfold Writes.commit
  cases (Tokens.revokeIf tokens writes.revoked).add writes.token with
  | ok after => exact signed
  | error reason => trivial

theorem knows_ofExcept {α : Type} {next : α → Phase} {computed : Except Refusal α}
    (knows : ∀ value, computed = .ok value → Knows config requests initial events call (next value)) :
    Knows config requests initial events call (.ofExcept next computed) := by
  cases computed with
  | ok value => exact knows value rfl
  | error reason => trivial

/-- A login that authenticates has found an active user of the password. -/
theorem authenticate_loggedIn {crypto : Crypto} {directory : Directory} {enterpriseId : Uuid} {email password : String}
    {authed : AuthenticatedUser} (ran : authenticate crypto directory enterpriseId email password >>= accepted = .ok authed) :
    ∃ user ∈ directory.user.rows, user.id = authed.id ∧ user.email = email ∧ user.isActive = true ∧
      crypto.verify user.passwordHash password = .ok true := by
  obtain ⟨tried, authenticated, allowed⟩ := except_bind_eq_ok.mp ran
  cases tried with
  | none => cases allowed
  | some found =>
      obtain rfl : found = authed := by simpa [accepted] using allowed
      unfold authenticate at authenticated
      cases stored : directory.getUserByEmail enterpriseId email with
      | none => simp [stored] at authenticated
      | some user =>
          obtain ⟨member, named⟩ := Registry.lookup_eq_some_iff.mp stored
          rw [stored] at authenticated
          dsimp only at authenticated
          cases active : user.isActive with
          | false => simp [active] at authenticated
          | true =>
              simp only [active, Bool.not_true, Bool.false_eq_true, if_false, except_bind_eq_ok] at authenticated
              obtain ⟨verified, checked, rest⟩ := authenticated
              cases verified with
              | false => simp at rest
              | true =>
                  obtain rfl : (⟨user.id, user.enterpriseId⟩ : AuthenticatedUser) = found := by simpa using rest
                  unfold verifyPassword at checked
                  cases answer : crypto.verify user.passwordHash password with
                  | error shown => simp [answer] at checked
                  | ok isRight =>
                      obtain rfl : isRight = true := by simpa [answer] using checked
                      exact ⟨user, member, rfl, (Prod.mk.inj (Option.some.inj named)).2, active, answer⟩

theorem activeUser_ok {directory : Directory} {user : User} (found : activeUser directory userId = .ok user) :
    user ∈ directory.user.rows ∧ user.id = userId ∧ user.isActive = true := by
  unfold activeUser at found
  cases stored : directory.getUser userId with
  | none => simp [stored] at found
  | some row =>
      rw [stored] at found
      dsimp only at found
      cases active : row.isActive with
      | false => simp [active] at found
      | true =>
          obtain rfl : row = user := by simpa [active] using found
          exact ⟨(Table.find?_some stored).1, (Table.find?_some stored).2, active⟩

theorem isAccess_accessClaims (config : Config) (now : Timestamp) (owner : Uuid) (permissions : List String) :
    isAccess (accessClaims config now owner permissions) = true := by
  simp [isAccess, accessClaims]

theorem uuidOf?_of_subject {claims : Claims} {text : String} (named : subject claims = .ok userId)
    (isText : claims.sub = some (.string text)) : uuidOf? text = some userId := by
  unfold subject at named
  rw [isText] at named
  dsimp only at named
  cases parsed : uuidOf? text with
  | none => simp [parsed] at named
  | some id => simpa [parsed] using named

/-- The bearer of a token that says what a signed one says is the user that one was
signed for, and it has not expired. -/
theorem bearer_signed (sound : config.crypto.Sound) {now signed : Timestamp} {owner : Uuid} {permissions : List String}
    {credentials : Option Credentials} {token access : String} {claims : Claims} (given : bearerToken credentials = .ok token)
    (decoded : config.crypto.decode now token = some claims) (again : config.crypto.decode now access = some claims)
    (isSigned : access = issueAccessToken config signed owner permissions)
    (named : bearer config.crypto now credentials = .ok userId) :
    userId = owner ∧ now < 1000000 * seconds (signed + config.accessTtl) := by
  subst isSigned
  obtain rfl := sound.faithful _ _ _ again
  have live := sound.expires _ _ _ _ decoded rfl
  unfold bearer at named
  rw [given] at named
  simp only [except_bind_eq_ok, Except.ok.injEq, exists_eq_left'] at named
  rw [decoded] at named
  dsimp only at named
  rw [if_pos (isAccess_accessClaims ..)] at named
  exact ⟨eq_of_uuidOf? (uuidOf?_of_subject named rfl), live⟩

theorem bearer_decodes {now : Timestamp} {credentials : Option Credentials}
    (named : bearer config.crypto now credentials = .ok userId) :
    ∃ token claims, bearerToken credentials = .ok token ∧ config.crypto.decode now token = some claims := by
  unfold bearer at named
  obtain ⟨token, given, rest⟩ := except_bind_eq_ok.mp named
  cases decoded : config.crypto.decode now token with
  | none => simp [decoded] at rest
  | some claims => exact ⟨token, claims, given, decoded⟩

/-! ### The statements of a request -/

theorem signedAt_now (session : InSession config requests initial (events ++ [.advance call]) call userId) :
    SignedAt config requests initial (events ++ [.advance call])
      (issueAccessToken config (reached config requests initial events).clock userId
        ((reached config requests initial events).accounts.directory.effectivePermissions userId)) userId
      (reached config requests initial events).clock :=
  ⟨call, session, .now ⟨rfl, rfl⟩⟩

theorem rooted_now {newRaw : String} (token : (requests call).newRaw? = some newRaw)
    (session : InSession config requests initial (events ++ [.advance call]) call userId) :
    Rooted config requests initial (events ++ [.advance call])
      (newToken config.settings (reached config requests initial events).clock newRaw userId) :=
  ⟨call, newRaw, _, session, token, rfl, .now rfl, rfl⟩

/-- A usable token that is found continues the session that it was issued in. -/
theorem inSession_found (grounded : Grounded config requests initial events (reached config requests initial events))
    {newRaw raw : String} (asked : requests call = .refresh newRaw (some raw))
    (stored : (reached config requests initial events).accounts.tokens.byHash? (config.settings.hashRefresh raw) = some row)
    (usable : row.usable (reached config requests initial events).clock = true) :
    InSession config requests initial (events ++ [.advance call]) call row.userId := by
  obtain ⟨member, hash⟩ := byHash?_some stored
  obtain ⟨source, issued, at_, session, token, rowHash, did, expires⟩ := grounded.rows row member
  have live : (reached config requests initial events).clock < row.expiresAt := by
    simp only [RefreshToken.usable, Bool.and_eq_true, decide_eq_true_eq] at usable
    exact usable.2
  rw [expires] at live
  exact InSession.refresh asked rfl session token (hash.symm.trans rowHash) did live

/-- A bearer that is let through has presented what a session was given. -/
theorem admitted_now (sound : config.crypto.Sound)
    (grounded : Grounded config requests initial events (reached config requests initial events))
    (unforged : Unforged config requests (reached config requests initial events) (.advance call))
    {permission : String} {credentials : Option Credentials} {user : User} (asked : requests call = .authorize permission credentials)
    (found : bearer config.crypto (reached config requests initial events).clock credentials >>=
      activeUser (reached config requests initial events).accounts.directory = .ok user) :
    Admitted config requests initial (events ++ [.advance call]) call credentials user := by
  obtain ⟨userId, named, active⟩ := except_bind_eq_ok.mp found
  obtain ⟨member, rfl, isActive⟩ := activeUser_ok active
  obtain ⟨token, claims, given, decoded⟩ := bearer_decodes named
  obtain ⟨access, issued, again⟩ := unforged permission credentials token claims asked given decoded
  obtain ⟨owner, signed, source, session, earlier, later, split, clock, same⟩ := grounded.issued access issued
  obtain ⟨rfl, live⟩ := bearer_signed sound given decoded again same named
  exact ⟨events, [], token, claims, access, signed, rfl, given, decoded, again,
    ⟨source, session, earlier, later, split, clock, same⟩, live, member, isActive⟩

theorem knows_waiting (sound : config.crypto.Sound)
    (grounded : Grounded config requests initial events (reached config requests initial events))
    (unforged : Unforged config requests (reached config requests initial events) (.advance call)) :
    Knows config requests initial (events ++ [.advance call]) call
      ((requests call).next config (reached config requests initial events).clock
        (reached config requests initial events).accounts .waiting).2 := by
  cases asked : requests call with
  | login newRaw email password => exact knows_ofExcept fun _ _ => trivial
  | refresh newRaw cookie =>
      simp only [Request.next]
      cases cookie with
      | none => trivial
      | some raw =>
          by_cases empty : raw = ""
          · simp only [cookieValue, if_pos empty]
            trivial
          · simp only [cookieValue, if_neg empty]
            cases stored : (reached config requests initial events).accounts.tokens.byHash? (config.settings.hashRefresh raw) with
            | none => trivial
            | some row =>
                dsimp only
                split
                · next usable => exact inSession_found grounded asked stored usable
                · trivial
  | logout cookie =>
      simp only [Request.next]
      cases cookieValue cookie with
      | none => trivial
      | some raw => trivial
  | authorize permission credentials =>
      exact knows_ofExcept fun user found => ⟨permission, credentials, asked, admitted_now sound grounded unforged asked found⟩

/-- The request knows more after a statement. -/
theorem knows_phase (sound : config.crypto.Sound)
    (grounded : Grounded config requests initial events (reached config requests initial events))
    (unforged : Unforged config requests (reached config requests initial events) (.advance call))
    (knows : Knows config requests initial (events ++ [.advance call]) call phase) :
    Knows config requests initial (events ++ [.advance call]) call
      ((requests call).next config (reached config requests initial events).clock
        (reached config requests initial events).accounts phase).2 := by
  cases phase with
  | waiting => exact knows_waiting sound grounded unforged
  | entered enterpriseId =>
      cases asked : requests call with
      | login newRaw email password =>
          exact knows_ofExcept fun user authenticated =>
            ⟨newRaw, email, password, asked, .now (authenticate_loggedIn authenticated)⟩
      | _ => trivial
  | authenticated user => exact ⟨knows, _, signedAt_now (.login knows)⟩
  | signed userId access =>
      cases asked : requests call with
      | login newRaw email password => exact ⟨rooted_now (by rw [asked]; rfl) (.login knows.1), userId, knows.2⟩
      | _ => exact knows
  | found row =>
      cases asked : requests call with
      | refresh newRaw cookie => exact ⟨knows, rooted_now (by rw [asked]; rfl) knows⟩
      | _ => exact knows
  | rotated written => exact ⟨knows.2, _, _, signedAt_now knows.1⟩
  | ready written access => exact knows_commit knows.2
  | leaving row =>
      cases row with
      | none => trivial
      | some row =>
          simp only [Request.next]
          split
          · trivial
          · trivial
  | loaded user =>
      obtain ⟨permission, credentials, asked, admitted⟩ := knows
      rw [asked]
      refine knows_ofExcept fun current allowed => ?_
      unfold permit at allowed
      split at allowed
      · next has =>
        cases allowed
        refine ⟨permission, credentials, user, asked, admitted, rfl, rfl, ?_, .now rfl⟩
        simpa [CurrentUser.has] using has
      · cases allowed
  | done response => exact knows
  | refused reason => trivial

/-- Only a commit and a logout write tokens. -/
theorem rooted_phase {request : Request} {now : Timestamp} {accounts : Accounts}
    (rows : ∀ row ∈ accounts.tokens.table.rows, Rooted config requests initial events row)
    (knows : Knows config requests initial events call phase) :
    ∀ row ∈ (request.next config now accounts phase).1.table.rows, Rooted config requests initial events row := by
  cases phase with
  | ready written access => exact rooted_commit rows knows.1
  | leaving row =>
      cases row with
      | none => exact rows
      | some row =>
          simp only [Request.next]
          split
          · exact rooted_revoke rows
          · exact rows
  | _ => exact rows

/-- What the next statement of a request finds out. -/
theorem knows_next (sound : config.crypto.Sound)
    (grounded : Grounded config requests initial events (reached config requests initial events))
    (unforged : Unforged config requests (reached config requests initial events) (.advance call)) :
    let state := reached config requests initial events
    let next := (requests call).next config state.clock state.accounts (state.phase call)
    (∀ row ∈ next.1.table.rows, Rooted config requests initial (events ++ [.advance call]) row) ∧
      Knows config requests initial (events ++ [.advance call]) call next.2 := by
  have knows := (grounded.phases call).append (.advance call)
  have rows : ∀ row ∈ (reached config requests initial events).accounts.tokens.table.rows,
      Rooted config requests initial (events ++ [.advance call]) row :=
    fun row member => (grounded.rows row member).append (.advance call)
  exact ⟨rooted_phase rows knows, knows_phase sound grounded unforged knows⟩

theorem Grounded.append {state : State} (grounded : Grounded config requests initial events state) (event : Event) :
    Grounded config requests initial (events ++ [event]) state where
  rows row member := (grounded.rows row member).append event
  issued access member := by
    obtain ⟨userId, now, signed⟩ := grounded.issued access member
    exact ⟨userId, now, signed.append event⟩
  phases call := (grounded.phases call).append event

theorem signed_of_access {access : String} (knows : Knows config requests initial events call phase)
    (carried : phase.access? = some access) : ∃ userId now, SignedAt config requests initial events access userId now := by
  unfold Phase.access? at carried
  split at carried
  · obtain rfl := Option.some.inj carried
    exact knows
  · cases carried

theorem Grounded.step (sound : config.crypto.Sound) {event : Event}
    (grounded : Grounded config requests initial events (reached config requests initial events))
    (unforged : Unforged config requests (reached config requests initial events) event) :
    Grounded config requests initial (events ++ [event])
      (Access.step config requests (reached config requests initial events) event) := by
  have kept := grounded.append event
  cases event with
  | tick elapsed => exact ⟨kept.rows, kept.issued, kept.phases⟩
  | administer directory => exact ⟨kept.rows, kept.issued, kept.phases⟩
  | abort call =>
      have refused : ∀ other, Knows config requests initial (events ++ [.abort call]) other
          (Function.update (reached config requests initial events).phase call (.refused (.unexpected "aborted")) other) := by
        intro other
        by_cases same : other = call
        · subst same
          rw [Function.update_self]
          trivial
        · rw [Function.update_of_ne same]
          exact kept.phases other
      unfold Access.step
      dsimp only
      split
      · exact kept
      · exact kept
      · exact ⟨kept.rows, kept.issued, refused⟩
  | advance call =>
      obtain ⟨rows, knows⟩ := knows_next sound grounded unforged
      refine ⟨rows, ?_, ?_⟩
      · intro access member
        rcases List.mem_append.mp member with old | new
        · exact kept.issued access old
        · exact signed_of_access knows (Option.mem_toList.mp new)
      · intro other
        have moved : (Access.step config requests (reached config requests initial events) (.advance call)).phase =
            Function.update (reached config requests initial events).phase call
              ((requests call).next config (reached config requests initial events).clock
                (reached config requests initial events).accounts ((reached config requests initial events).phase call)).2 := rfl
        rw [moved]
        by_cases same : other = call
        · subst same
          rw [Function.update_self]
          exact knows
        · rw [Function.update_of_ne same]
          exact kept.phases other

theorem grounded_of_run (sound : config.crypto.Sound) {rest : List Event}
    (grounded : Grounded config requests initial events (reached config requests initial events))
    (unforged : Along (Access.step config requests) (Unforged config requests) (reached config requests initial events) rest) :
    Grounded config requests initial (events ++ rest) (reached config requests initial (events ++ rest)) := by
  induction rest generalizing events with
  | nil => rwa [List.append_nil]
  | cons event rest ih =>
      have next : Access.step config requests (reached config requests initial events) event =
          reached config requests initial (events ++ [event]) := by
        unfold reached
        rw [List.foldl_append]
        rfl
      have stepped := grounded.step sound unforged.1
      have after := unforged.2
      rw [next] at stepped after
      have final := ih stepped after
      rwa [List.append_assoc, List.singleton_append] at final

end Steps

/-! ## Every run -/

/-- However requests interleave, whatever clients present and however the accounts are
administered: a request that is let in presents what a session of its user was given, signed
within the lifetime of access tokens; the user was active when it was looked up, and
the permissions are those of the accounts, not of the token. -/
theorem letIn_of_run (config : Config) (sound : config.crypto.Sound) (requests : Nat → Request) (clock : Timestamp)
    (directory : Directory) (events : List Event)
    (unforged : Along (step config requests) (Unforged config requests) (opened clock directory) events)
    (call : Nat) (current : CurrentUser)
    (granted : (reached config requests (opened clock directory) events).phase call = .done (.user current)) :
    LetIn config requests (opened clock directory) events call current := by
  have start : Grounded config requests (opened clock directory) [] (opened clock directory) :=
    ⟨by simp [opened], by simp [opened], fun _ => trivial⟩
  have grounded := (grounded_of_run sound start unforged).phases call
  rw [List.nil_append, granted] at grounded
  exact grounded

/-! ## A run that signs in -/

/-- One user, who may read the domain. -/
def reader : Directory where
  enterprise := Table.empty.insert ⟨0, "shop", "USD"⟩
  user := Registry.empty.insert ⟨0, 1, "reader@example.com", "Reader", "hash", true⟩ nofun
  role := Registry.empty.insert ⟨0, 1, "buyer", "Buyer"⟩ nofun
  permission := Registry.empty.insert ⟨0, "domain.read", "domain.read"⟩ nofun
  rolePermission := Links.empty.insert (1, 1) nofun
  userRole := Links.empty.insert (1, 1) nofun
  lorm := .empty
  grantsRefer := by decide
  holdersRefer := by decide

/-- Tokens and passwords of which only one of each is ever used. -/
def oneToken : Crypto where
  encode
    | ⟨some (.string "00000000-0000-0000-0000-000000000001"), some (.array [.string "domain.read"]), some 0, some 900,
        some (.string "access")⟩ => "signed"
    | _ => "other"
  decode now token :=
    if token = "signed" ∧ now < 900000000 then
      some ⟨some (.string "00000000-0000-0000-0000-000000000001"), some (.array [.string "domain.read"]), some 0, some 900,
        some (.string "access")⟩
    else none
  verify hashed plaintext := .ok (hashed == "hash" && plaintext == "secret")

theorem oneToken_sound : oneToken.Sound := by
  constructor
  · intro now claims read decoded
    simp only [oneToken] at decoded
    split at decoded
    · split at decoded
      · exact (Option.some.inj decoded).symm
      · cases decoded
    · simp at decoded
  · intro now token claims exp decoded expires
    simp only [oneToken] at decoded
    split at decoded
    · next live =>
      cases decoded
      obtain rfl := Option.some.inj expires
      exact live.2
    · cases decoded

def oneTokenConfig : Config := ⟨⟨id, 3600000000⟩, oneToken, 900000000⟩

/-- The first request signs in, every other one reads with the token of the first. -/
def readerRequests : Nat → Request
  | 0 => .login "raw" "reader@example.com" "secret"
  | _ + 1 => .authorize "domain.read" (some ⟨"Bearer", "signed"⟩)

def readerRun : List Event :=
  [.advance 0, .advance 0, .advance 0, .advance 0, .advance 0, .advance 1, .advance 1]

theorem unforged_login {state : State} : Unforged oneTokenConfig readerRequests state (.advance 0) := by
  intro permission credentials token claims asked
  cases asked

theorem unforged_reader {state : State} (carried : "signed" ∈ state.issued) :
    Unforged oneTokenConfig readerRequests state (.advance 1) := by
  intro permission credentials token claims asked given decoded
  cases asked
  cases given
  exact ⟨"signed", carried, decoded⟩

theorem letIn_of_run_reader :
    LetIn oneTokenConfig readerRequests (opened 0 reader) readerRun 1 ⟨1, 1, ["domain.read"]⟩ := by
  refine letIn_of_run oneTokenConfig oneToken_sound readerRequests 0 reader readerRun ?_ 1 ⟨1, 1, ["domain.read"]⟩ ?_
  · refine ⟨unforged_login, unforged_login, unforged_login, unforged_login, unforged_login, unforged_reader ?_,
      unforged_reader ?_, trivial⟩
    · decide
    · decide
  · decide

end SmartProcurement.Identity.Access
