import SmartProcurement.Core.Values
import SmartProcurement.Relational.Identity
import SmartProcurement.Transaction.Session
import SmartProcurement.Transition.Runs

namespace SmartProcurement.Identity

open Relational Transaction Transition

/-! # Refresh tokens

Only the hash of a token is stored.  A token is spent by a refresh, which issues
its successor, and revoked by a logout.  Both read its row and write it back
without a lock.
-/

structure RefreshToken where
  id : Uuid
  userId : Uuid
  tokenHash : String
  expiresAt : Timestamp
  revokedAt : Option Timestamp
deriving DecidableEq, Repr

instance : Keyed RefreshToken := ⟨(·.id), fun id row => { row with id }, fun _ _ => rfl, fun _ => rfl⟩

def RefreshToken.hash? (token : RefreshToken) : Option String := some token.tokenHash

/-- The table, with the unique constraint on its hashes. -/
structure Tokens where
  table : Table RefreshToken
  unique : Unique RefreshToken.hash? table

/-- The hash function and the lifetime of a refresh token. -/
structure Settings where
  hashRefresh : String → String
  refreshTtl : Int

abbrev Session := EStateM Error Tokens

def Tokens.byHash? (tokens : Tokens) (tokenHash : String) : Option RefreshToken :=
  tokens.table.identified? RefreshToken.hash? tokenHash

def Tokens.revoke (tokens : Tokens) (now : Timestamp) (id : Uuid) : Tokens where
  table := tokens.table.update id fun row => { row with revokedAt := some now }
  unique := tokens.unique.update fun _ => rfl

/-- A new row, or the violation of the unique constraint. -/
def Tokens.add (tokens : Tokens) (row : RefreshToken) : Except Error Tokens :=
  if absent : ∀ other ∈ tokens.table.rows, other.tokenHash ≠ row.tokenHash then
    .ok {
      table := tokens.table.insert row
      unique := tokens.unique.insert fun other member _ has same =>
        absent other member (Option.some.inj (same.trans has.symm)) }
  else .error (.database (.unique "token_hash"))

def newToken (settings : Settings) (now : Timestamp) (newRaw : String) (userId : Uuid) : RefreshToken where
  id := 0
  userId
  tokenHash := settings.hashRefresh newRaw
  expiresAt := now + settings.refreshTtl
  revokedAt := none

def issueRefreshToken (settings : Settings) (now : Timestamp) (newRaw : String) (userId : Uuid) : Session String := do
  let tokens ← lift ((← read id).add (newToken settings now newRaw userId))
  write fun _ => tokens
  return newRaw

/-- Revoked, or expired: not usable any more. -/
def RefreshToken.usable (now : Timestamp) (token : RefreshToken) : Bool :=
  token.revokedAt.isNone && decide (now < token.expiresAt)

/-- Validate and rotate; `newRaw` is what `secrets.token_urlsafe` yields. -/
def consumeRefreshToken (settings : Settings) (now : Timestamp) (newRaw raw : String) :
    Session (Option (Uuid × String)) := do
  match ← read (·.byHash? (settings.hashRefresh raw)) with
  | none => return none
  | some row =>
      if row.usable now then do
        write (·.revoke now row.id)
        let new ← issueRefreshToken settings now newRaw row.userId
        return some (row.userId, new)
      else return none

def revokeRefreshToken (settings : Settings) (now : Timestamp) (raw : String) : Session PUnit := do
  match ← read (·.byHash? (settings.hashRefresh raw)) with
  | none => return ⟨⟩
  | some row => if row.revokedAt.isNone then write (·.revoke now row.id) else return ⟨⟩

/-! ## Requests at the same time -/

inductive Endpoint where
  | refresh (newRaw : String)
  | logout
deriving DecidableEq, Repr

/-- A request that presents the token. -/
structure Request where
  endpoint : Endpoint
  now : Timestamp

inductive Phase where
  | waiting
  | ready (row : Option RefreshToken)
  | refreshed (token : Uuid)
  | loggedOut
  | failed
deriving DecidableEq, Repr

structure State where
  tokens : Tokens
  phase : Nat → Phase

/-- A request reads the row as committed, or commits its writes, or ends without. -/
inductive Event where
  | read (call : Nat)
  | commit (call : Nat)
  | abort (call : Nat)
deriving DecidableEq, Repr

def State.enter (state : State) (call : Nat) (phase : Phase) : State :=
  { state with phase := Function.update state.phase call phase }

/-- The row as the request goes on with it; an invalid token ends a refresh. -/
def Request.found (request : Request) (row : Option RefreshToken) : Phase :=
  match request.endpoint with
  | .refresh _ => if row.any (·.usable request.now) then .ready row else .failed
  | .logout => .ready (row.filter (·.revokedAt.isNone))

/-- What the request commits, once it is ready with the row it has read. -/
def Request.commit (settings : Settings) (request : Request) (row : Option RefreshToken) (tokens : Tokens) :
    Tokens × Phase :=
  match request.endpoint, row with
  | .refresh newRaw, some row =>
      match (tokens.revoke request.now row.id).add (newToken settings request.now newRaw row.userId) with
      | .ok after => (after, .refreshed tokens.table.freshKey)
      | .error _ => (tokens, .failed)
  | .refresh _, none => (tokens, .failed)
  | .logout, some row => (tokens.revoke request.now row.id, .loggedOut)
  | .logout, none => (tokens, .loggedOut)

/-- The machine of the requests that present `raw`. -/
def step (settings : Settings) (raw : String) (requests : Nat → Request) (state : State) : Event → State
  | .read call =>
      match state.phase call with
      | .waiting => state.enter call ((requests call).found (state.tokens.byHash? (settings.hashRefresh raw)))
      | _ => state
  | .commit call =>
      match state.phase call with
      | .ready row =>
          let (tokens, phase) := (requests call).commit settings row state.tokens
          ⟨tokens, Function.update state.phase call phase⟩
      | _ => state
  | .abort call =>
      match state.phase call with
      | .waiting | .ready _ => state.enter call .failed
      | _ => state

/-- The request as its endpoint runs it. -/
def Request.run (settings : Settings) (raw : String) (request : Request) : Session PUnit :=
  match request.endpoint with
  | .refresh newRaw => do
      let _ ← consumeRefreshToken settings request.now newRaw raw
  | .logout => revokeRefreshToken settings request.now raw

theorem issueRefreshToken_eq (settings : Settings) (now : Timestamp) (newRaw : String) (userId : Uuid) (tokens : Tokens) :
    issueRefreshToken settings now newRaw userId tokens =
      match tokens.add (newToken settings now newRaw userId) with
      | .ok after => .ok newRaw after
      | .error reason => .error reason tokens := by
  unfold issueRefreshToken
  rw [bind_of_ok (read_eq_ok.mpr ⟨rfl, rfl⟩)]
  change (lift (tokens.add _) >>= _) tokens = _
  cases added : tokens.add (newToken settings now newRaw userId) with
  | ok after => rfl
  | error reason => rfl

theorem consumeRefreshToken_commits (settings : Settings) (now : Timestamp) (newRaw raw : String) (tokens : Tokens) :
    (transact (do let _ ← consumeRefreshToken settings now newRaw raw : Session PUnit) tokens).2 =
      (Request.commit settings ⟨.refresh newRaw, now⟩ ((tokens.byHash? (settings.hashRefresh raw)).filter (·.usable now))
        tokens).1 := by
  have looked : (read (·.byHash? (settings.hashRefresh raw)) : Session _) tokens =
      .ok (tokens.byHash? (settings.hashRefresh raw)) tokens := rfl
  simp only [consumeRefreshToken, bind_assoc]
  rw [transact, bind_of_ok looked]
  cases tokens.byHash? (settings.hashRefresh raw) with
  | none => rfl
  | some row =>
      cases usable : row.usable now with
      | false =>
          simp only [Option.filter_some, usable, Bool.false_eq_true, if_false]
          rfl
      | true =>
          have revokes : (write (·.revoke now row.id) : Session PUnit) tokens = .ok ⟨⟩ (tokens.revoke now row.id) := rfl
          have issues := issueRefreshToken_eq settings now newRaw row.userId (tokens.revoke now row.id)
          rw [Option.filter_some, usable, if_pos rfl]
          simp only [usable, if_true, bind_assoc, bind_of_ok revokes, Request.commit]
          cases added : (tokens.revoke now row.id).add (newToken settings now newRaw row.userId) with
          | ok after =>
              rw [added] at issues
              rw [bind_of_ok issues]
              rfl
          | error reason =>
              rw [added] at issues
              rw [bind_of_error issues]

theorem revokeRefreshToken_commits (settings : Settings) (now : Timestamp) (raw : String) (tokens : Tokens) :
    (transact (revokeRefreshToken settings now raw) tokens).2 =
      (Request.commit settings ⟨.logout, now⟩ ((tokens.byHash? (settings.hashRefresh raw)).filter (·.revokedAt.isNone))
        tokens).1 := by
  have looked : (read (·.byHash? (settings.hashRefresh raw)) : Session _) tokens =
      .ok (tokens.byHash? (settings.hashRefresh raw)) tokens := rfl
  rw [transact, revokeRefreshToken, bind_of_ok looked]
  cases tokens.byHash? (settings.hashRefresh raw) with
  | none => rfl
  | some row =>
      cases standing : row.revokedAt.isNone with
      | false =>
          simp only [Option.filter_some, standing, Bool.false_eq_true, if_false]
          rfl
      | true =>
          simp only [Option.filter_some, standing, if_true]
          rfl

/-- A request that nobody interrupts does what its endpoint does. -/
theorem uninterrupted (settings : Settings) (raw : String) (requests : Nat → Request) (state : State) (call : Nat)
    (waiting : state.phase call = .waiting) :
    ([.read call, .commit call].foldl (step settings raw requests) state).tokens =
      (transact ((requests call).run settings raw) state.tokens).2 := by
  have ready (row : Option RefreshToken) (found : (requests call).found
      (state.tokens.byHash? (settings.hashRefresh raw)) = .ready row) :
      ([.read call, .commit call].foldl (step settings raw requests) state).tokens =
        ((requests call).commit settings row state.tokens).1 := by
    simp [step, waiting, found, State.enter]
  have failed (found : (requests call).found (state.tokens.byHash? (settings.hashRefresh raw)) = .failed) :
      ([.read call, .commit call].foldl (step settings raw requests) state).tokens = state.tokens := by
    simp [step, waiting, found, State.enter]
  generalize requests call = request at ready failed ⊢
  obtain ⟨endpoint, now⟩ := request
  cases endpoint with
  | logout => exact (ready _ rfl).trans (revokeRefreshToken_commits ..).symm
  | refresh newRaw =>
      refine Eq.trans ?_ (consumeRefreshToken_commits settings now newRaw raw state.tokens).symm
      cases row : state.tokens.byHash? (settings.hashRefresh raw) with
      | none => exact failed (by rw [row]; rfl)
      | some found =>
          cases usable : found.usable now with
          | false =>
              rw [failed (by rw [row]; simp [Request.found, usable]), Option.filter_some, usable, if_neg Bool.false_ne_true]
              rfl
          | true =>
              rw [ready (some found) (by rw [row]; simp [Request.found, usable]), Option.filter_some, usable, if_pos rfl]

/-! ## What must hold at any time -/

section Machine

variable {settings : Settings} {raw : String} {requests : Nat → Request} {state : State} {tokens before after : Tokens}
variable {request : Request} {call : Nat} {phase : Phase} {tokenHash : String} {now : Timestamp} {id : Uuid}

/-- The presented token, and what the requests have issued for it. -/
def InSession (settings : Settings) (raw : String) (state : State) (row : RefreshToken) : Prop :=
  row.tokenHash = settings.hashRefresh raw ∨ ∃ call, state.phase call = .refreshed row.id

/-- At most one refresh has succeeded, and at any time the session has at most one
usable token. -/
structure SpentOnce (settings : Settings) (raw : String) (state : State) : Prop where
  once : ∀ first second token other, state.phase first = .refreshed token → state.phase second = .refreshed other →
    first = second
  single : ∀ now, ∀ first ∈ state.tokens.table.rows, ∀ second ∈ state.tokens.table.rows,
    InSession settings raw state first → InSession settings raw state second →
      first.usable now = true → second.usable now = true → first = second

/-- A refresh that starts after a logout has committed is refused. -/
def RefusedAfterLogout (requests : Nat → Request) (before after : State) : Event → Prop
  | .read call => (∃ other, before.phase other = .loggedOut) → before.phase call = .waiting →
      ∀ newRaw, (requests call).endpoint = .refresh newRaw → after.phase call = .failed
  | _ => True

/-- The token is spent once along the run. -/
def TokenSafe (settings : Settings) (raw : String) (requests : Nat → Request) (initial : State) (events : List Event) : Prop :=
  SpentOnce settings raw initial ∧ Along (step settings raw requests) (fun before event =>
    SpentOnce settings raw (step settings raw requests before event) ∧
      RefusedAfterLogout requests before (step settings raw requests before event) event) initial events

/-- A refresh that has read the token as usable, and whose new token can be stored. -/
def Commits (settings : Settings) (requests : Nat → Request) (state : State) (call : Nat) : Prop :=
  ∃ row newRaw, state.phase call = .ready (some row) ∧ (requests call).endpoint = .refresh newRaw ∧
    ∀ other ∈ state.tokens.table.rows, other.tokenHash ≠ settings.hashRefresh newRaw

/-- A refresh that has read the token as usable before another refresh of it commits
does not commit after it. -/
def Separate (settings : Settings) (raw : String) (requests : Nat → Request) (initial : State) (events : List Event) : Prop :=
  ∀ before first between second after, events = before ++ .commit first :: (between ++ .commit second :: after) →
    Commits settings requests (before.foldl (step settings raw requests) initial) first → first ≠ second →
      ∀ row, (before.foldl (step settings raw requests) initial).phase second = .ready (some row) →
        ¬ Commits settings requests ((before ++ .commit first :: between).foldl (step settings raw requests) initial) second

/-! ## The rows -/

/-- Every row with this hash is revoked. -/
def Spent (tokenHash : String) (tokens : Tokens) : Prop :=
  ∀ row ∈ tokens.table.rows, row.tokenHash = tokenHash → row.revokedAt.isSome = true

/-- A row of the hash is stored under the key. -/
def Stored (tokenHash : String) (id : Uuid) (tokens : Tokens) : Prop :=
  ∃ row ∈ tokens.table.rows, row.id = id ∧ row.tokenHash = tokenHash

/-- Rows stay, no row gets the hash, and none is restored. -/
structure Kept (tokenHash : String) (before after : Tokens) : Prop where
  stored : ∀ id, Stored tokenHash id before → Stored tokenHash id after
  spent : Spent tokenHash before → Spent tokenHash after

theorem mem_revoke {row : RefreshToken} : row ∈ (tokens.revoke now id).table.rows ↔
    (∃ old ∈ tokens.table.rows, old.id = id ∧ row = { old with revokedAt := some now }) ∨
      (row ∈ tokens.table.rows ∧ row.id ≠ id) :=
  Table.mem_update

theorem revoke_kept : Kept tokenHash tokens (tokens.revoke now id) := by
  constructor
  · rintro other ⟨row, member, rfl, hash⟩
    by_cases hit : row.id = id
    · exact ⟨{ row with revokedAt := some now }, mem_revoke.mpr (.inl ⟨row, member, hit, rfl⟩), rfl, hash⟩
    · exact ⟨row, mem_revoke.mpr (.inr ⟨member, hit⟩), rfl, hash⟩
  · intro spent row member hash
    rcases mem_revoke.mp member with ⟨_, _, _, rfl⟩ | ⟨old, _⟩
    · rfl
    · exact spent row old hash

/-- Revoking the one row of a hash spends it. -/
theorem revoke_spent (stored : Stored tokenHash id tokens) : Spent tokenHash (tokens.revoke now id) := by
  obtain ⟨own, ownMember, rfl, ownHash⟩ := stored
  intro row member hash
  rcases mem_revoke.mp member with ⟨_, _, _, rfl⟩ | ⟨old, different⟩
  · rfl
  · have same := tokens.unique row old own ownMember tokenHash (congrArg some hash) (congrArg some ownHash)
    exact absurd (congrArg RefreshToken.id same) different

theorem add_ok {row : RefreshToken} (added : tokens.add row = .ok after) :
    (∀ other ∈ tokens.table.rows, other.tokenHash ≠ row.tokenHash) ∧
      after.table.rows = tokens.table.rows ++ [tokens.table.newRow row] := by
  unfold Tokens.add at added
  split at added
  · next absent =>
    cases added
    exact ⟨absent, rfl⟩
  · cases added

theorem add_kept {row : RefreshToken} (stored : Stored tokenHash id tokens) (added : tokens.add row = .ok after) :
    Kept tokenHash tokens after := by
  obtain ⟨absent, rows⟩ := add_ok added
  obtain ⟨own, ownMember, _, ownHash⟩ := stored
  constructor
  · rintro other ⟨old, member, same, hash⟩
    exact ⟨old, rows ▸ List.mem_append_left _ member, same, hash⟩
  · intro spent later member hash
    rw [rows, List.mem_append, List.mem_singleton] at member
    rcases member with old | rfl
    · exact spent later old hash
    · exact absurd (ownHash.trans hash.symm) (absent own ownMember)

theorem Kept.trans {middle : Tokens} (first : Kept tokenHash before middle) (second : Kept tokenHash middle after) :
    Kept tokenHash before after :=
  ⟨fun id stored => second.stored id (first.stored id stored), fun spent => second.spent (first.spent spent)⟩

/-! ## The steps of a request -/

/-- What a phase relies on. -/
def Holds (tokenHash : String) (tokens : Tokens) : Phase → Prop
  | .ready (some row) => Stored tokenHash row.id tokens
  | .ready none | .refreshed _ | .loggedOut => Spent tokenHash tokens
  | .waiting | .failed => True

theorem Holds.kept (holds : Holds tokenHash before phase) (kept : Kept tokenHash before after) :
    Holds tokenHash after phase := by
  match phase, holds with
  | .ready (some row), holds => exact kept.stored _ holds
  | .ready none, holds => exact kept.spent holds
  | .refreshed _, holds => exact kept.spent holds
  | .loggedOut, holds => exact kept.spent holds
  | .waiting, _ => trivial
  | .failed, _ => trivial

theorem byHash?_none (missing : tokens.byHash? tokenHash = none) : Spent tokenHash tokens :=
  fun row member hash => absurd (congrArg some hash) (identified?_eq_none_iff.mp missing row member)

theorem byHash?_some {row : RefreshToken} (found : tokens.byHash? tokenHash = some row) :
    row ∈ tokens.table.rows ∧ row.tokenHash = tokenHash := by
  obtain ⟨member, hash⟩ := identified?_some found
  exact ⟨member, Option.some.inj hash⟩

theorem spent_of_revoked {row : RefreshToken} (found : tokens.byHash? tokenHash = some row)
    (revoked : row.revokedAt.isSome = true) : Spent tokenHash tokens := by
  obtain ⟨member, own⟩ := byHash?_some found
  intro other otherMember hash
  rwa [tokens.unique other otherMember row member tokenHash (congrArg some hash) (congrArg some own)]

theorem found_holds : Holds tokenHash tokens (request.found (tokens.byHash? tokenHash)) := by
  unfold Request.found
  cases found : tokens.byHash? tokenHash with
  | none =>
      cases request.endpoint with
      | refresh newRaw => trivial
      | logout => exact byHash?_none found
  | some row =>
      have stored : Stored tokenHash row.id tokens := ⟨row, (byHash?_some found).1, rfl, (byHash?_some found).2⟩
      cases request.endpoint with
      | refresh newRaw =>
          dsimp only
          split
          · exact stored
          · trivial
      | logout =>
          cases revoked : row.revokedAt with
          | none =>
              have kept : (some row).filter (·.revokedAt.isNone) = some row := by simp [revoked]
              dsimp only
              rw [kept]
              exact stored
          | some time =>
              have dropped : (some row).filter (·.revokedAt.isNone) = none := by simp [revoked]
              dsimp only
              rw [dropped]
              exact spent_of_revoked found (by rw [revoked]; rfl)

/-- A refresh of a token that is spent is refused. -/
theorem found_of_spent {newRaw : String} (refreshes : request.endpoint = .refresh newRaw) (spent : Spent tokenHash tokens) :
    request.found (tokens.byHash? tokenHash) = .failed := by
  rw [Request.found, refreshes]
  cases found : tokens.byHash? tokenHash with
  | none => rfl
  | some row =>
      obtain ⟨member, hash⟩ := byHash?_some found
      have revoked := spent row member hash
      refine if_neg ?_
      cases time : row.revokedAt with
      | none => simp [time] at revoked
      | some time' => simp [RefreshToken.usable, time]

/-- What a commit leaves, when its row is stored. -/
inductive Committed (settings : Settings) (request : Request) (tokenHash : String) (tokens : Tokens) :
    Option RefreshToken → Tokens × Phase → Prop where
  | failed {row : Option RefreshToken} : Committed settings request tokenHash tokens row (tokens, .failed)
  | refreshed {row : RefreshToken} {newRaw : String} {after : Tokens} {token : Uuid}
      (refreshes : request.endpoint = .refresh newRaw)
      (fresh : ∀ other ∈ tokens.table.rows, other.tokenHash ≠ settings.hashRefresh newRaw)
      (kept : Kept tokenHash tokens after) (spent : Spent tokenHash after) :
      Committed settings request tokenHash tokens (some row) (after, .refreshed token)
  | loggedOut {row : Option RefreshToken} {after : Tokens} (kept : Kept tokenHash tokens after)
      (spent : Spent tokenHash after) : Committed settings request tokenHash tokens row (after, .loggedOut)

theorem Kept.refl (tokenHash : String) (tokens : Tokens) : Kept tokenHash tokens tokens := ⟨fun _ => id, id⟩

theorem commit_cases {row : Option RefreshToken} (holds : Holds tokenHash tokens (.ready row)) :
    Committed settings request tokenHash tokens row (request.commit settings row tokens) := by
  unfold Request.commit
  match endpoint : request.endpoint, row with
  | .refresh newRaw, some row =>
      have revoked : Kept tokenHash tokens (tokens.revoke request.now row.id) := revoke_kept
      cases added : (tokens.revoke request.now row.id).add (newToken settings request.now newRaw row.userId) with
      | error reason =>
          simp only [added]
          exact .failed
      | ok after =>
          simp only [added]
          have kept := add_kept (revoked.stored row.id holds) added
          refine .refreshed endpoint (fun other member => ?_) (revoked.trans kept) (kept.spent (revoke_spent holds))
          by_cases hit : other.id = row.id
          · exact (add_ok added).1 { other with revokedAt := some request.now }
              (mem_revoke.mpr (.inl ⟨other, member, hit, rfl⟩))
          · exact (add_ok added).1 other (mem_revoke.mpr (.inr ⟨member, hit⟩))
  | .refresh newRaw, none => exact .failed
  | .logout, some row => exact .loggedOut revoke_kept (revoke_spent holds)
  | .logout, none => exact .loggedOut (.refl _ _) holds

/-- What the phases rely on holds. -/
def Held (settings : Settings) (raw : String) (state : State) : Prop :=
  ∀ call, Holds (settings.hashRefresh raw) state.tokens (state.phase call)

structure Invariant (settings : Settings) (raw : String) (state : State) : Prop where
  once : ∀ first second token other, state.phase first = .refreshed token → state.phase second = .refreshed other →
    first = second
  held : Held settings raw state

/-- A session whose token is spent at most once has at most one usable token. -/
theorem Invariant.spentOnce (invariant : Invariant settings raw state) : SpentOnce settings raw state := by
  refine ⟨invariant.once, fun now first firstMember second secondMember firstIn secondIn firstUsable secondUsable => ?_⟩
  have unspent {row : RefreshToken} {call : Nat} {token : Uuid} (member : row ∈ state.tokens.table.rows)
      (done : state.phase call = .refreshed token) (usable : row.usable now = true) :
      row.tokenHash ≠ settings.hashRefresh raw := by
    intro hash
    have spent := invariant.held call
    rw [done] at spent
    have revoked := spent row member hash
    cases time : row.revokedAt with
    | none => simp [time] at revoked
    | some _ => simp [RefreshToken.usable, time] at usable
  rcases firstIn with firstHash | ⟨firstCall, firstDone⟩
  · rcases secondIn with secondHash | ⟨secondCall, secondDone⟩
    · exact state.tokens.unique first firstMember second secondMember _ (congrArg some firstHash) (congrArg some secondHash)
    · exact absurd firstHash (unspent firstMember secondDone firstUsable)
  · rcases secondIn with secondHash | ⟨secondCall, secondDone⟩
    · exact absurd secondHash (unspent secondMember firstDone secondUsable)
    · obtain rfl := invariant.once firstCall secondCall _ _ firstDone secondDone
      rw [firstDone, Phase.refreshed.injEq] at secondDone
      exact Table.eq_of_key_eq firstMember secondMember secondDone

/-- One request moves on, over tables that keep what the others rely on. -/
theorem Held.moved (held : Held settings raw state) (kept : Kept (settings.hashRefresh raw) state.tokens after)
    (holds : Holds (settings.hashRefresh raw) after phase) :
    Held settings raw ⟨after, Function.update state.phase call phase⟩ := by
  intro other
  change Holds _ after (Function.update state.phase call phase other)
  by_cases same : other = call
  · subst same
    rwa [Function.update_self]
  · rw [Function.update_of_ne same]
    exact (held other).kept kept

/-- Every step keeps what the requests rely on. -/
theorem step_held (held : Held settings raw state) (event : Event) :
    Kept (settings.hashRefresh raw) state.tokens (step settings raw requests state event).tokens ∧
      Held settings raw (step settings raw requests state event) := by
  cases event with
  | read call =>
      simp only [step]
      split
      · exact ⟨.refl _ _, held.moved (.refl _ _) found_holds⟩
      · exact ⟨.refl _ _, held⟩
  | abort call =>
      simp only [step]
      split
      · exact ⟨.refl _ _, held.moved (.refl _ _) trivial⟩
      · exact ⟨.refl _ _, held.moved (.refl _ _) trivial⟩
      · exact ⟨.refl _ _, held⟩
  | commit call =>
      simp only [step]
      split
      · next row ready =>
        have holds := held call
        rw [ready] at holds
        have committed : Committed settings (requests call) (settings.hashRefresh raw) state.tokens row
            ((requests call).commit settings row state.tokens) := commit_cases holds
        generalize (requests call).commit settings row state.tokens = result at committed ⊢
        cases committed with
        | failed => exact ⟨.refl _ _, held.moved (.refl _ _) trivial⟩
        | refreshed refreshes fresh kept spent => exact ⟨kept, held.moved kept spent⟩
        | loggedOut kept spent => exact ⟨kept, held.moved kept spent⟩
      · exact ⟨.refl _ _, held⟩

theorem found_unfinished (request : Request) (row : Option RefreshToken) (token : Uuid) :
    request.found row ≠ .refreshed token := by
  unfold Request.found
  split
  · split <;> nofun
  · nofun

/-- A phase that a step has not entered was there before. -/
theorem phase_before {moved : Nat} {target : Phase} (reached : Function.update state.phase moved phase call = target)
    (unentered : call = moved → phase ≠ target) : state.phase call = target := by
  by_cases same : call = moved
  · subst same
    exact absurd ((Function.update_self ..).symm.trans reached) (unentered rfl)
  · exact (Function.update_of_ne same ..).symm.trans reached

/-- Only its own commit makes a refresh succeed. -/
theorem step_refreshed (held : Held settings raw state) {event : Event}
    {token : Uuid} (done : (step settings raw requests state event).phase call = .refreshed token) :
    state.phase call = .refreshed token ∨ (event = .commit call ∧ Commits settings requests state call) := by
  cases event with
  | read other =>
      simp only [step] at done
      split at done
      · exact .inl (phase_before done fun _ => found_unfinished _ _ _)
      · exact .inl done
  | abort other =>
      simp only [step] at done
      split at done
      · exact .inl (phase_before done fun _ => Phase.noConfusion)
      · exact .inl (phase_before done fun _ => Phase.noConfusion)
      · exact .inl done
  | commit other =>
      simp only [step] at done
      split at done
      · next row ready =>
        have holds := held other
        rw [ready] at holds
        have committed : Committed settings (requests other) (settings.hashRefresh raw) state.tokens row
            ((requests other).commit settings row state.tokens) := commit_cases holds
        generalize (requests other).commit settings row state.tokens = result at committed done
        cases committed with
        | failed => exact .inl (phase_before done fun _ => Phase.noConfusion)
        | loggedOut kept spent => exact .inl (phase_before done fun _ => Phase.noConfusion)
        | refreshed refreshes fresh kept spent =>
            by_cases same : call = other
            · subst same
              exact .inr ⟨rfl, _, _, ready, refreshes, fresh⟩
            · exact .inl ((Function.update_of_ne same ..).symm.trans done)
      · exact .inl done

/-- No refresh commits after another one has. -/
def Alone (settings : Settings) (requests : Nat → Request) (state : State) : Event → Prop
  | .commit call => Commits settings requests state call → ∀ other token, state.phase other ≠ .refreshed token
  | _ => True

/-- A step keeps the invariant, unless it is a refresh that commits after another. -/
theorem Invariant.step (invariant : Invariant settings raw state) {event : Event}
    (alone : Alone settings requests state event) : Invariant settings raw (step settings raw requests state event) := by
  refine ⟨fun first second token other firstDone secondDone => ?_, (step_held invariant.held event).2⟩
  rcases step_refreshed invariant.held firstDone with firstBefore | ⟨rfl, commits⟩
  · rcases step_refreshed invariant.held secondDone with secondBefore | ⟨rfl, commits⟩
    · exact invariant.once first second token other firstBefore secondBefore
    · exact absurd firstBefore (alone commits first token)
  · rcases step_refreshed invariant.held secondDone with secondBefore | ⟨same, _⟩
    · exact absurd secondBefore (alone commits second other)
    · exact Event.commit.inj same

/-- A logout that has committed refuses every refresh that starts later. -/
theorem Invariant.refused (invariant : Invariant settings raw state) (event : Event) :
    RefusedAfterLogout requests state (Identity.step settings raw requests state event) event := by
  cases event with
  | read call =>
      rintro ⟨other, loggedOut⟩ waiting newRaw refreshes
      have spent := invariant.held other
      rw [loggedOut] at spent
      simp only [Identity.step, waiting, State.enter, Function.update_self]
      exact found_of_spent refreshes spent
  | commit _ | abort _ => trivial

theorem revoke_hashes {other : RefreshToken} (member : other ∈ (tokens.revoke now id).table.rows) :
    ∃ old ∈ tokens.table.rows, old.tokenHash = other.tokenHash := by
  rcases mem_revoke.mp member with ⟨old, oldMember, _, rfl⟩ | ⟨old, _⟩
  · exact ⟨old, oldMember, rfl⟩
  · exact ⟨other, old, rfl⟩

/-- A refresh whose new token is fresh succeeds. -/
theorem commit_refreshes {row : RefreshToken} {newRaw : String} (refreshes : request.endpoint = .refresh newRaw)
    (fresh : ∀ other ∈ tokens.table.rows, other.tokenHash ≠ settings.hashRefresh newRaw) :
    ((request.commit settings (some row) tokens).2 = .refreshed tokens.table.freshKey) := by
  have absent : ∀ other ∈ (tokens.revoke request.now row.id).table.rows,
      other.tokenHash ≠ (newToken settings request.now newRaw row.userId).tokenHash := by
    intro other member
    obtain ⟨old, oldMember, same⟩ := revoke_hashes member
    rw [← same]
    exact fresh old oldMember
  unfold Request.commit
  rw [refreshes]
  simp only [Tokens.add, dif_pos absent]

theorem step_of_commits (commits : Commits settings requests state call) :
    (step settings raw requests state (.commit call)).phase call = .refreshed state.tokens.table.freshKey := by
  obtain ⟨row, newRaw, ready, refreshes, fresh⟩ := commits
  simp only [step, ready, Function.update_self]
  exact commit_refreshes refreshes fresh

theorem commit_other {other : Nat} (different : call ≠ other) :
    (step settings raw requests state (.commit other)).phase call = state.phase call := by
  simp only [step]
  split
  · exact Function.update_of_ne different ..
  · rfl

/-- A refresh that has succeeded has done so for good. -/
theorem step_ended {event : Event} {token : Uuid} (done : state.phase call = .refreshed token) :
    (step settings raw requests state event).phase call = .refreshed token := by
  have elsewhere {moved : Nat} {phase : Phase} (unfinished : state.phase moved ≠ .refreshed token) :
      Function.update state.phase moved phase call = .refreshed token := by
    refine (Function.update_of_ne ?_ ..).trans done
    rintro rfl
    exact unfinished done
  cases event with
  | read other | abort other | commit other =>
      simp only [step]
      split
      all_goals first
        | exact done
        | next phase => exact elsewhere (by rw [phase]; nofun)

/-- ... so where two refreshes may not both succeed each commits alone. -/
theorem alone_of_spentOnce {event : Event} (sound : SpentOnce settings raw (Identity.step settings raw requests state event)) :
    Alone settings requests state event := by
  cases event with
  | commit call =>
      intro commits other token done
      have same : other = call := sound.once other call _ _ (step_ended done) (step_of_commits commits)
      obtain ⟨row, _, ready, _⟩ := commits
      rw [same, ready] at done
      cases done
  | read _ | abort _ => trivial

/-! ## Who read before whom -/

/-- A refresh that is ready once the token is spent has read it before. -/
theorem ready_before {event : Event} {row : RefreshToken} {newRaw : String} (refreshes : (requests call).endpoint = .refresh newRaw)
    (spent : Spent (settings.hashRefresh raw) state.tokens)
    (ready : (step settings raw requests state event).phase call = .ready (some row)) :
    state.phase call = .ready (some row) := by
  cases event with
  | read other =>
      simp only [step] at ready
      split at ready
      · refine phase_before ready fun same => ?_
        subst same
        rw [found_of_spent refreshes spent]
        nofun
      · exact ready
  | abort other =>
      simp only [step] at ready
      split at ready
      · exact phase_before ready fun _ => Phase.noConfusion
      · exact phase_before ready fun _ => Phase.noConfusion
      · exact ready
  | commit other =>
      simp only [step] at ready
      split at ready
      · refine phase_before ready fun _ => ?_
        unfold Request.commit
        split
        · split <;> nofun
        · nofun
        · nofun
        · nofun
      · exact ready

theorem run_ready_before {events : List Event} {row : RefreshToken} {newRaw : String}
    (refreshes : (requests call).endpoint = .refresh newRaw)
    (held : Held settings raw state)
    (spent : Spent (settings.hashRefresh raw) state.tokens)
    (ready : (events.foldl (step settings raw requests) state).phase call = .ready (some row)) :
    state.phase call = .ready (some row) := by
  induction events generalizing state with
  | nil => exact ready
  | cons event rest ih =>
      obtain ⟨kept, later⟩ := step_held held event
      exact ready_before refreshes spent (ih later (kept.spent spent) ready)

theorem run_held (held : Held settings raw state) (events : List Event) :
    Held settings raw (events.foldl (step settings raw requests) state) := by
  induction events generalizing state with
  | nil => exact held
  | cons event rest ih => exact ih (step_held held event).2

theorem run_ended {events : List Event} {token : Uuid} (done : state.phase call = .refreshed token) :
    (events.foldl (step settings raw requests) state).phase call = .refreshed token := by
  induction events generalizing state with
  | nil => exact done
  | cons event rest ih => exact ih (step_ended done)

/-- A refresh that has succeeded in a run has committed in it. -/
theorem refreshed_committed {initial : State} {events : List Event} {token : Uuid}
    (held : Held settings raw initial)
    (unfinished : initial.phase call ≠ .refreshed token)
    (done : (events.foldl (step settings raw requests) initial).phase call = .refreshed token) :
    ∃ before between, events = before ++ .commit call :: between ∧
      Commits settings requests (before.foldl (step settings raw requests) initial) call := by
  induction events using List.reverseRecOn with
  | nil => exact absurd done unfinished
  | append_singleton events event ih =>
      rw [List.foldl_append] at done
      rcases step_refreshed (run_held held events) done with earlier | ⟨rfl, commits⟩
      · obtain ⟨before, between, rfl, commits⟩ := ih earlier
        exact ⟨before, between ++ [event], by simp, commits⟩
      · exact ⟨events, [], rfl, commits⟩

/-- Each refresh of a run commits alone exactly if none has read before another commits. -/
theorem alone_iff_separate {initial : State} {events : List Event}
    (held : Held settings raw initial)
    (unfinished : ∀ call token, initial.phase call ≠ .refreshed token) :
    Along (step settings raw requests) (Alone settings requests) initial events ↔
      Separate settings raw requests initial events := by
  rw [along_iff]
  constructor
  · rintro alone before first between second after rfl commits different row - again
    have done : ∃ token, ((before ++ .commit first :: between).foldl (step settings raw requests) initial).phase first =
        .refreshed token := by
      rw [List.foldl_append, List.foldl_cons]
      exact ⟨_, run_ended (step_of_commits commits)⟩
    obtain ⟨token, done⟩ := done
    exact alone (before ++ .commit first :: between) (.commit second) after (by simp) again first token done
  · intro separate before event after split
    cases event with
    | read _ | abort _ => trivial
    | commit call =>
        rintro commits other token done
        obtain ⟨earlier, between, rfl, first⟩ := refreshed_committed held (unfinished other token) done
        have again := commits
        obtain ⟨row, newRaw, ready, refreshes, _⟩ := commits
        have different : other ≠ call := by
          rintro rfl
          rw [ready] at done
          cases done
        have reached : Held settings raw
            ([.commit other].foldl (step settings raw requests) (earlier.foldl (step settings raw requests) initial)) :=
          run_held (run_held held earlier) _
        have spent := reached other
        rw [List.foldl_cons, List.foldl_nil, step_of_commits first] at spent
        rw [List.foldl_append, List.foldl_cons] at ready
        have read := run_ready_before refreshes reached spent ready
        rw [List.foldl_cons, List.foldl_nil, commit_other different.symm] at read
        exact separate earlier other between call after (by simpa using split) first different row read again

end Machine

/-! ## Every run -/

/-- No request has started. -/
def opened (tokens : Tokens) : State := ⟨tokens, fun _ => .waiting⟩

/-- However the requests interleave, the token is spent once exactly if no refresh
that has read it before another one commits does so after it. -/
theorem tokenSafe_iff_separate (settings : Settings) (raw : String) (requests : Nat → Request) (tokens : Tokens)
    (events : List Event) :
    TokenSafe settings raw requests (opened tokens) events ↔ Separate settings raw requests (opened tokens) events := by
  have start : Invariant settings raw (opened tokens) := ⟨nofun, fun _ => trivial⟩
  rw [← alone_iff_separate start.held fun _ _ => Phase.noConfusion, TokenSafe, and_iff_right start.spentOnce]
  refine along_congr start (fun before event invariant => ⟨fun good => alone_of_spentOnce good.1, fun alone => ?_⟩)
    fun before event invariant alone => invariant.step alone
  exact ⟨(invariant.step alone).spentOnce, invariant.refused event⟩

/-- A session with one token, which hashes to itself. -/
def signedIn : Tokens where
  table := Table.empty.insert ⟨0, 7, "token", 100, none⟩
  unique := unique_empty.insert nofun

def plain : Settings := ⟨id, 50⟩

def bothRefresh (call : Nat) : Request := ⟨.refresh (if call = 0 then "first" else "second"), 10⟩

/-- Two refreshes that read the token before either of them commits both succeed. -/
theorem both_refreshes_succeed :
    ¬ TokenSafe plain "token" bothRefresh (opened signedIn) [.read 0, .read 1, .commit 0, .commit 1] := by
  rintro ⟨_, _, _, _, ⟨⟨once, _⟩, _⟩, _⟩
  have same := once 0 1 2 3 (by decide +kernel) (by decide +kernel)
  cases same

end SmartProcurement.Identity
