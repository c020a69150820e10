import SmartProcurement.Core.Uuids
import SmartProcurement.Identity.Directory
import SmartProcurement.Identity.RefreshTokens
import SmartProcurement.Transaction.Achieves

namespace SmartProcurement.Identity.Access

open Relational Transaction

/-! # Signing in

An access token says who its bearer is.  What the bearer may do is read from the
accounts at every request; the permissions that a token lists are for clients only.
-/

/-- An error of the application, with its status and code, or an unexpected one. -/
inductive Refusal where
  | app (status : Nat) (code message : String)
  | service (reason : Error)
  | unexpected (shown : String)
deriving DecidableEq, Repr

def unauthorized (message : String) : Refusal := .app 401 "unauthorized" message

def configError (message : String) : Refusal := .app 500 "config_error" message

def permissionDenied (message : String) : Refusal := .app 403 "permission_denied" message

/-- The claims of an access token; `iat` and `exp` are integers for the decoder. -/
structure Claims where
  sub : Option Json
  perms : Option Json
  iat : Option Int
  exp : Option Int
  typ : Option Json

/-- What the libraries for tokens and passwords do with the secrets of the settings. -/
structure Crypto where
  encode : Claims → String
  /-- Nothing for an `InvalidTokenError`. -/
  decode : Timestamp → String → Option Claims
  /-- Whether the hash is of the password; anything but a mismatch is raised. -/
  verify : (hashed plaintext : String) → Except String Bool

/-- A token that decodes is the one that was encoded, and has not expired. -/
structure Crypto.Sound (crypto : Crypto) : Prop where
  faithful : ∀ now claims read, crypto.decode now (crypto.encode claims) = some read → read = claims
  expires : ∀ now token claims exp, crypto.decode now token = some claims → claims.exp = some exp → now < 1000000 * exp

structure Config where
  settings : Settings
  crypto : Crypto
  accessTtl : Int

structure Accounts where
  directory : Directory
  tokens : Tokens

abbrev AccountSession := EStateM Refusal Accounts

/-- A service of the refresh tokens in the session of the accounts. -/
def withTokens {α : Type} (body : Identity.Session α) : AccountSession α := fun before =>
  match body before.tokens with
  | .ok value after => .ok value { before with tokens := after }
  | .error reason after => .error (.service reason) { before with tokens := after }

/-! ## `identity/` -/

/-- `int(now.timestamp())`. -/
def seconds (now : Timestamp) : Int := now.tdiv 1000000

/-- The claims of the token, issued now for its whole lifetime. -/
def accessClaims (config : Config) (now : Timestamp) (userId : Uuid) (permissions : List String) : Claims where
  sub := some (.string (uuidText userId))
  perms := some (.array (permissions.map .string))
  iat := some (seconds now)
  exp := some (seconds (now + config.accessTtl))
  typ := some (.string "access")

def issueAccessToken (config : Config) (now : Timestamp) (userId : Uuid) (permissions : List String) : String :=
  config.crypto.encode (accessClaims config now userId permissions)

/-- The single active enterprise of the deployment. -/
def getActiveEnterpriseId (directory : Directory) : Except Refusal Uuid :=
  match directory.enterprise.rows.take 2 with
  | [] => .error (configError "no enterprise configured")
  | [row] => .ok row.id
  | _ => .error (configError "multiple enterprises present; v1 expects exactly one")

def verifyPassword (crypto : Crypto) (plaintext hashed : String) : Except Refusal Bool :=
  match crypto.verify hashed plaintext with
  | .ok verified => .ok verified
  | .error shown => .error (.unexpected shown)

structure AuthenticatedUser where
  id : Uuid
  enterpriseId : Uuid
deriving DecidableEq, Repr

/-- `LocalAuthProvider.authenticate`. -/
def authenticate (crypto : Crypto) (directory : Directory) (enterpriseId : Uuid) (email password : String) :
    Except Refusal (Option AuthenticatedUser) :=
  match directory.getUserByEmail enterpriseId email with
  | none => .ok none
  | some user =>
      if !user.isActive then .ok none
      else do
        if ← verifyPassword crypto password user.passwordHash then return some ⟨user.id, user.enterpriseId⟩
        else return none

structure CurrentUser where
  id : Uuid
  enterpriseId : Uuid
  permissions : List String
deriving DecidableEq, Repr

def CurrentUser.has (user : CurrentUser) (permission : String) : Bool := permission ∈ user.permissions

structure Credentials where
  scheme : String
  credentials : String
deriving DecidableEq, Repr

def bearerToken : Option Credentials → Except Refusal String
  | none => .error (unauthorized "missing bearer token")
  | some given =>
      if Text.lower given.scheme ≠ "bearer" then .error (unauthorized "missing bearer token") else .ok given.credentials

/-- `uuid.UUID(payload["sub"])`. -/
def subject (claims : Claims) : Except Refusal Uuid :=
  match claims.sub with
  | none => .error (.unexpected "KeyError('sub')")
  | some (.string text) =>
      match uuidOf? text with
      | some id => .ok id
      | none => .error (.unexpected "ValueError('badly formed hexadecimal UUID string')")
  | some _ => .error (.unexpected "AttributeError")

def isAccess (claims : Claims) : Bool :=
  match claims.typ with
  | some (.string typ) => typ == "access"
  | _ => false

/-- The user that the bearer token names. -/
def bearer (crypto : Crypto) (now : Timestamp) (credentials : Option Credentials) : Except Refusal Uuid := do
  let token ← bearerToken credentials
  match crypto.decode now token with
  | none => throw (unauthorized "invalid or expired token")
  | some claims => if isAccess claims then subject claims else throw (unauthorized "wrong token type")

def activeUser (directory : Directory) (userId : Uuid) : Except Refusal User :=
  match directory.getUser userId with
  | none => .error (unauthorized "user not found or inactive")
  | some user => if user.isActive then .ok user else .error (unauthorized "user not found or inactive")

def getCurrentUser (crypto : Crypto) (now : Timestamp) (credentials : Option Credentials) : AccountSession CurrentUser := do
  let userId ← lift (bearer crypto now credentials)
  let user ← lift (activeUser (← read (·.directory)) userId)
  let permissions ← read (·.directory.effectivePermissions userId)
  return { id := user.id, enterpriseId := user.enterpriseId, permissions }

def permit (permission : String) (user : CurrentUser) : Except Refusal CurrentUser :=
  if user.has permission then .ok user else .error (permissionDenied ("missing permission: " ++ permission))

/-- `require(permission)`. -/
def require (crypto : Crypto) (now : Timestamp) (permission : String) (credentials : Option Credentials) :
    AccountSession CurrentUser := do
  let user ← getCurrentUser crypto now credentials
  lift (permit permission user)

/-! ## `api/routers/auth.py` -/

inductive Response where
  | tokens (access refresh : String)
  | loggedOut
  | user (user : CurrentUser)
deriving DecidableEq, Repr

def accepted : Option AuthenticatedUser → Except Refusal AuthenticatedUser
  | some user => .ok user
  | none => .error (unauthorized "invalid credentials")

/-- `newRaw` is what `secrets.token_urlsafe` yields. -/
def login (config : Config) (now : Timestamp) (newRaw email password : String) : AccountSession Response := do
  let enterpriseId ← lift (getActiveEnterpriseId (← read (·.directory)))
  let authed ← lift (authenticate config.crypto (← read (·.directory)) enterpriseId email password)
  let user ← lift (accepted authed)
  let permissions ← read (·.directory.effectivePermissions user.id)
  let access := issueAccessToken config now user.id permissions
  let refresh ← withTokens (issueRefreshToken config.settings now newRaw user.id)
  return .tokens access refresh

/-- A cookie that is set and not empty. -/
def cookieValue : Option String → Option String
  | none => none
  | some raw => if raw = "" then none else some raw

def refresh (config : Config) (now : Timestamp) (newRaw : String) (cookie : Option String) : AccountSession Response := do
  match cookieValue cookie with
  | none => raise (unauthorized "no refresh token")
  | some raw =>
      match ← withTokens (consumeRefreshToken config.settings now newRaw raw) with
      | none => raise (unauthorized "invalid refresh token")
      | some (userId, newRaw) =>
          let permissions ← read (·.directory.effectivePermissions userId)
          return .tokens (issueAccessToken config now userId permissions) newRaw

def logout (config : Config) (now : Timestamp) (cookie : Option String) : AccountSession Response := do
  match cookieValue cookie with
  | none => return .loggedOut
  | some raw =>
      withTokens (revokeRefreshToken config.settings now raw)
      return .loggedOut

end SmartProcurement.Identity.Access
