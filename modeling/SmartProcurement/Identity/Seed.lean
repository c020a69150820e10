import SmartProcurement.Identity.Directory
import SmartProcurement.Relational.Entries
import SmartProcurement.Transaction.Achieves

namespace SmartProcurement.Identity

open Relational Transaction Keyed

/-! # The demo seed

One enterprise, the permission catalogue, the three roles with what they grant, a
user for each of them, and the capabilities.
-/

abbrev SeedSession := EStateM Error Directory

/-- `ROLE_GRANTS`. -/
def roleGrants : List (String × List String) := [
  ("administrator", permissionKeys),
  ("buyer", [
    "domain.read",
    "recommendation.request",
    "approval.act",
    "policy.author",
    "capability.read"]),
  ("approver", [
    "domain.read",
    "approval.act",
    "policy.approve",
    "capability.read",
    "capability.promote",
    "audit.read"])]

structure DemoUser where
  email : String
  name : String
  roleKey : String
deriving DecidableEq, Repr

/-- `DEMO_USERS`. -/
def demoUsers : List DemoUser := [
  ⟨"admin@example.com", "Demo Admin", "administrator"⟩,
  ⟨"buyer@example.com", "Demo Buyer", "buyer"⟩,
  ⟨"approver@example.com", "Demo Approver", "approver"⟩]

/-- `str.capitalize`. -/
def capitalize (text : String) : String :=
  match text.toList with
  | [] => ""
  | first :: rest => .ofList (first.toUpper :: rest.map Char.toLower)

/-! ## Writes -/

theorem isSome_find?_insert {ρ : Type} [Keyed ρ] {table : Table ρ} {id : Nat} (stored : (table.find? id).isSome) (row : ρ) :
    ((table.insert row).find? id).isSome := by
  obtain ⟨found, isFound⟩ := Option.isSome_iff_exists.mp stored
  rw [Table.find?_insert_of_find? isFound]
  rfl

namespace Directory

def addEnterprise (row : Enterprise) (directory : Directory) : Directory :=
  { directory with enterprise := directory.enterprise.insert row }

def addPermission (row : Permission) (directory : Directory) : Except Error Directory :=
  if missing : directory.permission.lookup row.key = none then
    .ok { directory with
      permission := directory.permission.insert row (Registry.admits_of_lookup (fun _ => rfl) missing)
      grantsRefer := fun link member =>
        ⟨(directory.grantsRefer link member).1, isSome_find?_insert (directory.grantsRefer link member).2 row⟩ }
  else .error (.database (.unique "key"))

def addRole (row : Role) (directory : Directory) : Except Error Directory :=
  if missing : directory.role.lookup (row.enterpriseId, row.key) = none then
    .ok { directory with
      role := directory.role.insert row (Registry.admits_of_lookup (fun _ => rfl) missing)
      grantsRefer := fun link member =>
        ⟨isSome_find?_insert (directory.grantsRefer link member).1 row, (directory.grantsRefer link member).2⟩
      holdersRefer := fun link member =>
        ⟨(directory.holdersRefer link member).1, isSome_find?_insert (directory.holdersRefer link member).2 row⟩ }
  else .error (.database (.unique "uq_role_enterprise_key"))

def addUser (row : User) (directory : Directory) : Except Error Directory :=
  if missing : directory.user.lookup (row.enterpriseId, row.email) = none then
    .ok { directory with
      user := directory.user.insert row (Registry.admits_of_lookup (fun _ => rfl) missing)
      holdersRefer := fun link member =>
        ⟨isSome_find?_insert (directory.holdersRefer link member).1 row, (directory.holdersRefer link member).2⟩ }
  else .error (.database (.unique "uq_user_enterprise_email"))

def addGrant (roleId permissionId : Uuid) (directory : Directory) : Except Error Directory :=
  if refers : (directory.role.table.find? roleId).isSome ∧ (directory.permission.table.find? permissionId).isSome then
    if absent : (roleId, permissionId) ∉ directory.rolePermission.pairs then
      .ok { directory with
        rolePermission := directory.rolePermission.insert (roleId, permissionId) absent
        grantsRefer := fun link member =>
          ((Links.mem_insert absent).mp member).elim (directory.grantsRefer link) fun same => same ▸ refers }
    else .error (.database (.unique "role_permission_pkey"))
  else .error (.database (.foreignKey "role_permission"))

def addHolder (userId roleId : Uuid) (directory : Directory) : Except Error Directory :=
  if refers : (directory.user.table.find? userId).isSome ∧ (directory.role.table.find? roleId).isSome then
    if absent : (userId, roleId) ∉ directory.userRole.pairs then
      .ok { directory with
        userRole := directory.userRole.insert (userId, roleId) absent
        holdersRefer := fun link member =>
          ((Links.mem_insert absent).mp member).elim (directory.holdersRefer link) fun same => same ▸ refers }
    else .error (.database (.unique "user_role_pkey"))
  else .error (.database (.foreignKey "user_role"))

end Directory

/-- A flush: the row is stored, or the database refuses it. -/
def flush (change : Directory → Except Error Directory) : SeedSession PUnit := fun before =>
  match change before with
  | .ok after => .ok ⟨⟩ after
  | .error reason => .error reason before

/-- A service of the capabilities in the session of the accounts. -/
def withLorm {α : Type} (body : Lorm.Session α) : SeedSession α := fun before =>
  match body before.lorm with
  | .ok value after => .ok value { before with lorm := after }
  | .error reason after => .error reason { before with lorm := after }

/-! ## The seed -/

def getOrCreateEnterprise : SeedSession Enterprise := do
  match ← read (·.enterprise.rows.head?) with
  | some ent => return ent
  | none =>
      let ent : Enterprise := { id := 0, name := "Demo Enterprise", baseCurrency := "USD" }
      let stored ← read (·.enterprise.newRow ent)
      write (·.addEnterprise ent)
      return stored

def seedPermission (existing : List (String × Permission)) (key : String) : SeedSession (List (String × Permission)) := do
  if (existing.lookup key).isSome then return existing
  else do
    let permission : Permission := { id := 0, key, description := key }
    let stored ← read (·.permission.table.newRow permission)
    flush (·.addPermission permission)
    return assign existing key stored

def seedPermissions : SeedSession (List (String × Permission)) := do
  let existing ← read fun directory => fromPairs (directory.permission.rows.map fun row => (row.key, row))
  permissionKeys.foldlM seedPermission existing

/-- The role of the seed, and the roles with it. -/
def getOrCreateRole (ent : Enterprise) (roles : List (String × Role)) (key : String) :
    SeedSession (Role × List (String × Role)) := do
  match roles.lookup key with
  | some role => return (role, roles)
  | none =>
      let role : Role := { id := 0, enterpriseId := ent.id, key, name := capitalize key }
      let stored ← read (·.role.table.newRow role)
      flush (·.addRole role)
      return (stored, assign roles key stored)

/-- `perms[key]`. -/
def permissionOf (perms : List (String × Permission)) (key : String) : Except Error Permission :=
  match perms.lookup key with
  | some permission => .ok permission
  | none => .error (.other ("KeyError('" ++ key ++ "')"))

def seedGrant (perms : List (String × Permission)) (role : Role) (have_ : List Uuid) (key : String) : SeedSession PUnit := do
  let permission ← lift (permissionOf perms key)
  if permission.id ∈ have_ then return ⟨⟩
  else flush (·.addGrant role.id permission.id)

def seedRole (ent : Enterprise) (perms : List (String × Permission)) (roles : List (String × Role))
    (grant : String × List String) : SeedSession (List (String × Role)) := do
  let (role, roles) ← getOrCreateRole ent roles grant.1
  let have_ ← read fun directory => (directory.rolePermission.pairs.filter (·.1 = role.id)).map (·.2)
  grant.2.forM (seedGrant perms role have_)
  return roles

/-- The user of the demo, and how many users were created so far. -/
def getOrCreateUser (hashPassword : Nat → String → String) (password : String) (ent : Enterprise) (created : Nat) (demo : DemoUser) :
    SeedSession (User × Nat) := do
  match ← read (·.getUserByEmail ent.id demo.email) with
  | some user => return (user, created)
  | none =>
      let user : User :=
        { id := 0, enterpriseId := ent.id, email := demo.email, fullName := demo.name
          passwordHash := hashPassword created password, isActive := true }
      let stored ← read (·.user.table.newRow user)
      flush (·.addUser user)
      return (stored, created + 1)

/-- `roles[key]`. -/
def roleOf (roles : List (String × Role)) (key : String) : Except Error Role :=
  match roles.lookup key with
  | some role => .ok role
  | none => .error (.other ("KeyError('" ++ key ++ "')"))

def seedUser (hashPassword : Nat → String → String) (password : String) (ent : Enterprise) (roles : List (String × Role))
    (created : Nat) (demo : DemoUser) : SeedSession Nat := do
  let (user, created) ← getOrCreateUser hashPassword password ent created demo
  let role ← lift (roleOf roles demo.roleKey)
  if (user.id, role.id) ∈ (← read (·.userRole.pairs)) then return created
  else do
    flush (·.addHolder user.id role.id)
    return created

structure SeedReport where
  permissions : Nat
  roles : Nat
  usersCreated : Nat
  capabilitiesCreated : Nat
deriving DecidableEq, Repr

/-- The seed; every call of `hashPassword` salts its hash anew. -/
def runDemoSeed (hashPassword : Nat → String → String) (password : String) : SeedSession SeedReport := do
  let ent ← getOrCreateEnterprise
  let perms ← seedPermissions
  let existing ← read fun directory =>
    fromPairs ((directory.role.rows.filter (·.enterpriseId = ent.id)).map fun row => (row.key, row))
  let roles ← roleGrants.foldlM (seedRole ent perms) existing
  let usersCreated ← demoUsers.foldlM (seedUser hashPassword password ent roles) 0
  let capabilitiesCreated ← withLorm (Lorm.seedCapabilities ent.id)
  return { permissions := perms.length, roles := roles.length, usersCreated, capabilitiesCreated }

end SmartProcurement.Identity
