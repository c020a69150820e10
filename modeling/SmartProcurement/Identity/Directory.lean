import Mathlib.Data.List.Sort
import Mathlib.Data.String.Basic
import SmartProcurement.Lorm.CapabilityService
import SmartProcurement.Relational.Dict
import SmartProcurement.Relational.Registry

namespace SmartProcurement.Identity

open Relational Transaction

/-! # Users, roles and permissions

A user holds roles, a role grants permissions, and a permission counts for a user
through any of the roles.
-/

/-- `PERMISSION_KEYS`. -/
def permissionKeys : List String := [
  "datasource.manage",
  "mapping.confirm",
  "domain.read",
  "recommendation.request",
  "approval.act",
  "policy.author",
  "policy.approve",
  "capability.read",
  "capability.promote",
  "audit.read",
  "user.manage"]

structure Enterprise where
  id : Uuid
  name : String
  baseCurrency : String
deriving DecidableEq, Repr

structure User where
  id : Uuid
  enterpriseId : Uuid
  email : String
  fullName : String
  passwordHash : String
  isActive : Bool
deriving DecidableEq, Repr

structure Role where
  id : Uuid
  enterpriseId : Uuid
  key : String
  name : String
deriving DecidableEq, Repr

structure Permission where
  id : Uuid
  key : String
  description : String
deriving DecidableEq, Repr

instance : Keyed Enterprise := ⟨(·.id), fun id row => { row with id }, fun _ _ => rfl, fun _ => rfl⟩
instance : Keyed User := ⟨(·.id), fun id row => { row with id }, fun _ _ => rfl, fun _ => rfl⟩
instance : Keyed Role := ⟨(·.id), fun id row => { row with id }, fun _ _ => rfl, fun _ => rfl⟩
instance : Keyed Permission := ⟨(·.id), fun id row => { row with id }, fun _ _ => rfl, fun _ => rfl⟩

/-- `uq_user_enterprise_email`. -/
def User.login? (user : User) : Option (Uuid × String) := some (user.enterpriseId, user.email)

/-- `uq_role_enterprise_key`. -/
def Role.key? (role : Role) : Option (Uuid × String) := some (role.enterpriseId, role.key)

def Permission.key? (permission : Permission) : Option String := some permission.key

/-- The tables of the accounts, with their constraints. -/
structure Directory where
  enterprise : Table Enterprise
  user : Registry User.login?
  role : Registry Role.key?
  permission : Registry Permission.key?
  rolePermission : Links
  userRole : Links
  lorm : Lorm.Tables
  grantsRefer : ∀ link ∈ rolePermission.pairs,
    (role.table.find? link.1).isSome ∧ (permission.table.find? link.2).isSome
  holdersRefer : ∀ link ∈ userRole.pairs, (user.table.find? link.1).isSome ∧ (role.table.find? link.2).isSome

namespace Directory

def empty : Directory where
  enterprise := .empty
  user := .empty
  role := .empty
  permission := .empty
  rolePermission := .empty
  userRole := .empty
  lorm := .empty
  grantsRefer := nofun
  holdersRefer := nofun

/-! ## Queries -/

def getUserByEmail (directory : Directory) (enterpriseId : Uuid) (email : String) : Option User :=
  directory.user.lookup (enterpriseId, email)

def getUser (directory : Directory) (userId : Uuid) : Option User := directory.user.table.find? userId

/-- The roles of the user, as the join over `user_role` yields them. -/
def rolesOf (directory : Directory) (userId : Uuid) : List Role :=
  (directory.userRole.pairs.filter (·.1 = userId)).flatMap fun link =>
    directory.role.rows.filter (·.id = link.2)

def permissionsOf (directory : Directory) (role : Role) : List Permission :=
  (directory.rolePermission.pairs.filter (·.1 = role.id)).flatMap fun link =>
    directory.permission.rows.filter (·.id = link.2)

/-- Distinct permission keys granted through any of the roles of the user. -/
def effectivePermissions (directory : Directory) (userId : Uuid) : List String :=
  ((directory.rolesOf userId).flatMap fun role => (directory.permissionsOf role).map (·.key)).dedup.insertionSort (· ≤ ·)

def roleKeys (directory : Directory) (userId : Uuid) : List String :=
  ((directory.rolesOf userId).map (·.key)).insertionSort (· ≤ ·)

/-- The user holds the role. -/
def Holds (directory : Directory) (userId : Uuid) (role : Role) : Prop :=
  role ∈ directory.role.rows ∧ (userId, role.id) ∈ directory.userRole.pairs

/-- The role grants the permission of this key. -/
def Grants (directory : Directory) (role : Role) (key : String) : Prop :=
  ∃ permission ∈ directory.permission.rows, permission.key = key ∧
    (role.id, permission.id) ∈ directory.rolePermission.pairs

variable {directory : Directory} {userId : Uuid} {role : Role} {key : String}

theorem mem_rolesOf : role ∈ directory.rolesOf userId ↔ directory.Holds userId role := by
  simp only [rolesOf, List.mem_flatMap, List.mem_filter, decide_eq_true_eq]
  constructor
  · rintro ⟨⟨holder, roleId⟩, ⟨link, rfl⟩, member, rfl⟩
    exact ⟨member, link⟩
  · rintro ⟨member, link⟩
    exact ⟨_, ⟨link, rfl⟩, member, rfl⟩

theorem mem_permissionsOf {permission : Permission} : permission ∈ directory.permissionsOf role ↔
    permission ∈ directory.permission.rows ∧ (role.id, permission.id) ∈ directory.rolePermission.pairs := by
  simp only [permissionsOf, List.mem_flatMap, List.mem_filter, decide_eq_true_eq]
  constructor
  · rintro ⟨⟨roleId, permissionId⟩, ⟨link, rfl⟩, member, rfl⟩
    exact ⟨member, link⟩
  · rintro ⟨member, link⟩
    exact ⟨_, ⟨link, rfl⟩, member, rfl⟩

theorem mem_effectivePermissions : key ∈ directory.effectivePermissions userId ↔
    ∃ role, directory.Holds userId role ∧ directory.Grants role key := by
  simp only [effectivePermissions, List.mem_insertionSort, List.mem_dedup, List.mem_flatMap, List.mem_map, mem_rolesOf,
    mem_permissionsOf, Grants]
  constructor
  · rintro ⟨role, holds, permission, ⟨member, link⟩, rfl⟩
    exact ⟨role, holds, permission, member, rfl, link⟩
  · rintro ⟨role, holds, permission, member, rfl, link⟩
    exact ⟨role, holds, permission, ⟨member, link⟩, rfl⟩

end Directory

end SmartProcurement.Identity
