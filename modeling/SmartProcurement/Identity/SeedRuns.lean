import SmartProcurement.Identity.Seed

namespace SmartProcurement.Identity

open Relational Transaction Keyed Directory

/-! # What the seed leaves

Every step of the seed adds what is missing and leaves the rest alone, so a seed that
has run finds nothing to do.
-/

/-! ## How the accounts grow -/

/-- A grant that the seed makes. -/
def SeededGrant (ent : Enterprise) (directory : Directory) (link : Nat × Nat) : Prop :=
  ∃ role ∈ directory.role.rows, ∃ permission ∈ directory.permission.rows, link = (role.id, permission.id) ∧
    role.enterpriseId = ent.id ∧ ∃ grant ∈ roleGrants, grant.1 = role.key ∧ permission.key ∈ grant.2

/-- A role that the seed gives to one of its users. -/
def SeededHolder (ent : Enterprise) (directory : Directory) (link : Nat × Nat) : Prop :=
  ∃ user ∈ directory.user.rows, ∃ role ∈ directory.role.rows, link = (user.id, role.id) ∧
    user.enterpriseId = ent.id ∧ role.enterpriseId = ent.id ∧
      ∃ demo ∈ demoUsers, demo.email = user.email ∧ demo.roleKey = role.key

/-- A user that the seed creates. -/
structure SeededUser (passwordHash : Nat → String) (ent : Enterprise) (user : User) : Prop where
  enterprise : user.enterpriseId = ent.id
  demo : ∃ demo ∈ demoUsers, demo.email = user.email ∧ demo.name = user.fullName
  password : ∃ call, user.passwordHash = passwordHash call
  active : user.isActive = true

/-- Nothing is changed or taken away, and what is new is the seed's. -/
structure Grown (passwordHash : Nat → String) (ent : Enterprise) (before after : Directory) : Prop where
  users : ∀ row ∈ before.user.rows, row ∈ after.user.rows
  roles : ∀ row ∈ before.role.rows, row ∈ after.role.rows
  permissions : ∀ row ∈ before.permission.rows, row ∈ after.permission.rows
  grants : ∀ link ∈ before.rolePermission.pairs, link ∈ after.rolePermission.pairs
  holders : ∀ link ∈ before.userRole.pairs, link ∈ after.userRole.pairs
  newUsers : ∀ row ∈ after.user.rows, row ∈ before.user.rows ∨ SeededUser passwordHash ent row
  newGrants : ∀ link ∈ after.rolePermission.pairs, link ∈ before.rolePermission.pairs ∨ SeededGrant ent after link
  newHolders : ∀ link ∈ after.userRole.pairs, link ∈ before.userRole.pairs ∨ SeededHolder ent after link

section Growth

variable {passwordHash : Nat → String} {ent : Enterprise} {before middle after : Directory} {link : Nat × Nat}

theorem SeededGrant.grown (seeded : SeededGrant ent before link) (grown : Grown passwordHash ent before after) :
    SeededGrant ent after link := by
  obtain ⟨role, roleMember, permission, permissionMember, rest⟩ := seeded
  exact ⟨role, grown.roles role roleMember, permission, grown.permissions permission permissionMember, rest⟩

theorem SeededHolder.grown (seeded : SeededHolder ent before link) (grown : Grown passwordHash ent before after) :
    SeededHolder ent after link := by
  obtain ⟨user, userMember, role, roleMember, rest⟩ := seeded
  exact ⟨user, grown.users user userMember, role, grown.roles role roleMember, rest⟩

theorem Grown.refl (passwordHash : Nat → String) (ent : Enterprise) (directory : Directory) :
    Grown passwordHash ent directory directory where
  users _ := id
  roles _ := id
  permissions _ := id
  grants _ := id
  holders _ := id
  newUsers _ := .inl
  newGrants _ := .inl
  newHolders _ := .inl

theorem Grown.trans (first : Grown passwordHash ent before middle) (second : Grown passwordHash ent middle after) :
    Grown passwordHash ent before after where
  users row member := second.users row (first.users row member)
  roles row member := second.roles row (first.roles row member)
  permissions row member := second.permissions row (first.permissions row member)
  grants link member := second.grants link (first.grants link member)
  holders link member := second.holders link (first.holders link member)
  newUsers row member := (second.newUsers row member).elim (first.newUsers row) .inr
  newGrants link member := by
    rcases second.newGrants link member with old | seeded
    · exact (first.newGrants link old).imp_right fun seeded => seeded.grown second
    · exact .inr seeded
  newHolders link member := by
    rcases second.newHolders link member with old | seeded
    · exact (first.newHolders link old).imp_right fun seeded => seeded.grown second
    · exact .inr seeded

theorem Grown.grantsKey (grown : Grown passwordHash ent before after) {role : Role} {key : String}
    (grants : before.Grants role key) : after.Grants role key := by
  obtain ⟨permission, member, same, link⟩ := grants
  exact ⟨permission, grown.permissions permission member, same, grown.grants _ link⟩

theorem Grown.holdsRole (grown : Grown passwordHash ent before after) {userId : Uuid} {role : Role}
    (holds : before.Holds userId role) : after.Holds userId role :=
  ⟨grown.roles role holds.1, grown.holders _ holds.2⟩

end Growth

/-! ## What is in place -/

def permissionIndex (directory : Directory) : List (String × Permission) :=
  directory.permission.rows.map fun row => (row.key, row)

def rolesIn (ent : Enterprise) (directory : Directory) : List Role :=
  directory.role.rows.filter (·.enterpriseId = ent.id)

def roleIndex (ent : Enterprise) (directory : Directory) : List (String × Role) :=
  (rolesIn ent directory).map fun row => (row.key, row)

/-- The role exists and grants what it is seeded with. -/
def RoleReady (ent : Enterprise) (directory : Directory) (grant : String × List String) : Prop :=
  ∃ role ∈ directory.role.rows, role.enterpriseId = ent.id ∧ role.key = grant.1 ∧
    ∀ key ∈ grant.2, directory.Grants role key

/-- The user of the demo exists and holds its role. -/
def UserReady (ent : Enterprise) (directory : Directory) (demo : DemoUser) : Prop :=
  ∃ user ∈ directory.user.rows, user.enterpriseId = ent.id ∧ user.email = demo.email ∧
    ∃ role, directory.Holds user.id role ∧ role.enterpriseId = ent.id ∧ role.key = demo.roleKey

/-- The capability keys of the enterprise. -/
def capabilityKeys (enterpriseId : Uuid) (tables : Lorm.Tables) : List String :=
  (tables.capability.rows.filter (·.enterpriseId = enterpriseId)).map (·.key)

structure Seeded (ent : Enterprise) (directory : Directory) : Prop where
  enterprise : directory.enterprise.rows.head? = some ent
  permissions : ∀ key ∈ permissionKeys, ∃ row ∈ directory.permission.rows, row.key = key
  roles : ∀ grant ∈ roleGrants, RoleReady ent directory grant
  users : ∀ demo ∈ demoUsers, UserReady ent directory demo
  capabilities : ∀ seed ∈ Lorm.seedLevels, seed.1 ∈ capabilityKeys ent.id directory.lorm

section Ready

variable {passwordHash : Nat → String} {ent : Enterprise} {before after : Directory}

theorem RoleReady.grown {grant : String × List String} (ready : RoleReady ent before grant)
    (grown : Grown passwordHash ent before after) : RoleReady ent after grant := by
  obtain ⟨role, member, own, named, grants⟩ := ready
  exact ⟨role, grown.roles role member, own, named, fun key listed => grown.grantsKey (grants key listed)⟩

theorem UserReady.grown {demo : DemoUser} (ready : UserReady ent before demo)
    (grown : Grown passwordHash ent before after) : UserReady ent after demo := by
  obtain ⟨user, member, own, named, role, holds, rest⟩ := ready
  exact ⟨user, grown.users user member, own, named, role, grown.holdsRole holds, rest⟩

end Ready

/-! ## Indexes -/

section Indexes

variable {ent : Enterprise} {directory : Directory}

theorem permissionIndex_nodup (directory : Directory) : ((permissionIndex directory).map Prod.fst).Nodup := by
  rw [permissionIndex, List.map_map]
  refine List.Nodup.map_on (fun first firstMember second secondMember same => ?_) directory.permission.table.distinct.of_map
  exact directory.permission.unique first firstMember second secondMember first.key rfl (congrArg some same.symm)

theorem roleIndex_nodup (ent : Enterprise) (directory : Directory) : ((roleIndex ent directory).map Prod.fst).Nodup := by
  rw [roleIndex, List.map_map]
  refine List.Nodup.map_on (fun first firstMember second secondMember same => ?_)
    (directory.role.table.distinct.of_map.filter _)
  simp only [rolesIn, List.mem_filter, decide_eq_true_eq] at firstMember secondMember
  refine directory.role.unique first firstMember.1 second secondMember.1 (ent.id, first.key) ?_ ?_
  · rw [Role.key?, firstMember.2]
  · rw [Role.key?, secondMember.2]
    exact congrArg (fun key => some (ent.id, key)) same.symm

theorem fromPairs_permissions (directory : Directory) :
    fromPairs (directory.permission.rows.map fun row => (row.key, row)) = permissionIndex directory :=
  @foldl_assign_of_nodup _ _ _ [] _ (permissionIndex_nodup directory)

theorem fromPairs_roles (ent : Enterprise) (directory : Directory) :
    fromPairs ((directory.role.rows.filter (·.enterpriseId = ent.id)).map fun row => (row.key, row)) =
      roleIndex ent directory :=
  @foldl_assign_of_nodup _ _ _ [] _ (roleIndex_nodup ent directory)

theorem lookup_permissionIndex_eq_none {key : String} (missing : (permissionIndex directory).lookup key = none) :
    directory.permission.lookup key = none :=
  Registry.lookup_eq_none_iff.mpr fun row member same =>
    lookup_map_eq_none missing row member (Option.some.inj same)

theorem lookup_roleIndex_eq_none {key : String} (missing : (roleIndex ent directory).lookup key = none) :
    directory.role.lookup (ent.id, key) = none := by
  refine Registry.lookup_eq_none_iff.mpr fun row member same => ?_
  obtain ⟨own, named⟩ := Prod.mk.inj (Option.some.inj same)
  exact lookup_map_eq_none missing row (List.mem_filter.mpr ⟨member, by simpa using own⟩) named

end Indexes

/-! ## One write -/

section Writes

variable {passwordHash : Nat → String} {ent : Enterprise} {directory : Directory}

theorem addEnterprise_grows (row : Enterprise) : Grown passwordHash ent directory (directory.addEnterprise row) where
  users _ := id
  roles _ := id
  permissions _ := id
  grants _ := id
  holders _ := id
  newUsers _ := .inl
  newGrants _ := .inl
  newHolders _ := .inl

theorem addPermission_grows (passwordHash : Nat → String) (ent : Enterprise) (row : Permission)
    (missing : directory.permission.lookup row.key = none) :
    ∃ after, directory.addPermission row = .ok after ∧ Grown passwordHash ent directory after ∧
      after.enterprise = directory.enterprise ∧
      permissionIndex after = permissionIndex directory ++ [(row.key, directory.permission.table.newRow row)] := by
  refine ⟨_, dif_pos missing, ?_, rfl, ?_⟩
  · constructor
    · exact fun _ => id
    · exact fun _ => id
    · exact fun _ member => List.mem_append_left _ member
    · exact fun _ => id
    · exact fun _ => id
    · exact fun _ => .inl
    · exact fun _ => .inl
    · exact fun _ => .inl
  · exact List.map_append

theorem addRole_grows (passwordHash : Nat → String) (ent : Enterprise) (row : Role)
    (missing : directory.role.lookup (row.enterpriseId, row.key) = none)
    (own : row.enterpriseId = ent.id) :
    ∃ after, directory.addRole row = .ok after ∧ Grown passwordHash ent directory after ∧
      after.enterprise = directory.enterprise ∧ permissionIndex after = permissionIndex directory ∧
      roleIndex ent after = roleIndex ent directory ++ [(row.key, directory.role.table.newRow row)] ∧
      directory.role.table.newRow row ∈ after.role.rows := by
  refine ⟨_, dif_pos missing, ?_, rfl, rfl, ?_, List.mem_append_right _ (List.mem_singleton_self _)⟩
  · constructor
    · exact fun _ => id
    · exact fun _ member => List.mem_append_left _ member
    · exact fun _ => id
    · exact fun _ => id
    · exact fun _ => id
    · exact fun _ => .inl
    · exact fun _ => .inl
    · exact fun _ => .inl
  · have kept : (directory.role.table.newRow row).enterpriseId = ent.id := own
    have rows : (directory.role.table.insert row).rows.filter (·.enterpriseId = ent.id) =
        rolesIn ent directory ++ [directory.role.table.newRow row] := by
      rw [Table.filter_insert, if_pos (by simpa using kept)]
      rfl
    exact (congrArg (List.map fun row : Role => (row.key, row)) rows).trans List.map_append

theorem addUser_grows (passwordHash : Nat → String) (ent : Enterprise) (row : User)
    (missing : directory.user.lookup (row.enterpriseId, row.email) = none)
    (seeded : SeededUser passwordHash ent row) :
    ∃ after, directory.addUser row = .ok after ∧ Grown passwordHash ent directory after ∧
      after.enterprise = directory.enterprise ∧ permissionIndex after = permissionIndex directory ∧
      roleIndex ent after = roleIndex ent directory ∧ directory.user.table.newRow row ∈ after.user.rows := by
  refine ⟨_, dif_pos missing, ?_, rfl, rfl, rfl, List.mem_append_right _ (List.mem_singleton_self _)⟩
  constructor
  · exact fun _ member => List.mem_append_left _ member
  · exact fun _ => id
  · exact fun _ => id
  · exact fun _ => id
  · exact fun _ => id
  · intro other member
    rcases (Registry.mem_insert (Registry.admits_of_lookup (fun _ => rfl) missing)).mp member with old | rfl
    · exact .inl old
    · exact .inr ⟨seeded.enterprise, seeded.demo, seeded.password, seeded.active⟩
  · exact fun _ => .inl
  · exact fun _ => .inl

theorem addGrant_grows (passwordHash : Nat → String) {role : Role} {permission : Permission} (roleMember : role ∈ directory.role.rows)
    (permissionMember : permission ∈ directory.permission.rows) (own : role.enterpriseId = ent.id)
    (seeded : ∃ grant ∈ roleGrants, grant.1 = role.key ∧ permission.key ∈ grant.2)
    (absent : (role.id, permission.id) ∉ directory.rolePermission.pairs) :
    ∃ after, directory.addGrant role.id permission.id = .ok after ∧ Grown passwordHash ent directory after ∧
      after.enterprise = directory.enterprise ∧ permissionIndex after = permissionIndex directory ∧
      roleIndex ent after = roleIndex ent directory ∧ after.Grants role permission.key ∧
      ∀ link ∈ after.rolePermission.pairs, link ∈ directory.rolePermission.pairs ∨ link = (role.id, permission.id) := by
  have refers : (directory.role.table.find? role.id).isSome ∧ (directory.permission.table.find? permission.id).isSome := by
    constructor
    · exact Option.isSome_iff_exists.mpr ⟨role, Table.find?_of_mem roleMember⟩
    · exact Option.isSome_iff_exists.mpr ⟨permission, Table.find?_of_mem permissionMember⟩
  refine ⟨_, (dif_pos refers).trans (dif_pos absent), ?_, rfl, rfl, rfl, ?_, ?_⟩
  · constructor
    · exact fun _ => id
    · exact fun _ => id
    · exact fun _ => id
    · exact fun _ member => List.mem_append_left _ member
    · exact fun _ => id
    · exact fun _ => .inl
    · exact fun link member => ((Links.mem_insert absent).mp member).imp_right fun same =>
        ⟨role, roleMember, permission, permissionMember, same, own, seeded⟩
    · exact fun _ => .inl
  · exact ⟨permission, permissionMember, rfl, List.mem_append_right _ (List.mem_singleton_self _)⟩
  · exact fun link member => (Links.mem_insert absent).mp member

theorem addHolder_grows (passwordHash : Nat → String) {user : User} {role : Role} (userMember : user ∈ directory.user.rows)
    (roleMember : role ∈ directory.role.rows) (own : user.enterpriseId = ent.id) (ownRole : role.enterpriseId = ent.id)
    (seeded : ∃ demo ∈ demoUsers, demo.email = user.email ∧ demo.roleKey = role.key)
    (absent : (user.id, role.id) ∉ directory.userRole.pairs) :
    ∃ after, directory.addHolder user.id role.id = .ok after ∧ Grown passwordHash ent directory after ∧
      after.enterprise = directory.enterprise ∧ permissionIndex after = permissionIndex directory ∧
      roleIndex ent after = roleIndex ent directory ∧ after.Holds user.id role := by
  have refers : (directory.user.table.find? user.id).isSome ∧ (directory.role.table.find? role.id).isSome := by
    constructor
    · exact Option.isSome_iff_exists.mpr ⟨user, Table.find?_of_mem userMember⟩
    · exact Option.isSome_iff_exists.mpr ⟨role, Table.find?_of_mem roleMember⟩
  refine ⟨_, (dif_pos refers).trans (dif_pos absent), ?_, rfl, rfl, rfl, roleMember, List.mem_append_right _ (List.mem_singleton_self _)⟩
  constructor
  · exact fun _ => id
  · exact fun _ => id
  · exact fun _ => id
  · exact fun _ => id
  · exact fun _ member => List.mem_append_left _ member
  · exact fun _ => .inl
  · exact fun _ => .inl
  · exact fun link member => ((Links.mem_insert absent).mp member).imp_right fun same =>
      ⟨user, userMember, role, roleMember, same, own, ownRole, seeded⟩

end Writes

/-! ## The first run -/

section FirstRun

variable {hashPassword : Nat → String → String} {password : String} {ent : Enterprise} {initial : Directory}

/-- The accounts, as far as the seed has come. -/
structure Growing (passwordHash : Nat → String) (initial : Directory) (ent : Enterprise) (directory : Directory) : Prop where
  grown : Grown passwordHash ent initial directory
  enterprise : directory.enterprise.rows.head? = some ent

theorem Growing.then {passwordHash : Nat → String} {before after : Directory} (growing : Growing passwordHash initial ent before)
    (grown : Grown passwordHash ent before after) (same : after.enterprise = before.enterprise) :
    Growing passwordHash initial ent after :=
  ⟨growing.grown.trans grown, same ▸ growing.enterprise⟩

theorem flush_of_ok {change : Directory → Except Error Directory} {before after : Directory}
    (changed : change before = .ok after) : flush change before = .ok ⟨⟩ after := by
  rw [flush, changed]

theorem getOrCreateEnterprise_achieves (passwordHash : Nat → String) (initial : Directory) :
    Achieves (· = initial) getOrCreateEnterprise (Growing passwordHash initial) := by
  rintro _ rfl
  rename_i before
  cases first : before.enterprise.rows.head? with
  | some ent =>
      refine ⟨ent, before, ?_, .refl _ _ _, first⟩
      unfold getOrCreateEnterprise
      rw [read_bind, first]
      rfl
  | none =>
      refine ⟨before.enterprise.newRow ⟨0, "Demo Enterprise", "USD"⟩, before.addEnterprise ⟨0, "Demo Enterprise", "USD"⟩,
        ?_, addEnterprise_grows _, ?_⟩
      · unfold getOrCreateEnterprise
        rw [read_bind, first]
        rfl
      · rw [addEnterprise, Table.insert_rows, List.head?_eq_none_iff.mp first]
        rfl

/-- The permissions so far, and the index of all of them. -/
def PermissionsDone (passwordHash : Nat → String) (initial : Directory) (ent : Enterprise) (done : List String)
    (existing : List (String × Permission)) (directory : Directory) : Prop :=
  Growing passwordHash initial ent directory ∧ existing = permissionIndex directory ∧
    ∀ key ∈ done, ∃ row ∈ directory.permission.rows, row.key = key

theorem seedPermission_achieves {passwordHash : Nat → String} {done : List String} {existing : List (String × Permission)}
    {key : String} :
    Achieves (PermissionsDone passwordHash initial ent done existing) (seedPermission existing key)
      (PermissionsDone passwordHash initial ent (done ++ [key])) := by
  rintro before ⟨growing, rfl, ready⟩
  unfold seedPermission
  cases found : (permissionIndex before).lookup key with
  | some row =>
      obtain ⟨row, member, named, rfl⟩ := lookup_map_eq_some found
      refine ⟨_, before, rfl, growing, rfl, ?_⟩
      intro other listed
      rcases List.mem_append.mp listed with old | new
      · exact ready other old
      · exact ⟨row, member, named.trans (List.mem_singleton.mp new).symm⟩
  | none =>
      have missing := lookup_permissionIndex_eq_none found
      obtain ⟨after, added, grown, same, index⟩ :=
        addPermission_grows passwordHash ent ⟨0, key, key⟩ missing
      refine ⟨assign (permissionIndex before) key (before.permission.table.newRow ⟨0, key, key⟩), after, ?_,
        growing.then grown same, ?_, ?_⟩
      · simp only [Option.isSome_none, Bool.false_eq_true, if_false]
        rw [read_bind, bind_of_ok (flush_of_ok added)]
        rfl
      · rw [index, assign_of_not_mem]
        intro member
        obtain ⟨⟨_, row⟩, listed, rfl⟩ := List.mem_map.mp member
        have different := List.lookup_eq_none_iff.mp found _ listed
        simp at different
      · have indexed : (key, before.permission.table.newRow ⟨0, key, key⟩) ∈ permissionIndex after := by
          rw [index]
          exact List.mem_append_right _ (List.mem_singleton_self _)
        obtain ⟨row, member, same⟩ := List.mem_map.mp indexed
        intro other listed
        rcases List.mem_append.mp listed with old | new
        · obtain ⟨row, member, named⟩ := ready other old
          exact ⟨row, grown.permissions row member, named⟩
        · exact ⟨row, member, (congrArg Prod.fst same).trans (List.mem_singleton.mp new).symm⟩

theorem seedPermissions_achieves {passwordHash : Nat → String} :
    Achieves (Growing passwordHash initial ent) seedPermissions
      (PermissionsDone passwordHash initial ent permissionKeys) := by
  intro before growing
  have loop : Achieves (PermissionsDone passwordHash initial ent [] (permissionIndex before))
      (permissionKeys.foldlM seedPermission (permissionIndex before)) (PermissionsDone passwordHash initial ent permissionKeys) :=
    achieves_foldlM _ (fun done key rest existing split => seedPermission_achieves) _
  obtain ⟨perms, after, ran, done⟩ := loop before ⟨growing, rfl, by simp⟩
  refine ⟨perms, after, ?_, done⟩
  unfold seedPermissions
  rw [read_bind, fromPairs_permissions]
  exact ran

/-- Where the seed of a role starts, and what its grants keep. -/
structure RolesKnown (passwordHash : Nat → String) (initial : Directory) (ent : Enterprise) (perms : List (String × Permission))
    (roles : List (String × Role)) (directory : Directory) : Prop where
  growing : Growing passwordHash initial ent directory
  perms : perms = permissionIndex directory
  roles : roles = roleIndex ent directory
  complete : ∀ key ∈ permissionKeys, ∃ row ∈ directory.permission.rows, row.key = key

theorem RolesKnown.then {passwordHash : Nat → String} {perms : List (String × Permission)} {roles : List (String × Role)}
    {before after : Directory} (known : RolesKnown passwordHash initial ent perms roles before)
    (grown : Grown passwordHash ent before after) (same : after.enterprise = before.enterprise)
    (permIndex : permissionIndex after = permissionIndex before) (index : roleIndex ent after = roleIndex ent before) :
    RolesKnown passwordHash initial ent perms roles after where
  growing := known.growing.then grown same
  perms := known.perms.trans permIndex.symm
  roles := known.roles.trans index.symm
  complete key listed := by
    obtain ⟨row, member, named⟩ := known.complete key listed
    exact ⟨row, grown.permissions row member, named⟩

theorem getOrCreateRole_achieves {passwordHash : Nat → String} {perms : List (String × Permission)} {roles : List (String × Role)}
    {done : List (String × List String)} (key : String) :
    Achieves (fun before => RolesKnown passwordHash initial ent perms roles before ∧ ∀ grant ∈ done, RoleReady ent before grant)
      (getOrCreateRole ent roles key)
      fun result after => RolesKnown passwordHash initial ent perms result.2 after ∧
        (∀ grant ∈ done, RoleReady ent after grant) ∧ result.1 ∈ after.role.rows ∧ result.1.enterpriseId = ent.id ∧
          result.1.key = key := by
  rintro before ⟨⟨growing, perms, rfl, complete⟩, ready⟩
  unfold getOrCreateRole
  cases found : (roleIndex ent before).lookup key with
  | some role =>
      obtain ⟨role, member, named, rfl⟩ := lookup_map_eq_some found
      obtain ⟨member, own⟩ := List.mem_filter.mp member
      exact ⟨(role, roleIndex ent before), before, rfl, ⟨growing, perms, rfl, complete⟩, ready, member, by simpa using own, named⟩
  | none =>
      have missing := lookup_roleIndex_eq_none found
      obtain ⟨after, added, grown, same, permIndex, index, member⟩ :=
        addRole_grows passwordHash ent ⟨0, ent.id, key, capitalize key⟩ missing rfl
      refine ⟨(before.role.table.newRow ⟨0, ent.id, key, capitalize key⟩,
        assign (roleIndex ent before) key (before.role.table.newRow ⟨0, ent.id, key, capitalize key⟩)), after, ?_,
        ⟨growing.then grown same, perms.trans permIndex.symm, ?_, ?_⟩, ?_, member, rfl, rfl⟩
      · dsimp only
        rw [read_bind, bind_of_ok (flush_of_ok added)]
        rfl
      · rw [index]
        refine assign_of_not_mem fun member => ?_
        obtain ⟨⟨_, row⟩, listed, rfl⟩ := List.mem_map.mp member
        have different := List.lookup_eq_none_iff.mp found _ listed
        simp at different
      · intro key listed
        obtain ⟨row, member, named⟩ := complete key listed
        exact ⟨row, grown.permissions row member, named⟩
      · exact fun grant listed => (ready grant listed).grown grown

/-- The grants of one role, as far as the seed has come; the permissions it held at the
start, and those of the keys that are done, are all it has. -/
structure Granting (passwordHash : Nat → String) (initial : Directory) (ent : Enterprise) (perms : List (String × Permission))
    (roles : List (String × Role)) (others : List (String × List String)) (role : Role) (have_ : List Uuid)
    (done : List String) (directory : Directory) : Prop where
  known : RolesKnown passwordHash initial ent perms roles directory
  others : ∀ grant ∈ others, RoleReady ent directory grant
  member : role ∈ directory.role.rows
  granted : ∀ key ∈ done, directory.Grants role key
  had : ∀ permissionId ∈ have_, (role.id, permissionId) ∈ directory.rolePermission.pairs
  held : ∀ permissionId, (role.id, permissionId) ∈ directory.rolePermission.pairs →
    permissionId ∈ have_ ∨ ∃ row ∈ directory.permission.rows, row.id = permissionId ∧ row.key ∈ done

theorem seedGrant_achieves {passwordHash : Nat → String} {perms : List (String × Permission)} {roles : List (String × Role)}
    {others : List (String × List String)} {role : Role} {have_ : List Uuid} {done : List String} {key : String}
    (listed : key ∈ permissionKeys) (undone : key ∉ done) (own : role.enterpriseId = ent.id)
    (seeded : ∃ grant ∈ roleGrants, grant.1 = role.key ∧ key ∈ grant.2) :
    Achieves (Granting passwordHash initial ent perms roles others role have_ done) (seedGrant perms role have_ key)
      fun _ => Granting passwordHash initial ent perms roles others role have_ (done ++ [key]) := by
  intro before granting
  obtain ⟨growing, rfl, rolesKnown, complete⟩ := granting.known
  obtain ⟨permission, found⟩ : ∃ permission, (permissionIndex before).lookup key = some permission := by
    cases found : (permissionIndex before).lookup key with
    | some permission => exact ⟨permission, rfl⟩
    | none =>
        obtain ⟨row, member, named⟩ := complete key listed
        exact absurd named (lookup_map_eq_none found row member)
  obtain ⟨permission, permissionMember, rfl, rfl⟩ := lookup_map_eq_some found
  have looked : (lift (permissionOf (permissionIndex before) permission.key) : SeedSession Permission) before =
      .ok permission before := by
    simp only [permissionOf, found, lift, pure_eq_ok, and_self]
  unfold seedGrant
  rw [bind_of_ok looked]
  by_cases has : permission.id ∈ have_
  · rw [if_pos has]
    refine ⟨⟨⟩, before, rfl, granting.known, granting.others, granting.member, ?_, granting.had, ?_⟩
    · intro other member
      rcases List.mem_append.mp member with old | new
      · exact granting.granted other old
      · obtain rfl := List.mem_singleton.mp new
        exact ⟨permission, permissionMember, rfl, granting.had _ has⟩
    · intro permissionId link
      refine (granting.held permissionId link).imp_right ?_
      rintro ⟨row, member, same, isDone⟩
      exact ⟨row, member, same, List.mem_append_left _ isDone⟩
  · rw [if_neg has]
    have absent : (role.id, permission.id) ∉ before.rolePermission.pairs := by
      intro link
      rcases granting.held permission.id link with had | ⟨row, member, same, isDone⟩
      · exact has had
      · rw [Table.eq_of_key_eq member permissionMember same] at isDone
        exact undone isDone
    obtain ⟨after, added, grown, same, permIndex, rolesSame, grants, links⟩ :=
      addGrant_grows passwordHash granting.member permissionMember own seeded absent
    refine ⟨⟨⟩, after, flush_of_ok added, granting.known.then grown same permIndex rolesSame,
      fun grant listed => (granting.others grant listed).grown grown, grown.roles role granting.member, ?_,
      fun permissionId had => grown.grants _ (granting.had permissionId had), ?_⟩
    · intro other member
      rcases List.mem_append.mp member with old | new
      · exact grown.grantsKey (granting.granted other old)
      · obtain rfl := List.mem_singleton.mp new
        exact grants
    · intro permissionId link
      rcases links _ link with old | new
      · refine (granting.held permissionId old).imp_right ?_
        rintro ⟨row, member, same, isDone⟩
        exact ⟨row, grown.permissions row member, same, List.mem_append_left _ isDone⟩
      · exact .inr ⟨permission, grown.permissions permission permissionMember, (Prod.mk.inj new).2.symm,
          List.mem_append_right _ (List.mem_singleton_self _)⟩

theorem roleGrants_keys : ∀ grant ∈ roleGrants, grant.2.Nodup ∧ ∀ key ∈ grant.2, key ∈ permissionKeys := by
  decide

theorem seedRole_achieves {passwordHash : Nat → String} {perms : List (String × Permission)} {roles : List (String × Role)}
    {done : List (String × List String)} {grant : String × List String} (listed : grant ∈ roleGrants) :
    Achieves (fun before => RolesKnown passwordHash initial ent perms roles before ∧ ∀ grant ∈ done, RoleReady ent before grant)
      (seedRole ent perms roles grant)
      fun next after => RolesKnown passwordHash initial ent perms next after ∧
        ∀ other ∈ done ++ [grant], RoleReady ent after other := by
  obtain ⟨distinct, catalogued⟩ := roleGrants_keys grant listed
  unfold seedRole
  apply (getOrCreateRole_achieves grant.1).bind
  rintro ⟨role, roles⟩ before ⟨known, ready, member, own, named⟩
  dsimp only at *
  rw [read_bind]
  generalize has : (before.rolePermission.pairs.filter (·.1 = role.id)).map (·.2) = have_
  have held : ∀ permissionId, permissionId ∈ have_ ↔ (role.id, permissionId) ∈ before.rolePermission.pairs := by
    intro permissionId
    subst has
    simp only [List.mem_map, List.mem_filter, decide_eq_true_eq]
    constructor
    · rintro ⟨⟨roleId, _⟩, ⟨link, rfl⟩, rfl⟩
      exact link
    · exact fun link => ⟨_, ⟨link, rfl⟩, rfl⟩
  have loop : Achieves (Granting passwordHash initial ent perms roles done role have_ []) (grant.2.forM (seedGrant perms role have_))
      fun _ => Granting passwordHash initial ent perms roles done role have_ grant.2 := by
    apply achieves_forM (Granting passwordHash initial ent perms roles done role have_)
    intro finished key rest split
    have keyListed : key ∈ grant.2 := split ▸ List.mem_append_right _ List.mem_cons_self
    refine seedGrant_achieves (catalogued key keyListed) ?_ own ⟨grant, listed, named.symm, keyListed⟩
    rw [split] at distinct
    exact fun again => List.disjoint_of_nodup_append distinct again List.mem_cons_self
  obtain ⟨_, after, ran, granting⟩ := loop before ⟨known, ready, member, by simp, fun id => (held id).mp,
    fun id link => .inl ((held id).mpr link)⟩
  refine ⟨roles, after, ?_, granting.known, ?_⟩
  · rw [bind_of_ok ran]
    rfl
  · intro other otherListed
    rcases List.mem_append.mp otherListed with old | new
    · exact granting.others other old
    · obtain rfl := List.mem_singleton.mp new
      exact ⟨role, granting.member, own, named, granting.granted⟩

/-- The users of the demo, as far as the seed has come. -/
structure UsersDone (passwordHash : Nat → String) (initial : Directory) (ent : Enterprise) (perms : List (String × Permission))
    (roles : List (String × Role)) (done : List DemoUser) (directory : Directory) : Prop where
  known : RolesKnown passwordHash initial ent perms roles directory
  ready : ∀ grant ∈ roleGrants, RoleReady ent directory grant
  users : ∀ demo ∈ done, UserReady ent directory demo

theorem UsersDone.then {passwordHash : Nat → String} {perms : List (String × Permission)} {roles : List (String × Role)}
    {done : List DemoUser} {before after : Directory} (usersDone : UsersDone passwordHash initial ent perms roles done before)
    (grown : Grown passwordHash ent before after) (known : RolesKnown passwordHash initial ent perms roles after) :
    UsersDone passwordHash initial ent perms roles done after where
  known := known
  ready grant listed := (usersDone.ready grant listed).grown grown
  users demo listed := (usersDone.users demo listed).grown grown

theorem getOrCreateUser_achieves {perms : List (String × Permission)} {roles : List (String × Role)} {done : List DemoUser}
    {demo : DemoUser} {created : Nat} (listed : demo ∈ demoUsers) :
    Achieves (UsersDone (hashPassword · password) initial ent perms roles done)
      (getOrCreateUser hashPassword password ent created demo)
      fun result after => UsersDone (hashPassword · password) initial ent perms roles done after ∧
        result.1 ∈ after.user.rows ∧ result.1.enterpriseId = ent.id ∧ result.1.email = demo.email := by
  intro before usersDone
  unfold getOrCreateUser
  rw [read_bind]
  cases found : before.getUserByEmail ent.id demo.email with
  | some user =>
      obtain ⟨member, named⟩ := Registry.lookup_eq_some_iff.mp found
      obtain ⟨own, email⟩ := Prod.mk.inj (Option.some.inj named)
      exact ⟨(user, created), before, rfl, usersDone, member, own, email⟩
  | none =>
      obtain ⟨after, added, grown, same, permIndex, index, member⟩ :=
        addUser_grows (hashPassword · password) ent ⟨0, ent.id, demo.email, demo.name, hashPassword created password, true⟩ found
          ⟨rfl, ⟨demo, listed, rfl, rfl⟩, ⟨created, rfl⟩, rfl⟩
      refine ⟨(before.user.table.newRow ⟨0, ent.id, demo.email, demo.name, hashPassword created password, true⟩, created + 1), after,
        ?_, usersDone.then grown (usersDone.known.then grown same permIndex index), member, rfl, rfl⟩
      dsimp only
      rw [read_bind, bind_of_ok (flush_of_ok added)]
      rfl

theorem demoUsers_roles : ∀ demo ∈ demoUsers, ∃ grant ∈ roleGrants, grant.1 = demo.roleKey := by
  decide

theorem seedUser_achieves {perms : List (String × Permission)} {roles : List (String × Role)} {done : List DemoUser}
    {demo : DemoUser} {created : Nat} (listed : demo ∈ demoUsers) :
    Achieves (UsersDone (hashPassword · password) initial ent perms roles done)
      (seedUser hashPassword password ent roles created demo)
      fun _ => UsersDone (hashPassword · password) initial ent perms roles (done ++ [demo]) := by
  unfold seedUser
  apply (getOrCreateUser_achieves listed).bind
  rintro ⟨user, created⟩ before ⟨usersDone, userMember, ownUser, email⟩
  dsimp only at *
  obtain ⟨role, found⟩ : ∃ role, roles.lookup demo.roleKey = some role := by
    rw [usersDone.known.roles]
    cases found : (roleIndex ent before).lookup demo.roleKey with
    | some role => exact ⟨role, rfl⟩
    | none =>
        obtain ⟨grant, grantListed, same⟩ := demoUsers_roles demo listed
        obtain ⟨role, member, own, named, _⟩ := usersDone.ready grant grantListed
        have inIndex : role ∈ rolesIn ent before := List.mem_filter.mpr ⟨member, by simpa using own⟩
        exact absurd (named.trans same) (lookup_map_eq_none found role inIndex)
  have looked : (lift (roleOf roles demo.roleKey) : SeedSession Role) before = .ok role before := by
    simp only [roleOf, found, lift, pure_eq_ok, and_self]
  rw [usersDone.known.roles] at found
  obtain ⟨role, inIndex, named, rfl⟩ := lookup_map_eq_some found
  obtain ⟨roleMember, own⟩ := List.mem_filter.mp inIndex
  have ownRole : role.enterpriseId = ent.id := by simpa using own
  have finish {after : Directory} (finished : UsersDone (hashPassword · password) initial ent perms roles done after)
      (member : user ∈ after.user.rows) (holds : after.Holds user.id role) :
      UsersDone (hashPassword · password) initial ent perms roles (done ++ [demo]) after := by
    refine ⟨finished.known, finished.ready, ?_⟩
    intro other otherListed
    rcases List.mem_append.mp otherListed with old | new
    · exact finished.users other old
    · obtain rfl := List.mem_singleton.mp new
      exact ⟨user, member, ownUser, email, role, holds, ownRole, named⟩
  rw [bind_of_ok looked, read_bind]
  by_cases linked : (user.id, role.id) ∈ before.userRole.pairs
  · rw [if_pos linked]
    exact ⟨created, before, rfl, finish usersDone userMember ⟨roleMember, linked⟩⟩
  · rw [if_neg linked]
    obtain ⟨after, added, grown, same, permIndex, index, holds⟩ :=
      addHolder_grows (hashPassword · password) userMember roleMember ownUser ownRole
        ⟨demo, listed, email.symm, named.symm⟩ linked
    have known := usersDone.known.then grown same permIndex index
    refine ⟨created, after, ?_, finish (usersDone.then grown known) (grown.users user userMember) holds⟩
    rw [bind_of_ok (flush_of_ok added)]
    rfl

theorem mem_capabilityKeys_insert {enterpriseId : Uuid} {tables : Lorm.Tables} {row : Lorm.Capability} {key : String} :
    key ∈ capabilityKeys enterpriseId { tables with capability := tables.capability.insert row } ↔
      key ∈ capabilityKeys enterpriseId tables ∨ (row.enterpriseId = enterpriseId ∧ key = row.key) := by
  simp only [capabilityKeys, Table.filter_insert, List.map_append, List.mem_append]
  apply or_congr_right
  by_cases own : row.enterpriseId = enterpriseId
  · have kept : (tables.capability.newRow row).enterpriseId = enterpriseId := own
    rw [if_pos (by simpa using kept)]
    simp only [List.map_cons, List.map_nil, List.mem_singleton, own, true_and]
    rfl
  · have skipped : (tables.capability.newRow row).enterpriseId ≠ enterpriseId := own
    rw [if_neg (by simpa using skipped)]
    simp [own]

/-- The capabilities that the enterprise lacked are there. -/
theorem seedCapabilities_achieves (enterpriseId : Uuid) (tables : Lorm.Tables) :
    ∃ after, Lorm.seedCapabilities enterpriseId tables =
        .ok (Lorm.seedLevels.filter fun seed => seed.1 ∉ capabilityKeys enterpriseId tables).length after ∧
      ∀ seed ∈ Lorm.seedLevels, seed.1 ∈ capabilityKeys enterpriseId after := by
  generalize listed : capabilityKeys enterpriseId tables = existing
  have loop : Achieves (fun before => ∀ key ∈ existing, key ∈ capabilityKeys enterpriseId before)
      ((Lorm.seedLevels.filter fun seed => seed.1 ∉ existing).forM fun seed =>
        (write fun db => { db with
          capability := db.capability.insert ⟨0, enterpriseId, seed.1, seed.2.1, seed.2.2⟩ } : Lorm.Session PUnit))
      fun _ after => (∀ key ∈ existing, key ∈ capabilityKeys enterpriseId after) ∧
        ∀ seed ∈ Lorm.seedLevels.filter fun seed => seed.1 ∉ existing, seed.1 ∈ capabilityKeys enterpriseId after := by
    refine (achieves_forM (fun done after => (∀ key ∈ existing, key ∈ capabilityKeys enterpriseId after) ∧
      ∀ seed ∈ done, seed.1 ∈ capabilityKeys enterpriseId after) ?_).weaken (fun before kept => ⟨kept, by simp⟩) fun _ _ => id
    intro done seed rest split before holds
    refine ⟨⟨⟩, _, rfl, fun key member => mem_capabilityKeys_insert.mpr (.inl (holds.1 key member)), fun other member => ?_⟩
    rcases List.mem_append.mp member with old | new
    · exact mem_capabilityKeys_insert.mpr (.inl (holds.2 other old))
    · obtain rfl := List.mem_singleton.mp new
      exact mem_capabilityKeys_insert.mpr (.inr ⟨rfl, rfl⟩)
  obtain ⟨_, after, ran, still, created⟩ := loop tables fun key member => listed ▸ member
  refine ⟨after, ?_, fun seed member => ?_⟩
  · unfold Lorm.seedCapabilities
    unfold capabilityKeys at listed
    rw [read_bind, listed, bind_of_ok ran]
    rfl
  · by_cases has : seed.1 ∈ existing
    · exact still seed.1 has
    · exact created seed (List.mem_filter.mpr ⟨member, by simpa using has⟩)

theorem withLorm_of_ok {α : Type} {body : Lorm.Session α} {before : Directory} {value : α} {after : Lorm.Tables}
    (ran : body before.lorm = .ok value after) : withLorm body before = .ok value { before with lorm := after } := by
  rw [withLorm, ran]

theorem grown_withLorm {passwordHash : Nat → String} {before : Directory} (tables : Lorm.Tables) :
    Grown passwordHash ent before { before with lorm := tables } where
  users _ := id
  roles _ := id
  permissions _ := id
  grants _ := id
  holders _ := id
  newUsers _ := .inl
  newGrants _ := .inl
  newHolders _ := .inl

/-- What the report of a run says of the accounts that it leaves. -/
def Reports (ent : Enterprise) (report : SeedReport) (directory : Directory) : Prop :=
  report.permissions = directory.permission.rows.length ∧ report.roles = (rolesIn ent directory).length

/-- The seed always runs, and nothing is missing afterwards. -/
theorem runDemoSeed_seeds (hashPassword : Nat → String → String) (password : String) (initial : Directory) :
    ∃ report ent after, runDemoSeed hashPassword password initial = .ok report after ∧
      Grown (hashPassword · password) ent initial after ∧ Seeded ent after ∧ Reports ent report after := by
  obtain ⟨ent, entered, entRan, growing⟩ := getOrCreateEnterprise_achieves (hashPassword · password) initial initial rfl
  obtain ⟨perms, catalogued, permsRan, growing, permsEq, complete⟩ := seedPermissions_achieves entered growing
  have known : RolesKnown (hashPassword · password) initial ent perms (roleIndex ent catalogued) catalogued :=
    ⟨growing, permsEq, rfl, complete⟩
  have roleLoop : Achieves
      (RolesKnown (hashPassword · password) initial ent perms (roleIndex ent catalogued))
      (roleGrants.foldlM (seedRole ent perms) (roleIndex ent catalogued))
      fun roles after => RolesKnown (hashPassword · password) initial ent perms roles after ∧
        ∀ grant ∈ roleGrants, RoleReady ent after grant := by
    refine (achieves_foldlM (fun done roles after => RolesKnown (hashPassword · password) initial ent perms roles after ∧
      ∀ grant ∈ done, RoleReady ent after grant) ?_ _).weaken (fun before known => ⟨known, by simp⟩) fun _ _ => id
    intro done grant rest roles split
    exact seedRole_achieves (split ▸ List.mem_append_right _ List.mem_cons_self)
  obtain ⟨roles, granted, rolesRan, known, ready⟩ := roleLoop catalogued known
  have userLoop : Achieves (UsersDone (hashPassword · password) initial ent perms roles [])
      (demoUsers.foldlM (seedUser hashPassword password ent roles) 0)
      fun _ => UsersDone (hashPassword · password) initial ent perms roles demoUsers := by
    refine achieves_foldlM (fun done _ => UsersDone (hashPassword · password) initial ent perms roles done) ?_ 0
    intro done demo rest created split
    exact seedUser_achieves (split ▸ List.mem_append_right _ List.mem_cons_self)
  obtain ⟨created, populated, usersRan, done⟩ := userLoop granted ⟨known, ready, by simp⟩
  obtain ⟨tables, capsRan, capabilities⟩ := seedCapabilities_achieves ent.id populated.lorm
  have grown := done.known.growing.grown.trans (grown_withLorm tables)
  refine ⟨⟨perms.length, roles.length, created,
    (Lorm.seedLevels.filter fun seed => seed.1 ∉ capabilityKeys ent.id populated.lorm).length⟩, ent,
    { populated with lorm := tables }, ?_, grown,
    ⟨done.known.growing.enterprise, done.known.complete, done.ready, done.users, capabilities⟩, ?_⟩
  · unfold runDemoSeed
    rw [bind_of_ok entRan, bind_of_ok permsRan, read_bind, fromPairs_roles, bind_of_ok rolesRan, bind_of_ok usersRan,
      bind_of_ok (withLorm_of_ok capsRan)]
    rfl
  · constructor
    · change perms.length = populated.permission.rows.length
      rw [done.known.perms, permissionIndex, List.length_map]
    · change roles.length = (rolesIn ent populated).length
      rw [done.known.roles, roleIndex, List.length_map]

end FirstRun

/-! ## A run that finds everything in place -/

section NextRun

variable {hashPassword : Nat → String → String} {password : String} {ent : Enterprise} {directory : Directory}

theorem lookup_permissionIndex {permission : Permission} (member : permission ∈ directory.permission.rows) :
    (permissionIndex directory).lookup permission.key = some permission := by
  have distinct := permissionIndex_nodup directory
  rw [permissionIndex, List.map_map] at distinct
  exact lookup_map_of_mem distinct member

theorem lookup_roleIndex {role : Role} (member : role ∈ directory.role.rows) (own : role.enterpriseId = ent.id) :
    (roleIndex ent directory).lookup role.key = some role := by
  have distinct := roleIndex_nodup ent directory
  rw [roleIndex, List.map_map] at distinct
  exact lookup_map_of_mem distinct (List.mem_filter.mpr ⟨member, by simpa using own⟩)

theorem seedPermissions_idle (seeded : Seeded ent directory) :
    seedPermissions directory = .ok (permissionIndex directory) directory := by
  unfold seedPermissions
  rw [read_bind, fromPairs_permissions]
  refine foldlM_idle fun key listed => ?_
  obtain ⟨row, member, rfl⟩ := seeded.permissions key listed
  unfold seedPermission
  rw [lookup_permissionIndex member, Option.isSome_some, if_pos rfl]
  rfl

theorem seedRole_idle {grant : String × List String} (ready : RoleReady ent directory grant) :
    seedRole ent (permissionIndex directory) (roleIndex ent directory) grant directory =
      .ok (roleIndex ent directory) directory := by
  obtain ⟨role, member, own, named, grants⟩ := ready
  have found : getOrCreateRole ent (roleIndex ent directory) grant.1 directory = .ok (role, roleIndex ent directory) directory := by
    unfold getOrCreateRole
    rw [← named, lookup_roleIndex member own]
    rfl
  unfold seedRole
  rw [bind_of_ok found]
  dsimp only
  rw [read_bind, bind_of_ok (forM_idle fun key listed => ?_)]
  · rfl
  · obtain ⟨permission, permissionMember, rfl, link⟩ := grants key listed
    have looked : (lift (permissionOf (permissionIndex directory) permission.key) : SeedSession Permission) directory =
        .ok permission directory := by
      simp only [permissionOf, lookup_permissionIndex permissionMember, lift, pure_eq_ok, and_self]
    unfold seedGrant
    rw [bind_of_ok looked, if_pos]
    · rfl
    · exact List.mem_map.mpr ⟨(role.id, permission.id), List.mem_filter.mpr ⟨link, by simp⟩, rfl⟩

theorem seedUser_idle {demo : DemoUser} (ready : UserReady ent directory demo) :
    seedUser hashPassword password ent (roleIndex ent directory) 0 demo directory = .ok 0 directory := by
  obtain ⟨user, member, own, email, role, holds, ownRole, named⟩ := ready
  have found : getOrCreateUser hashPassword password ent 0 demo directory = .ok (user, 0) directory := by
    have stored : directory.getUserByEmail ent.id demo.email = some user :=
      Registry.lookup_of_mem member (congrArg some (Prod.ext own email))
    unfold getOrCreateUser
    rw [read_bind, stored]
    rfl
  have looked : (lift (roleOf (roleIndex ent directory) demo.roleKey) : SeedSession Role) directory = .ok role directory := by
    rw [← named]
    simp only [roleOf, lookup_roleIndex holds.1 ownRole, lift, pure_eq_ok, and_self]
  unfold seedUser
  rw [bind_of_ok found]
  dsimp only
  rw [bind_of_ok looked, read_bind, if_pos holds.2]
  rfl

/-- A seed that finds everything in place writes nothing. -/
theorem runDemoSeed_idle (hashPassword : Nat → String → String) (password : String) (seeded : Seeded ent directory) :
    runDemoSeed hashPassword password directory = .ok {
      permissions := directory.permission.rows.length
      roles := (rolesIn ent directory).length
      usersCreated := 0
      capabilitiesCreated := 0 } directory := by
  have entRan : getOrCreateEnterprise directory = .ok ent directory := by
    unfold getOrCreateEnterprise
    rw [read_bind, seeded.enterprise]
    rfl
  have rolesRan := foldlM_idle fun grant listed => seedRole_idle (seeded.roles grant listed)
  have usersRan : demoUsers.foldlM (seedUser hashPassword password ent (roleIndex ent directory)) 0 directory =
      .ok 0 directory := foldlM_idle fun demo listed => seedUser_idle (seeded.users demo listed)
  have capsRan : withLorm (Lorm.seedCapabilities ent.id) directory = .ok 0 directory := by
    have missing : Lorm.seedLevels.filter (fun seed => seed.1 ∉
        (directory.lorm.capability.rows.filter (·.enterpriseId = ent.id)).map (·.key)) = [] :=
      List.filter_eq_nil_iff.mpr fun seed listed => by simpa [capabilityKeys, and_assoc] using seeded.capabilities seed listed
    have ran : Lorm.seedCapabilities ent.id directory.lorm = .ok 0 directory.lorm := by
      unfold Lorm.seedCapabilities
      rw [read_bind, missing]
      rfl
    exact withLorm_of_ok ran
  unfold runDemoSeed
  rw [bind_of_ok entRan, bind_of_ok (seedPermissions_idle seeded), read_bind, fromPairs_roles, bind_of_ok rolesRan,
    bind_of_ok usersRan, bind_of_ok capsRan]
  simp only [permissionIndex, roleIndex, List.length_map]
  rfl

end NextRun

/-! ## Results -/

/-- Whatever the accounts are, the seed runs, and once it has run it does nothing more,
whichever password it is given then. -/
theorem runDemoSeed_idempotent (hashPassword hashAgain : Nat → String → String) (password other : String) (initial : Directory) :
    ∃ report after, runDemoSeed hashPassword password initial = .ok report after ∧
      runDemoSeed hashAgain other after = .ok { report with usersCreated := 0, capabilitiesCreated := 0 } after := by
  obtain ⟨report, ent, after, ran, _, seeded, permissions, roles⟩ := runDemoSeed_seeds hashPassword password initial
  refine ⟨report, after, ran, ?_⟩
  rw [runDemoSeed_idle hashAgain other seeded, permissions, roles]

/-- The user is one of the demo, and the role is the one it is seeded with. -/
def SeedAssigns (ent : Enterprise) (directory : Directory) (userId : Uuid) (role : Role) : Prop :=
  role ∈ directory.role.rows ∧ role.enterpriseId = ent.id ∧ ∃ user ∈ directory.user.rows, user.id = userId ∧
    user.enterpriseId = ent.id ∧ ∃ demo ∈ demoUsers, demo.email = user.email ∧ demo.roleKey = role.key

/-- The role is one of the seed, and the key is among those it is seeded with. -/
def SeedGrants (ent : Enterprise) (role : Role) (key : String) : Prop :=
  role.enterpriseId = ent.id ∧ ∃ grant ∈ roleGrants, grant.1 = role.key ∧ key ∈ grant.2

section Permissions

variable {passwordHash : Nat → String} {ent : Enterprise} {before after : Directory} {userId : Uuid} {role : Role} {key : String}

theorem user_eq {directory : Directory} {first second : User} (firstMember : first ∈ directory.user.rows)
    (secondMember : second ∈ directory.user.rows) (enterprise : first.enterpriseId = second.enterpriseId)
    (email : first.email = second.email) : first = second :=
  directory.user.unique first firstMember second secondMember (second.enterpriseId, second.email)
    (by rw [User.login?, enterprise, email]) rfl

theorem role_eq {directory : Directory} {first second : Role} (firstMember : first ∈ directory.role.rows)
    (secondMember : second ∈ directory.role.rows) (enterprise : first.enterpriseId = second.enterpriseId)
    (key : first.key = second.key) : first = second :=
  directory.role.unique first firstMember second secondMember (second.enterpriseId, second.key)
    (by rw [Role.key?, enterprise, key]) rfl

theorem holds_iff_of_seeded (grown : Grown passwordHash ent before after) (seeded : Seeded ent after) :
    after.Holds userId role ↔ before.Holds userId role ∨ SeedAssigns ent after userId role := by
  constructor
  · rintro ⟨member, link⟩
    rcases grown.newHolders _ link with old | ⟨user, userMember, other, otherMember, same, own, ownRole, demo⟩
    · obtain ⟨_, stored⟩ := before.holdersRefer _ old
      obtain ⟨row, found⟩ := Option.isSome_iff_exists.mp stored
      obtain ⟨rowMember, sameId⟩ := Table.find?_some found
      obtain rfl : row = role := Table.eq_of_key_eq (grown.roles row rowMember) member sameId
      exact .inl ⟨rowMember, old⟩
    · obtain ⟨sameUser, sameRole⟩ := Prod.mk.inj same
      obtain rfl : role = other := Table.eq_of_key_eq member otherMember sameRole
      exact .inr ⟨member, ownRole, user, userMember, sameUser.symm, own, demo⟩
  · rintro (holds | ⟨member, ownRole, user, userMember, rfl, own, demo, listed, email, roleKey⟩)
    · exact grown.holdsRole holds
    · obtain ⟨other, otherMember, otherOwn, otherEmail, held, holds, heldOwn, heldKey⟩ := seeded.users demo listed
      obtain rfl := user_eq userMember otherMember (own.trans otherOwn.symm) (email.symm.trans otherEmail.symm)
      obtain rfl := role_eq member holds.1 (ownRole.trans heldOwn.symm) (roleKey.symm.trans heldKey.symm)
      exact holds

theorem grants_iff_of_seeded (grown : Grown passwordHash ent before after) (seeded : Seeded ent after)
    (member : role ∈ after.role.rows) : after.Grants role key ↔ before.Grants role key ∨ SeedGrants ent role key := by
  constructor
  · rintro ⟨permission, permissionMember, rfl, link⟩
    rcases grown.newGrants _ link with old | ⟨other, otherMember, another, anotherMember, same, own, seeded⟩
    · obtain ⟨_, stored⟩ := before.grantsRefer _ old
      obtain ⟨row, found⟩ := Option.isSome_iff_exists.mp stored
      obtain ⟨rowMember, sameId⟩ := Table.find?_some found
      obtain rfl : row = permission := Table.eq_of_key_eq (grown.permissions row rowMember) permissionMember sameId
      exact .inl ⟨row, rowMember, rfl, old⟩
    · obtain ⟨sameRole, samePermission⟩ := Prod.mk.inj same
      obtain rfl : role = other := Table.eq_of_key_eq member otherMember sameRole
      obtain rfl : permission = another := Table.eq_of_key_eq permissionMember anotherMember samePermission
      exact .inr ⟨own, seeded⟩
  · rintro (grants | ⟨own, grant, listed, named, isGranted⟩)
    · exact grown.grantsKey grants
    · obtain ⟨other, otherMember, otherOwn, otherKey, grants⟩ := seeded.roles grant listed
      obtain rfl := role_eq member otherMember (own.trans otherOwn.symm) (named.symm.trans otherKey.symm)
      exact grants key isGranted

end Permissions

/-- The seed changes no account that it finds, and after it a user has exactly the
permissions of the roles that it held or is seeded with, each with what it granted or
is seeded to grant. -/
theorem runDemoSeed_permissions (hashPassword : Nat → String → String) (password : String) (before : Directory) :
    ∃ report ent after, runDemoSeed hashPassword password before = .ok report after ∧
      after.enterprise.rows.head? = some ent ∧ Grown (hashPassword · password) ent before after ∧
      ∀ userId key, key ∈ after.effectivePermissions userId ↔
        ∃ role, (before.Holds userId role ∨ SeedAssigns ent after userId role) ∧
          (before.Grants role key ∨ SeedGrants ent role key) := by
  obtain ⟨report, ent, after, ran, grown, seeded, _⟩ := runDemoSeed_seeds hashPassword password before
  refine ⟨report, ent, after, ran, seeded.enterprise, grown, fun userId key => ?_⟩
  rw [mem_effectivePermissions]
  apply exists_congr
  intro role
  rw [holds_iff_of_seeded grown seeded]
  refine and_congr_right fun holds => grants_iff_of_seeded grown seeded ?_
  exact ((holds_iff_of_seeded grown seeded).mpr holds).1

end SmartProcurement.Identity
