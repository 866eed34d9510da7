import Nexora.Access.BranchScope
import Nexora.Access.Owners
import Nexora.Foundations.KeyedTable
import Mathlib.Data.String.Basic

/-!
# Roles and invitations

The rows that `app/modules/rbac` and `app/modules/invitations` write: roles with their
permissions, users, invitations, and the memberships that an accepted invitation makes.  Each
write comes with what it does to the permissions of a membership.

Addresses are compared without case (`CITEXT`, `.lower()`), so an address here is in lower
case.  Tokens never reach the tables, so a token is named by its hash.
-/

namespace Nexora.Access

open Nexora Foundations

/-- Points in time, in microseconds. -/
abbrev Time := Int

/-! ## Tables -/

/-- `User`. -/
structure User where
  id : Uuid
  email : String
  fullName : String
deriving DecidableEq, Repr

/-- `InvitationStatus`. -/
inductive InvitationStatus where
  | pending
  | accepted
  | revoked
  | expired
deriving DecidableEq, Repr

/-- `Invitation`. -/
structure Invitation where
  id : Uuid
  email : String
  roleId : Uuid
  tokenHash : String
  invitedByUserId : Uuid
  expiresAt : Time
  acceptedAt : Option Time
  status : InvitationStatus
deriving DecidableEq, Repr

/-- The access tables with the users and the invitations. -/
structure MembersDb where
  access : AccessDb
  users : Table User.email
  invitations : Table Invitation.id

/-! ## Permissions -/

/-- `role_permission_codes`, and `permission_codes` of the role repository. -/
def AccessDb.rolePermissionCodes (db : AccessDb) (roleId : Uuid) : Finset String :=
  db.permissionsOf {roleId}

theorem AccessDb.mem_permissionsOf {db : AccessDb} {roleIds : Finset Uuid} {code : String} :
    code ∈ db.permissionsOf roleIds ↔ ∃ r ∈ roleIds, (r, code) ∈ db.rolePermissions := by
  simp only [permissionsOf, List.mem_toFinset, List.mem_map, List.mem_filter, decide_eq_true_eq,
    Prod.exists]
  constructor
  · rintro ⟨r, _, ⟨hmem, hr⟩, rfl⟩
    exact ⟨r, hr, hmem⟩
  · rintro ⟨r, hr, hmem⟩
    exact ⟨r, code, ⟨hmem, hr⟩, rfl⟩

theorem AccessDb.mem_getRoleIds {db : AccessDb} {id roleId : Uuid} :
    roleId ∈ db.getRoleIds id ↔ (id, roleId) ∈ db.membershipRoles := by
  simp only [getRoleIds, List.mem_toFinset, List.mem_map, List.mem_filter, decide_eq_true_eq,
    Prod.exists]
  constructor
  · rintro ⟨_, r, ⟨hmem, rfl⟩, rfl⟩
    exact hmem
  · intro hmem
    exact ⟨id, roleId, ⟨hmem, rfl⟩, rfl⟩

/-- A membership holds the permissions of its roles. -/
theorem AccessDb.mem_getPermissions {db : AccessDb} {id : Uuid} {code : String} :
    code ∈ db.getPermissions id ↔
      ∃ r, (id, r) ∈ db.membershipRoles ∧ (r, code) ∈ db.rolePermissions := by
  have hsame : db.getPermissions id = db.permissionsOf (db.getRoleIds id) := rfl
  rw [hsame, mem_permissionsOf]
  simp only [mem_getRoleIds]

/-- The role exists. -/
def AccessDb.hasRole (db : AccessDb) (roleId : Uuid) : Bool := db.roles.any (·.id = roleId)

/-- The foreign keys of `membership_roles`. -/
structure AccessDb.Consistent (db : AccessDb) : Prop where
  membership : ∀ id roleId, (id, roleId) ∈ db.membershipRoles → db.member id ≠ none
  role : ∀ id roleId, (id, roleId) ∈ db.membershipRoles → db.hasRole roleId = true

theorem AccessDb.Consistent.getPermissions_eq_empty {db : AccessDb} (h : db.Consistent) {id : Uuid}
    (hid : db.member id = none) : db.getPermissions id = ∅ := by
  rw [Finset.eq_empty_iff_forall_notMem]
  intro code hcode
  obtain ⟨roleId, hmem, -⟩ := mem_getPermissions.mp hcode
  exact h.membership id roleId hmem hid

/-! ## Writes to memberships -/

/-- Rows of memberships changed in place. -/
def AccessDb.modifyMembers (db : AccessDb) (f : Membership → Membership)
    (hf : ∀ m, (f m).id = m.id) : AccessDb :=
  { db with
    memberships := db.memberships.map f
    memberships_nodup := by
      have hids : (db.memberships.map f).map Membership.id = db.memberships.map Membership.id := by
        rw [List.map_map]
        exact List.map_congr_left fun m _ => hf m
      rw [hids]
      exact db.memberships_nodup }

@[simp] theorem AccessDb.member_modifyMembers (db : AccessDb) (f : Membership → Membership)
    (hf : ∀ m, (f m).id = m.id) (id : Uuid) :
    (db.modifyMembers f hf).member id = (db.member id).map f := by
  unfold member modifyMembers
  rw [List.find?_map]
  congr 2
  funext m
  simp [hf]

/-- `roles_version = roles_version + 1` on the given rows. -/
def Membership.bump (ids : List Uuid) (m : Membership) : Membership :=
  if m.id ∈ ids then { m with rolesVersion := m.rolesVersion + 1 } else m

theorem Membership.bump_id (ids : List Uuid) (m : Membership) : (m.bump ids).id = m.id := by
  unfold bump
  split
  · rfl
  · rfl

/-- The rows that the subquery of `bump_assigned_memberships` selects. -/
def AccessDb.assignedMemberships (db : AccessDb) (roleId : Uuid) : List Uuid :=
  (db.memberships.map Membership.id).filter fun id => (id, roleId) ∈ db.membershipRoles

/-- The write of `bump_assigned_memberships` to the rows it has locked. -/
def AccessDb.bumpMemberships (db : AccessDb) (ids : List Uuid) : AccessDb :=
  db.modifyMembers (Membership.bump ids) (Membership.bump_id ids)

/-- `INSERT` of a membership, under the primary key and `UniqueConstraint(tenant_id, user_id)`. -/
def AccessDb.addMembership (db : AccessDb) (membership : Membership) : Option AccessDb :=
  if h : ∀ m ∈ db.memberships, m.id ≠ membership.id ∧ m.userId ≠ membership.userId then
    some { db with
      memberships := db.memberships ++ [membership]
      memberships_nodup := by
        rw [List.map_append, List.map_singleton]
        refine List.nodup_append.mpr ⟨db.memberships_nodup, List.nodup_singleton _, ?_⟩
        intro id hid id' hid' heq
        obtain ⟨m, hm, rfl⟩ := List.mem_map.mp hid
        rw [List.mem_singleton.mp hid'] at heq
        exact (h m hm).1 heq }
  else none

/-- `INSERT` of a row of `membership_roles`. -/
def AccessDb.assignRole (db : AccessDb) (id roleId : Uuid) : AccessDb :=
  { db with membershipRoles := db.membershipRoles ++ [(id, roleId)] }

/-! ## Writes to roles -/

/-- The codes in order. -/
def sortedCodes (codes : Finset String) : List String := codes.sort

/-- `replace_permissions`. -/
def AccessDb.replacePermissions (db : AccessDb) (roleId : Uuid) (codes : Finset String) :
    AccessDb :=
  { db with rolePermissions :=
      db.rolePermissions.filter (·.1 ≠ roleId) ++
        (sortedCodes codes).map fun code => (roleId, code) }

theorem AccessDb.mem_replacePermissions {db : AccessDb} {roleId r : Uuid} {codes : Finset String}
    {code : String} :
    (r, code) ∈ (db.replacePermissions roleId codes).rolePermissions ↔
      if r = roleId then code ∈ codes else (r, code) ∈ db.rolePermissions := by
  simp only [replacePermissions, sortedCodes, List.mem_append, List.mem_filter, List.mem_map, Finset.mem_sort,
    Prod.mk.injEq, decide_eq_true_eq]
  split
  next h => subst h; simp
  next h =>
    have h' : roleId ≠ r := fun heq => h heq.symm
    simp [h, h']

/-- `role.name = payload.name`. -/
def AccessDb.renameRole (db : AccessDb) (roleId : Uuid) (name : String) : AccessDb :=
  { db with
    roles := db.roles.map fun role => if role.id = roleId then { role with name := name } else role
    systemRoles_nodup := by
      have hcodes : ∀ roles : List Role,
          ((roles.map fun role => if role.id = roleId then { role with name := name } else role).filter
            Role.isSystem).map Role.code = (roles.filter Role.isSystem).map Role.code := by
        intro roles
        induction roles with
        | nil => rfl
        | cons role roles ih =>
            by_cases hid : role.id = roleId
            · cases hsystem : role.isSystem
              · simpa [hid, hsystem] using ih
              · simpa [hid, hsystem] using ih
            · cases hsystem : role.isSystem
              · simpa [hid, hsystem] using ih
              · simpa [hid, hsystem] using ih
      rw [hcodes]
      exact db.systemRoles_nodup }

theorem AccessDb.hasRole_renameRole (db : AccessDb) (roleId : Uuid) (name : String) (r : Uuid) :
    (db.renameRole roleId name).hasRole r = db.hasRole r := by
  simp only [hasRole, renameRole, List.any_map]
  congr 1
  funext role
  simp only [Function.comp_apply]
  split
  · rfl
  · rfl

/-- `INSERT` of a custom role, under the primary key and `uq_roles_tenant_code`. -/
def AccessDb.addRole (db : AccessDb) (id : Uuid) (code name : String) : Option AccessDb :=
  if db.roles.any fun role => role.id = id || (!role.isSystem && role.code = code) then none
  else
    some { db with
      roles := db.roles ++ [{ id := id, code := code, name := name, isSystem := false }]
      systemRoles_nodup := by
        rw [List.filter_append]
        simpa using db.systemRoles_nodup }

/-- `get_custom`. -/
def AccessDb.getCustom (db : AccessDb) (roleId : Uuid) : Option Role :=
  db.roles.find? fun role => role.id = roleId && !role.isSystem

/-- `is_system`. -/
def AccessDb.isSystemRole (db : AccessDb) (roleId : Uuid) : Bool :=
  db.roles.any fun role => role.id = roleId && role.isSystem

/-- `DELETE` of a role.  Its permissions and its assignments go with it. -/
def AccessDb.deleteRole (db : AccessDb) (roleId : Uuid) : AccessDb :=
  { db with
    roles := db.roles.filter (·.id ≠ roleId)
    systemRoles_nodup := by
      refine db.systemRoles_nodup.sublist (List.Sublist.map _ ?_)
      rw [List.filter_comm]
      exact List.filter_sublist
    rolePermissions := db.rolePermissions.filter (·.1 ≠ roleId)
    membershipRoles := db.membershipRoles.filter (·.2 ≠ roleId) }

/-! ## Users and invitations -/

/-- `get_by_token`. -/
def MembersDb.getByToken (db : MembersDb) (tokenHash : String) : Option Invitation :=
  db.invitations.rows.find? (·.tokenHash = tokenHash)

/-- `member_emails`. -/
def MembersDb.memberEmails (db : MembersDb) : List String :=
  (db.users.rows.filter fun user => db.access.memberships.any fun m =>
    m.userId = user.id && m.status ≠ .revoked).map User.email

/-- `existing_membership`. -/
def MembersDb.existingMembership (db : MembersDb) (userId : Uuid) : Option Membership :=
  db.access.memberships.find? (·.userId = userId)

/-- `INSERT` of an invitation, under its unique token and `uq_invitations_pending_email`. -/
def MembersDb.addInvitation (db : MembersDb) (invitation : Invitation) : Option MembersDb :=
  if db.invitations.rows.any fun row => row.tokenHash = invitation.tokenHash ||
      (row.acceptedAt = none && row.status = .pending && row.email = invitation.email) then none
  else (db.invitations.insert invitation).map fun invitations =>
    { db with invitations := invitations }

/-- `INSERT` of a user. -/
def MembersDb.addUser (db : MembersDb) (user : User) : Option MembersDb :=
  if db.users.rows.any (·.id = user.id) then none
  else (db.users.insert user).map fun users => { db with users := users }

end Nexora.Access
