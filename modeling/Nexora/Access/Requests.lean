import Nexora.Access.Roles
import Nexora.Foundations.Interleaving

/-!
# Access requests

The requests that read and write the access tables, statement by statement:
`build_tenant_context` (`app/modules/rbac/service.py`), `RoleService`
(`app/modules/rbac/role_service.py`), `MemberService` (`app/modules/members/service.py`) and
`InvitationService` (`app/modules/invitations/service.py`).

Each kind of request has its stages, named after the statement that comes next.  `step` is
that statement, and `commit` is what the transaction writes when it ends.  A statement that
raises leads to `Phase.raised`, whose end writes nothing.

A foreign-key insert locks the row it refers to `FOR KEY SHARE`.  An insert that breaks a
unique index is refused against the committed rows, once when it is sent and once more at the
commit, which stands for the wait on another insert.
-/

namespace Nexora.Access

open Nexora Foundations

/-! ## The state -/

/-- A call of `build_tenant_context` past its first statement.  `seen` counts the commits
before the state in which it read the membership. -/
structure Reading where
  userId : Uuid
  membership : Membership
  seen : Nat

/-- A context that was handed to a request. -/
structure Served where
  reading : Reading
  context : TenantContext

/-- The tables, the cache, the access tables of the commits before, and the contexts that were
handed out. -/
structure AccessState where
  db : MembersDb
  cache : PermCache
  past : List AccessDb
  served : List Served

/-- The access tables of all committed states, first to last. -/
def AccessState.history (state : AccessState) : List AccessDb := state.past ++ [state.db.access]

def AccessState.commit (state : AccessState) (db : MembersDb) : AccessState :=
  { state with db := db, past := state.history }

/-- A key of the cache takes a new value. -/
def PermCache.set (cache : PermCache) (membershipId : Uuid) (version : Nat)
    (permissions : Finset String) : PermCache :=
  Function.update cache membershipId (Function.update (cache membershipId) version permissions)

/-- The permissions that exist, and `invitation_expire_days`. -/
structure Settings where
  permissions : Finset String
  invitationExpireDays : Nat

/-- Which row a statement over several rows comes to next is for the database to choose. -/
inductive Choice where
  | next
  | row (id : Uuid)

inductive Row where
  | membership (id : Uuid)
  | role (id : Uuid)
  | invitation (id : Uuid)
deriving DecidableEq

/-! ## Building a context -/

inductive ContextStage where
  | readMembership (userId : Uuid)
  | readCache (reading : Reading)
  | readPermissions (reading : Reading)
  | fillCache (reading : Reading) (permissions : Finset String)
  | readRoles (reading : Reading) (permissions : Finset String)
  | readBranches (reading : Reading) (permissions : Finset String) (roleIds : Finset Uuid)
  | built (reading : Reading) (context : TenantContext)

/-- `build_tenant_context`.  The cache is filled with `SADD`, which adds to what is there. -/
def ContextStage.step (state : AccessState) :
    ContextStage → Option (AccessState × Except Err ContextStage)
  | .readMembership userId =>
      match state.db.access.getActiveMembership userId with
      | none =>
          some (state, .error (.permissionDenied "NO_ACTIVE_TENANT" "No active tenant membership."))
      | some membership => some (state, .ok (.readCache ⟨userId, membership, state.past.length⟩))
  | .readCache reading =>
      let cached := state.cache reading.membership.id reading.membership.rolesVersion
      if cached = ∅ then some (state, .ok (.readPermissions reading))
      else some (state, .ok (.readRoles reading cached))
  | .readPermissions reading =>
      let permissions := state.db.access.getPermissions reading.membership.id
      if permissions = ∅ then some (state, .ok (.readRoles reading ∅))
      else some (state, .ok (.fillCache reading permissions))
  | .fillCache reading permissions =>
      let cached := state.cache reading.membership.id reading.membership.rolesVersion
      some ({ state with
          cache := state.cache.set reading.membership.id reading.membership.rolesVersion
            (cached ∪ permissions) },
        .ok (.readRoles reading permissions))
  | .readRoles reading permissions =>
      some (state, .ok (.readBranches reading permissions
        (state.db.access.getRoleIds reading.membership.id)))
  | .readBranches reading permissions roleIds =>
      some (state, .ok (.built reading
        { tenantId := state.db.access.tenantId
          membershipId := reading.membership.id
          userId := reading.userId
          roleIds := roleIds
          permissions := permissions
          branchIds := state.db.access.getBranchScope reading.membership.id }))
  | .built _ _ => none

/-! ## Members -/

/-- The checks of `update_roles`, `update_status` and `remove`. -/
inductive MemberCheck where
  | roles
  | permissions
  | owner
  | notRevoked
  | lastOwner
deriving DecidableEq

/-- The checks of a request, in order. -/
def MemberRequest.checks : MemberRequest → List MemberCheck
  | .updateRoles _ _ => [.roles, .permissions, .owner, .lastOwner]
  | .updateStatus _ _ => [.notRevoked, .lastOwner]
  | .remove _ => [.lastOwner]

/-- The roles a request asks for. -/
def MemberRequest.roleIds : MemberRequest → Finset Uuid
  | .updateRoles _ roleIds => roleIds
  | .updateStatus _ _ => ∅
  | .remove _ => ∅

/-- One check, on what is committed when it runs. -/
def MemberRequest.runCheck (db : AccessDb) (context : TenantContext) (record : MemberRecord)
    (request : MemberRequest) : MemberCheck → Except Err Unit
  | .roles =>
      if db.existingRoles request.roleIds ≠ request.roleIds then
        .error (.domainValidation "VALIDATION_ERROR" "One or more roles are invalid.")
      else .ok ()
  | .permissions =>
      if ¬db.permissionsOf request.roleIds ⊆ context.permissions then
        .error (.permissionDenied "CANNOT_GRANT_UNHELD_PERMISSION"
          "You cannot grant permissions you do not hold.")
      else .ok ()
  | .owner =>
      if db.ownerRoleId.any (· ∈ request.roleIds) && !db.ownerRoleId.any (· ∈ context.roleIds) then
        .error (.permissionDenied "CANNOT_GRANT_UNHELD_PERMISSION"
          "Only an OWNER can assign OWNER.")
      else .ok ()
  | .notRevoked =>
      if record.membership.status = .revoked then
        .error (.conflict "INVALID_STATE_TRANSITION" "A revoked membership cannot be restored.")
      else .ok ()
  | .lastOwner =>
      if request.takesOwner db.ownerRoleId record then db.requireAnotherOwner else .ok ()

inductive MemberStage where
  | lock
  | readRoles (membership : Membership)
  | check (record : MemberRecord) (todo : List MemberCheck)
  /-- The old roles are deleted, and these are still to be inserted. -/
  | insert (record : MemberRecord) (todo inserted : List Uuid)

/-- The statements of a member request. -/
def MemberStage.step (db : AccessDb) (context : TenantContext) (request : MemberRequest) :
    MemberStage → Choice → Option (Except Err MemberStage)
  | .lock, .next =>
      match db.member request.target with
      | none => some (.error .notFound)
      | some membership => some (.ok (.readRoles membership))
  | .readRoles membership, .next =>
      some (.ok (.check ⟨membership, db.getRoleIds membership.id⟩ request.checks))
  | .check record (first :: todo), .next =>
      match request.runCheck db context record first with
      | .error e => some (.error e)
      | .ok () => some (.ok (.check record todo))
  | .check record [], .next =>
      match request with
      | .updateRoles _ roleIds => some (.ok (.insert record roleIds.sort []))
      | _ => none
  | .insert record todo inserted, .row roleId =>
      if roleId ∈ todo then
        if db.hasRole roleId then
          some (.ok (.insert record (todo.erase roleId) (roleId :: inserted)))
        else some (.error (.integrity "fk_membership_roles_role_id_roles"))
      else none
  | _, _ => none

/-- What a member request commits. -/
def MemberStage.commit (db : AccessDb) (request : MemberRequest) : MemberStage → Option AccessDb
  | .check record [] =>
      match request with
      | .updateRoles _ _ => none
      | request => some (request.write db record)
  | .insert record [] _ => some (request.write db record)
  | _ => none

def MemberStage.locks (request : MemberRequest) : MemberStage → List (Row × LockMode)
  | .lock => []
  | .readRoles _ => [(.membership request.target, .update)]
  | .check _ _ => [(.membership request.target, .update)]
  | .insert _ _ inserted =>
      (.membership request.target, .update) :: inserted.map fun roleId => (.role roleId, .keyShare)

/-! ## Roles -/

/-- `RoleCreate`. -/
structure RoleCreate where
  code : String
  name : String
  permissionCodes : Finset String

/-- `RoleUpdate`. -/
structure RoleUpdate where
  name : Option String
  permissionCodes : Option (Finset String)

/-- `_validate_permissions`. -/
def Settings.validatePermissions (settings : Settings) (context : TenantContext)
    (codes : Finset String) : Except Err Unit :=
  let unknown := codes \ settings.permissions
  if unknown ≠ ∅ then
    .error (.domainValidation "UNKNOWN_PERMISSION"
      ("Unknown permission codes: " ++ ", ".intercalate (sortedCodes unknown) ++ "."))
  else if codes \ context.permissions ≠ ∅ then
    .error (.permissionDenied "PRIVILEGE_ESCALATION"
      "A role cannot grant permissions you do not hold.")
  else .ok ()

/-- `_raise_missing_or_system`. -/
def AccessDb.missingOrSystem (db : AccessDb) (roleId : Uuid) : Err :=
  if db.isSystemRole roleId then
    .conflict "SYSTEM_ROLE_IMMUTABLE" "System roles cannot be changed."
  else .notFound

inductive RoleStage where
  | createValidate (roleId : Uuid) (payload : RoleCreate)
  | createInsert (roleId : Uuid) (payload : RoleCreate)
  | created (roleId : Uuid) (payload : RoleCreate)
  | updateLock (roleId : Uuid) (payload : RoleUpdate)
  | updateValidate (role : Role) (payload : RoleUpdate)
  | updateReplace (role : Role) (payload : RoleUpdate) (codes : Finset String)
  | updateBump (role : Role) (payload : RoleUpdate) (codes : Finset String)
  /-- The rows that the `UPDATE` has still to come to, and those it has locked. -/
  | bumping (role : Role) (payload : RoleUpdate) (codes : Finset String) (todo bumped : List Uuid)
  /-- An update that leaves the permissions alone. -/
  | renamed (role : Role) (payload : RoleUpdate) (codes : Finset String)
  | deleteLock (roleId : Uuid)
  | deleteCount (role : Role)
  | deleteRow (role : Role)

/-- The statements of `create`, `update` and `delete`. -/
def RoleStage.step (settings : Settings) (db : AccessDb) (context : TenantContext) :
    RoleStage → Choice → Option (Except Err RoleStage)
  | .createValidate roleId payload, .next =>
      match settings.validatePermissions context payload.permissionCodes with
      | .error e => some (.error e)
      | .ok () => some (.ok (.createInsert roleId payload))
  | .createInsert roleId payload, .next =>
      match db.addRole roleId payload.code payload.name with
      | none => some (.error (.conflict "DUPLICATE_RESOURCE" "Role code already exists."))
      | some _ => some (.ok (.created roleId payload))
  | .updateLock roleId payload, .next =>
      match db.getCustom roleId with
      | none => some (.error (db.missingOrSystem roleId))
      | some role => some (.ok (.updateValidate role payload))
  | .updateValidate role payload, .next =>
      match payload.permissionCodes with
      | none => some (.ok (.renamed role payload (db.rolePermissionCodes role.id)))
      | some codes =>
          match settings.validatePermissions context codes with
          | .error e => some (.error e)
          | .ok () => some (.ok (.updateReplace role payload codes))
  | .updateReplace role payload codes, .next => some (.ok (.updateBump role payload codes))
  | .updateBump role payload codes, .next =>
      some (.ok (.bumping role payload codes (db.assignedMemberships role.id) []))
  | .bumping role payload codes todo bumped, .row id =>
      if id ∈ todo then
        some (.ok (.bumping role payload codes (todo.erase id) (id :: bumped)))
      else none
  | .deleteLock roleId, .next =>
      match db.getCustom roleId with
      | none => some (.error (db.missingOrSystem roleId))
      | some role => some (.ok (.deleteCount role))
  | .deleteCount role, .next =>
      if db.membershipRoles.any (·.2 = role.id) then
        some (.error (.conflict "ROLE_ASSIGNED" "Assigned roles cannot be deleted."))
      else some (.ok (.deleteRow role))
  | _, _ => none

/-- `role.name = payload.name`, when a name is given. -/
def RoleUpdate.rename (payload : RoleUpdate) (db : AccessDb) (roleId : Uuid) : AccessDb :=
  match payload.name with
  | none => db
  | some name => db.renameRole roleId name

/-- What a role request commits.  Invitations refer to their role, so one that was invited into
cannot be deleted. -/
def RoleStage.commit (db : MembersDb) : RoleStage → Option AccessDb
  | .created roleId payload =>
      (db.access.addRole roleId payload.code payload.name).map fun access =>
        access.replacePermissions roleId payload.permissionCodes
  | .bumping role payload codes [] bumped =>
      some (payload.rename ((db.access.replacePermissions role.id codes).bumpMemberships bumped)
        role.id)
  | .renamed role payload _ => some (payload.rename db.access role.id)
  | .deleteRow role =>
      if db.invitations.rows.any (·.roleId = role.id) then none
      else some (db.access.deleteRole role.id)
  | _ => none

def RoleStage.locks : RoleStage → List (Row × LockMode)
  | .updateValidate role _ | .updateReplace role _ _ | .updateBump role _ _ | .renamed role _ _
  | .deleteCount role | .deleteRow role => [(.role role.id, .update)]
  | .bumping role _ _ _ bumped =>
      (.role role.id, .update) :: bumped.map fun id => (.membership id, .noKeyUpdate)
  | _ => []

/-! ## Invitations -/

/-- `InvitationCreate`, with what the request draws. -/
structure InvitationCreate where
  email : String
  roleId : Uuid
  invitationId : Uuid
  tokenHash : String
  now : Time

/-- `now + timedelta(days=self.settings.invitation_expire_days)`. -/
def Settings.expiry (settings : Settings) (now : Time) : Time :=
  now + settings.invitationExpireDays * (86400 * 10 ^ 6)

/-- The row of a new invitation. -/
def InvitationCreate.row (payload : InvitationCreate) (settings : Settings)
    (context : TenantContext) : Invitation :=
  { id := payload.invitationId
    email := payload.email
    roleId := payload.roleId
    tokenHash := payload.tokenHash
    invitedByUserId := context.userId
    expiresAt := settings.expiry payload.now
    acceptedAt := none
    status := .pending }

inductive InviteStage where
  | role
  | granted
  | emails
  | insert
  | invited

/-- The statements of `invite`. -/
def InviteStage.step (settings : Settings) (db : MembersDb) (context : TenantContext)
    (payload : InvitationCreate) : InviteStage → Option (Except Err InviteStage)
  | .role => if db.access.hasRole payload.roleId then some (.ok .granted) else some (.error .notFound)
  | .granted =>
      if db.access.rolePermissionCodes payload.roleId ⊆ context.permissions then some (.ok .emails)
      else
        some (.error (.permissionDenied "CANNOT_GRANT_UNHELD_PERMISSION"
          "You cannot invite someone into a role with permissions you do not hold."))
  | .emails =>
      if payload.email ∈ db.memberEmails then
        some (.error (.conflict "DUPLICATE_RESOURCE"
          "That person is already a member of this organization."))
      else some (.ok .insert)
  | .insert =>
      match db.addInvitation (payload.row settings context) with
      | some _ =>
          if db.access.hasRole payload.roleId then some (.ok .invited)
          else some (.error (.conflict "DUPLICATE_RESOURCE"
            "An invitation for that address is already pending."))
      | none =>
          some (.error (.conflict "DUPLICATE_RESOURCE"
            "An invitation for that address is already pending."))
  | .invited => none

/-- What `invite` commits. -/
def InviteStage.commit (settings : Settings) (db : MembersDb) (context : TenantContext)
    (payload : InvitationCreate) : InviteStage → Option MembersDb
  | .invited => db.addInvitation (payload.row settings context)
  | _ => none

def InviteStage.locks (payload : InvitationCreate) : InviteStage → List (Row × LockMode)
  | .invited => [(.role payload.roleId, .keyShare)]
  | _ => []

/-- `InvitationAccept`, with what the request draws. -/
structure InvitationAccept where
  tokenHash : String
  fullName : Option String
  password : Option String
  membershipId : Uuid
  userId : Uuid
  now : Time

def tokenInvalid : Err :=
  .domainValidation "TOKEN_INVALID" "This invitation is invalid or has expired."

/-- The membership that an accepted invitation makes. -/
def InvitationAccept.membership (payload : InvitationAccept) (user : User) : Membership :=
  { id := payload.membershipId, userId := user.id, status := .active, rolesVersion := 0 }

/-- `_resolve_user`: the account of the address, or the one to create. -/
def MembersDb.resolveUser (db : MembersDb) (payload : InvitationAccept) (email : String) :
    Except Err (User × Bool) :=
  match db.users.get email with
  | some user => .ok (user, false)
  | none =>
      match payload.password, payload.fullName with
      | some _, some fullName => .ok (⟨payload.userId, email, fullName⟩, true)
      | _, _ =>
          .error (.domainValidation "VALIDATION_ERROR"
            "A name and password are required to create your account.")

inductive AcceptStage where
  | lockToken
  | resolveUser (invitation : Invitation)
  | checkExisting (invitation : Invitation) (user : User) (created : Bool)
  | insertMembership (invitation : Invitation) (user : User) (created : Bool)
  | insertRole (invitation : Invitation) (user : User) (created : Bool)
  | accepted (invitation : Invitation) (user : User) (created : Bool)

/-- The statements of `accept`. -/
def AcceptStage.step (db : MembersDb) (payload : InvitationAccept) :
    AcceptStage → Option (Except Err AcceptStage)
  | .lockToken =>
      match db.getByToken payload.tokenHash with
      | none => some (.error tokenInvalid)
      | some invitation =>
          if invitation.status ≠ .pending ∨ invitation.acceptedAt ≠ none ∨
              invitation.expiresAt ≤ payload.now then some (.error tokenInvalid)
          else some (.ok (.resolveUser invitation))
  | .resolveUser invitation =>
      match db.resolveUser payload invitation.email with
      | .error e => some (.error e)
      | .ok (user, created) => some (.ok (.checkExisting invitation user created))
  | .checkExisting invitation user created =>
      if (db.existingMembership user.id).any (·.status ≠ .revoked) then
        some (.error (.conflict "DUPLICATE_RESOURCE"
          "You are already a member of this organization."))
      else some (.ok (.insertMembership invitation user created))
  | .insertMembership invitation user created =>
      match db.access.addMembership (payload.membership user) with
      | none => some (.error (.integrity "uq_memberships_tenant_id_user_id"))
      | some _ => some (.ok (.insertRole invitation user created))
  | .insertRole invitation user created =>
      if db.access.hasRole invitation.roleId then some (.ok (.accepted invitation user created))
      else some (.error (.integrity "fk_membership_roles_role_id_roles"))
  | .accepted _ _ _ => none

/-- `invitation.status = ACCEPTED` and `invitation.accepted_at = now`. -/
def InvitationAccept.redeem (payload : InvitationAccept) (invitation : Invitation) : Invitation :=
  { invitation with status := .accepted, acceptedAt := some payload.now }

theorem InvitationAccept.redeem_id (payload : InvitationAccept) (invitation : Invitation) :
    (payload.redeem invitation).id = invitation.id := rfl

/-- What `accept` commits. -/
def AcceptStage.commit (db : MembersDb) (payload : InvitationAccept) :
    AcceptStage → Option MembersDb
  | .accepted invitation user created => do
      let db ← if created then db.addUser user else some db
      let access ← db.access.addMembership (payload.membership user)
      some { db with
        access := access.assignRole payload.membershipId invitation.roleId
        invitations := db.invitations.modifyAt invitation.id payload.redeem payload.redeem_id }
  | _ => none

def AcceptStage.locks : AcceptStage → List (Row × LockMode)
  | .lockToken => []
  | .resolveUser invitation | .checkExisting invitation _ _ | .insertMembership invitation _ _
  | .insertRole invitation _ _ => [(.invitation invitation.id, .update)]
  | .accepted invitation _ _ =>
      [(.invitation invitation.id, .update), (.role invitation.roleId, .keyShare)]

/-- `revoke`, and `resend` with the new token. -/
inductive InvitationChange where
  | revoke
  | resend (tokenHash : String) (now : Time)

inductive ChangeStage where
  | lock
  | locked (invitation : Invitation)

/-- The message when the invitation is not pending any more. -/
def InvitationChange.refusal : InvitationChange → Err
  | .revoke => .conflict "INVALID_STATE_TRANSITION" "Only a pending invitation can be revoked."
  | .resend _ _ => .conflict "INVALID_STATE_TRANSITION" "Only a pending invitation can be resent."

/-- The statements of `revoke` and `resend`. -/
def ChangeStage.step (db : MembersDb) (invitationId : Uuid) (change : InvitationChange) :
    ChangeStage → Option (Except Err ChangeStage)
  | .lock =>
      match db.invitations.get invitationId with
      | none => some (.error .notFound)
      | some invitation =>
          if invitation.status ≠ .pending then some (.error change.refusal)
          else some (.ok (.locked invitation))
  | .locked _ => none

/-- What `revoke` and `resend` make of the row. -/
def InvitationChange.apply (settings : Settings) (change : InvitationChange)
    (invitation : Invitation) : Invitation :=
  match change with
  | .revoke => { invitation with status := .revoked }
  | .resend tokenHash now =>
      { invitation with tokenHash := tokenHash, expiresAt := settings.expiry now }

theorem InvitationChange.apply_id (settings : Settings) (change : InvitationChange)
    (invitation : Invitation) : (change.apply settings invitation).id = invitation.id := by
  cases change with
  | revoke => rfl
  | resend tokenHash now => rfl

/-- The token is free. -/
def InvitationChange.unique (db : MembersDb) (invitationId : Uuid) : InvitationChange → Bool
  | .revoke => true
  | .resend tokenHash _ =>
      !db.invitations.rows.any fun row => row.tokenHash = tokenHash && row.id ≠ invitationId

/-- What `revoke` and `resend` commit. -/
def ChangeStage.commit (settings : Settings) (db : MembersDb) (change : InvitationChange) :
    ChangeStage → Option MembersDb
  | .lock => none
  | .locked invitation =>
      if change.unique db invitation.id then
        some { db with
          invitations := db.invitations.modifyAt invitation.id (change.apply settings)
            (change.apply_id settings) }
      else none

def ChangeStage.locks : ChangeStage → List (Row × LockMode)
  | .lock => []
  | .locked invitation => [(.invitation invitation.id, .update)]

/-! ## The system -/

inductive Request where
  | buildTenantContext (userId : Uuid)
  | member (context : TenantContext) (request : MemberRequest)
  | createRole (context : TenantContext) (roleId : Uuid) (payload : RoleCreate)
  | updateRole (context : TenantContext) (roleId : Uuid) (payload : RoleUpdate)
  | deleteRole (context : TenantContext) (roleId : Uuid)
  | invite (context : TenantContext) (payload : InvitationCreate)
  | accept (payload : InvitationAccept)
  | changeInvitation (context : TenantContext) (invitationId : Uuid) (change : InvitationChange)
  /-- Redis drops a key of the cache. -/
  | expire (membershipId : Uuid) (version : Nat)

inductive Phase where
  | building (stage : ContextStage)
  | member (context : TenantContext) (request : MemberRequest) (stage : MemberStage)
  | role (context : TenantContext) (stage : RoleStage)
  | invite (context : TenantContext) (payload : InvitationCreate) (stage : InviteStage)
  | accept (payload : InvitationAccept) (stage : AcceptStage)
  | changeInvitation (context : TenantContext) (invitationId : Uuid) (change : InvitationChange)
      (stage : ChangeStage)
  | expire (membershipId : Uuid) (version : Nat)
  | raised (error : Err)

/-- The next stage, or the error that was raised. -/
def Phase.next {Stage : Type} (phase : Stage → Phase) : Except Err Stage → Phase
  | .ok stage => phase stage
  | .error e => .raised e

def start : Request → Phase
  | .buildTenantContext userId => .building (.readMembership userId)
  | .member context request =>
      match request.accept context with
      | .error e => .raised e
      | .ok () => .member context request .lock
  | .createRole context roleId payload => .role context (.createValidate roleId payload)
  | .updateRole context roleId payload => .role context (.updateLock roleId payload)
  | .deleteRole context roleId => .role context (.deleteLock roleId)
  | .invite context payload => .invite context payload .role
  | .accept payload => .accept payload .lockToken
  | .changeInvitation context invitationId change =>
      .changeInvitation context invitationId change .lock
  | .expire membershipId version => .expire membershipId version

/-- The next statement. -/
def run (settings : Settings) (state : AccessState) :
    Phase → Choice → Option (AccessState × Phase)
  | .building stage, .next =>
      (stage.step state).map fun out => (out.1, .next .building out.2)
  | .member context request stage, choice =>
      (stage.step state.db.access context request choice).map fun out =>
        (state, .next (.member context request) out)
  | .role context stage, choice =>
      (stage.step settings state.db.access context choice).map fun out =>
        (state, .next (.role context) out)
  | .invite context payload stage, .next =>
      (stage.step settings state.db context payload).map fun out =>
        (state, .next (.invite context payload) out)
  | .accept payload stage, .next =>
      (stage.step state.db payload).map fun out => (state, .next (.accept payload) out)
  | .changeInvitation context invitationId change stage, .next =>
      (stage.step state.db invitationId change).map fun out =>
        (state, .next (.changeInvitation context invitationId change) out)
  | _, _ => none

/-- What a transaction writes to the tables. -/
def Phase.commit (settings : Settings) (db : MembersDb) : Phase → Option MembersDb
  | .member _ request stage =>
      (stage.commit db.access request).map fun access => { db with access := access }
  | .role _ stage => (stage.commit db).map fun access => { db with access := access }
  | .invite context payload stage => stage.commit settings db context payload
  | .accept payload stage => stage.commit db payload
  | .changeInvitation _ _ change stage => stage.commit settings db change
  | _ => none

/-- The end of a transaction. -/
def finish (settings : Settings) (state : AccessState) : Phase → Option AccessState
  | .building (.built reading context) =>
      some { state with served := state.served ++ [⟨reading, context⟩] }
  | .expire membershipId version =>
      some { state with cache := state.cache.set membershipId version ∅ }
  | .raised _ => some state
  | phase => (phase.commit settings state.db).map state.commit

def Phase.locks : Phase → List (Row × LockMode)
  | .member _ request stage => stage.locks request
  | .role _ stage => stage.locks
  | .invite _ payload stage => stage.locks payload
  | .accept _ stage => stage.locks
  | .changeInvitation _ _ _ stage => stage.locks
  | _ => []

/-- The requests on the access tables. -/
def protocol (settings : Settings) : Protocol AccessState Request Phase Choice Row where
  start _ request := Access.start request
  run := run settings
  finish := finish settings
  locks := Phase.locks

/-- A statement reads the tables, and writes at most to the cache. -/
theorem run_tables {settings : Settings} {state state' : AccessState} {phase phase' : Phase}
    {choice : Choice} (hrun : run settings state phase choice = some (state', phase')) :
    state'.db = state.db ∧ state'.past = state.past := by
  cases phase with
  | building stage =>
      cases choice with
      | row id => cases hrun
      | next =>
          obtain ⟨⟨state₁, out⟩, hstep, heq⟩ := Option.map_eq_some_iff.mp hrun
          cases heq
          cases stage with
          | readMembership userId =>
              simp only [ContextStage.step] at hstep
              split at hstep
              · cases hstep
                exact ⟨rfl, rfl⟩
              · cases hstep
                exact ⟨rfl, rfl⟩
          | readCache reading =>
              simp only [ContextStage.step] at hstep
              split at hstep
              · cases hstep
                exact ⟨rfl, rfl⟩
              · cases hstep
                exact ⟨rfl, rfl⟩
          | readPermissions reading =>
              simp only [ContextStage.step] at hstep
              split at hstep
              · cases hstep
                exact ⟨rfl, rfl⟩
              · cases hstep
                exact ⟨rfl, rfl⟩
          | built reading context => cases hstep
          | _ =>
              cases hstep
              exact ⟨rfl, rfl⟩
  | member context request stage =>
      obtain ⟨out, -, heq⟩ := Option.map_eq_some_iff.mp hrun
      cases heq
      exact ⟨rfl, rfl⟩
  | role context stage =>
      obtain ⟨out, -, heq⟩ := Option.map_eq_some_iff.mp hrun
      cases heq
      exact ⟨rfl, rfl⟩
  | expire membershipId version => cases hrun
  | raised error => cases hrun
  | _ =>
      cases choice with
      | row id => cases hrun
      | next =>
          obtain ⟨out, -, heq⟩ := Option.map_eq_some_iff.mp hrun
          cases heq
          exact ⟨rfl, rfl⟩

/-- The end of a transaction: it writes to the tables, or to none of them. -/
theorem finish_cases {settings : Settings} {state state' : AccessState} {phase : Phase}
    (hfinish : finish settings state phase = some state') :
    (∃ db, phase.commit settings state.db = some db ∧ state' = state.commit db) ∨
    (∃ reading context, phase = .building (.built reading context) ∧
      state' = { state with served := state.served ++ [⟨reading, context⟩] }) ∨
    (∃ id version, phase = .expire id version ∧
      state' = { state with cache := state.cache.set id version ∅ }) ∨
    state' = state := by
  cases phase with
  | building stage =>
      cases stage with
      | built reading context =>
          cases hfinish
          exact .inr (.inl ⟨reading, context, rfl, rfl⟩)
      | _ => cases hfinish
  | expire id version =>
      cases hfinish
      exact .inr (.inr (.inl ⟨id, version, rfl, rfl⟩))
  | raised error =>
      cases hfinish
      exact .inr (.inr (.inr rfl))
  | _ =>
      obtain ⟨db, hcommit, rfl⟩ := Option.map_eq_some_iff.mp hfinish
      exact .inl ⟨db, hcommit, rfl⟩

end Nexora.Access
