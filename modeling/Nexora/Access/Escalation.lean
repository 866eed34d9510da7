import Nexora.Access.PermissionCache
import Mathlib.Data.Finset.Union

/-!
# No escalation of permissions

Members assign roles, edit roles and invite, each within the permissions of their own context.
The check is made when the request comes in, but the role that was checked can be edited
afterwards, and an invitation is accepted later than it was issued.

`no_escalation` says that nothing comes of it: with the members of `A` and those who joined
acting, a membership holds what it held at the start and what the members of `A` held then.
What carries the argument is that an edit of a role also stays within these permissions, so
what was checked of a role stays true (`Grants`).
-/

namespace Nexora.Access

open Nexora Foundations

variable {settings : Settings} {db db' : AccessDb} {mdb mdb' : MembersDb}
  {state state' : AccessState} {bound : Finset String}

/-! ## Grants -/

/-- What a commit gives to roles and memberships is within the bound. -/
structure Grants (bound : Finset String) (db db' : AccessDb) : Prop where
  permission : ∀ roleId code, (roleId, code) ∈ db'.rolePermissions →
    (roleId, code) ∈ db.rolePermissions ∨ code ∈ bound
  role : ∀ id roleId, (id, roleId) ∈ db'.membershipRoles →
    (id, roleId) ∈ db.membershipRoles ∨ db.rolePermissionCodes roleId ⊆ bound

theorem mem_rolePermissionCodes {roleId : Uuid} {code : String} :
    code ∈ db.rolePermissionCodes roleId ↔ (roleId, code) ∈ db.rolePermissions := by
  rw [AccessDb.rolePermissionCodes, AccessDb.mem_permissionsOf]
  simp

theorem rolePermissionCodes_subset {roleIds : Finset Uuid} {roleId : Uuid} {codes : Finset String}
    (h : db.permissionsOf roleIds ⊆ codes) (hroleId : roleId ∈ roleIds) :
    db.rolePermissionCodes roleId ⊆ codes := by
  intro code hcode
  exact h (AccessDb.mem_permissionsOf.mpr ⟨roleId, hroleId, mem_rolePermissionCodes.mp hcode⟩)

/-- What was checked of some roles stays true. -/
theorem Grants.permissionsOf (h : Grants bound db db') (roleIds : Finset Uuid)
    {codes : Finset String} (hbound : bound ⊆ codes) (hcodes : db.permissionsOf roleIds ⊆ codes) :
    db'.permissionsOf roleIds ⊆ codes := by
  intro code hcode
  obtain ⟨roleId, hroleId, hmem⟩ := AccessDb.mem_permissionsOf.mp hcode
  rcases h.permission roleId code hmem with hmem | hmem
  · exact hcodes (AccessDb.mem_permissionsOf.mpr ⟨roleId, hroleId, hmem⟩)
  · exact hbound hmem

theorem grants_write {record : MemberRecord} {request : MemberRequest}
    (h : db.permissionsOf request.roleIds ⊆ bound) : Grants bound db (request.write db record) where
  permission := fun roleId code hmem => by
    rw [rolePermissions_write] at hmem
    exact .inl hmem
  role := fun id roleId hmem => by
    rcases membershipRoles_write.mp hmem with ⟨roleIds, rfl, hroleId⟩ | ⟨hmem, -⟩
    · exact .inr (rolePermissionCodes_subset h hroleId)
    · exact .inl hmem

theorem grants_replacePermissions (roleId : Uuid) {codes : Finset String} (h : codes ⊆ bound)
    (hassigned : db'.membershipRoles = db.membershipRoles)
    (hperms : db'.rolePermissions = (db.replacePermissions roleId codes).rolePermissions) :
    Grants bound db db' where
  permission := fun r code hmem => by
    rw [hperms, AccessDb.mem_replacePermissions] at hmem
    split at hmem
    · exact .inr (h hmem)
    · exact .inl hmem
  role := fun id r hmem => .inl (hassigned ▸ hmem)

theorem grants_of_subset (hassigned : db'.membershipRoles ⊆ db.membershipRoles)
    (hperms : db'.rolePermissions ⊆ db.rolePermissions) : Grants bound db db' :=
  ⟨fun _ _ hmem => .inl (hperms hmem), fun _ _ hmem => .inl (hassigned hmem)⟩

/-! ## What was checked -/

def MemberStage.Granted (bound : Finset String) (db : AccessDb) (context : TenantContext)
    (request : MemberRequest) : MemberStage → Prop
  | .lock | .readRoles _ => True
  | .check _ todo =>
      .permissions ∈ todo ∨ db.permissionsOf request.roleIds ⊆ context.permissions ∪ bound
  | .insert _ _ _ => db.permissionsOf request.roleIds ⊆ context.permissions ∪ bound

def RoleStage.Granted (context : TenantContext) : RoleStage → Prop
  | .createInsert _ payload | .created _ payload => payload.permissionCodes ⊆ context.permissions
  | .updateReplace _ _ codes | .updateBump _ _ codes | .bumping _ _ codes _ _ =>
      codes ⊆ context.permissions
  | _ => True

def InviteStage.Granted (bound : Finset String) (db : AccessDb) (context : TenantContext)
    (payload : InvitationCreate) : InviteStage → Prop
  | .role | .granted => True
  | _ => db.rolePermissionCodes payload.roleId ⊆ context.permissions ∪ bound

def AcceptStage.Granted (bound : Finset String) (db : AccessDb) : AcceptStage → Prop
  | .lockToken => True
  | .resolveUser invitation | .checkExisting invitation _ _ | .insertMembership invitation _ _
  | .insertRole invitation _ _ | .accepted invitation _ _ =>
      db.rolePermissionCodes invitation.roleId ⊆ bound

/-- What a request has checked of the roles it gives away. -/
def Phase.Granted (bound : Finset String) (db : AccessDb) : Phase → Prop
  | .member context request stage => stage.Granted bound db context request
  | .role context stage => stage.Granted context
  | .invite context payload stage => stage.Granted bound db context payload
  | .accept _ stage => stage.Granted bound db
  | _ => True

/-- Another transaction commits. -/
theorem Phase.Granted.stable {phase : Phase} (h : phase.Granted bound db)
    (hgrants : Grants bound db db') : phase.Granted bound db' := by
  cases phase with
  | member context request stage =>
      have hkeep := hgrants.permissionsOf request.roleIds
        (Finset.subset_union_right : bound ⊆ context.permissions ∪ bound)
      cases stage with
      | check record todo => exact Or.imp_right hkeep h
      | insert record todo inserted => exact hkeep h
      | _ => trivial
  | role context stage => exact h
  | invite context payload stage =>
      have hkeep := hgrants.permissionsOf {payload.roleId}
        (Finset.subset_union_right : bound ⊆ context.permissions ∪ bound)
      cases stage with
      | role => trivial
      | granted => trivial
      | _ => exact hkeep h
  | accept payload stage =>
      cases stage with
      | lockToken => trivial
      | _ => exact hgrants.permissionsOf _ (Finset.Subset.refl _) h
  | _ => trivial

/-! ## Statements -/

theorem MemberStage.Granted.step {context : TenantContext} {request : MemberRequest}
    {stage stage' : MemberStage} {choice : Choice} (h : stage.Granted bound db context request)
    (hstep : stage.step db context request choice = some (.ok stage')) :
    stage'.Granted bound db context request := by
  cases stage with
  | lock =>
      cases choice with
      | row id => cases hstep
      | next =>
          simp only [MemberStage.step] at hstep
          split at hstep
          · cases hstep
          · cases hstep
            trivial
  | readRoles membership =>
      cases choice with
      | row id => cases hstep
      | next =>
          cases hstep
          cases request with
          | updateRoles target roleIds => exact .inl (by simp [MemberRequest.checks])
          | updateStatus target status =>
              exact .inr (by simp [MemberRequest.roleIds, AccessDb.permissionsOf])
          | remove target => exact .inr (by simp [MemberRequest.roleIds, AccessDb.permissionsOf])
  | check record todo =>
      cases choice with
      | row id =>
          cases todo with
          | nil => cases hstep
          | cons first todo => cases hstep
      | next =>
          cases todo with
          | cons first todo =>
              simp only [MemberStage.step] at hstep
              split at hstep
              next => cases hstep
              next hcheck =>
                cases hstep
                rcases h with hmem | h
                · rcases List.mem_cons.mp hmem with rfl | hmem
                  · -- The check on the permissions has just been made.
                    simp only [MemberRequest.runCheck] at hcheck
                    split at hcheck
                    next => cases hcheck
                    next hsubset =>
                      rw [not_not] at hsubset
                      exact .inr (hsubset.trans Finset.subset_union_left)
                  · exact .inl hmem
                · exact .inr h
          | nil =>
              cases request with
              | updateRoles target roleIds =>
                  cases hstep
                  exact h.resolve_left List.not_mem_nil
              | updateStatus target status => cases hstep
              | remove target => cases hstep
  | insert record todo inserted =>
      cases choice with
      | next => cases hstep
      | row roleId =>
          simp only [MemberStage.step] at hstep
          split at hstep
          · split at hstep
            · cases hstep
              exact h
            · cases hstep
          · cases hstep

theorem subset_of_validate {context : TenantContext} {codes : Finset String}
    (h : settings.validatePermissions context codes = .ok ()) : codes ⊆ context.permissions := by
  simp only [Settings.validatePermissions] at h
  split at h
  next => cases h
  next =>
    split at h
    next => cases h
    next hexcessive => exact Finset.sdiff_eq_empty_iff_subset.mp (not_not.mp hexcessive)

theorem RoleStage.Granted.step {context : TenantContext} {stage stage' : RoleStage}
    {choice : Choice} (h : stage.Granted context)
    (hstep : stage.step settings db context choice = some (.ok stage')) :
    stage'.Granted context := by
  cases stage with
  | createValidate roleId payload =>
      cases choice with
      | row id => cases hstep
      | next =>
          simp only [RoleStage.step] at hstep
          split at hstep
          next => cases hstep
          next hvalid =>
            cases hstep
            exact subset_of_validate hvalid
  | createInsert roleId payload =>
      cases choice with
      | row id => cases hstep
      | next =>
          simp only [RoleStage.step] at hstep
          split at hstep
          · cases hstep
          · cases hstep
            exact h
  | updateLock roleId payload =>
      cases choice with
      | row id => cases hstep
      | next =>
          simp only [RoleStage.step] at hstep
          split at hstep
          · cases hstep
          · cases hstep
            trivial
  | updateValidate role payload =>
      cases choice with
      | row id => cases hstep
      | next =>
          simp only [RoleStage.step] at hstep
          split at hstep
          next =>
            cases hstep
            trivial
          next =>
            split at hstep
            next => cases hstep
            next hvalid =>
              cases hstep
              exact subset_of_validate hvalid
  | updateReplace role payload codes =>
      cases choice with
      | row id => cases hstep
      | next =>
          cases hstep
          exact h
  | updateBump role payload codes =>
      cases choice with
      | row id => cases hstep
      | next =>
          cases hstep
          exact h
  | bumping role payload codes todo bumped =>
      cases choice with
      | next => cases hstep
      | row id =>
          simp only [RoleStage.step] at hstep
          split at hstep
          · cases hstep
            exact h
          · cases hstep
  | deleteLock roleId =>
      cases choice with
      | row id => cases hstep
      | next =>
          simp only [RoleStage.step] at hstep
          split at hstep
          · cases hstep
          · cases hstep
            trivial
  | deleteCount role =>
      cases choice with
      | row id => cases hstep
      | next =>
          simp only [RoleStage.step] at hstep
          split at hstep
          · cases hstep
          · cases hstep
            trivial
  | _ => cases hstep

theorem InviteStage.Granted.step {context : TenantContext} {payload : InvitationCreate}
    {stage stage' : InviteStage} (h : stage.Granted bound mdb.access context payload)
    (hstep : stage.step settings mdb context payload = some (.ok stage')) :
    stage'.Granted bound mdb.access context payload := by
  cases stage with
  | role =>
      simp only [InviteStage.step] at hstep
      split at hstep
      · cases hstep
        trivial
      · cases hstep
  | granted =>
      simp only [InviteStage.step] at hstep
      split at hstep
      next hsubset =>
        cases hstep
        exact hsubset.trans Finset.subset_union_left
      next => cases hstep
  | emails =>
      simp only [InviteStage.step] at hstep
      split at hstep
      · cases hstep
      · cases hstep
        exact h
  | insert =>
      simp only [InviteStage.step] at hstep
      split at hstep
      · split at hstep
        · cases hstep
          exact h
        · cases hstep
      · cases hstep
  | invited => cases hstep

/-- A pending invitation is to a role within the bound. -/
def PendingWithin (bound : Finset String) (db : MembersDb) : Prop :=
  ∀ invitation ∈ db.invitations.rows, invitation.status = .pending →
    db.access.rolePermissionCodes invitation.roleId ⊆ bound

theorem AcceptStage.Granted.step {payload : InvitationAccept} {stage stage' : AcceptStage}
    (hpending : PendingWithin bound mdb) (h : stage.Granted bound mdb.access)
    (hstep : stage.step mdb payload = some (.ok stage')) : stage'.Granted bound mdb.access := by
  cases stage with
  | lockToken =>
      simp only [AcceptStage.step] at hstep
      split at hstep
      next => cases hstep
      next invitation hfound =>
        split at hstep
        next => cases hstep
        next hopen =>
          cases hstep
          rw [not_or, not_not] at hopen
          exact hpending invitation (List.mem_of_find?_eq_some hfound) hopen.1
  | resolveUser invitation =>
      simp only [AcceptStage.step] at hstep
      split at hstep
      · cases hstep
      · cases hstep
        exact h
  | checkExisting invitation user created =>
      simp only [AcceptStage.step] at hstep
      split at hstep
      · cases hstep
      · cases hstep
        exact h
  | insertMembership invitation user created =>
      simp only [AcceptStage.step] at hstep
      split at hstep
      · cases hstep
      · cases hstep
        exact h
  | insertRole invitation user created =>
      simp only [AcceptStage.step] at hstep
      split at hstep
      · cases hstep
        exact h
      · cases hstep
  | accepted invitation user created => cases hstep

theorem Phase.Granted.run {phase phase' : Phase} {choice : Choice}
    (hpending : PendingWithin bound state.db) (h : phase.Granted bound state.db.access)
    (hrun : run settings state phase choice = some (state', phase')) :
    phase'.Granted bound state.db.access := by
  cases phase with
  | building stage =>
      cases choice with
      | row id => cases hrun
      | next =>
          obtain ⟨⟨state₁, out⟩, -, heq⟩ := Option.map_eq_some_iff.mp hrun
          cases heq
          cases out with
          | error e => trivial
          | ok stage' => trivial
  | member context request stage =>
      obtain ⟨out, hstep, heq⟩ := Option.map_eq_some_iff.mp hrun
      cases heq
      cases out with
      | error e => trivial
      | ok stage' => exact MemberStage.Granted.step h hstep
  | role context stage =>
      obtain ⟨out, hstep, heq⟩ := Option.map_eq_some_iff.mp hrun
      cases heq
      cases out with
      | error e => trivial
      | ok stage' => exact RoleStage.Granted.step h hstep
  | invite context payload stage =>
      cases choice with
      | row id => cases hrun
      | next =>
          obtain ⟨out, hstep, heq⟩ := Option.map_eq_some_iff.mp hrun
          cases heq
          cases out with
          | error e => trivial
          | ok stage' => exact InviteStage.Granted.step h hstep
  | accept payload stage =>
      cases choice with
      | row id => cases hrun
      | next =>
          obtain ⟨out, hstep, heq⟩ := Option.map_eq_some_iff.mp hrun
          cases heq
          cases out with
          | error e => trivial
          | ok stage' => exact AcceptStage.Granted.step hpending h hstep
  | changeInvitation context invitationId change stage =>
      cases choice with
      | row id => cases hrun
      | next =>
          obtain ⟨out, -, heq⟩ := Option.map_eq_some_iff.mp hrun
          cases heq
          cases out with
          | error e => trivial
          | ok stage' => trivial
  | _ => cases hrun

/-! ## Ends -/

/-- Who acts in a request. -/
def Phase.actor : Phase → Option TenantContext
  | .member context _ _ | .role context _ | .invite context _ _
  | .changeInvitation context _ _ _ => some context
  | _ => none

theorem union_subset_bound {codes roleCodes : Finset String} (h : roleCodes ⊆ codes ∪ bound)
    (hcodes : codes ⊆ bound) : roleCodes ⊆ bound :=
  h.trans (Finset.union_subset hcodes (Finset.Subset.refl _))

/-- An invitation row that stays pending, as far as its role goes. -/
theorem PendingWithin.modifyAt {id : Uuid} {f : Invitation → Invitation}
    {hf : ∀ invitation, (f invitation).id = invitation.id} {users : Table User.email}
    (h : PendingWithin bound mdb) (hgrants : Grants bound mdb.access db')
    (hsame : ∀ invitation, (f invitation).status = .pending →
      invitation.status = .pending ∧ (f invitation).roleId = invitation.roleId) :
    PendingWithin bound ⟨db', users, mdb.invitations.modifyAt id f hf⟩ := by
  intro row hrow hpending
  obtain ⟨invitation, hmem, rfl⟩ := List.mem_map.mp hrow
  have hkeep := hgrants.permissionsOf {invitation.roleId} (Finset.Subset.refl _)
  dsimp only at hpending ⊢
  split at hpending
  next hid =>
    obtain ⟨hold, hrole⟩ := hsame invitation hpending
    rw [if_pos hid, hrole]
    exact hkeep (h invitation hmem hold)
  next hid =>
    rw [if_neg hid]
    exact hkeep (h invitation hmem hpending)

theorem PendingWithin.of_grants {users : Table User.email} (h : PendingWithin bound mdb)
    (hgrants : Grants bound mdb.access db') :
    PendingWithin bound ⟨db', users, mdb.invitations⟩ :=
  fun invitation hmem hpending =>
    hgrants.permissionsOf _ (Finset.Subset.refl _) (h invitation hmem hpending)

/-- A request that acts within the bound commits within the bound. -/
theorem Phase.Granted.commit {phase : Phase} (h : phase.Granted bound mdb.access)
    (hpending : PendingWithin bound mdb)
    (hactor : ∀ context ∈ phase.actor, context.permissions ⊆ bound)
    (hcommit : phase.commit settings mdb = some mdb') :
    Grants bound mdb.access mdb'.access ∧ PendingWithin bound mdb' := by
  cases phase with
  | member context request stage =>
      obtain ⟨access, hwrite, rfl⟩ := Option.map_eq_some_iff.mp hcommit
      have hcontext := hactor context rfl
      have hgrants : Grants bound mdb.access access := by
        cases stage with
        | check record todo =>
            cases todo with
            | cons first todo => cases hwrite
            | nil =>
                have hroles := union_subset_bound (h.resolve_left List.not_mem_nil) hcontext
                cases request with
                | updateRoles target roleIds => cases hwrite
                | _ =>
                    cases hwrite
                    exact grants_write hroles
        | insert record todo inserted =>
            cases todo with
            | cons first todo => cases hwrite
            | nil =>
                cases hwrite
                exact grants_write (union_subset_bound h hcontext)
        | _ => cases hwrite
      exact ⟨hgrants, hpending.of_grants hgrants⟩
  | role context stage =>
      obtain ⟨access, hwrite, rfl⟩ := Option.map_eq_some_iff.mp hcommit
      have hcontext := hactor context rfl
      have hgrants : Grants bound mdb.access access := by
        cases stage with
        | created roleId payload =>
            obtain ⟨added, hadd, rfl⟩ := Option.map_eq_some_iff.mp hwrite
            obtain ⟨-, -, hassigned, hperms, -⟩ := addRole_eq_some hadd
            refine grants_replacePermissions roleId (Finset.Subset.trans h hcontext)
              hassigned ?_
            simp only [AccessDb.replacePermissions, hperms]
        | bumping role payload codes todo bumped =>
            cases todo with
            | cons first todo => cases hwrite
            | nil =>
                cases hwrite
                refine grants_replacePermissions role.id (Finset.Subset.trans h hcontext)
                  ?_ ?_
                · rw [membershipRoles_rename]
                  rfl
                · rw [rolePermissions_rename]
                  rfl
        | renamed role payload codes =>
            cases hwrite
            refine grants_of_subset ?_ ?_
            · rw [membershipRoles_rename]
              exact List.Subset.refl _
            · rw [rolePermissions_rename]
              exact List.Subset.refl _
        | deleteRow role =>
            simp only [RoleStage.commit] at hwrite
            split at hwrite
            · cases hwrite
            · cases hwrite
              exact grants_of_subset (List.filter_subset_self _) (List.filter_subset_self _)
        | _ => cases hwrite
      exact ⟨hgrants, hpending.of_grants hgrants⟩
  | invite context payload stage =>
      have hcontext := hactor context rfl
      cases stage with
      | invited =>
          simp only [Phase.commit, InviteStage.commit, MembersDb.addInvitation] at hcommit
          split at hcommit
          · cases hcommit
          · obtain ⟨invitations, hinsert, rfl⟩ := Option.map_eq_some_iff.mp hcommit
            refine ⟨grants_of_subset (List.Subset.refl _) (List.Subset.refl _), ?_⟩
            intro invitation hmem hstatus
            obtain ⟨hrows, -⟩ := Table.insert_eq_some hinsert
            rw [hrows] at hmem
            rcases List.mem_append.mp hmem with hmem | hmem
            · exact hpending invitation hmem hstatus
            · rw [List.mem_singleton.mp hmem]
              exact union_subset_bound h hcontext
      | _ => cases hcommit
  | accept payload stage =>
      cases stage with
      | accepted invitation user created =>
          obtain ⟨access, users, hadd, -, rfl⟩ := accepted_eq_some hcommit
          obtain ⟨-, -, hassigned, hperms, -⟩ := addMembership_eq_some hadd
          have hgrants : Grants bound mdb.access
              (access.assignRole payload.membershipId invitation.roleId) := by
            constructor
            · intro roleId code hmem
              exact .inl (hperms ▸ hmem)
            · intro id roleId hmem
              simp only [AccessDb.assignRole, hassigned, List.mem_append, List.mem_singleton,
                Prod.mk.injEq] at hmem
              rcases hmem with hmem | ⟨-, rfl⟩
              · exact .inl hmem
              · exact .inr h
          exact ⟨hgrants, hpending.modifyAt hgrants fun row hrow => by cases hrow⟩
      | _ => cases hcommit
  | changeInvitation context invitationId change stage =>
      cases stage with
      | lock => cases hcommit
      | locked invitation =>
          simp only [Phase.commit, ChangeStage.commit] at hcommit
          split at hcommit
          · cases hcommit
            have hgrants : Grants bound mdb.access mdb.access :=
              grants_of_subset (List.Subset.refl _) (List.Subset.refl _)
            refine ⟨hgrants, hpending.modifyAt hgrants fun row hrow => ?_⟩
            cases change with
            | revoke => cases hrow
            | resend tokenHash now => exact ⟨hrow, rfl⟩
          · cases hcommit
  | _ => cases hcommit

/-! ## Every run -/

/-- What the members of `A` held at the start. -/
def heldBy (start : AccessDb) (A : Finset Uuid) : Finset String := A.biUnion start.getPermissions

/-- A member of `A`, or one who was not there at the start. -/
def Acts (start : AccessDb) (A : Finset Uuid) (id : Uuid) : Prop :=
  id ∈ A ∨ start.member id = none

instance (start : AccessDb) (A : Finset Uuid) (id : Uuid) : Decidable (Acts start A id) :=
  inferInstanceAs (Decidable (_ ∨ _))

/-- The request is made by one of them, with permissions that it held at some time of the run. -/
def ActsWithin (start : AccessDb) (A : Finset Uuid) (state : AccessState) (phase : Phase) : Prop :=
  ∀ context ∈ phase.actor, Acts start A context.membershipId ∧
    ∀ code ∈ context.permissions, ∃ db ∈ state.history,
      code ∈ db.getPermissions context.membershipId

instance (start : AccessDb) (A : Finset Uuid) (state : AccessState) (phase : Phase) :
    Decidable (ActsWithin start A state phase) :=
  inferInstanceAs (Decidable (∀ context ∈ phase.actor, _))

/-- Each permission of a membership is within the bound, or comes from a role of the start. -/
structure Contained (bound : Finset String) (start db : AccessDb) : Prop where
  held : ∀ id roleId code, (id, roleId) ∈ db.membershipRoles →
    (roleId, code) ∈ db.rolePermissions →
      code ∈ bound ∨ (id, roleId) ∈ start.membershipRoles ∧ (roleId, code) ∈ start.rolePermissions

theorem Contained.getPermissions {start : AccessDb} (h : Contained bound start db) (id : Uuid) :
    db.getPermissions id ⊆ bound ∪ start.getPermissions id := by
  intro code hcode
  obtain ⟨roleId, hmem, hperm⟩ := AccessDb.mem_getPermissions.mp hcode
  rcases h.held id roleId code hmem hperm with hbound | ⟨hmem, hperm⟩
  · exact Finset.mem_union_left _ hbound
  · exact Finset.mem_union_right _ (AccessDb.mem_getPermissions.mpr ⟨roleId, hmem, hperm⟩)

theorem Contained.grants {start : AccessDb} (h : Contained bound start db)
    (hgrants : Grants bound db db') : Contained bound start db' := by
  constructor
  intro id roleId code hmem hperm
  rcases hgrants.permission roleId code hperm with hperm | hbound
  · rcases hgrants.role id roleId hmem with hmem | hrole
    · exact h.held id roleId code hmem hperm
    · exact .inl (hrole (mem_rolePermissionCodes.mpr hperm))
  · exact .inl hbound

/-- Those who act hold nothing beyond the bound. -/
theorem Contained.acts {start : AccessDb} {A : Finset Uuid} (hstart : start.Consistent)
    (h : Contained (heldBy start A) start db) {id : Uuid} (hid : Acts start A id) :
    db.getPermissions id ⊆ heldBy start A := by
  refine (h.getPermissions id).trans (Finset.union_subset (Finset.Subset.refl _) ?_)
  rcases hid with hid | hid
  · exact Finset.subset_biUnion_of_mem start.getPermissions hid
  · rw [hstart.getPermissions_eq_empty hid]
    exact Finset.empty_subset _

/-- The committed states so far, and the pending invitations. -/
structure Confined (start : AccessDb) (A : Finset Uuid) (state : AccessState) : Prop where
  contained : ∀ db ∈ state.history, Contained (heldBy start A) start db
  pending : PendingWithin (heldBy start A) state.db

theorem Confined.current {start : AccessDb} {A : Finset Uuid} (h : Confined start A state) :
    Contained (heldBy start A) start state.db.access :=
  h.contained _ (List.mem_append_right _ (List.mem_singleton_self _))

theorem Confined.actor {start : AccessDb} {A : Finset Uuid} (hstart : start.Consistent)
    (h : Confined start A state) {phase : Phase} (hacts : ActsWithin start A state phase) :
    ∀ context ∈ phase.actor, context.permissions ⊆ heldBy start A := by
  intro context hcontext code hcode
  obtain ⟨hid, hheld⟩ := hacts context hcontext
  obtain ⟨db, hdb, hcode⟩ := hheld code hcode
  exact (h.contained db hdb).acts hstart hid hcode

theorem Confined.commit {start : AccessDb} {A : Finset Uuid} {phase : Phase}
    (hstart : start.Consistent) (h : Confined start A state)
    (hgranted : phase.Granted (heldBy start A) state.db.access)
    (hacts : ActsWithin start A state phase) (hcommit : phase.commit settings state.db = some mdb) :
    Grants (heldBy start A) state.db.access mdb.access ∧ Confined start A (state.commit mdb) := by
  obtain ⟨hgrants, hpending⟩ := hgranted.commit h.pending (h.actor hstart hacts) hcommit
  refine ⟨hgrants, fun db hdb => ?_, hpending⟩
  rw [history_commit] at hdb
  rcases List.mem_append.mp hdb with hdb | hdb
  · exact h.contained db hdb
  · rw [List.mem_singleton.mp hdb]
    exact h.current.grants hgrants

theorem sound_escalation (settings : Settings) {start : AccessDb} (A : Finset Uuid)
    (hstart : start.Consistent) :
    (protocol settings).Sound (ActsWithin start A) (Confined start A)
      (fun state phase => phase.Granted (heldBy start A) state.db.access) where
  start state request _ := by
    cases request with
    | member context request =>
        show (Access.start (.member context request)).Granted _ _
        simp only [Access.start]
        split
        · trivial
        · trivial
    | _ => trivial
  run state phase choice state' phase' h hgranted hrun := by
    obtain ⟨hdb, hpast⟩ := run_tables hrun
    have hhistory : state'.history = state.history := by
      simp [AccessState.history, hdb, hpast]
    refine ⟨⟨by rw [hhistory]; exact h.contained, by rw [hdb]; exact h.pending⟩, ?_⟩
    rw [hdb]
    exact hgranted.run h.pending hrun
  run_stable state phase choice state' phase' other _ _ hother hrun := by
    rw [(run_tables hrun).1]
    exact hother
  finish state phase state' h hgranted hacts hfinish := by
    rcases finish_cases hfinish with ⟨db, hcommit, rfl⟩ | ⟨reading, context, rfl, rfl⟩ |
      ⟨id, version, rfl, rfl⟩ | rfl
    · exact (h.commit hstart hgranted hacts hcommit).2
    · exact ⟨h.contained, h.pending⟩
    · exact ⟨h.contained, h.pending⟩
    · exact h
  finish_stable state phase state' other h hgranted hacts hother _ hfinish := by
    rcases finish_cases hfinish with ⟨db, hcommit, rfl⟩ | ⟨reading, context, rfl, rfl⟩ |
      ⟨id, version, rfl, rfl⟩ | rfl
    · exact hother.stable (h.commit hstart hgranted hacts hcommit).1
    · exact hother
    · exact hother
    · exact hother

/-- A context that was served in a run holds what its membership held at some time of it. -/
theorem served_held {settings : Settings} {db : MembersDb} (hdb : db.access.Consistent)
    {s : Interleaved AccessState Phase}
    (h : (protocol settings).Reaches (Protocol.init (.initial db)) s) {served : Served}
    (hserved : served ∈ s.committed.served) :
    ∀ code ∈ served.context.permissions, ∃ db ∈ s.committed.history,
      code ∈ db.getPermissions served.context.membershipId := by
  intro code hcode
  have hinv := (sound_cache settings).runs h (.init (coherent_initial hdb))
  obtain ⟨-, hid, hheld⟩ := hinv.committed.served served hserved
  obtain ⟨later, hlater, hcode⟩ := hheld code hcode
  exact ⟨later, List.mem_of_mem_drop hlater, by rwa [hid]⟩

/-- From any tables without pending invitations, and whatever the cache holds: in every
interleaving of role requests, assignments and invitations in which only members of `A` and
those who joined act, a membership holds nothing but what the members of `A` held at the start
and what it held itself. -/
theorem no_escalation {settings : Settings} {db : MembersDb} {cache : PermCache}
    (hdb : db.access.Consistent)
    (hpending : ∀ invitation ∈ db.invitations.rows, invitation.status ≠ .pending)
    (A : Finset Uuid) {s : Interleaved AccessState Phase}
    (h : (protocol settings).Runs (ActsWithin db.access A)
      (Protocol.init ⟨db, cache, [], []⟩) s) (id : Uuid) :
    s.committed.db.access.getPermissions id ⊆
      A.biUnion db.access.getPermissions ∪ db.access.getPermissions id := by
  have hstart : Confined db.access A ⟨db, cache, [], []⟩ := by
    refine ⟨fun start hstart => ?_, fun invitation hmem hstatus =>
      absurd hstatus (hpending invitation hmem)⟩
    rw [List.mem_singleton.mp hstart]
    exact ⟨fun _ _ _ hmem hperm => .inr ⟨hmem, hperm⟩⟩
  exact (((sound_escalation settings A hdb).runs h (.init hstart)).committed.current).getPermissions id

/-- The clerk invites a colleague, who joins and changes the name of the role. -/
def invitedColleague : List (TxAction Request Choice) :=
  [.begin 1 (.invite ⟨1, 1, 2, {10}, {"sales.read"}, none⟩ ⟨"b@example.com", 10, 20, "t", 0⟩),
   .run 1 .next, .run 1 .next, .run 1 .next, .run 1 .next, .finish 1,
   .begin 2 (.accept ⟨"t", some "B", some "password", 5, 6, 1⟩), .run 2 .next, .run 2 .next,
   .run 2 .next, .run 2 .next, .run 2 .next, .finish 2,
   .begin 3 (.updateRole ⟨1, 5, 6, {10}, {"sales.read"}, none⟩ 10 ⟨some "Seller", none⟩),
   .run 3 .next, .run 3 .next, .finish 3]

/-- The colleague may do what the clerk may. -/
theorem no_escalation_colleague : ∃ s : Interleaved AccessState Phase,
    (protocol ⟨∅, 7⟩).Runs (ActsWithin oneClerk.access {1})
      (Protocol.init ⟨oneClerk, fun _ _ => ∅, [], []⟩) s ∧
      s.committed.db.access.getPermissions 5 = {"sales.read"} ∧
      s.committed.db.access.getPermissions 5 ⊆
        ({1} : Finset Uuid).biUnion oneClerk.access.getPermissions ∪
          oneClerk.access.getPermissions 5 := by
  have hsome : (invitedColleague.foldlM
      (fun s action => if Protocol.guard (ActsWithin oneClerk.access {1}) s action then
        (protocol ⟨∅, 7⟩).step s action else none)
      (Protocol.init ⟨oneClerk, fun _ _ => ∅, [], []⟩)).isSome := by decide +kernel
  obtain ⟨s, hs⟩ := Option.isSome_iff_exists.mp hsome
  have hfacts : (invitedColleague.foldlM
      (fun s action => if Protocol.guard (ActsWithin oneClerk.access {1}) s action then
        (protocol ⟨∅, 7⟩).step s action else none)
      (Protocol.init ⟨oneClerk, fun _ _ => ∅, [], []⟩)).all fun s =>
        s.committed.db.access.getPermissions 5 = {"sales.read"} := by decide +kernel
  rw [hs, Option.all_some, decide_eq_true_eq] at hfacts
  have hruns := Protocol.Runs.of_foldlM invitedColleague hs
  exact ⟨s, hruns, hfacts, no_escalation oneClerk_consistent nofun {1} hruns 5⟩

end Nexora.Access
