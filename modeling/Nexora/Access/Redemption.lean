import Nexora.Access.PermissionCache

/-!
# Redeeming an invitation

`accept` finds an invitation by its token and holds the row to its end, and `revoke` and
`resend` hold it as well.  So no other transaction is past its check on an invitation when one
of them commits, and after an acceptance or a revocation none passes the check again
(`sound_settled`).

The membership of the user is the one under `UniqueConstraint(tenant_id, user_id)`.  The check
before its insert lets a user through whose membership was revoked, but `remove` keeps the row,
so the insert fails: a member who was removed does not come back (`rejoin_refused`).
`invitation_redemption` says that this is the only way in which an open invitation fails.
-/

namespace Nexora.Access

open Nexora Foundations

variable {settings : Settings} {mdb mdb' : MembersDb} {state state' : AccessState}

/-! ## Tables -/

/-- The foreign keys of invitations and memberships, and what `accepted_at` goes with. -/
structure MembersDb.Whole (db : MembersDb) : Prop where
  access : db.access.Consistent
  invited : ∀ invitation ∈ db.invitations.rows, db.access.hasRole invitation.roleId = true
  opened : ∀ invitation ∈ db.invitations.rows, invitation.status = .pending →
    invitation.acceptedAt = none
  user : ∀ m ∈ db.access.memberships, ∃ user ∈ db.users.rows, user.id = m.userId

/-- The memberships of the account with this address. -/
def MembersDb.membershipsOf (db : MembersDb) (email : String) : List Membership :=
  match db.users.get email with
  | none => []
  | some user => db.access.memberships.filter (·.userId = user.id)

/-- Rows that stay under locks of the given rows. -/
structure Keeps (locks : List (Row × LockMode)) (mdb mdb' : MembersDb) : Prop where
  invitation : ∀ id, .invitation id ∉ locks.map Prod.fst → ∀ invitation ∈ mdb.invitations.get id,
    invitation ∈ mdb'.invitations.get id
  user : mdb.users.rows ⊆ mdb'.users.rows

theorem keeps_of_same {locks : List (Row × LockMode)}
    (hinvitations : mdb'.invitations = mdb.invitations) (husers : mdb'.users = mdb.users) :
    Keeps locks mdb mdb' :=
  ⟨fun _ _ _ hmem => by rwa [hinvitations], by rw [husers]; exact List.Subset.refl _⟩

/-- The row of an invitation that was locked is written. -/
theorem get_modifyAt_of_unlocked {locks : List (Row × LockMode)} {id id' : Uuid}
    (f : Invitation → Invitation) (hf : ∀ row, (f row).id = row.id)
    (hlock : .invitation id ∈ locks.map Prod.fst) (hid' : .invitation id' ∉ locks.map Prod.fst) :
    (mdb.invitations.modifyAt id f hf).get id' = mdb.invitations.get id' := by
  rw [Table.get_modifyAt, if_neg]
  rintro rfl
  exact hid' hlock

theorem get_modified {invitation : Invitation} (f : Invitation → Invitation)
    (hf : ∀ row, (f row).id = row.id)
    (hget : mdb.invitations.get invitation.id = some invitation) :
    (mdb.invitations.modifyAt invitation.id f hf).get invitation.id = some (f invitation) := by
  rw [Table.get_modifyAt, if_pos rfl, hget]
  rfl

theorem Phase.keeps {phase : Phase} (hcommit : phase.commit settings mdb = some mdb') :
    Keeps phase.locks mdb mdb' := by
  cases phase with
  | member context request stage =>
      obtain ⟨access, -, rfl⟩ := Option.map_eq_some_iff.mp hcommit
      exact keeps_of_same rfl rfl
  | role context stage =>
      obtain ⟨access, -, rfl⟩ := Option.map_eq_some_iff.mp hcommit
      exact keeps_of_same rfl rfl
  | invite context payload stage =>
      cases stage with
      | invited =>
          simp only [Phase.commit, InviteStage.commit, MembersDb.addInvitation] at hcommit
          split at hcommit
          · cases hcommit
          · obtain ⟨invitations, hinsert, rfl⟩ := Option.map_eq_some_iff.mp hcommit
            refine ⟨fun id _ invitation hmem => ?_, List.Subset.refl _⟩
            exact Table.get_of_append hmem (Table.insert_eq_some hinsert).1
      | _ => cases hcommit
  | accept payload stage =>
      cases stage with
      | accepted invitation user created =>
          obtain ⟨access, users, -, husers, rfl⟩ := accepted_eq_some hcommit
          refine ⟨fun id hid row hmem => ?_, ?_⟩
          · refine (get_modifyAt_of_unlocked payload.redeem payload.redeem_id ?_ hid).trans hmem
            simp [Phase.locks, AcceptStage.locks]
          · rcases husers with ⟨-, rfl⟩ | ⟨-, hinsert⟩
            · exact List.Subset.refl _
            · rw [(Table.insert_eq_some hinsert).1]
              exact List.subset_append_left _ _
      | _ => cases hcommit
  | changeInvitation context invitationId change stage =>
      cases stage with
      | lock => cases hcommit
      | locked invitation =>
          simp only [Phase.commit, ChangeStage.commit] at hcommit
          split at hcommit
          · cases hcommit
            refine ⟨fun id hid row hmem => ?_, List.Subset.refl _⟩
            refine (get_modifyAt_of_unlocked (change.apply settings) (change.apply_id settings) ?_
              hid).trans hmem
            simp [Phase.locks, ChangeStage.locks]
          · cases hcommit
  | _ => cases hcommit

/-! ## What an open transaction relies on -/

/-- The invitation is as it was read, and open. -/
def Invitation.Open (db : MembersDb) (invitation : Invitation) : Prop :=
  db.invitations.get invitation.id = some invitation ∧ invitation.status = .pending

def AcceptStage.Held (db : MembersDb) : AcceptStage → Prop
  | .lockToken => True
  | .resolveUser invitation => invitation.Open db
  | .checkExisting invitation user created | .insertMembership invitation user created
  | .insertRole invitation user created | .accepted invitation user created =>
      invitation.Open db ∧ (created = false → user ∈ db.users.rows)

/-- What a transaction holds on invitations. -/
def Phase.Held (db : MembersDb) : Phase → Prop
  | .invite _ payload .invited => db.access.hasRole payload.roleId = true
  | .accept _ stage => stage.Held db
  | .changeInvitation _ invitationId _ (.locked invitation) =>
      invitation.id = invitationId ∧ invitation.Open db
  | _ => True

/-- Another transaction commits. -/
theorem Phase.Held.stable {locks : List (Row × LockMode)} {phase : Phase}
    (h : phase.Held mdb) (hfree : locksConflict phase.locks locks = false)
    (hkeeps : Keeps locks mdb mdb') (hframe : Frame locks mdb.access mdb'.access) :
    phase.Held mdb' := by
  have hopen : ∀ invitation : Invitation, (.invitation invitation.id, .update) ∈ phase.locks →
      invitation.Open mdb → invitation.Open mdb' :=
    fun invitation hmem hopen =>
      ⟨hkeeps.invitation _ (notMem_of_update hfree hmem) _ hopen.1, hopen.2⟩
  cases phase with
  | invite context payload stage =>
      cases stage with
      | invited =>
          refine hframe.role _
            (notMem_of_conflicts hfree ?_ (show LockMode.keyShare.conflicts _ = true from rfl)) h
          simp [Phase.locks, InviteStage.locks]
      | _ => trivial
  | accept payload stage =>
      cases stage with
      | lockToken => trivial
      | resolveUser invitation =>
          exact hopen invitation (by simp [Phase.locks, AcceptStage.locks]) h
      | _ =>
          exact ⟨hopen _ (by simp [Phase.locks, AcceptStage.locks]) h.1,
            fun hcreated => hkeeps.user (h.2 hcreated)⟩
  | changeInvitation context invitationId change stage =>
      cases stage with
      | lock => trivial
      | locked invitation =>
          exact ⟨h.1, hopen invitation (by simp [Phase.locks, ChangeStage.locks]) h.2⟩
  | _ => trivial

/-! ## Statements -/

theorem getByToken_eq_some {tokenHash : String} {invitation : Invitation}
    (h : mdb.getByToken tokenHash = some invitation) :
    mdb.invitations.get invitation.id = some invitation :=
  Table.get_eq_some.mpr ⟨List.mem_of_find?_eq_some h, rfl⟩

/-- What `accept` checks of the row that it locks. -/
theorem lockToken_eq_some {payload : InvitationAccept} {stage : AcceptStage}
    (h : AcceptStage.lockToken.step mdb payload = some (.ok stage)) :
    ∃ invitation, mdb.getByToken payload.tokenHash = some invitation ∧
      invitation.status = .pending ∧ invitation.acceptedAt = none ∧
      payload.now < invitation.expiresAt ∧ stage = .resolveUser invitation := by
  simp only [AcceptStage.step] at h
  split at h
  next => cases h
  next invitation hfound =>
    split at h
    next => cases h
    next hopen =>
      cases h
      simp only [not_or, not_not, not_le] at hopen
      exact ⟨invitation, hfound, hopen.1, hopen.2.1, hopen.2.2, rfl⟩

/-- What `revoke` and `resend` check of it. -/
theorem lock_eq_some {invitationId : Uuid} {change : InvitationChange} {stage : ChangeStage}
    (h : ChangeStage.lock.step mdb invitationId change = some (.ok stage)) :
    ∃ invitation, mdb.invitations.get invitationId = some invitation ∧
      invitation.status = .pending ∧ stage = .locked invitation := by
  simp only [ChangeStage.step] at h
  split at h
  next => cases h
  next invitation hfound =>
    split at h
    next => cases h
    next hpending =>
      cases h
      exact ⟨invitation, hfound, not_not.mp hpending, rfl⟩

theorem resolveUser_eq_ok {payload : InvitationAccept} {email : String} {user : User}
    {created : Bool} (h : mdb.resolveUser payload email = .ok (user, created)) :
    created = false ∧ mdb.users.get email = some user ∨
      created = true ∧ mdb.users.get email = none ∧ user.id = payload.userId ∧ user.email = email ∧
        payload.password.isSome ∧ payload.fullName.isSome := by
  unfold MembersDb.resolveUser at h
  split at h
  next found hfound =>
    cases h
    exact .inl ⟨rfl, hfound⟩
  next hnone =>
    split at h
    next hpassword hname =>
      cases h
      exact .inr ⟨rfl, hnone, rfl, rfl, by simp [hpassword], by simp [hname]⟩
    next => cases h

theorem AcceptStage.Held.step {payload : InvitationAccept} {stage stage' : AcceptStage}
    (h : stage.Held mdb) (hstep : stage.step mdb payload = some (.ok stage')) :
    stage'.Held mdb := by
  cases stage with
  | lockToken =>
      obtain ⟨invitation, hfound, hpending, -, -, rfl⟩ := lockToken_eq_some hstep
      exact ⟨getByToken_eq_some hfound, hpending⟩
  | resolveUser invitation =>
      simp only [AcceptStage.step] at hstep
      split at hstep
      next => cases hstep
      next user created huser =>
        cases hstep
        refine ⟨h, fun hcreated => ?_⟩
        rcases resolveUser_eq_ok huser with ⟨-, hget⟩ | ⟨hnew, -⟩
        · exact (Table.get_mem hget).1
        · rw [hnew] at hcreated
          cases hcreated
  | checkExisting invitation user created =>
      simp only [AcceptStage.step] at hstep
      split at hstep
      · cases hstep
      · cases hstep
        exact h
  | insertMembership invitation user created =>
      simp only [AcceptStage.step] at hstep
      split at hstep
      · cases hstep
      · cases hstep
        exact h
  | insertRole invitation user created =>
      simp only [AcceptStage.step] at hstep
      split at hstep
      · cases hstep
        exact h
      · cases hstep
  | accepted invitation user created => cases hstep

/-- The roles an invitation is to are there when it goes in. -/
theorem invited_of_step {context : TenantContext} {payload : InvitationCreate}
    {stage : InviteStage} (h : stage.step settings mdb context payload = some (.ok .invited)) :
    mdb.access.hasRole payload.roleId = true := by
  cases stage with
  | insert =>
      simp only [InviteStage.step] at h
      split at h
      · split at h
        next hrole => exact hrole
        next => cases h
      · cases h
  | role =>
      simp only [InviteStage.step] at h
      split at h
      · cases h
      · cases h
  | granted =>
      simp only [InviteStage.step] at h
      split at h
      · cases h
      · cases h
  | emails =>
      simp only [InviteStage.step] at h
      split at h
      · cases h
      · cases h
  | invited => cases h

theorem Phase.Held.run {phase phase' : Phase} {choice : Choice} (h : phase.Held state.db)
    (hrun : run settings state phase choice = some (state', phase')) : phase'.Held state.db := by
  cases phase with
  | building stage =>
      cases choice with
      | row id => cases hrun
      | next =>
          obtain ⟨⟨state₁, out⟩, -, heq⟩ := Option.map_eq_some_iff.mp hrun
          cases heq
          cases out with
          | error e => trivial
          | ok stage' => trivial
  | member context request stage =>
      obtain ⟨out, -, heq⟩ := Option.map_eq_some_iff.mp hrun
      cases heq
      cases out with
      | error e => trivial
      | ok stage' => trivial
  | role context stage =>
      obtain ⟨out, -, heq⟩ := Option.map_eq_some_iff.mp hrun
      cases heq
      cases out with
      | error e => trivial
      | ok stage' => trivial
  | invite context payload stage =>
      cases choice with
      | row id => cases hrun
      | next =>
          obtain ⟨out, hstep, heq⟩ := Option.map_eq_some_iff.mp hrun
          cases heq
          cases out with
          | error e => trivial
          | ok stage' =>
              cases stage' with
              | invited => exact invited_of_step hstep
              | _ => trivial
  | accept payload stage =>
      cases choice with
      | row id => cases hrun
      | next =>
          obtain ⟨out, hstep, heq⟩ := Option.map_eq_some_iff.mp hrun
          cases heq
          cases out with
          | error e => trivial
          | ok stage' => exact AcceptStage.Held.step h hstep
  | changeInvitation context invitationId change stage =>
      cases choice with
      | row id => cases hrun
      | next =>
          obtain ⟨out, hstep, heq⟩ := Option.map_eq_some_iff.mp hrun
          cases heq
          cases out with
          | error e => trivial
          | ok stage' =>
              cases stage with
              | lock =>
                  obtain ⟨invitation, hfound, hpending, rfl⟩ := lock_eq_some hstep
                  have hid := (Table.get_mem hfound).2
                  exact ⟨hid, Table.get_self hfound, hpending⟩
              | locked invitation => cases hstep
  | _ => cases hrun

/-! ## Ends -/

/-- The users of the memberships, and the roles, stay. -/
structure Stays (db db' : AccessDb) : Prop where
  user : ∀ m' ∈ db'.memberships, ∃ m ∈ db.memberships, m.userId = m'.userId
  role : ∀ roleId, db.hasRole roleId = true → db'.hasRole roleId = true

theorem Stays.refl (db : AccessDb) : Stays db db := ⟨fun m hm => ⟨m, hm, rfl⟩, fun _ hr => hr⟩

theorem Stays.map {db db' db'' : AccessDb} {f : Membership → Membership} (h : Stays db db')
    (hf : ∀ m, (f m).userId = m.userId) (hmemberships : db''.memberships = db'.memberships.map f)
    (hroles : db''.roles = db'.roles) : Stays db db'' := by
  refine ⟨fun m' hm' => ?_, fun r hr => ?_⟩
  · rw [hmemberships] at hm'
    obtain ⟨m, hm, rfl⟩ := List.mem_map.mp hm'
    rw [hf]
    exact h.user m hm
  · unfold AccessDb.hasRole
    rw [hroles]
    exact h.role r hr

theorem Stays.modifyMember {db db' : AccessDb} (h : Stays db db') (id : Uuid)
    (f : Membership → Membership) (hid : ∀ m, (f m).id = m.id)
    (huser : ∀ m, (f m).userId = m.userId) : Stays db (db'.modifyMember id f hid) := by
  refine h.map (fun m => ?_) rfl rfl
  split
  · exact huser m
  · rfl

theorem stays_setStatus {db : AccessDb} (record : MemberRecord) (id : Uuid)
    (status : MembershipStatus) : Stays db (db.setStatus record id status) :=
  (Stays.refl db).modifyMember id
    (fun m => { m with status := status, rolesVersion := record.membership.rolesVersion + 1 })
    (fun _ => rfl) fun _ => rfl

theorem stays_write {db : AccessDb} (record : MemberRecord) (request : MemberRequest) :
    Stays db (request.write db record) := by
  cases request with
  | updateRoles target roleIds =>
      have hset : Stays db (db.setRoles target roleIds) :=
        ⟨fun m hm => ⟨m, hm, rfl⟩, fun _ hr => hr⟩
      exact hset.modifyMember target
        (fun m => { m with rolesVersion := record.membership.rolesVersion + 1 }) (fun _ => rfl)
        fun _ => rfl
  | updateStatus target status => exact stays_setStatus record target status
  | remove target =>
      simp only [MemberRequest.write]
      split
      · exact .refl db
      · exact stays_setStatus record target .revoked

theorem stays_rename {db db' : AccessDb} (h : Stays db db') (payload : RoleUpdate) (roleId : Uuid) :
    Stays db (payload.rename db' roleId) := by
  refine ⟨fun m hm => h.user m ?_, fun r hr => by rw [hasRole_rename]; exact h.role r hr⟩
  unfold RoleUpdate.rename at hm
  split at hm
  · exact hm
  · exact hm

/-- A commit of the access tables. -/
theorem MembersDb.Whole.write {access : AccessDb} (h : mdb.Whole) (hconsistent : access.Consistent)
    (husers : ∀ m' ∈ access.memberships, ∃ m ∈ mdb.access.memberships, m.userId = m'.userId)
    (hroles : ∀ invitation ∈ mdb.invitations.rows, access.hasRole invitation.roleId = true) :
    MembersDb.Whole { mdb with access := access } where
  access := hconsistent
  invited := hroles
  opened := h.opened
  user := fun m' hm' => by
    obtain ⟨m, hm, hid⟩ := husers m' hm'
    rw [← hid]
    exact h.user m hm

/-- A change of one invitation. -/
theorem MembersDb.Whole.modifyAt {id : Uuid} {f : Invitation → Invitation}
    {hf : ∀ row, (f row).id = row.id} (h : mdb.Whole) (hrole : ∀ row, (f row).roleId = row.roleId)
    (hopened : ∀ row : Invitation, (row.status = .pending → row.acceptedAt = none) →
      (f row).status = .pending → (f row).acceptedAt = none) :
    MembersDb.Whole { mdb with invitations := mdb.invitations.modifyAt id f hf } where
  access := h.access
  user := h.user
  invited := fun row' hrow' => by
    obtain ⟨row, hrow, rfl⟩ := List.mem_map.mp hrow'
    split
    · rw [hrole]
      exact h.invited row hrow
    · exact h.invited row hrow
  opened := fun row' hrow' hstatus => by
    obtain ⟨row, hrow, rfl⟩ := List.mem_map.mp hrow'
    split at hstatus
    next hid =>
      rw [if_pos hid]
      exact hopened row (h.opened row hrow) hstatus
    next hid =>
      rw [if_neg hid]
      exact h.opened row hrow hstatus

theorem addMembership_rows {db db' : AccessDb} {membership : Membership}
    (h : db.addMembership membership = some db') :
    (∀ m ∈ db.memberships, m.id ≠ membership.id ∧ m.userId ≠ membership.userId) ∧
      db'.memberships = db.memberships ++ [membership] := by
  unfold AccessDb.addMembership at h
  split at h
  next hfree =>
    cases h
    exact ⟨hfree, rfl⟩
  next => cases h

theorem MembersDb.Whole.commit {phase : Phase} (h : mdb.Whole) (hheld : phase.Held mdb)
    (hconsistent : mdb'.access.Consistent) (hcommit : phase.commit settings mdb = some mdb') :
    mdb'.Whole := by
  cases phase with
  | member context request stage =>
      obtain ⟨access, hwrite, rfl⟩ := Option.map_eq_some_iff.mp hcommit
      have hstays : Stays mdb.access access := by
        cases stage with
        | check record todo =>
            cases todo with
            | cons first todo => cases hwrite
            | nil =>
                cases request with
                | updateRoles target roleIds => cases hwrite
                | _ =>
                    cases hwrite
                    exact stays_write record _
        | insert record todo inserted =>
            cases todo with
            | cons first todo => cases hwrite
            | nil =>
                cases hwrite
                exact stays_write record request
        | _ => cases hwrite
      exact h.write hconsistent hstays.user fun row hrow => hstays.role _ (h.invited row hrow)
  | role context stage =>
      obtain ⟨access, hwrite, rfl⟩ := Option.map_eq_some_iff.mp hcommit
      have hof : Stays mdb.access access → MembersDb.Whole { mdb with access := access } :=
        fun hstays => h.write hconsistent hstays.user fun row hrow =>
          hstays.role _ (h.invited row hrow)
      cases stage with
      | created roleId payload =>
          obtain ⟨added, hadd, rfl⟩ := Option.map_eq_some_iff.mp hwrite
          refine hof ?_
          unfold AccessDb.addRole at hadd
          split at hadd
          · cases hadd
          · cases hadd
            refine ⟨fun m hm => ⟨m, hm, rfl⟩, fun r hr => ?_⟩
            obtain ⟨role, hrole, hid⟩ := List.any_eq_true.mp hr
            exact List.any_eq_true.mpr ⟨role, List.mem_append_left _ hrole, hid⟩
      | bumping role payload codes todo bumped =>
          cases todo with
          | cons first todo => cases hwrite
          | nil =>
              cases hwrite
              have huser : ∀ m : Membership, (m.bump bumped).userId = m.userId := by
                intro m
                unfold Membership.bump
                split
                · rfl
                · rfl
              have hbumped : Stays mdb.access
                  ((mdb.access.replacePermissions role.id codes).bumpMemberships bumped) :=
                (Stays.refl mdb.access).map huser rfl rfl
              exact hof (stays_rename hbumped payload role.id)
      | renamed role payload codes =>
          cases hwrite
          exact hof (stays_rename (.refl mdb.access) payload role.id)
      | deleteRow role =>
          simp only [RoleStage.commit] at hwrite
          split at hwrite
          next => cases hwrite
          next hfree =>
            cases hwrite
            refine h.write hconsistent (fun m hm => ⟨m, hm, rfl⟩) fun row hrow => ?_
            -- An invitation keeps its role from being deleted.
            have hne : row.roleId ≠ role.id := fun heq =>
              hfree (List.any_eq_true.mpr ⟨row, hrow, by simpa using heq⟩)
            obtain ⟨found, hfound, hid⟩ := List.any_eq_true.mp (h.invited row hrow)
            have hid : found.id = row.roleId := by simpa using hid
            refine List.any_eq_true.mpr ⟨found, List.mem_filter.mpr ⟨hfound, ?_⟩, by simpa using hid⟩
            simpa [hid] using hne
      | _ => cases hwrite
  | invite context payload stage =>
      cases stage with
      | invited =>
          simp only [Phase.commit, InviteStage.commit, MembersDb.addInvitation] at hcommit
          split at hcommit
          · cases hcommit
          · obtain ⟨invitations, hinsert, rfl⟩ := Option.map_eq_some_iff.mp hcommit
            have hrows := (Table.insert_eq_some hinsert).1
            refine ⟨hconsistent, fun row hrow => ?_, fun row hrow hstatus => ?_, h.user⟩
            · rw [hrows] at hrow
              rcases List.mem_append.mp hrow with hrow | hrow
              · exact h.invited row hrow
              · rw [List.mem_singleton.mp hrow]
                exact hheld
            · rw [hrows] at hrow
              rcases List.mem_append.mp hrow with hrow | hrow
              · exact h.opened row hrow hstatus
              · rw [List.mem_singleton.mp hrow]
                rfl
      | _ => cases hcommit
  | accept payload stage =>
      cases stage with
      | accepted invitation user created =>
          obtain ⟨access, users, hadd, husers, rfl⟩ := accepted_eq_some hcommit
          have hroles := (addMembership_eq_some hadd).2.2.2.2
          have hmemberships := (addMembership_rows hadd).2
          have hredeemed : MembersDb.Whole { mdb with
              invitations := mdb.invitations.modifyAt invitation.id payload.redeem
                payload.redeem_id } :=
            h.modifyAt (fun row => rfl) fun row _ hstatus => by cases hstatus
          refine ⟨hconsistent, fun row hrow => ?_, hredeemed.opened, fun m hm => ?_⟩
          · have hrole := hredeemed.invited row hrow
            unfold AccessDb.hasRole AccessDb.assignRole
            rw [hroles]
            exact hrole
          · have hsubset : mdb.users.rows ⊆ users.rows := (Phase.keeps hcommit).user
            have hm : m ∈ access.memberships := hm
            rw [hmemberships] at hm
            rcases List.mem_append.mp hm with hm | hm
            · obtain ⟨found, hfound, hid⟩ := h.user m hm
              exact ⟨found, hsubset hfound, hid⟩
            · rw [List.mem_singleton.mp hm]
              refine ⟨user, ?_, rfl⟩
              rcases husers with ⟨hcreated, -⟩ | ⟨-, hinsert⟩
              · exact hsubset (hheld.2 hcreated)
              · rw [(Table.insert_eq_some hinsert).1]
                exact List.mem_append_right _ (List.mem_singleton_self _)
      | _ => cases hcommit
  | changeInvitation context invitationId change stage =>
      cases stage with
      | lock => cases hcommit
      | locked invitation =>
          simp only [Phase.commit, ChangeStage.commit] at hcommit
          split at hcommit
          · cases hcommit
            refine h.modifyAt (fun row => ?_) fun row hrow hstatus => ?_
            · cases change with
              | revoke => rfl
              | resend tokenHash now => rfl
            · cases change with
              | revoke => cases hstatus
              | resend tokenHash now => exact hrow hstatus
          · cases hcommit
  | _ => cases hcommit

theorem sound_redemption (settings : Settings) :
    (protocol settings).Sound (fun _ _ => True)
      (fun state => Coherent state ∧ state.db.Whole)
      (fun state phase => phase.Relies state ∧ phase.Held state.db) where
  start state request h := by
    refine ⟨(sound_cache settings).start state request h.1, ?_⟩
    cases request with
    | member context request =>
        show (start (.member context request)).Held state.db
        simp only [start]
        split
        · trivial
        · trivial
    | _ => trivial
  run state phase choice state' phase' h hphase hrun := by
    obtain ⟨hcoherent, hrelies⟩ := (sound_cache settings).run _ _ _ _ _ h.1 hphase.1 hrun
    have hdb := (run_tables hrun).1
    refine ⟨⟨hcoherent, by rw [hdb]; exact h.2⟩, hrelies, ?_⟩
    rw [hdb]
    exact hphase.2.run hrun
  run_stable state phase choice state' phase' other h hphase hother hrun := by
    refine ⟨(sound_cache settings).run_stable _ _ _ _ _ _ h.1 hphase.1 hother.1 hrun, ?_⟩
    rw [(run_tables hrun).1]
    exact hother.2
  finish state phase state' h hphase _ hfinish := by
    have hcoherent := (sound_cache settings).finish _ _ _ h.1 hphase.1 trivial hfinish
    refine ⟨hcoherent, ?_⟩
    rcases finish_cases hfinish with ⟨db, hcommit, rfl⟩ | ⟨reading, context, rfl, rfl⟩ |
      ⟨id, version, rfl, rfl⟩ | rfl
    · exact h.2.commit hphase.2 hcoherent.consistent hcommit
    · exact h.2
    · exact h.2
    · exact h.2
  finish_stable state phase state' other h hphase _ hother hfree hfinish := by
    refine ⟨(sound_cache settings).finish_stable _ _ _ _ h.1 hphase.1 trivial hother.1 hfree hfinish,
      ?_⟩
    rcases finish_cases hfinish with ⟨db, hcommit, rfl⟩ | ⟨reading, context, rfl, rfl⟩ |
      ⟨id, version, rfl, rfl⟩ | rfl
    · exact hother.2.stable hfree (Phase.keeps hcommit)
        (hphase.1.holds.commits h.1.consistent hcommit).frame
    · exact hother.2
    · exact hother.2
    · exact hother.2

/-! ## Invitations that are settled -/

/-- The invitation is there, and no longer open. -/
def Settled (id : Uuid) (state : AccessState) : Prop :=
  ∃ invitation ∈ state.db.invitations.get id, invitation.status ≠ .pending

/-- No transaction gets a hold of a settled invitation. -/
theorem Settled.run {id : Uuid} {phase phase' : Phase} {choice : Choice} (h : Settled id state)
    (hphase : .invitation id ∉ phase.locks.map Prod.fst)
    (hrun : run settings state phase choice = some (state', phase')) :
    .invitation id ∉ phase'.locks.map Prod.fst := by
  obtain ⟨settled, hsettled, hstatus⟩ := h
  -- A row that is found open is another one.
  have hother : ∀ invitation : Invitation,
      state.db.invitations.get invitation.id = some invitation →
      invitation.status = .pending → id ≠ invitation.id := by
    rintro invitation hget hpending rfl
    rw [hget] at hsettled
    cases hsettled
    exact hstatus hpending
  cases phase with
  | accept payload stage =>
      cases choice with
      | row id => cases hrun
      | next =>
          obtain ⟨out, hstep, heq⟩ := Option.map_eq_some_iff.mp hrun
          cases heq
          cases out with
          | error e => exact List.not_mem_nil
          | ok stage' =>
              cases stage with
              | lockToken =>
                  obtain ⟨invitation, hfound, hpending, -, -, rfl⟩ := lockToken_eq_some hstep
                  simpa [Phase.next, Phase.locks, AcceptStage.locks] using
                    hother invitation (getByToken_eq_some hfound) hpending
              | resolveUser invitation =>
                  simp only [AcceptStage.step] at hstep
                  split at hstep
                  · cases hstep
                  · cases hstep
                    exact hphase
              | checkExisting invitation user created =>
                  simp only [AcceptStage.step] at hstep
                  split at hstep
                  · cases hstep
                  · cases hstep
                    exact hphase
              | insertMembership invitation user created =>
                  simp only [AcceptStage.step] at hstep
                  split at hstep
                  · cases hstep
                  · cases hstep
                    exact hphase
              | insertRole invitation user created =>
                  simp only [AcceptStage.step] at hstep
                  split at hstep
                  · cases hstep
                    simpa [Phase.next, Phase.locks, AcceptStage.locks] using hphase
                  · cases hstep
              | accepted invitation user created => cases hstep
  | changeInvitation context invitationId change stage =>
      cases choice with
      | row id => cases hrun
      | next =>
          obtain ⟨out, hstep, heq⟩ := Option.map_eq_some_iff.mp hrun
          cases heq
          cases out with
          | error e => exact List.not_mem_nil
          | ok stage' =>
              cases stage with
              | lock =>
                  obtain ⟨invitation, hfound, hpending, rfl⟩ := lock_eq_some hstep
                  simpa [Phase.next, Phase.locks, ChangeStage.locks] using
                    hother invitation (Table.get_self hfound) hpending
              | locked invitation => cases hstep
  | building stage =>
      cases choice with
      | row id => cases hrun
      | next =>
          obtain ⟨⟨state₁, out⟩, -, heq⟩ := Option.map_eq_some_iff.mp hrun
          cases heq
          cases out with
          | error e => exact List.not_mem_nil
          | ok stage' => exact List.not_mem_nil
  | member context request stage =>
      obtain ⟨out, -, heq⟩ := Option.map_eq_some_iff.mp hrun
      cases heq
      cases out with
      | error e => exact List.not_mem_nil
      | ok stage' => cases stage' <;> simp [Phase.next, Phase.locks, MemberStage.locks]
  | role context stage =>
      obtain ⟨out, -, heq⟩ := Option.map_eq_some_iff.mp hrun
      cases heq
      cases out with
      | error e => exact List.not_mem_nil
      | ok stage' => cases stage' <;> simp [Phase.next, Phase.locks, RoleStage.locks]
  | invite context payload stage =>
      cases choice with
      | row id => cases hrun
      | next =>
          obtain ⟨out, -, heq⟩ := Option.map_eq_some_iff.mp hrun
          cases heq
          cases out with
          | error e => exact List.not_mem_nil
          | ok stage' => cases stage' <;> simp [Phase.next, Phase.locks, InviteStage.locks]
  | _ => cases hrun

/-- A settled invitation stays settled, and no transaction is past the check on it. -/
theorem sound_settled (settings : Settings) (id : Uuid) :
    (protocol settings).Sound (fun _ _ => True) (Settled id)
      (fun _ phase => .invitation id ∉ phase.locks.map Prod.fst) where
  start state request _ := by
    cases request with
    | member context request =>
        show .invitation id ∉ (start (.member context request)).locks.map Prod.fst
        simp only [start]
        split
        · exact List.not_mem_nil
        · exact List.not_mem_nil
    | _ => exact List.not_mem_nil
  run state phase choice state' phase' h hphase hrun := by
    refine ⟨?_, h.run hphase hrun⟩
    unfold Settled
    rw [(run_tables hrun).1]
    exact h
  run_stable state phase choice state' phase' other _ _ hother _ := hother
  finish state phase state' h hphase _ hfinish := by
    rcases finish_cases hfinish with ⟨db, hcommit, rfl⟩ | ⟨reading, context, rfl, rfl⟩ |
      ⟨_, version, rfl, rfl⟩ | rfl
    · obtain ⟨invitation, hget, hstatus⟩ := h
      exact ⟨invitation, (Phase.keeps hcommit).invitation id hphase invitation hget, hstatus⟩
    · exact h
    · exact h
    · exact h
  finish_stable state phase state' other _ _ _ hother _ _ := hother

/-! ## One acceptance -/

/-- `accept` runs alone and returns, with the user it found or created. -/
def AccessState.Accepts (settings : Settings) (state : AccessState) (payload : InvitationAccept)
    (invitation : Invitation) (state' : AccessState) : Prop :=
  ∃ user created, (protocol settings).alone state (.accept payload) (List.replicate 5 .next) =
    some (state', .accept payload (.accepted invitation user created))

theorem ends_raised {e : Err} {choices : List Choice} {phase : Phase}
    (h : (protocol settings).ends state (.raised e) choices = some (state', phase)) :
    phase = .raised e := by
  cases choices with
  | nil =>
      cases h
      rfl
  | cons choice choices => cases h

/-- One statement of a request that returns. -/
theorem ends_cons {Stage : Type} {phase : Stage → Phase} {stage : Stage} {phase' : Phase}
    {choice : Choice} {choices : List Choice} {step : Option (Except Err Stage)}
    (hrun : run settings state (phase stage) choice =
      step.map fun out => (state, Phase.next phase out))
    (hreturns : ∀ e, phase' ≠ .raised e) :
    (protocol settings).ends state (phase stage) (choice :: choices) = some (state', phase') ↔
      ∃ next, step = some (.ok next) ∧
        (protocol settings).ends state (phase next) choices = some (state', phase') := by
  have hends : (protocol settings).ends state (phase stage) (choice :: choices) =
      (run settings state (phase stage) choice).bind fun out =>
        (protocol settings).ends out.1 out.2 choices := rfl
  rw [hends, hrun]
  cases step with
  | none => simp
  | some out =>
      cases out with
      | ok next => simp [Phase.next]
      | error e =>
          simp only [Option.map_some, Option.bind_some, Phase.next, Option.some.injEq, reduceCtorEq,
            false_and, exists_false, iff_false]
          intro h
          exact hreturns e (ends_raised h)

theorem ends_accept {payload payload' : InvitationAccept} {stage stage' : AcceptStage}
    {choices : List Choice} :
    (protocol settings).ends state (.accept payload stage) (.next :: choices) =
        some (state', .accept payload' stage') ↔
      ∃ next, stage.step state.db payload = some (.ok next) ∧
        (protocol settings).ends state (.accept payload next) choices =
          some (state', .accept payload' stage') :=
  ends_cons rfl nofun

/-- What the statements of an `accept` that returns have checked. -/
structure InvitationAccept.Passes (db : MembersDb) (payload : InvitationAccept)
    (invitation : Invitation) (user : User) (created : Bool) : Prop where
  found : db.getByToken payload.tokenHash = some invitation
  pending : invitation.status = .pending
  unaccepted : invitation.acceptedAt = none
  unexpired : payload.now < invitation.expiresAt
  resolved : db.resolveUser payload invitation.email = .ok (user, created)
  unjoined : (db.existingMembership user.id).any (·.status ≠ .revoked) = false
  inserted : ∃ access, db.access.addMembership (payload.membership user) = some access
  role : db.access.hasRole invitation.roleId = true

theorem ends_accept_iff {payload : InvitationAccept} {invitation : Invitation} {user : User}
    {created : Bool} :
    (protocol settings).alone state (.accept payload) (List.replicate 5 .next) =
        some (state', .accept payload (.accepted invitation user created)) ↔
      payload.Passes state.db invitation user created ∧
        ∃ db, AcceptStage.commit state.db payload (.accepted invitation user created) = some db ∧
          state' = state.commit db := by
  show (protocol settings).ends state (.accept payload .lockToken) _ = _ ↔ _
  constructor
  · intro h
    obtain ⟨_, hlock, h⟩ := ends_accept.mp h
    obtain ⟨invitation₁, hfound, hpending, hunaccepted, hunexpired, rfl⟩ := lockToken_eq_some hlock
    obtain ⟨_, hresolve, h⟩ := ends_accept.mp h
    simp only [AcceptStage.step] at hresolve
    split at hresolve
    next => cases hresolve
    next user₁ created₁ hresolved =>
      cases hresolve
      obtain ⟨_, hcheck, h⟩ := ends_accept.mp h
      simp only [AcceptStage.step] at hcheck
      split at hcheck
      next => cases hcheck
      next hunjoined =>
        cases hcheck
        obtain ⟨_, hinsert, h⟩ := ends_accept.mp h
        simp only [AcceptStage.step] at hinsert
        split at hinsert
        next => cases hinsert
        next access hadd =>
          cases hinsert
          obtain ⟨_, hrole, h⟩ := ends_accept.mp h
          simp only [AcceptStage.step] at hrole
          split at hrole
          next hhas =>
            cases hrole
            obtain ⟨_, hfinish, heq⟩ := Option.map_eq_some_iff.mp h
            obtain ⟨db, hcommit, rfl⟩ := Option.map_eq_some_iff.mp hfinish
            cases heq
            exact ⟨⟨hfound, hpending, hunaccepted, hunexpired, hresolved, by simpa using hunjoined,
              ⟨access, hadd⟩, hhas⟩, db, hcommit, rfl⟩
          next => cases hrole
  · rintro ⟨h, db, hcommit, rfl⟩
    refine ends_accept.mpr ⟨.resolveUser invitation, ?_, ?_⟩
    · simp [AcceptStage.step, h.found, h.pending, h.unaccepted, h.unexpired]
    refine ends_accept.mpr ⟨.checkExisting invitation user created, ?_, ?_⟩
    · simp [AcceptStage.step, h.resolved]
    refine ends_accept.mpr ⟨.insertMembership invitation user created, ?_, ?_⟩
    · simp only [AcceptStage.step, h.unjoined]
      rfl
    refine ends_accept.mpr ⟨.insertRole invitation user created, ?_, ?_⟩
    · obtain ⟨access, hadd⟩ := h.inserted
      simp [AcceptStage.step, hadd]
    refine ends_accept.mpr ⟨.accepted invitation user created, ?_, ?_⟩
    · simp [AcceptStage.step, h.role]
    have hfinish : finish settings state (.accept payload (.accepted invitation user created)) =
        some (state.commit db) := by
      simp only [finish, Phase.commit, hcommit, Option.map_some]
    have hends : ∀ phase, (protocol settings).ends state phase (List.replicate 0 .next) =
        (finish settings state phase).map fun s => (s, phase) := fun _ => rfl
    rw [hends, hfinish]
    rfl

/-- The ids that `uuid7` draws are new. -/
structure InvitationAccept.Fresh (db : MembersDb) (payload : InvitationAccept) : Prop where
  membership : ∀ m ∈ db.access.memberships, m.id ≠ payload.membershipId
  user : ∀ user ∈ db.users.rows, user.id ≠ payload.userId

/-- The request brings what a new account needs, where the address has none. -/
def InvitationAccept.Completes (db : MembersDb) (payload : InvitationAccept) (email : String) :
    Prop :=
  db.users.get email = none → payload.password.isSome ∧ payload.fullName.isSome

/-- The user of the invitation has one active membership, with the role that was invited. -/
def Invitation.Joined (db : MembersDb) (invitation : Invitation) : Prop :=
  ∃ m, (db.membershipsOf invitation.email).filter (·.status = .active) = [m] ∧
    db.access.getRoleIds m.id = {invitation.roleId}

theorem membershipsOf_eq_nil {email : String} {user : User} (huser : mdb.users.get email = some user) :
    mdb.membershipsOf email = [] ↔ ∀ m ∈ mdb.access.memberships, m.userId ≠ user.id := by
  simp [MembersDb.membershipsOf, huser, List.filter_eq_nil_iff]

/-- An `accept` that gets through has a user without a membership. -/
theorem InvitationAccept.Passes.unique {payload : InvitationAccept} {invitation : Invitation}
    {user : User} {created : Bool} (h : payload.Passes mdb invitation user created) :
    mdb.membershipsOf invitation.email = [] ∧ payload.Completes mdb invitation.email := by
  obtain ⟨access, hadd⟩ := h.inserted
  have hfree := (addMembership_rows hadd).1
  rcases resolveUser_eq_ok h.resolved with ⟨-, hget⟩ | ⟨-, hnone, -, -, hpassword, hname⟩
  · refine ⟨(membershipsOf_eq_nil hget).mpr fun m hm => (hfree m hm).2, fun hnone => ?_⟩
    rw [hget] at hnone
    cases hnone
  · exact ⟨by simp [MembersDb.membershipsOf, hnone], fun _ => ⟨hpassword, hname⟩⟩

/-- And such a user gets through. -/
theorem passes_of_free (payload : InvitationAccept) {invitation : Invitation} (hwhole : mdb.Whole)
    (hfound : mdb.getByToken payload.tokenHash = some invitation)
    (hpending : invitation.status = .pending) (hunexpired : payload.now < invitation.expiresAt)
    (hfresh : payload.Fresh mdb) (hnone : mdb.membershipsOf invitation.email = [])
    (hcompletes : payload.Completes mdb invitation.email) :
    ∃ user created, payload.Passes mdb invitation user created := by
  have hmem : invitation ∈ mdb.invitations.rows := List.mem_of_find?_eq_some hfound
  have hpasses : ∀ user created, mdb.resolveUser payload invitation.email = .ok (user, created) →
      (∀ m ∈ mdb.access.memberships, m.userId ≠ user.id) →
      payload.Passes mdb invitation user created := by
    intro user created hresolved huser
    have hexisting : mdb.existingMembership user.id = none :=
      List.find?_eq_none.mpr fun m hm => by simpa using huser m hm
    refine ⟨hfound, hpending, hwhole.opened invitation hmem hpending, hunexpired, hresolved,
      by rw [hexisting]; rfl, ?_, hwhole.invited invitation hmem⟩
    unfold AccessDb.addMembership
    exact ⟨_, dif_pos fun m hm => ⟨hfresh.membership m hm, huser m hm⟩⟩
  cases huser : mdb.users.get invitation.email with
  | some user =>
      refine ⟨user, false, hpasses user false ?_ ((membershipsOf_eq_nil huser).mp hnone)⟩
      simp [MembersDb.resolveUser, huser]
  | none =>
      obtain ⟨hpassword, hname⟩ := hcompletes huser
      obtain ⟨password, hpassword⟩ := Option.isSome_iff_exists.mp hpassword
      obtain ⟨name, hname⟩ := Option.isSome_iff_exists.mp hname
      refine ⟨⟨payload.userId, invitation.email, name⟩, true, hpasses _ true ?_ fun m hm => ?_⟩
      · simp [MembersDb.resolveUser, huser, hpassword, hname]
      · -- Every membership is of a user that is there, and this one is new.
        obtain ⟨user, hmem, hid⟩ := hwhole.user m hm
        rw [← hid]
        exact hfresh.user user hmem

/-- The commit of an `accept` that got through. -/
theorem InvitationAccept.Passes.commit {payload : InvitationAccept} {invitation : Invitation}
    {user : User} {created : Bool} (h : payload.Passes mdb invitation user created)
    (hfresh : payload.Fresh mdb) :
    ∃ db, AcceptStage.commit mdb payload (.accepted invitation user created) = some db := by
  obtain ⟨access, hadd⟩ := h.inserted
  rcases resolveUser_eq_ok h.resolved with ⟨rfl, -⟩ | ⟨rfl, hnone, hid, hemail, -⟩
  · simp [AcceptStage.commit, hadd]
  · obtain ⟨users, hinsert⟩ := Table.insert_of_fresh (t := mdb.users) (r := user)
      (by rw [hemail]; exact hnone)
    have hfree : mdb.users.rows.any (·.id = user.id) = false := by
      rw [List.any_eq_false]
      intro other hother
      simpa [hid] using hfresh.user other hother
    simp [AcceptStage.commit, MembersDb.addUser, hfree, hinsert, hadd]

theorem joined_of_commit {payload : InvitationAccept} {invitation : Invitation} {user : User}
    {created : Bool} (hdb : mdb.access.Consistent)
    (h : payload.Passes mdb invitation user created)
    (hcommit : AcceptStage.commit mdb payload (.accepted invitation user created) = some mdb') :
    invitation.Joined mdb' := by
  obtain ⟨access, users, hadd, husers, rfl⟩ := accepted_eq_some hcommit
  obtain ⟨hfree, hmemberships⟩ := addMembership_rows hadd
  obtain ⟨hnone, -, hassigned, -, -⟩ := addMembership_eq_some hadd
  have hget : users.get invitation.email = some user := by
    rcases resolveUser_eq_ok h.resolved with ⟨rfl, hget⟩ | ⟨rfl, -, -, hemail, -⟩
    · rcases husers with ⟨-, rfl⟩ | ⟨hcreated, -⟩
      · exact hget
      · cases hcreated
    · rcases husers with ⟨hcreated, -⟩ | ⟨-, hinsert⟩
      · cases hcreated
      · rw [Table.get_insert hinsert, if_pos hemail.symm]
  refine ⟨payload.membership user, ?_, ?_⟩
  · have hold : access.memberships.filter (·.userId = user.id) = [payload.membership user] := by
      rw [hmemberships, List.filter_append, List.filter_eq_nil_iff.mpr]
      · simp [InvitationAccept.membership]
      · intro m hm
        have hne : m.userId ≠ user.id := (hfree m hm).2
        simpa using hne
    simp only [MembersDb.membershipsOf, hget, AccessDb.assignRole, hold]
    rfl
  · ext roleId
    rw [AccessDb.mem_getRoleIds, Finset.mem_singleton]
    simp only [AccessDb.assignRole, hassigned, InvitationAccept.membership, List.mem_append,
      List.mem_singleton, Prod.mk.injEq, true_and, or_iff_right_iff_imp]
    intro hmem
    exact absurd hnone (hdb.membership _ _ hmem)

/-! ## Every run -/

/-- The transaction accepts the invitation. -/
def Phase.Redeems (invitationId : Uuid) : Phase → Prop
  | .accept _ (.accepted invitation _ _) => invitation.id = invitationId
  | _ => False

/-- The transaction revokes the invitation. -/
def Phase.Revokes (invitationId : Uuid) : Phase → Prop
  | .changeInvitation _ _ .revoke (.locked invitation) => invitation.id = invitationId
  | _ => False

/-- A transaction ends in this phase. -/
def Ends (settings : Settings) (s : Interleaved AccessState Phase) (t : Nat) (phase : Phase)
    (s' : Interleaved AccessState Phase) : Prop :=
  s.txs.get t = some (t, phase) ∧ (protocol settings).step s (.finish t) = some s'

/-- Where a transaction that holds the invitation leaves it settled, no other one is left that
holds it. -/
theorem settled_of_finish {G : AccessState → Prop} {P : AccessState → Phase → Prop}
    {s s' : Interleaved AccessState Phase} {t : Nat} {phase : Phase} {id : Uuid}
    (hinv : (protocol settings).Inv G P s) (hends : Ends settings s t phase s')
    (hlock : (.invitation id, .update) ∈ phase.locks) (hsettled : Settled id s'.committed) :
    (protocol settings).Inv (Settled id)
      (fun _ phase => .invitation id ∉ phase.locks.map Prod.fst) s' := by
  obtain ⟨htx, hstep⟩ := hends
  simp only [Protocol.step, htx] at hstep
  split at hstep
  next => cases hstep
  next committed hfinish =>
    cases hstep
    refine ⟨hsettled, fun tx hmem => ?_, fun tx hmem tx' hmem' => ?_⟩
    · obtain ⟨hmem, hne⟩ := Protocol.mem_erase hmem
      have hfree := hinv.exclusive (t, phase) (Table.get_mem htx).1 tx hmem fun heq => hne heq.symm
      exact notMem_of_update hfree hlock
    · exact hinv.exclusive tx (Protocol.mem_erase hmem).1 tx' (Protocol.mem_erase hmem').1

/-- An acceptance or a revocation settles its invitation. -/
theorem settled_of_ends {s s' : Interleaved AccessState Phase} {t : Nat} {phase : Phase}
    {id : Uuid} (hheld : phase.Held s.committed.db) (hends : Ends settings s t phase s')
    (hphase : phase.Redeems id ∨ phase.Revokes id) :
    (.invitation id, .update) ∈ phase.locks ∧ Settled id s'.committed := by
  obtain ⟨htx, hstep⟩ := hends
  simp only [Protocol.step, htx] at hstep
  split at hstep
  next => cases hstep
  next committed hfinish =>
    cases hstep
    cases phase with
    | accept payload stage =>
        cases stage with
        | accepted invitation user created =>
            obtain rfl : invitation.id = id := by simpa [Phase.Redeems, Phase.Revokes] using hphase
            refine ⟨by simp [Phase.locks, AcceptStage.locks], ?_⟩
            obtain ⟨db, hcommit, rfl⟩ := Option.map_eq_some_iff.mp hfinish
            obtain ⟨access, users, -, -, rfl⟩ := accepted_eq_some hcommit
            exact ⟨payload.redeem invitation,
              get_modified payload.redeem payload.redeem_id hheld.1.1,
              fun hpending => by cases hpending⟩
        | _ => simp [Phase.Redeems, Phase.Revokes] at hphase
    | changeInvitation context invitationId change stage =>
        cases stage with
        | lock => simp [Phase.Redeems, Phase.Revokes] at hphase
        | locked invitation =>
            cases change with
            | resend tokenHash now => simp [Phase.Redeems, Phase.Revokes] at hphase
            | revoke =>
                obtain rfl : invitation.id = id := by
                  simpa [Phase.Redeems, Phase.Revokes] using hphase
                refine ⟨by simp [Phase.locks, ChangeStage.locks], ?_⟩
                have hcommit : (ChangeStage.commit settings s.committed.db .revoke
                    (.locked invitation)).map s.committed.commit = some committed := hfinish
                obtain ⟨db, hcommit, rfl⟩ := Option.map_eq_some_iff.mp hcommit
                cases hcommit
                exact ⟨InvitationChange.revoke.apply settings invitation,
                  get_modified _ (InvitationChange.revoke.apply_id settings) hheld.2.1,
                  fun hpending => by cases hpending⟩
    | _ => simp [Phase.Redeems, Phase.Revokes] at hphase

/-- From any tables with their foreign keys, in every interleaving of the requests: after an
invitation was accepted or revoked no `accept` of it commits, and an invitation that is open is
accepted, leaving its user one active membership with its role, exactly when that user has no
membership, not even a revoked one, and the request brings what a new account needs. -/
theorem invitation_redemption {settings : Settings} {db : MembersDb} (hdb : db.Whole)
    {s : Interleaved AccessState Phase}
    (h : (protocol settings).Reaches (Protocol.init (.initial db)) s) :
    (∀ id t phase s₁ s₂ t' phase' s₃, Ends settings s t phase s₁ →
      phase.Redeems id ∨ phase.Revokes id → (protocol settings).Reaches s₁ s₂ →
      Ends settings s₂ t' phase' s₃ → ¬phase'.Redeems id) ∧
    ∀ payload invitation, s.committed.db.getByToken payload.tokenHash = some invitation →
      invitation.status = .pending → payload.now < invitation.expiresAt →
      payload.Fresh s.committed.db →
      (∀ m ∈ s.committed.db.membershipsOf invitation.email, m.status = .revoked) →
      ((∃ state', s.committed.Accepts settings payload invitation state' ∧
          invitation.Joined state'.db) ↔
        s.committed.db.membershipsOf invitation.email = [] ∧
          payload.Completes s.committed.db invitation.email) := by
  have hinv := (sound_redemption settings).runs h
    (.init ⟨coherent_initial hdb.access, hdb⟩)
  refine ⟨?_, ?_⟩
  · intro id t phase s₁ s₂ t' phase' s₃ hends hphase hlater hends' hredeems
    have hheld := (hinv.opened (t, phase) (Table.get_mem hends.1).1).2
    obtain ⟨hlock, hsettled⟩ := settled_of_ends hheld hends hphase
    have hafter := (sound_settled settings id).runs hlater
      (settled_of_finish hinv hends hlock hsettled)
    have hnot := hafter.opened (t', phase') (Table.get_mem hends'.1).1
    refine hnot ?_
    cases phase' with
    | accept payload stage =>
        cases stage with
        | accepted invitation user created =>
            have hid : invitation.id = id := hredeems
            simp [Phase.locks, AcceptStage.locks, hid]
        | _ => cases hredeems
    | _ => cases hredeems
  · intro payload invitation hfound hpending hunexpired hfresh _
    constructor
    · rintro ⟨state', ⟨user, created, haccept⟩, -⟩
      exact (ends_accept_iff.mp haccept).1.unique
    · rintro ⟨hnone, hcompletes⟩
      obtain ⟨user, created, hpasses⟩ := passes_of_free payload hinv.committed.2 hfound hpending
        hunexpired hfresh hnone hcompletes
      obtain ⟨db', hcommit⟩ := hpasses.commit hfresh
      exact ⟨s.committed.commit db', ⟨user, created, ends_accept_iff.mpr
        ⟨hpasses, db', hcommit, rfl⟩⟩, joined_of_commit hinv.committed.2.access hpasses hcommit⟩

/-- A shop with one clerk. -/
def shop : MembersDb :=
  { oneClerk with users := ⟨[⟨2, "a@example.com", "A"⟩], List.nodup_singleton _⟩ }

theorem shop_whole : shop.Whole where
  access := oneClerk_consistent
  invited := List.forall_mem_nil _
  opened := List.forall_mem_nil _
  user := by decide

/-- The clerk invites someone. -/
def invited (id : Uuid) (tokenHash : String) (now : Time) : List (TxAction Request Choice) :=
  [.begin 1 (.invite ⟨1, 1, 2, {10}, {"sales.read"}, none⟩ ⟨"b@example.com", 10, id, tokenHash, now⟩),
   .run 1 .next, .run 1 .next, .run 1 .next, .run 1 .next, .finish 1]

/-- Who was invited once joins. -/
theorem invitation_redemption_first : ∃ s invitation, (protocol ⟨∅, 7⟩).Reaches
    (Protocol.init (.initial shop)) s ∧ s.committed.db.getByToken "t" = some invitation ∧
      ∃ state', s.committed.Accepts ⟨∅, 7⟩ ⟨"t", some "B", some "password", 5, 6, 1⟩ invitation state' ∧
        invitation.Joined state'.db := by
  have hfacts : ((invited 20 "t" 0).foldlM (protocol ⟨∅, 7⟩).step
      (Protocol.init (.initial shop))).any fun s =>
        (s.committed.db.access.memberships, s.committed.db.users.rows,
          s.committed.db.getByToken "t") =
            ([⟨1, 2, .active, 0⟩], [⟨2, "a@example.com", "A"⟩],
              some ⟨20, "b@example.com", 10, "t", 2, 604800000000, none, .pending⟩) := by
    decide +kernel
  obtain ⟨s, hreaches, hrows⟩ := Protocol.Reaches.exists_of_any _ hfacts
  simp only [Prod.mk.injEq] at hrows
  obtain ⟨hmemberships, husers, hfound⟩ := hrows
  have hnone : s.committed.db.users.get "b@example.com" = none := by
    unfold Table.get
    rw [husers]
    decide
  have hempty : s.committed.db.membershipsOf "b@example.com" = [] := by
    simp [MembersDb.membershipsOf, hnone]
  refine ⟨s, _, hreaches, hfound, ((invitation_redemption shop_whole hreaches).2
    ⟨"t", some "B", some "password", 5, 6, 1⟩ _ hfound rfl (by decide) ⟨?_, ?_⟩ ?_).mpr
      ⟨hempty, fun _ => ⟨rfl, rfl⟩⟩⟩
  · rw [hmemberships]
    decide
  · rw [husers]
    decide
  · rw [hempty]
    exact List.forall_mem_nil _

/-- The one who joined is removed, and invited again. -/
def removed : List (TxAction Request Choice) :=
  [.begin 2 (.accept ⟨"t", some "B", some "password", 5, 6, 1⟩), .run 2 .next, .run 2 .next,
   .run 2 .next, .run 2 .next, .run 2 .next, .finish 2,
   .begin 3 (.member ⟨1, 1, 2, {10}, {"sales.read"}, none⟩ (.remove 5)), .run 3 .next, .run 3 .next,
   .run 3 .next, .finish 3]

/-- The second invitation is open, and its user has only a revoked membership, but it cannot be
accepted. -/
theorem rejoin_refused :
    ¬∀ s, (protocol ⟨∅, 7⟩).Reaches (Protocol.init (.initial shop)) s →
      ∀ payload invitation, s.committed.db.getByToken payload.tokenHash = some invitation →
        invitation.status = .pending → payload.now < invitation.expiresAt →
        payload.Fresh s.committed.db → payload.Completes s.committed.db invitation.email →
        (∀ m ∈ s.committed.db.membershipsOf invitation.email, m.status = .revoked) →
        ∃ state', s.committed.Accepts ⟨∅, 7⟩ payload invitation state' ∧
          invitation.Joined state'.db := by
  intro hall
  have hfacts : ((invited 20 "t" 0 ++ removed ++ invited 21 "u" 2).foldlM (protocol ⟨∅, 7⟩).step
      (Protocol.init (.initial shop))).any fun s =>
        (s.committed.db.access.memberships, s.committed.db.users.rows,
          s.committed.db.getByToken "u", s.committed.db.membershipsOf "b@example.com") =
            ([⟨1, 2, .active, 0⟩, ⟨5, 6, .revoked, 1⟩],
              [⟨2, "a@example.com", "A"⟩, ⟨6, "b@example.com", "B"⟩],
              some ⟨21, "b@example.com", 10, "u", 2, 604800000002, none, .pending⟩,
              [⟨5, 6, .revoked, 1⟩]) := by
    decide +kernel
  obtain ⟨s, hreaches, hrows⟩ := Protocol.Reaches.exists_of_any _ hfacts
  simp only [Prod.mk.injEq] at hrows
  obtain ⟨hmemberships, husers, hfound, hrevoked⟩ := hrows
  obtain ⟨state', ⟨user, created, haccept⟩, -⟩ := hall s hreaches
    ⟨"u", some "B", some "password", 7, 8, 3⟩ _ hfound rfl (by decide)
    ⟨by rw [hmemberships]; decide, by rw [husers]; decide⟩ (fun _ => ⟨rfl, rfl⟩)
    (by rw [hrevoked]; decide)
  have hnone := (ends_accept_iff.mp haccept).1.unique.1
  rw [hrevoked] at hnone
  cases hnone

end Nexora.Access
