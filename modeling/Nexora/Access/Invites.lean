import Nexora.Access.Redemption
import Mathlib.Data.Fintype.EquivFin

/-!
# Inviting into a role

A role is given away on two paths.  `update_roles` checks that the role exists, that its
permissions are among those of the actor, and that only an owner assigns `OWNER`.  `invite`
makes the first two checks and not the third, so an actor whose permissions cover those of
`OWNER` invites an owner without being one (`owner_invited`).

`invite_grants_no_more` says that this is all that the two paths differ in: the statements of
each are followed to their end by `ends_invite` and `ends_member`.
-/

namespace Nexora.Access

open Nexora Foundations

variable {settings : Settings} {mdb mdb' : MembersDb} {state state' : AccessState}
  {context : TenantContext}

/-! ## Both paths -/

/-- The actor can make some user a member with the role: `invite` returns, and after any other
requests an `accept` of that invitation returns. -/
def CanInvite (settings : Settings) (state : AccessState) (context : TenantContext)
    (roleId : Uuid) : Prop :=
  ∃ payload state₁ s accept invitation state₂, payload.roleId = roleId ∧
    (protocol settings).alone state (.invite context payload) (List.replicate 4 .next) =
      some (state₁, .invite context payload .invited) ∧
    (protocol settings).Reaches (Protocol.init state₁) s ∧
    s.committed.Accepts settings accept invitation state₂ ∧
    invitation.id = payload.invitationId ∧
    roleId ∈ state₂.db.access.getRoleIds accept.membershipId

/-- `update_roles` gives the role to a member, and returns. -/
def CanAssign (settings : Settings) (state : AccessState) (context : TenantContext)
    (target roleId : Uuid) : Prop :=
  ∃ state' record, (protocol settings).alone state (.member context (.updateRoles target {roleId}))
    (List.replicate 7 .next ++ [.row roleId]) =
      some (state', .member context (.updateRoles target {roleId}) (.insert record [] [roleId]))

/-! ## Statements -/

theorem ends_invite {payload payload' : InvitationCreate} {context' : TenantContext}
    {stage stage' : InviteStage} {choices : List Choice} :
    (protocol settings).ends state (.invite context payload stage) (.next :: choices) =
        some (state', .invite context' payload' stage') ↔
      ∃ next, stage.step settings state.db context payload = some (.ok next) ∧
        (protocol settings).ends state (.invite context payload next) choices =
          some (state', .invite context' payload' stage') :=
  ends_cons rfl nofun

theorem ends_member {request request' : MemberRequest} {context' : TenantContext}
    {stage stage' : MemberStage} {choice : Choice} {choices : List Choice} :
    (protocol settings).ends state (.member context request stage) (choice :: choices) =
        some (state', .member context' request' stage') ↔
      ∃ next, stage.step state.db.access context request choice = some (.ok next) ∧
        (protocol settings).ends state (.member context request next) choices =
          some (state', .member context' request' stage') :=
  ends_cons rfl nofun

/-- What `invite` has checked when it returns. -/
theorem granted_of_invite {payload : InvitationCreate}
    (h : (protocol settings).alone state (.invite context payload) (List.replicate 4 .next) =
      some (state', .invite context payload .invited)) :
    state.db.access.hasRole payload.roleId = true ∧
      state.db.access.rolePermissionCodes payload.roleId ⊆ context.permissions := by
  obtain ⟨_, hrole, h⟩ := ends_invite.mp h
  simp only [InviteStage.step] at hrole
  split at hrole
  next hhas =>
    cases hrole
    obtain ⟨_, hgranted, -⟩ := ends_invite.mp h
    simp only [InviteStage.step] at hgranted
    split at hgranted
    next hsubset => exact ⟨hhas, hsubset⟩
    next => cases hgranted
  next => cases hrole

/-- An invitation to an address and with a token that are new goes through. -/
theorem alone_invite (settings : Settings) (state : AccessState) (payload : InvitationCreate)
    (hrole : state.db.access.hasRole payload.roleId = true)
    (hsubset : state.db.access.rolePermissionCodes payload.roleId ⊆ context.permissions)
    (hemail : ∀ user ∈ state.db.users.rows, user.email ≠ payload.email)
    (hfresh : ∀ row ∈ state.db.invitations.rows, row.id ≠ payload.invitationId ∧
      row.tokenHash ≠ payload.tokenHash ∧ row.email ≠ payload.email) :
    ∃ invitations, invitations.rows = state.db.invitations.rows ++ [payload.row settings context] ∧
      (protocol settings).alone state (.invite context payload) (List.replicate 4 .next) =
        some (state.commit { state.db with invitations := invitations },
          .invite context payload .invited) := by
  obtain ⟨invitations, hinsert⟩ := Table.insert_of_fresh (t := state.db.invitations)
    (r := payload.row settings context)
    (Table.get_eq_none.mpr fun row hrow => (hfresh row hrow).1)
  have hfree : (state.db.invitations.rows.any fun row =>
      row.tokenHash = (payload.row settings context).tokenHash ||
        (row.acceptedAt = none && row.status = .pending &&
          row.email = (payload.row settings context).email)) = false := by
    rw [List.any_eq_false]
    intro row hrow
    obtain ⟨-, htoken, hemail⟩ := hfresh row hrow
    simp [InvitationCreate.row, htoken, hemail]
  have hadd : state.db.addInvitation (payload.row settings context) =
      some { state.db with invitations := invitations } := by
    simp [MembersDb.addInvitation, hfree, hinsert]
  have hmembers : payload.email ∉ state.db.memberEmails := by
    intro hmem
    obtain ⟨user, huser, heq⟩ := List.mem_map.mp hmem
    exact hemail user (List.mem_filter.mp huser).1 heq
  refine ⟨invitations, (Table.insert_eq_some hinsert).1, ?_⟩
  refine ends_invite.mpr ⟨.granted, by simp [InviteStage.step, hrole], ?_⟩
  refine ends_invite.mpr ⟨.emails, by simp [InviteStage.step, hsubset], ?_⟩
  refine ends_invite.mpr ⟨.insert, by simp [InviteStage.step, hmembers], ?_⟩
  refine ends_invite.mpr ⟨.invited, by simp [InviteStage.step, hadd, hrole], ?_⟩
  have hends : ∀ phase, (protocol settings).ends state phase (List.replicate 0 .next) =
      (finish settings state phase).map fun s => (s, phase) := fun _ => rfl
  have hfinish : finish settings state (.invite context payload .invited) =
      some (state.commit { state.db with invitations := invitations }) := by
    simp only [finish, Phase.commit, InviteStage.commit, hadd, Option.map_some]
  rw [hends, hfinish]
  rfl

theorem step_check {request : MemberRequest} {record : MemberRecord} {first : MemberCheck}
    {todo : List MemberCheck} {next : MemberStage} :
    (MemberStage.check record (first :: todo)).step mdb.access context request .next =
        some (.ok next) ↔
      request.runCheck mdb.access context record first = .ok () ∧ next = .check record todo := by
  simp only [MemberStage.step]
  split
  next e he => simp [he]
  next he => simp [he, eq_comm]

/-! ## The checks of an assignment -/

section Checks

variable {db : AccessDb} {record : MemberRecord} {target roleId : Uuid}

theorem runCheck_roles :
    (MemberRequest.updateRoles target {roleId}).runCheck db context record .roles = .ok () ↔
      db.hasRole roleId = true := by
  have hexisting : db.existingRoles {roleId} = {roleId} ↔ db.hasRole roleId = true := by
    rw [AccessDb.existingRoles, Finset.filter_eq_self]
    simp [AccessDb.hasRole]
  unfold MemberRequest.runCheck
  rw [ite_error_eq_ok, not_not]
  simpa [MemberRequest.roleIds] using hexisting

theorem runCheck_permissions :
    (MemberRequest.updateRoles target {roleId}).runCheck db context record .permissions = .ok () ↔
      db.rolePermissionCodes roleId ⊆ context.permissions := by
  unfold MemberRequest.runCheck
  rw [ite_error_eq_ok, not_not]
  simp [MemberRequest.roleIds, AccessDb.rolePermissionCodes]

theorem runCheck_owner :
    (MemberRequest.updateRoles target {roleId}).runCheck db context record .owner = .ok () ↔
      (db.ownerRoleId = some roleId → roleId ∈ context.roleIds) := by
  unfold MemberRequest.runCheck
  rw [ite_error_eq_ok]
  cases howner : db.ownerRoleId with
  | none => simp
  | some owner =>
      by_cases heq : owner = roleId
      · subst heq
        simp [MemberRequest.roleIds]
      · simp [MemberRequest.roleIds, heq]

/-- The target keeps `OWNER`, never had it, or is not the last to have it. -/
def SparesOwner (db : AccessDb) (record : MemberRecord) (roleId : Uuid) : Prop :=
  record.isActiveOwner db.ownerRoleId = true →
    db.ownerRoleId = some roleId ∨ 1 < db.activeOwnerCount

theorem runCheck_lastOwner (hspares : SparesOwner db record roleId) :
    (MemberRequest.updateRoles target {roleId}).runCheck db context record .lastOwner = .ok () := by
  have htakes : ¬(MemberRequest.updateRoles target {roleId}).takesOwner db.ownerRoleId record =
      true ∨ 1 < db.activeOwnerCount := by
    simp only [MemberRequest.takesOwner, Bool.and_eq_true, not_and]
    by_cases howner : record.isActiveOwner db.ownerRoleId = true
    · exact (hspares howner).imp (fun hsame _ => by simp [hsame]) id
    · exact .inl fun h => absurd h howner
  unfold MemberRequest.runCheck
  rcases htakes with hkeeps | hcount
  · exact if_neg hkeeps
  · have hanother : db.requireAnotherOwner = .ok () := if_neg (Nat.not_le.mpr hcount)
    rw [hanother, ite_self]

end Checks

/-- When an assignment that takes no last owner away goes through. -/
theorem canAssign_iff (state : AccessState) {target roleId : Uuid} {record : MemberRecord}
    (hrecord : state.db.access.record target = some record) (hne : target ≠ context.membershipId)
    (hspares : SparesOwner state.db.access record roleId) :
    CanAssign settings state context target roleId ↔
      state.db.access.hasRole roleId = true ∧
        state.db.access.rolePermissionCodes roleId ⊆ context.permissions ∧
        (state.db.access.ownerRoleId = some roleId → roleId ∈ context.roleIds) := by
  obtain ⟨m, hmember, rfl⟩ := Option.map_eq_some_iff.mp hrecord
  have hid := state.db.access.member_id hmember
  have hstart : start (.member context (.updateRoles target {roleId})) =
      .member context (.updateRoles target {roleId}) .lock := by
    simp [start, MemberRequest.accept, hne]
  have halone : (protocol settings).alone state (.member context (.updateRoles target {roleId}))
      (List.replicate 7 .next ++ [.row roleId]) =
        (protocol settings).ends state (.member context (.updateRoles target {roleId}) .lock)
          (List.replicate 7 .next ++ [.row roleId]) := by
    show (protocol settings).ends state
      (start (.member context (.updateRoles target {roleId}))) _ = _
    rw [hstart]
  have hlock : MemberStage.lock.step state.db.access context (.updateRoles target {roleId}) .next =
      some (.ok (.readRoles m)) := by
    simp [MemberStage.step, MemberRequest.target, hmember]
  have hread : (MemberStage.readRoles m).step state.db.access context
      (.updateRoles target {roleId}) .next =
        some (.ok (.check ⟨m, state.db.access.getRoleIds target⟩
          [.roles, .permissions, .owner, .lastOwner])) := by
    simp [MemberStage.step, MemberRequest.checks, hid]
  constructor
  · rintro ⟨state', record', h⟩
    rw [halone] at h
    obtain ⟨_, hnext, h⟩ := ends_member.mp h
    cases hlock.symm.trans hnext
    obtain ⟨_, hnext, h⟩ := ends_member.mp h
    cases hread.symm.trans hnext
    obtain ⟨_, hnext, h⟩ := ends_member.mp h
    obtain ⟨hroles, rfl⟩ := step_check.mp hnext
    obtain ⟨_, hnext, h⟩ := ends_member.mp h
    obtain ⟨hpermissions, rfl⟩ := step_check.mp hnext
    obtain ⟨_, hnext, h⟩ := ends_member.mp h
    obtain ⟨howner, rfl⟩ := step_check.mp hnext
    exact ⟨runCheck_roles.mp hroles, runCheck_permissions.mp hpermissions,
      runCheck_owner.mp howner⟩
  · rintro ⟨hrole, hsubset, howner⟩
    let record : MemberRecord := ⟨m, state.db.access.getRoleIds target⟩
    let access := (MemberRequest.updateRoles target {roleId}).write state.db.access record
    refine ⟨state.commit { state.db with access := access }, record, ?_⟩
    rw [halone]
    refine ends_member.mpr ⟨_, hlock, ends_member.mpr ⟨_, hread, ?_⟩⟩
    refine ends_member.mpr ⟨_, step_check.mpr ⟨runCheck_roles.mpr hrole, rfl⟩, ?_⟩
    refine ends_member.mpr ⟨_, step_check.mpr ⟨runCheck_permissions.mpr hsubset, rfl⟩, ?_⟩
    refine ends_member.mpr ⟨_, step_check.mpr ⟨runCheck_owner.mpr howner, rfl⟩, ?_⟩
    refine ends_member.mpr ⟨_, step_check.mpr ⟨runCheck_lastOwner hspares, rfl⟩, ?_⟩
    refine ends_member.mpr ⟨.insert ⟨m, state.db.access.getRoleIds target⟩ [roleId] [],
      by simp [MemberStage.step], ?_⟩
    exact ends_member.mpr ⟨.insert ⟨m, state.db.access.getRoleIds target⟩ [] [roleId],
      by simp [MemberStage.step, hrole], rfl⟩

/-! ## The comparison -/

/-- There is always something new. -/
theorem exists_fresh {α : Type} [DecidableEq α] [Infinite α] (l : List α) : ∃ a, a ∉ l := by
  obtain ⟨a, ha⟩ := Infinite.exists_notMem_finset l.toFinset
  exact ⟨a, by simpa using ha⟩

/-- Whoever holds the permissions of a role can make someone a member with it. -/
theorem canInvite_of_permissions {roleId : Uuid} (hdb : mdb.Whole)
    (hrole : mdb.access.hasRole roleId = true)
    (hsubset : mdb.access.rolePermissionCodes roleId ⊆ context.permissions) :
    CanInvite settings (.initial mdb) context roleId := by
  obtain ⟨email, hemail⟩ := exists_fresh
    (mdb.users.rows.map User.email ++ mdb.invitations.rows.map Invitation.email)
  obtain ⟨tokenHash, htoken⟩ := exists_fresh (mdb.invitations.rows.map Invitation.tokenHash)
  obtain ⟨invitationId, hid⟩ := exists_fresh (mdb.invitations.rows.map Invitation.id)
  obtain ⟨membershipId, hmembership⟩ := exists_fresh (mdb.access.memberships.map Membership.id)
  obtain ⟨userId, huser⟩ := exists_fresh (mdb.users.rows.map User.id)
  simp only [List.mem_append, List.mem_map, not_or, not_exists, not_and] at hemail htoken hid
  simp only [List.mem_map, not_exists, not_and] at hmembership huser
  let payload : InvitationCreate := ⟨email, roleId, invitationId, tokenHash, 0⟩
  obtain ⟨invitations, hrows, hinvite⟩ := alone_invite settings (.initial mdb) payload hrole hsubset
    hemail.1 fun row hrow => ⟨hid row hrow, htoken row hrow, hemail.2 row hrow⟩
  have hreaches := Protocol.Reaches.alone hinvite
  -- Someone without an account accepts it a microsecond before it expires.
  have hwhole := ((sound_redemption settings).runs hreaches
    (.init ⟨coherent_initial hdb.access, hdb⟩)).committed.2
  let accept : InvitationAccept :=
    { tokenHash := tokenHash, fullName := some "name", password := some "password"
      membershipId := membershipId, userId := userId, now := settings.expiry 0 - 1 }
  have hfound : ({ mdb with invitations := invitations } : MembersDb).getByToken tokenHash =
      some (payload.row settings context) := by
    unfold MembersDb.getByToken
    rw [hrows, List.find?_append, List.find?_eq_none.mpr fun row hrow => by simpa using htoken row hrow]
    simp [InvitationCreate.row, payload]
  have hnone : mdb.users.get email = none := Table.get_eq_none.mpr hemail.1
  have hempty : ({ mdb with invitations := invitations } : MembersDb).membershipsOf email = [] := by
    simp only [MembersDb.membershipsOf, hnone]
  have hunexpired : settings.expiry 0 - 1 < settings.expiry 0 := Int.sub_lt_self _ Int.one_pos
  obtain ⟨user, created, hpasses⟩ := passes_of_free accept hwhole hfound rfl hunexpired
    ⟨hmembership, huser⟩ hempty fun _ => ⟨rfl, rfl⟩
  obtain ⟨db, hcommit⟩ := hpasses.commit ⟨hmembership, huser⟩
  refine ⟨payload, _, _, accept, _, _, rfl, hinvite, .refl _,
    ⟨user, created, ends_accept_iff.mpr ⟨hpasses, db, hcommit, rfl⟩⟩, rfl, ?_⟩
  obtain ⟨access, users, -, -, rfl⟩ := accepted_eq_some hcommit
  exact AccessDb.mem_getRoleIds.mpr (List.mem_append_right _ (List.mem_singleton_self _))

theorem hasRole_of_ownerRoleId {db : AccessDb} {roleId : Uuid} (h : db.ownerRoleId = some roleId) :
    db.hasRole roleId = true := by
  obtain ⟨role, hfound, rfl⟩ := Option.map_eq_some_iff.mp h
  exact List.any_eq_true.mpr ⟨role, List.mem_of_find?_eq_some hfound, by simp⟩

/-- For every actor, every role and every other member that is not the last owner: whoever can
make someone a member with the role by an invitation could give it to that member, exactly when
the role is not `OWNER`, or the actor has it, or the actor lacks one of its permissions. -/
theorem invite_grants_no_more {settings : Settings} {db : MembersDb} (hdb : db.Whole)
    {context : TenantContext} {target roleId : Uuid} {record : MemberRecord}
    (hrecord : db.access.record target = some record) (hne : target ≠ context.membershipId)
    (hspares : SparesOwner db.access record roleId) :
    (CanInvite settings (.initial db) context roleId →
        CanAssign settings (.initial db) context target roleId) ↔
      (db.access.ownerRoleId = some roleId →
        roleId ∈ context.roleIds ∨ ¬db.access.rolePermissionCodes roleId ⊆ context.permissions) := by
  rw [canAssign_iff (.initial db) hrecord hne hspares]
  constructor
  · intro himp howner
    by_cases hsubset : db.access.rolePermissionCodes roleId ⊆ context.permissions
    · have hrole := hasRole_of_ownerRoleId howner
      exact .inl ((himp (canInvite_of_permissions hdb hrole hsubset)).2.2 howner)
    · exact .inr hsubset
  · rintro hcondition ⟨payload, state₁, s, accept, invitation, state₂, rfl, hinvite, -⟩
    obtain ⟨hrole, hsubset⟩ := granted_of_invite hinvite
    exact ⟨hrole, hsubset, fun howner => (hcondition howner).resolve_right (not_not.mpr hsubset)⟩

/-- An owner, a deputy with the same permissions, and a clerk. -/
def deputized : MembersDb where
  access :=
    { tenantId := 1, branches := []
      memberships := [⟨1, 11, .active, 0⟩, ⟨2, 12, .active, 0⟩, ⟨3, 13, .active, 0⟩]
      memberships_nodup := by decide
      membershipBranches := []
      membershipRoles := [(1, 10), (2, 20), (3, 30)]
      roles := [⟨10, "OWNER", "Owner", true⟩, ⟨20, "DEPUTY", "Deputy", false⟩,
        ⟨30, "CLERK", "Clerk", false⟩]
      systemRoles_nodup := by decide
      rolePermissions := [(10, "members.invite"), (10, "members.update"), (20, "members.invite"),
        (20, "members.update")] }
  users := ⟨[⟨11, "a@example.com", "A"⟩, ⟨12, "b@example.com", "B"⟩, ⟨13, "c@example.com", "C"⟩],
    by decide⟩
  invitations := .empty _

/-- The deputy of `deputized`. -/
def deputy : TenantContext := ⟨1, 2, 12, {20}, {"members.invite", "members.update"}, none⟩

theorem deputized_whole : deputized.Whole where
  access := by
    constructor
    · intro id roleId hmem
      have hpair : ∀ p ∈ deputized.access.membershipRoles, deputized.access.member p.1 ≠ none := by
        decide
      exact hpair _ hmem
    · intro id roleId hmem
      have hpair : ∀ p ∈ deputized.access.membershipRoles,
          deputized.access.hasRole p.2 = true := by
        decide
      exact hpair _ hmem
  invited := List.forall_mem_nil _
  opened := List.forall_mem_nil _
  user := by decide

/-- The deputy can invite a deputy, and make the clerk one. -/
theorem invite_grants_no_more_deputy :
    CanInvite ⟨∅, 7⟩ (.initial deputized) deputy 20 ∧
      CanAssign ⟨∅, 7⟩ (.initial deputized) deputy 3 20 := by
  have hinvite : CanInvite ⟨∅, 7⟩ (.initial deputized) deputy 20 :=
    canInvite_of_permissions deputized_whole (by decide) (by decide)
  have hrecord : deputized.access.record 3 = some ⟨⟨3, 13, .active, 0⟩, {30}⟩ := by decide
  have hspares : SparesOwner deputized.access ⟨⟨3, 13, .active, 0⟩, {30}⟩ 20 :=
    fun howner => absurd howner (by decide)
  exact ⟨hinvite, (invite_grants_no_more deputized_whole hrecord (by decide) hspares).mpr
    (fun howner => absurd howner (by decide)) hinvite⟩

/-- The deputy can make someone an owner by an invitation, but cannot make the clerk one. -/
theorem owner_invited :
    ¬∀ (db : MembersDb) (context : TenantContext) (target roleId : Uuid) (record : MemberRecord),
      db.Whole → db.access.record target = some record → target ≠ context.membershipId →
        SparesOwner db.access record roleId → CanInvite ⟨∅, 7⟩ (.initial db) context roleId →
          CanAssign ⟨∅, 7⟩ (.initial db) context target roleId := by
  intro hall
  have hrecord : deputized.access.record 3 = some ⟨⟨3, 13, .active, 0⟩, {30}⟩ := by decide
  have hspares : SparesOwner deputized.access ⟨⟨3, 13, .active, 0⟩, {30}⟩ 10 :=
    fun _ => .inl (by decide)
  have hassign := hall deputized deputy 3 10 _ deputized_whole hrecord (by decide) hspares
    (canInvite_of_permissions deputized_whole (by decide) (by decide))
  have howner := ((canAssign_iff (.initial deputized) hrecord (by decide) hspares).mp hassign).2.2 (by decide)
  exact absurd howner (by decide)

end Nexora.Access
