import Nexora.Access.Escalation

/-!
# Containment of branch scope

`update_branches` gives a member branches, and lets a restricted actor give only branches that
it has itself, and never none of them, since no rows mean every branch
(`_require_grantable_branches`).

The requests of `Request` give no branches.  But `accept` makes a membership, and a membership
that was just made has no rows: it is unrestricted, also when the one who invited was not
(`unrestricted_joined`).  `scopes_contained` says that apart from accepted invitations, and from
changes to members who are outside of the scope already, restricted actors leave every member
they touch within their own scope.
-/

namespace Nexora.Access

open Nexora Foundations

variable {settings : Settings} {mdb mdb' : MembersDb}

/-! ## The requests -/

/-- What `replace_branches` leaves in the table. -/
def AccessDb.replaceBranches (db : AccessDb) (membershipId : Uuid) (branchIds : Finset Uuid) :
    AccessDb :=
  { db with membershipBranches :=
      db.membershipBranches.filter (·.1 ≠ membershipId) ++
        branchIds.sort.map fun b => (membershipId, b) }

inductive ScopeRequest where
  | access (request : Request)
  | updateBranches (context : TenantContext) (membershipId : Uuid) (branchIds : Finset Uuid)

inductive BranchesStage where
  | lock
  | check
  | checked

/-- The statements of `update_branches`. -/
def BranchesStage.step (db : AccessDb) (membershipId : Uuid) (branchIds : Finset Uuid) :
    BranchesStage → Option (Except Err BranchesStage)
  | .lock =>
      match db.member membershipId with
      | none => some (.error .notFound)
      | some _ => some (.ok .check)
  | .check =>
      if db.activeBranchIds branchIds ≠ branchIds then
        some (.error (.domainValidation "VALIDATION_ERROR"
          "One or more branches are invalid or inactive."))
      else some (.ok .checked)
  | .checked => none

inductive ScopePhase where
  | access (phase : Phase)
  | updateBranches (context : TenantContext) (membershipId : Uuid) (branchIds : Finset Uuid)
      (stage : BranchesStage)

/-- The access tables, with the memberships that were made or changed so far. -/
structure ScopeState where
  access : AccessState
  edited : List Uuid

def ScopeState.db (state : ScopeState) : AccessDb := state.access.db.access

/-- What `update_branches` raises before its transaction. -/
def acceptBranches (context : TenantContext) (membershipId : Uuid) (branchIds : Finset Uuid) :
    Except Err Unit :=
  if membershipId = context.membershipId then
    .error (.permissionDenied "CANNOT_MODIFY_OWN_BRANCHES"
      "You cannot modify your own branch access.")
  else requireGrantableBranches context branchIds

def ScopePhase.start : ScopeRequest → ScopePhase
  | .access request => .access (Access.start request)
  | .updateBranches context membershipId branchIds =>
      match acceptBranches context membershipId branchIds with
      | .error e => .access (.raised e)
      | .ok () => .updateBranches context membershipId branchIds .lock

/-- The next stage, or the error that was raised. -/
def ScopePhase.next (context : TenantContext) (membershipId : Uuid) (branchIds : Finset Uuid) :
    Except Err BranchesStage → ScopePhase
  | .ok stage => .updateBranches context membershipId branchIds stage
  | .error e => .access (.raised e)

def ScopePhase.run (settings : Settings) (state : ScopeState) :
    ScopePhase → Choice → Option (ScopeState × ScopePhase)
  | .access phase, choice =>
      (Access.run settings state.access phase choice).map fun out =>
        ({ state with access := out.1 }, .access out.2)
  | .updateBranches context membershipId branchIds stage, .next =>
      (stage.step state.db membershipId branchIds).map fun out =>
        (state, .next context membershipId branchIds out)
  | .updateBranches _ _ _ _, .row _ => none

/-- The memberships that a transaction makes or changes.  `remove` leaves a revoked one as it
is. -/
def Phase.edits : Phase → List Uuid
  | .member _ (.remove target) (.check record _) =>
      if record.membership.status = .revoked then [] else [target]
  | .member _ request _ => [request.target]
  | .accept payload (.accepted _ _ _) => [payload.membershipId]
  | _ => []

def ScopePhase.finish (settings : Settings) (state : ScopeState) : ScopePhase → Option ScopeState
  | .access phase =>
      (Access.finish settings state.access phase).map fun access =>
        { access := access, edited := state.edited ++ phase.edits }
  | .updateBranches _ membershipId branchIds .checked =>
      let db := { state.access.db with access := state.db.replaceBranches membershipId branchIds }
      some { access := state.access.commit db, edited := state.edited ++ [membershipId] }
  | .updateBranches _ _ _ _ => none

def ScopePhase.locks : ScopePhase → List (Row × LockMode)
  | .access phase => phase.locks
  | .updateBranches _ _ _ .lock => []
  | .updateBranches _ membershipId _ _ => [(.membership membershipId, .update)]

/-- The requests of members and invitations, `update_branches` included. -/
def scopeProtocol (settings : Settings) :
    Protocol ScopeState ScopeRequest ScopePhase Choice Row where
  start _ request := .start request
  run := ScopePhase.run settings
  finish := ScopePhase.finish settings
  locks := ScopePhase.locks

theorem step_lock {db : AccessDb} {membershipId : Uuid} {branchIds : Finset Uuid} :
    BranchesStage.lock.step db membershipId branchIds = some (.ok .check) ↔
      ¬db.memberships.all (·.id ≠ membershipId) = true := by
  have hall : db.memberships.all (·.id ≠ membershipId) = true ↔ db.member membershipId = none := by
    simp [AccessDb.member, List.find?_eq_none]
  rw [hall]
  simp only [BranchesStage.step]
  split
  next hnone => simp [hnone]
  next m hm => simp [hm]

theorem step_checkBranches {db : AccessDb} {membershipId : Uuid} {branchIds : Finset Uuid} :
    BranchesStage.check.step db membershipId branchIds = some (.ok .checked) ↔
      db.activeBranchIds branchIds = branchIds := by
  simp only [BranchesStage.step]
  split
  next hne => simp [hne]
  next heq => simpa using heq

/-- The statements, one after the other, are `update_branches`. -/
theorem updateBranches_eq {db db' : AccessDb} {context : TenantContext} {membershipId : Uuid}
    {branchIds : Finset Uuid} :
    db.updateBranches context membershipId branchIds = .ok (db', ()) ↔
      acceptBranches context membershipId branchIds = .ok () ∧
        BranchesStage.lock.step db membershipId branchIds = some (.ok .check) ∧
        BranchesStage.check.step db membershipId branchIds = some (.ok .checked) ∧
        db' = db.replaceBranches membershipId branchIds := by
  unfold AccessDb.updateBranches acceptBranches
  rw [ite_error_eq_ok, ite_error_eq_ok, bind_eq_ok, step_lock, step_checkBranches]
  constructor
  · rintro ⟨hother, _, hgrantable, h⟩
    obtain ⟨hfound, h⟩ := ite_error_eq_ok.mp h
    obtain ⟨hactive, h⟩ := ite_error_eq_ok.mp h
    cases h
    exact ⟨⟨hother, hgrantable⟩, hfound, not_not.mp hactive, rfl⟩
  · rintro ⟨⟨hother, hgrantable⟩, hfound, hactive, rfl⟩
    exact ⟨hother, (), hgrantable, ite_error_eq_ok.mpr ⟨hfound,
      ite_error_eq_ok.mpr ⟨not_not.mpr hactive, rfl⟩⟩⟩

/-! ## Scopes -/

/-- The membership is restricted, to branches of `S`. -/
def AccessDb.Within (db : AccessDb) (S : Finset Uuid) (membershipId : Uuid) : Prop :=
  ∃ scope ⊆ S, db.getBranchScope membershipId = some scope

/-- What scopes are read from stays. -/
structure SameScopes (db db' : AccessDb) : Prop where
  branches : db'.branches = db.branches
  rows : db'.membershipBranches = db.membershipBranches

theorem SameScopes.refl (db : AccessDb) : SameScopes db db := ⟨rfl, rfl⟩

theorem SameScopes.getBranchScope {db db' : AccessDb} (h : SameScopes db db') (id : Uuid) :
    db'.getBranchScope id = db.getBranchScope id := by
  unfold AccessDb.getBranchScope AccessDb.scopeValues
  rw [h.branches, h.rows]

theorem SameScopes.within {db db' : AccessDb} (h : SameScopes db db') {S : Finset Uuid} {id : Uuid} :
    db'.Within S id ↔ db.Within S id := by
  unfold AccessDb.Within
  rw [h.getBranchScope]

theorem sameScopes_write {db : AccessDb} (record : MemberRecord) (request : MemberRequest) :
    SameScopes db (request.write db record) := by
  cases request with
  | updateRoles target roleIds => exact ⟨rfl, rfl⟩
  | updateStatus target status => exact ⟨rfl, rfl⟩
  | remove target =>
      simp only [MemberRequest.write]
      split
      · exact .refl db
      · exact ⟨rfl, rfl⟩

theorem sameScopes_rename {db db' : AccessDb} (h : SameScopes db db') (payload : RoleUpdate)
    (roleId : Uuid) : SameScopes db (payload.rename db' roleId) := by
  unfold RoleUpdate.rename
  split
  · exact h
  · exact ⟨h.branches, h.rows⟩

/-- The requests of `Request` give no branches. -/
theorem Phase.sameScopes {phase : Phase} (hcommit : phase.commit settings mdb = some mdb') :
    SameScopes mdb.access mdb'.access := by
  cases phase with
  | member context request stage =>
      obtain ⟨access, hwrite, rfl⟩ := Option.map_eq_some_iff.mp hcommit
      cases stage with
      | check record todo =>
          cases todo with
          | cons first todo => cases hwrite
          | nil =>
              cases request with
              | updateRoles target roleIds => cases hwrite
              | updateStatus target status =>
                  cases hwrite
                  exact sameScopes_write record (.updateStatus target status)
              | remove target =>
                  cases hwrite
                  exact sameScopes_write record (.remove target)
      | insert record todo inserted =>
          cases todo with
          | cons first todo => cases hwrite
          | nil =>
              cases hwrite
              exact sameScopes_write record request
      | _ => cases hwrite
  | role context stage =>
      obtain ⟨access, hwrite, rfl⟩ := Option.map_eq_some_iff.mp hcommit
      cases stage with
      | created roleId payload =>
          obtain ⟨added, hadd, rfl⟩ := Option.map_eq_some_iff.mp hwrite
          unfold AccessDb.addRole at hadd
          split at hadd
          · cases hadd
          · cases hadd
            exact ⟨rfl, rfl⟩
      | bumping role payload codes todo bumped =>
          cases todo with
          | cons first todo => cases hwrite
          | nil =>
              cases hwrite
              have hbumped : SameScopes mdb.access
                  ((mdb.access.replacePermissions role.id codes).bumpMemberships bumped) :=
                ⟨rfl, rfl⟩
              exact sameScopes_rename hbumped payload role.id
      | renamed role payload codes =>
          cases hwrite
          exact sameScopes_rename (.refl _) payload role.id
      | deleteRow role =>
          simp only [RoleStage.commit] at hwrite
          split at hwrite
          · cases hwrite
          · cases hwrite
            exact ⟨rfl, rfl⟩
      | _ => cases hwrite
  | invite context payload stage =>
      cases stage with
      | invited =>
          simp only [Phase.commit, InviteStage.commit, MembersDb.addInvitation] at hcommit
          split at hcommit
          · cases hcommit
          · obtain ⟨invitations, -, rfl⟩ := Option.map_eq_some_iff.mp hcommit
            exact .refl _
      | _ => cases hcommit
  | accept payload stage =>
      cases stage with
      | accepted invitation user created =>
          obtain ⟨access, users, hadd, -, rfl⟩ := accepted_eq_some hcommit
          unfold AccessDb.addMembership at hadd
          split at hadd
          · cases hadd
            exact ⟨rfl, rfl⟩
          · cases hadd
      | _ => cases hcommit
  | changeInvitation context invitationId change stage =>
      cases stage with
      | lock => cases hcommit
      | locked invitation =>
          simp only [Phase.commit, ChangeStage.commit] at hcommit
          split at hcommit
          · cases hcommit
            exact .refl _
          · cases hcommit
  | _ => cases hcommit

/-- The end of a request of `Request` leaves the scopes as they are. -/
theorem sameScopes_finish {state state' : AccessState} {phase : Phase}
    (hfinish : finish settings state phase = some state') :
    SameScopes state.db.access state'.db.access := by
  rcases finish_cases hfinish with ⟨db, hcommit, rfl⟩ | ⟨reading, context, rfl, rfl⟩ |
    ⟨id, version, rfl, rfl⟩ | rfl
  · exact Phase.sameScopes hcommit
  · exact .refl _
  · exact .refl _
  · exact .refl _

/-- The scope of a membership that was given active branches. -/
theorem getBranchScope_replaceBranches {db : AccessDb} {membershipId : Uuid}
    {branchIds : Finset Uuid} (hactive : db.activeBranchIds branchIds = branchIds)
    (hne : branchIds ≠ ∅) :
    (db.replaceBranches membershipId branchIds).getBranchScope membershipId = some branchIds := by
  have hvalues : (db.replaceBranches membershipId branchIds).scopeValues membershipId = branchIds := by
    ext b
    rw [AccessDb.mem_scopeValues]
    constructor
    · rintro ⟨hrow, -⟩
      simpa using AccessDb.mem_rows_updateBranches.mp hrow
    · intro hb
      refine ⟨AccessDb.mem_rows_updateBranches.mpr (by simpa using hb), ?_⟩
      rw [← hactive] at hb
      have hbranch : ∃ branch ∈ db.branches, branch.id = b ∧ branch.isActive = true := by
        simpa using (Finset.mem_filter.mp hb).2
      exact hbranch
  unfold AccessDb.getBranchScope
  rw [hvalues, if_neg hne]

theorem getBranchScope_replaceBranches_of_ne {db : AccessDb} {membershipId id : Uuid}
    {branchIds : Finset Uuid} (hne : id ≠ membershipId) :
    (db.replaceBranches membershipId branchIds).getBranchScope id = db.getBranchScope id := by
  have hvalues : (db.replaceBranches membershipId branchIds).scopeValues id = db.scopeValues id := by
    ext b
    rw [AccessDb.mem_scopeValues, AccessDb.mem_scopeValues]
    refine and_congr_left fun _ => ?_
    rw [AccessDb.replaceBranches, AccessDb.mem_rows_updateBranches, if_neg hne]
  unfold AccessDb.getBranchScope
  rw [hvalues]

/-! ## Every run -/

/-- Who makes a request that writes. -/
def ScopePhase.actor : ScopePhase → Option TenantContext
  | .access phase => phase.actor
  | .updateBranches context _ _ _ => some context

/-- The actor is restricted, to branches of `S`. -/
def Restricted (S : Finset Uuid) (phase : ScopePhase) : Prop :=
  ∀ context ∈ phase.actor, ∃ held ⊆ S, context.branchIds = some held

/-- The request accepts no invitation, and what it changes of a membership other than its
branches, it changes of one within `S`. -/
def ScopePhase.Spares (S : Finset Uuid) (state : ScopeState) : ScopePhase → Prop
  | .access (.accept _ (.accepted _ _ _)) => False
  | .access phase => ∀ id ∈ phase.edits, state.db.Within S id
  | .updateBranches _ _ _ _ => True

theorem any_subset {S : Finset Uuid} {scope : Option (Finset Uuid)} :
    scope.any (· ⊆ S) = true ↔ ∃ held ⊆ S, scope = some held := by
  cases scope with
  | none => simp
  | some held => simp

instance (db : AccessDb) (S : Finset Uuid) (id : Uuid) : Decidable (db.Within S id) :=
  decidable_of_iff _ any_subset

instance (S : Finset Uuid) (phase : ScopePhase) : Decidable (Restricted S phase) :=
  decidable_of_iff (∀ context ∈ phase.actor, context.branchIds.any (· ⊆ S) = true)
    (forall₂_congr fun _ _ => any_subset)

instance (S : Finset Uuid) (state : ScopeState) (phase : ScopePhase) :
    Decidable (phase.Spares S state) := by
  unfold ScopePhase.Spares
  split <;> infer_instance

/-- What was made or changed is within `S`. -/
def ScopesWithin (S : Finset Uuid) (state : ScopeState) : Prop :=
  ∀ id ∈ state.edited, state.db.Within S id

/-- What `update_branches` has checked. -/
def ScopePhase.Checked (db : AccessDb) : ScopePhase → Prop
  | .access _ => True
  | .updateBranches context membershipId branchIds stage =>
      acceptBranches context membershipId branchIds = .ok () ∧
        (stage = .checked → db.activeBranchIds branchIds = branchIds)

/-- A restricted actor gives branches, and only its own. -/
theorem grantable_of_accept {context : TenantContext} {membershipId : Uuid}
    {branchIds held : Finset Uuid} (hheld : context.branchIds = some held)
    (h : acceptBranches context membershipId branchIds = .ok ()) :
    branchIds ≠ ∅ ∧ branchIds ⊆ held := by
  obtain ⟨-, hgrantable⟩ := ite_error_eq_ok.mp h
  simp only [requireGrantableBranches, hheld] at hgrantable
  obtain ⟨hgranted, -⟩ := ite_error_eq_ok.mp hgrantable
  rwa [not_or, not_not] at hgranted

theorem ScopePhase.Checked.of_branches {db db' : AccessDb} {phase : ScopePhase}
    (h : phase.Checked db) (hbranches : db'.branches = db.branches) : phase.Checked db' := by
  cases phase with
  | access phase => trivial
  | updateBranches context membershipId branchIds stage =>
      refine ⟨h.1, fun hchecked => ?_⟩
      unfold AccessDb.activeBranchIds
      rw [hbranches]
      exact h.2 hchecked

/-- A statement changes no table, and `update_branches` remembers what it checked. -/
theorem ScopePhase.run_cases {state state' : ScopeState} {phase phase' : ScopePhase}
    {choice : Choice} (hphase : phase.Checked state.db)
    (hrun : ScopePhase.run settings state phase choice = some (state', phase')) :
    state'.db = state.db ∧ state'.edited = state.edited ∧ phase'.Checked state.db := by
  cases phase with
  | access phase =>
      obtain ⟨⟨access, next⟩, hnext, heq⟩ := Option.map_eq_some_iff.mp hrun
      cases heq
      exact ⟨congrArg MembersDb.access (run_tables hnext).1, rfl, trivial⟩
  | updateBranches context membershipId branchIds stage =>
      cases choice with
      | row id => cases hrun
      | next =>
          obtain ⟨out, hstep, heq⟩ := Option.map_eq_some_iff.mp hrun
          cases heq
          refine ⟨rfl, rfl, ?_⟩
          cases out with
          | error e => trivial
          | ok stage' =>
              refine ⟨hphase.1, ?_⟩
              rintro rfl
              cases stage with
              | lock =>
                  simp only [BranchesStage.step] at hstep
                  split at hstep
                  · cases hstep
                  · cases hstep
              | check => exact step_checkBranches.mp hstep
              | checked => cases hstep

theorem ScopesWithin.finish {S : Finset Uuid} {state state' : ScopeState} {phase : ScopePhase}
    (h : ScopesWithin S state) (hphase : phase.Checked state.db) (hactor : Restricted S phase)
    (hspares : phase.Spares S state) (hfinish : phase.finish settings state = some state') :
    ScopesWithin S state' ∧ state'.db.branches = state.db.branches := by
  cases phase with
  | access phase =>
      obtain ⟨access, hend, rfl⟩ := Option.map_eq_some_iff.mp hfinish
      have hsame : SameScopes state.db access.db.access := sameScopes_finish hend
      refine ⟨fun id hid => hsame.within.mpr ?_, hsame.branches⟩
      rcases List.mem_append.mp hid with hid | hid
      · exact h id hid
      · cases phase with
        | accept payload stage =>
            cases stage with
            | accepted invitation user created => exact hspares.elim
            | _ => cases hid
        | _ => exact hspares id hid
  | updateBranches context membershipId branchIds stage =>
      cases stage with
      | checked =>
          cases hfinish
          refine ⟨fun id hid => ?_, rfl⟩
          obtain ⟨held, hheld, hscope⟩ := hactor context rfl
          obtain ⟨hne, hsubset⟩ := grantable_of_accept hscope hphase.1
          by_cases heq : id = membershipId
          · subst heq
            exact ⟨branchIds, hsubset.trans hheld,
              getBranchScope_replaceBranches (hphase.2 rfl) hne⟩
          · have hold : id ∈ state.edited := by simpa [heq] using hid
            obtain ⟨scope, hscope, hget⟩ := h id hold
            exact ⟨scope, hscope, (getBranchScope_replaceBranches_of_ne heq).trans hget⟩
      | _ => cases hfinish

theorem sound_containment (settings : Settings) (S : Finset Uuid) :
    (scopeProtocol settings).Sound (fun state phase => Restricted S phase ∧ phase.Spares S state)
      (ScopesWithin S) (fun state phase => phase.Checked state.db) where
  start state request _ := by
    cases request with
    | access request => trivial
    | updateBranches context membershipId branchIds =>
        show (ScopePhase.start (.updateBranches context membershipId branchIds)).Checked state.db
        simp only [ScopePhase.start]
        split
        next => trivial
        next haccept => exact ⟨haccept, nofun⟩
  run state phase choice state' phase' h hphase hrun := by
    obtain ⟨hdb, hedited, hphase'⟩ := ScopePhase.run_cases hphase hrun
    refine ⟨?_, by rw [hdb]; exact hphase'⟩
    unfold ScopesWithin
    rw [hdb, hedited]
    exact h
  run_stable state phase choice state' phase' other _ hphase hother hrun := by
    rw [(ScopePhase.run_cases hphase hrun).1]
    exact hother
  finish state phase state' h hphase hguard hfinish :=
    (h.finish hphase hguard.1 hguard.2 hfinish).1
  finish_stable state phase state' other h hphase hguard hother _ hfinish :=
    hother.of_branches (h.finish hphase hguard.1 hguard.2 hfinish).2

/-- From any tables, and for every set of branches: in every interleaving of the requests of
members and invitations whose actors are restricted to branches of `S`, as long as no invitation
is accepted and no role or status of a membership outside of `S` is changed, every membership
that was made or changed is restricted to branches of `S`. -/
theorem scopes_contained {settings : Settings} {S : Finset Uuid} {access : AccessState}
    {s : Interleaved ScopeState ScopePhase}
    (h : (scopeProtocol settings).Runs
      (fun state phase => Restricted S phase ∧ phase.Spares S state)
      (Protocol.init ⟨access, []⟩) s) :
    ∀ id ∈ s.committed.edited, ∃ scope ⊆ S, s.committed.db.getBranchScope id = some scope :=
  ((sound_containment settings S).runs h (.init (List.forall_mem_nil _))).committed

/-- The membership that an accepted invitation makes is unrestricted. -/
theorem getBranchScope_accepted {payload : InvitationAccept} {invitation : Invitation} {user : User}
    {created : Bool} (hrows : ∀ row ∈ mdb.access.membershipBranches, mdb.access.member row.1 ≠ none)
    (hcommit : AcceptStage.commit mdb payload (.accepted invitation user created) = some mdb') :
    mdb'.access.getBranchScope payload.membershipId = none := by
  have hcommit' : (Phase.accept payload (.accepted invitation user created)).commit ⟨∅, 0⟩ mdb =
      some mdb' := hcommit
  obtain ⟨access, users, hadd, -, -⟩ := accepted_eq_some hcommit
  have hnone : mdb.access.member payload.membershipId = none := (addMembership_eq_some hadd).1
  rw [(Phase.sameScopes hcommit').getBranchScope, AccessDb.getBranchScope_eq_none_iff]
  rintro b ⟨hrow, -⟩
  exact hrows _ hrow hnone

/-- A manager who is restricted to branch 10, and a clerk who may work at two branches. -/
def twoBranches : MembersDb where
  access :=
    { tenantId := 1
      branches := [⟨10, "A", "A", none, none, none, true, true⟩,
        ⟨11, "B", "B", none, none, none, true, false⟩]
      memberships := [⟨1, 21, .active, 0⟩, ⟨2, 22, .active, 0⟩]
      memberships_nodup := by decide
      membershipBranches := [(1, 10), (2, 10), (2, 11)]
      membershipRoles := [(1, 30), (2, 30)]
      roles := [⟨30, "CLERK", "Clerk", false⟩]
      systemRoles_nodup := by decide
      rolePermissions := [] }
  users := ⟨[⟨21, "a@example.com", "A"⟩, ⟨22, "b@example.com", "B"⟩], by decide⟩
  invitations := .empty _

/-- The manager of `twoBranches`. -/
def manager : TenantContext := ⟨1, 1, 21, {30}, ∅, some {10}⟩

/-- The manager moves the clerk to branch 10, and suspends the clerk there. -/
def clerkMoved : List (TxAction ScopeRequest Choice) :=
  [.begin 1 (.updateBranches manager 2 {10}), .run 1 .next, .run 1 .next, .finish 1,
   .begin 2 (.access (.member manager (.updateStatus 2 .suspended))), .run 2 .next, .run 2 .next,
   .run 2 .next, .run 2 .next, .finish 2]

theorem scopes_contained_moved : ∃ s, (scopeProtocol ⟨∅, 7⟩).Runs
    (fun state phase => Restricted {10} phase ∧ phase.Spares {10} state)
    (Protocol.init ⟨.initial twoBranches, []⟩) s ∧ s.committed.edited = [2, 2] ∧
      ∃ scope ⊆ {10}, s.committed.db.getBranchScope 2 = some scope := by
  have hfacts : (clerkMoved.foldlM ((scopeProtocol ⟨∅, 7⟩).guarded
      fun state phase => Restricted {10} phase ∧ phase.Spares {10} state)
      (Protocol.init ⟨.initial twoBranches, []⟩)).any fun s => s.committed.edited = [2, 2] := by
    decide +kernel
  obtain ⟨s, hruns, hedited⟩ := Protocol.Runs.exists_of_any _ hfacts
  exact ⟨s, hruns, hedited, scopes_contained hruns 2 (by rw [hedited]; decide)⟩

/-- The manager invites someone, who joins. -/
def managerInvites : List (TxAction ScopeRequest Choice) :=
  [.begin 1 (.access (.invite manager ⟨"c@example.com", 30, 40, "t", 0⟩)), .run 1 .next, .run 1 .next,
   .run 1 .next, .run 1 .next, .finish 1,
   .begin 2 (.access (.accept ⟨"t", some "C", some "password", 3, 23, 1⟩)), .run 2 .next,
   .run 2 .next, .run 2 .next, .run 2 .next, .run 2 .next, .finish 2]

/-- Whoever the restricted manager invites may work at every branch. -/
theorem unrestricted_joined :
    ¬∀ s, (scopeProtocol ⟨∅, 7⟩).Runs (fun _ phase => Restricted {10} phase)
      (Protocol.init ⟨.initial twoBranches, []⟩) s →
        ∀ id ∈ s.committed.edited, ∃ scope ⊆ {10}, s.committed.db.getBranchScope id = some scope := by
  intro hall
  have hfacts : (managerInvites.foldlM ((scopeProtocol ⟨∅, 7⟩).guarded
      fun _ phase => Restricted {10} phase)
      (Protocol.init ⟨.initial twoBranches, []⟩)).any fun s =>
        s.committed.edited = [3] ∧ s.committed.db.getBranchScope 3 = none := by
    decide +kernel
  obtain ⟨s, hruns, hedited, hnone⟩ := Protocol.Runs.exists_of_any _ hfacts
  obtain ⟨scope, -, hscope⟩ := hall s hruns 3 (by rw [hedited]; decide)
  rw [hnone] at hscope
  cases hscope

end Nexora.Access
