import Nexora.Access.Requests

/-!
# The permission cache

`build_tenant_context` caches the permissions of a membership under its `roles_version`.  The
reads of the version, of the cache and of the permissions are separate statements, and the
cache is filled outside of any transaction, so an entry can be older than the commit that
follows it.

`Later` is why that does no harm: a commit that leaves the version of a membership alone leaves
it the permissions it has.  Role updates keep it because they hold the role while they bump,
and an assignment takes the role for its foreign key.  So an entry under version `v` holds only
permissions that the membership had at version `v` or later (`Coherent`), and a permission that
is served was held when the membership was read or since (`served_permissions`).
-/

namespace Nexora.Access

open Nexora Foundations

variable {settings : Settings} {db db' : AccessDb} {mdb mdb' : MembersDb}
  {state state' : AccessState}

/-! ## Commits -/

/-- Versions grow, and a membership with the same version keeps its permissions. -/
def Later (db db' : AccessDb) : Prop :=
  ∀ id, ∀ m ∈ db.member id, ∃ m' ∈ db'.member id, m.rolesVersion ≤ m'.rolesVersion ∧
    (m.rolesVersion = m'.rolesVersion → db.getPermissions id ⊆ db'.getPermissions id)

theorem Later.refl (db : AccessDb) : Later db db :=
  fun _ m hm => ⟨m, hm, le_refl _, fun _ => Finset.Subset.refl _⟩

theorem Later.trans {db'' : AccessDb} (h : Later db db') (h' : Later db' db'') :
    Later db db'' := by
  intro id m hm
  obtain ⟨m', hm', hle, hkeeps⟩ := h id m hm
  obtain ⟨m'', hm'', hle', hkeeps'⟩ := h' id m' hm'
  refine ⟨m'', hm'', hle.trans hle', fun heq => ?_⟩
  have hfirst : m.rolesVersion = m'.rolesVersion := by omega
  have hsecond : m'.rolesVersion = m''.rolesVersion := by omega
  exact (hkeeps hfirst).trans (hkeeps' hsecond)

/-- A commit that changes a row bumps it, and one that leaves it alone keeps its permissions. -/
theorem Later.of_rows
    (hrow : ∀ id, ∀ m ∈ db.member id, ∃ m' ∈ db'.member id,
      m.rolesVersion < m'.rolesVersion ∨
        m.rolesVersion ≤ m'.rolesVersion ∧ db.getPermissions id ⊆ db'.getPermissions id) :
    Later db db' := by
  intro id m hm
  obtain ⟨m', hm', hlt | ⟨hle, hkeeps⟩⟩ := hrow id m hm
  · exact ⟨m', hm', hlt.le, fun heq => absurd heq hlt.ne⟩
  · exact ⟨m', hm', hle, fun _ => hkeeps⟩

/-- What a commit under the given locks leaves alone. -/
structure Frame (locks : List (Row × LockMode)) (db db' : AccessDb) : Prop where
  member : ∀ id, .membership id ∉ locks.map Prod.fst → ∀ m ∈ db.member id, m ∈ db'.member id
  role : ∀ roleId, (.role roleId, .update) ∉ locks → db.hasRole roleId = true →
    db'.hasRole roleId = true
  assigned : ∀ id roleId, (id, roleId) ∈ db'.membershipRoles →
    (id, roleId) ∈ db.membershipRoles ∨ .role roleId ∈ locks.map Prod.fst

theorem Frame.refl (locks : List (Row × LockMode)) (db : AccessDb) : Frame locks db db :=
  ⟨fun _ _ _ hm => hm, fun _ _ h => h, fun _ _ h => .inl h⟩

/-- What a commit does to the access tables. -/
structure Commits (locks : List (Row × LockMode)) (db db' : AccessDb) : Prop where
  frame : Frame locks db db'
  later : Later db db'
  consistent : db'.Consistent

theorem Commits.refl {locks : List (Row × LockMode)} (h : db.Consistent) : Commits locks db db :=
  ⟨.refl locks db, .refl db, h⟩

/-! ## Member requests -/

/-- The row of the target after a write. -/
theorem member_write {record : MemberRecord} {request : MemberRequest} {id : Uuid} {m : Membership}
    (htarget : db.member request.target = some record.membership) (hm : db.member id = some m) :
    ∃ m' ∈ (request.write db record).member id, (id ≠ request.target → m' = m) ∧
      (m' = m ∨ m.rolesVersion < m'.rolesVersion) := by
  have hid := db.member_id hm
  have hsame : id = request.target → m = record.membership := by
    rintro rfl
    rw [hm] at htarget
    exact Option.some.inj htarget
  cases request with
  | updateRoles target roleIds =>
      have hmember : (db.setRoles target roleIds).member id = some m := hm
      simp only [MemberRequest.write, AccessDb.replaceRoles, AccessDb.member_modifyMember, hmember,
        Option.map_some, Option.mem_def, Option.some.injEq, exists_eq_left', hid]
      split
      next heq =>
        refine ⟨fun hne => absurd heq hne, .inr ?_⟩
        rw [hsame heq]
        exact Nat.lt_succ_self _
      next => exact ⟨fun _ => rfl, .inl rfl⟩
  | updateStatus target status =>
      simp only [MemberRequest.write, AccessDb.setStatus, AccessDb.member_modifyMember, hm,
        Option.map_some, Option.mem_def, Option.some.injEq, exists_eq_left', hid]
      split
      next heq =>
        refine ⟨fun hne => absurd heq hne, .inr ?_⟩
        rw [hsame heq]
        exact Nat.lt_succ_self _
      next => exact ⟨fun _ => rfl, .inl rfl⟩
  | remove target =>
      simp only [MemberRequest.write]
      split
      next => exact ⟨m, hm, fun _ => rfl, .inl rfl⟩
      next =>
        simp only [AccessDb.setStatus, AccessDb.member_modifyMember, hm, Option.map_some,
          Option.mem_def, Option.some.injEq, exists_eq_left', hid]
        split
        next heq =>
          refine ⟨fun hne => absurd heq hne, .inr ?_⟩
          rw [hsame heq]
          exact Nat.lt_succ_self _
        next => exact ⟨fun _ => rfl, .inl rfl⟩

/-- Only `update_roles` writes assignments, and those of its target. -/
theorem membershipRoles_write {record : MemberRecord} {request : MemberRequest} {id roleId : Uuid} :
    (id, roleId) ∈ (request.write db record).membershipRoles ↔
      (∃ roleIds, request = .updateRoles id roleIds ∧ roleId ∈ roleIds) ∨
        (id, roleId) ∈ db.membershipRoles ∧ ∀ roleIds, request ≠ .updateRoles id roleIds := by
  cases request with
  | updateRoles target roleIds =>
      simp only [MemberRequest.write, AccessDb.replaceRoles, AccessDb.setRoles,
        AccessDb.modifyMember, List.mem_append, List.mem_filter, List.mem_map, Finset.mem_sort,
        Prod.mk.injEq, decide_eq_true_eq, MemberRequest.updateRoles.injEq, ne_eq, not_and]
      by_cases hid : id = target
      · subst hid
        simp
      · have hid' : target ≠ id := fun heq => hid heq.symm
        simp [hid, hid']
  | updateStatus target status =>
      simp [MemberRequest.write, AccessDb.setStatus, AccessDb.modifyMember]
  | remove target =>
      simp only [MemberRequest.write]
      split
      · simp
      · simp [AccessDb.setStatus, AccessDb.modifyMember]

@[simp] theorem rolePermissions_write (record : MemberRecord) (request : MemberRequest) :
    (request.write db record).rolePermissions = db.rolePermissions := by
  cases request with
  | updateRoles target roleIds => rfl
  | updateStatus target status => rfl
  | remove target =>
      simp only [MemberRequest.write]
      split
      · rfl
      · rfl

@[simp] theorem hasRole_write (record : MemberRecord) (request : MemberRequest) (roleId : Uuid) :
    (request.write db record).hasRole roleId = db.hasRole roleId := by
  cases request with
  | updateRoles target roleIds => rfl
  | updateStatus target status => rfl
  | remove target =>
      simp only [MemberRequest.write]
      split
      · rfl
      · rfl

/-- The roles of the others stay. -/
theorem getPermissions_write {record : MemberRecord} {request : MemberRequest} {id : Uuid}
    (h : ∀ roleIds, request ≠ .updateRoles id roleIds) :
    db.getPermissions id ⊆ (request.write db record).getPermissions id := by
  intro code hcode
  obtain ⟨roleId, hmem, hperm⟩ := AccessDb.mem_getPermissions.mp hcode
  refine AccessDb.mem_getPermissions.mpr ⟨roleId, membershipRoles_write.mpr (.inr ⟨hmem, h⟩), ?_⟩
  rw [rolePermissions_write]
  exact hperm

/-- The write of a member request that holds its target and the roles it inserts. -/
theorem commits_write {record : MemberRecord} {request : MemberRequest}
    {locks : List (Row × LockMode)} (hdb : db.Consistent)
    (htarget : db.member request.target = some record.membership)
    (hlock : .membership request.target ∈ locks.map Prod.fst)
    (hroles : ∀ roleId ∈ request.roleIds,
      db.hasRole roleId = true ∧ .role roleId ∈ locks.map Prod.fst) :
    Commits locks db (request.write db record) where
  frame :=
    { member := fun id hid m hm => by
        have hne : id ≠ request.target := by
          rintro rfl
          exact hid hlock
        obtain ⟨m', hm', hsame, -⟩ := member_write htarget hm
        rw [← hsame hne]
        exact hm'
      role := fun roleId _ hrole => by rwa [hasRole_write]
      assigned := fun id roleId hmem => by
        rcases membershipRoles_write.mp hmem with ⟨roleIds, rfl, hroleId⟩ | ⟨hmem, -⟩
        · exact .inr (hroles roleId hroleId).2
        · exact .inl hmem }
  later := by
    refine Later.of_rows fun id m hm => ?_
    obtain ⟨m', hm', hsame, heq | hlt⟩ := member_write htarget hm
    · refine ⟨m', hm', .inr ⟨by rw [heq], ?_⟩⟩
      refine getPermissions_write fun roleIds hrequest => ?_
      -- An assignment bumps its target.
      subst hrequest
      have hmember : (db.setRoles id roleIds).member id = some m := hm
      simp only [MemberRequest.write, AccessDb.replaceRoles, AccessDb.member_modifyMember, hmember,
        db.member_id hm, if_true, Option.map_some, Option.mem_def, Option.some.injEq] at hm'
      have htarget' : m = record.membership := Option.some.inj (hm.symm.trans htarget)
      rw [heq, htarget'] at hm'
      have hversion := congrArg Membership.rolesVersion hm'
      simp at hversion
    · exact ⟨m', hm', .inl hlt⟩
  consistent :=
    { membership := fun id roleId hmem => by
        have hold : db.member id ≠ none := by
          rcases membershipRoles_write.mp hmem with ⟨roleIds, rfl, -⟩ | ⟨hmem, -⟩
          · simp only [MemberRequest.target] at htarget
            rw [htarget]
            simp
          · exact hdb.membership id roleId hmem
        obtain ⟨m, hm⟩ := Option.ne_none_iff_exists'.mp hold
        obtain ⟨m', hm', -⟩ := member_write htarget hm
        rw [Option.mem_def.mp hm']
        simp
      role := fun id roleId hmem => by
        rw [hasRole_write]
        rcases membershipRoles_write.mp hmem with ⟨roleIds, rfl, hroleId⟩ | ⟨hmem, -⟩
        · exact (hroles roleId hroleId).1
        · exact hdb.role id roleId hmem }

/-! ## Role requests -/

@[simp] theorem hasRole_rename (payload : RoleUpdate) (roleId r : Uuid) :
    (payload.rename db roleId).hasRole r = db.hasRole r := by
  unfold RoleUpdate.rename
  split
  · rfl
  · exact AccessDb.hasRole_renameRole db roleId _ r

@[simp] theorem member_rename (payload : RoleUpdate) (roleId id : Uuid) :
    (payload.rename db roleId).member id = db.member id := by
  unfold RoleUpdate.rename
  split
  · rfl
  · rfl

@[simp] theorem membershipRoles_rename (payload : RoleUpdate) (roleId : Uuid) :
    (payload.rename db roleId).membershipRoles = db.membershipRoles := by
  unfold RoleUpdate.rename
  split
  · rfl
  · rfl

@[simp] theorem rolePermissions_rename (payload : RoleUpdate) (roleId : Uuid) :
    (payload.rename db roleId).rolePermissions = db.rolePermissions := by
  unfold RoleUpdate.rename
  split
  · rfl
  · rfl

/-- Permissions go with the rows of the two tables. -/
theorem getPermissions_congr {id : Uuid} (hassigned : db'.membershipRoles = db.membershipRoles)
    (hperm : db'.rolePermissions = db.rolePermissions) :
    db'.getPermissions id = db.getPermissions id := by
  ext code
  rw [AccessDb.mem_getPermissions, AccessDb.mem_getPermissions, hassigned, hperm]

/-- A write that keeps memberships, assignments and roles. -/
theorem commits_of_same {locks : List (Row × LockMode)} (hdb : db.Consistent)
    (hmember : ∀ id, db'.member id = db.member id)
    (hassigned : db'.membershipRoles = db.membershipRoles)
    (hrole : ∀ roleId, db.hasRole roleId = true → db'.hasRole roleId = true)
    (hperm : ∀ id roleId code, (id, roleId) ∈ db.membershipRoles →
      (roleId, code) ∈ db.rolePermissions → (roleId, code) ∈ db'.rolePermissions) :
    Commits locks db db' where
  frame :=
    { member := fun id _ m hm => by rwa [hmember]
      role := fun roleId _ h => hrole roleId h
      assigned := fun id roleId h => .inl (hassigned ▸ h) }
  later := by
    refine Later.of_rows fun id m hm => ⟨m, by rwa [hmember], .inr ⟨le_refl _, ?_⟩⟩
    intro code hcode
    obtain ⟨roleId, hmem, hcode⟩ := AccessDb.mem_getPermissions.mp hcode
    exact AccessDb.mem_getPermissions.mpr ⟨roleId, hassigned ▸ hmem, hperm id roleId code hmem hcode⟩
  consistent :=
    { membership := fun id roleId hmem => by
        rw [hmember]
        exact hdb.membership id roleId (hassigned ▸ hmem)
      role := fun id roleId hmem => hrole roleId (hdb.role id roleId (hassigned ▸ hmem)) }

/-- New permissions for a role, with a bump of every membership that has it. -/
theorem commits_bump {role : Role} {payload : RoleUpdate} {codes : Finset String}
    {bumped : List Uuid} {locks : List (Row × LockMode)} (hdb : db.Consistent)
    (hlocks : ∀ id ∈ bumped, .membership id ∈ locks.map Prod.fst)
    (hbumped : ∀ id, (id, role.id) ∈ db.membershipRoles → id ∈ bumped) :
    Commits locks db
      (payload.rename ((db.replacePermissions role.id codes).bumpMemberships bumped) role.id) where
  frame :=
    { member := fun id hid m hm => by
        have hmember : (db.replacePermissions role.id codes).member id = some m := hm
        have hnot : m.id ∉ bumped := by
          rw [db.member_id hm]
          exact fun hmem => hid (hlocks id hmem)
        simp [AccessDb.bumpMemberships, hmember, Membership.bump, hnot]
      role := fun roleId _ h => by
        rw [hasRole_rename]
        exact h
      assigned := fun id roleId h => by
        rw [membershipRoles_rename] at h
        exact .inl h }
  later := by
    refine Later.of_rows fun id m hm => ?_
    have hmember : (db.replacePermissions role.id codes).member id = some m := hm
    refine ⟨m.bump bumped, by simp [AccessDb.bumpMemberships, hmember], ?_⟩
    unfold Membership.bump
    rw [db.member_id hm]
    split
    next => exact .inl (Nat.lt_succ_self _)
    next hnot =>
      refine .inr ⟨le_refl _, fun code hcode => ?_⟩
      obtain ⟨roleId, hmem, hcode⟩ := AccessDb.mem_getPermissions.mp hcode
      have hne : roleId ≠ role.id := by
        rintro rfl
        exact hnot (hbumped id hmem)
      refine AccessDb.mem_getPermissions.mpr ⟨roleId, by rwa [membershipRoles_rename], ?_⟩
      rw [rolePermissions_rename]
      refine AccessDb.mem_replacePermissions.mpr ?_
      rwa [if_neg hne]
  consistent :=
    { membership := fun id roleId hmem => by
        rw [membershipRoles_rename] at hmem
        rw [member_rename, AccessDb.bumpMemberships, AccessDb.member_modifyMembers, ne_eq,
          Option.map_eq_none_iff]
        exact hdb.membership id roleId hmem
      role := fun id roleId hmem => by
        rw [membershipRoles_rename] at hmem
        rw [hasRole_rename]
        exact hdb.role id roleId hmem }

theorem addRole_eq_some {roleId : Uuid} {code name : String}
    (h : db.addRole roleId code name = some db') :
    db.hasRole roleId = false ∧ db'.memberships = db.memberships ∧
      db'.membershipRoles = db.membershipRoles ∧ db'.rolePermissions = db.rolePermissions ∧
      db'.roles = db.roles ++ [{ id := roleId, code := code, name := name, isSystem := false }] := by
  unfold AccessDb.addRole at h
  split at h
  next => cases h
  next hfree =>
    cases h
    refine ⟨?_, rfl, rfl, rfl, rfl⟩
    simp only [Bool.not_eq_true, List.any_eq_false, Bool.or_eq_true, not_or,
      decide_eq_true_eq] at hfree
    simp only [AccessDb.hasRole, List.any_eq_false, decide_eq_true_eq]
    exact fun role hrole => (hfree role hrole).1

/-- A new role. -/
theorem commits_addRole {roleId : Uuid} {code name : String} {codes : Finset String}
    {locks : List (Row × LockMode)} (hdb : db.Consistent)
    (h : db.addRole roleId code name = some db') :
    Commits locks db (db'.replacePermissions roleId codes) := by
  obtain ⟨hnew, hmembers, hassigned, hperms, hroles⟩ := addRole_eq_some h
  refine commits_of_same hdb (fun id => ?_) hassigned (fun r hrole => ?_) fun id r code hmem hcode => ?_
  · show db'.memberships.find? _ = db.memberships.find? _
    rw [hmembers]
  · show db'.roles.any _ = true
    rw [hroles, List.any_append, Bool.or_eq_true]
    exact .inl hrole
  · have hne : r ≠ roleId := by
      rintro rfl
      rw [hdb.role id r hmem] at hnew
      cases hnew
    refine AccessDb.mem_replacePermissions.mpr ?_
    rwa [if_neg hne, hperms]

/-- A role that no membership has is deleted. -/
theorem commits_deleteRole {roleId : Uuid} {locks : List (Row × LockMode)} (hdb : db.Consistent)
    (hlock : (.role roleId, .update) ∈ locks) (hfree : ∀ id, (id, roleId) ∉ db.membershipRoles) :
    Commits locks db (db.deleteRole roleId) := by
  have hassigned : (db.deleteRole roleId).membershipRoles = db.membershipRoles := by
    refine List.filter_eq_self.mpr fun row hrow => ?_
    rw [decide_eq_true_eq]
    rintro rfl
    exact hfree row.1 hrow
  have hroles : ∀ r, r ≠ roleId → db.hasRole r = true → (db.deleteRole roleId).hasRole r = true := by
    intro r hne hrole
    obtain ⟨role, hmem, hid⟩ := List.any_eq_true.mp hrole
    rw [decide_eq_true_eq] at hid
    refine List.any_eq_true.mpr ⟨role, List.mem_filter.mpr ⟨hmem, ?_⟩, decide_eq_true hid⟩
    rw [decide_eq_true_eq, hid]
    exact hne
  refine ⟨⟨fun id _ m hm => hm, fun r hr hrole => ?_, fun id r hmem => ?_⟩, ?_, ?_, ?_⟩
  · refine hroles r ?_ hrole
    rintro rfl
    exact hr hlock
  · exact .inl (hassigned ▸ hmem)
  · refine Later.of_rows fun id m hm => ⟨m, hm, .inr ⟨le_refl _, fun code hcode => ?_⟩⟩
    obtain ⟨r, hmem, hcode⟩ := AccessDb.mem_getPermissions.mp hcode
    refine AccessDb.mem_getPermissions.mpr ⟨r, hassigned ▸ hmem, List.mem_filter.mpr ⟨hcode, ?_⟩⟩
    rw [decide_eq_true_eq]
    rintro rfl
    exact hfree id hmem
  · exact fun id r hmem => hdb.membership id r (hassigned ▸ hmem)
  · intro id r hmem
    rw [hassigned] at hmem
    refine hroles r ?_ (hdb.role id r hmem)
    rintro rfl
    exact hfree id hmem

/-! ## Accepted invitations -/

theorem addMembership_eq_some {membership : Membership}
    (h : db.addMembership membership = some db') :
    db.member membership.id = none ∧
      (∀ id, db'.member id = if id = membership.id then some membership else db.member id) ∧
      db'.membershipRoles = db.membershipRoles ∧ db'.rolePermissions = db.rolePermissions ∧
      db'.roles = db.roles := by
  unfold AccessDb.addMembership at h
  split at h
  next hfree =>
    cases h
    have hnone : db.member membership.id = none := by
      refine List.find?_eq_none.mpr fun m hm => ?_
      simpa using (hfree m hm).1
    refine ⟨hnone, fun id => ?_, rfl, rfl, rfl⟩
    unfold AccessDb.member at hnone ⊢
    rw [List.find?_append]
    split
    next hid => subst hid; simp [hnone]
    next hid =>
      have hid' : membership.id ≠ id := fun heq => hid heq.symm
      simp [hid']
  next => cases h

/-- A new membership with its role. -/
theorem commits_join {membership : Membership} {roleId : Uuid} {locks : List (Row × LockMode)}
    (hdb : db.Consistent) (hrole : db.hasRole roleId = true)
    (hlock : .role roleId ∈ locks.map Prod.fst) (h : db.addMembership membership = some db') :
    Commits locks db (db'.assignRole membership.id roleId) := by
  obtain ⟨hnone, hmember, hassigned, hperms, hroles⟩ := addMembership_eq_some h
  have hmember' : ∀ id, ∀ m ∈ db.member id, (db'.assignRole membership.id roleId).member id = some m := by
    intro id m hm
    have hne : id ≠ membership.id := by
      rintro rfl
      rw [hnone] at hm
      cases hm
    show db'.member id = some m
    rw [hmember, if_neg hne]
    exact hm
  have hmem' : ∀ id r, (id, r) ∈ (db'.assignRole membership.id roleId).membershipRoles ↔
      (id, r) ∈ db.membershipRoles ∨ id = membership.id ∧ r = roleId := by
    intro id r
    simp [AccessDb.assignRole, hassigned]
  have hroles' : ∀ r, (db'.assignRole membership.id roleId).hasRole r = db.hasRole r := by
    intro r
    show db'.roles.any _ = db.roles.any _
    rw [hroles]
  refine ⟨⟨fun id _ m hm => hmember' id m hm, fun r _ hr => by rwa [hroles'], fun id r hmem => ?_⟩,
    ?_, ?_, ?_⟩
  · rcases (hmem' id r).mp hmem with hmem | ⟨-, rfl⟩
    · exact .inl hmem
    · exact .inr hlock
  · refine Later.of_rows fun id m hm => ⟨m, hmember' id m hm, .inr ⟨le_refl _, fun code hcode => ?_⟩⟩
    obtain ⟨r, hmem, hcode⟩ := AccessDb.mem_getPermissions.mp hcode
    refine AccessDb.mem_getPermissions.mpr ⟨r, (hmem' id r).mpr (.inl hmem), ?_⟩
    show (r, code) ∈ db'.rolePermissions
    rwa [hperms]
  · intro id r hmem
    show db'.member id ≠ none
    rcases (hmem' id r).mp hmem with hmem | ⟨rfl, -⟩
    · rw [hmember]
      split
      · simp
      · exact hdb.membership id r hmem
    · rw [hmember, if_pos rfl]
      simp
  · intro id r hmem
    rw [hroles']
    rcases (hmem' id r).mp hmem with hmem | ⟨-, rfl⟩
    · exact hdb.role id r hmem
    · exact hrole

/-! ## What an open transaction relies on -/

/-- A member request holds its target, and the roles that it has inserted exist. -/
def MemberStage.Relies (db : AccessDb) (request : MemberRequest) : MemberStage → Prop
  | .lock => True
  | .readRoles membership => db.member request.target = some membership
  | .check record _ => db.member request.target = some record.membership
  | .insert record todo inserted =>
      db.member request.target = some record.membership ∧
        (∀ roleId ∈ request.roleIds, roleId ∈ todo ∨ roleId ∈ inserted) ∧
        ∀ roleId ∈ inserted, db.hasRole roleId = true

/-- A role request that holds the role knows who is assigned to it. -/
def RoleStage.Relies (db : AccessDb) : RoleStage → Prop
  | .bumping role _ _ todo bumped =>
      ∀ id, (id, role.id) ∈ db.membershipRoles → id ∈ todo ∨ id ∈ bumped
  | .deleteRow role => ∀ id, (id, role.id) ∉ db.membershipRoles
  | _ => True

def AcceptStage.Relies (db : AccessDb) : AcceptStage → Prop
  | .accepted invitation _ _ => db.hasRole invitation.roleId = true
  | _ => True

/-- What a writing transaction relies on. -/
def Phase.Holds (db : AccessDb) : Phase → Prop
  | .member _ request stage => stage.Relies db request
  | .role _ stage => stage.Relies db
  | .accept _ stage => stage.Relies db
  | _ => True

/-- Another transaction commits. -/
theorem Phase.Holds.stable {locks : List (Row × LockMode)} {phase : Phase}
    (h : phase.Holds db) (hfree : locksConflict phase.locks locks = false)
    (hframe : Frame locks db db') : phase.Holds db' := by
  cases phase with
  | member context request stage =>
      have hmember : .membership request.target ∉ locks.map Prod.fst → ∀ m : Membership,
          db.member request.target = some m → db'.member request.target = some m :=
        fun hnot m hm => hframe.member _ hnot m hm
      cases stage with
      | lock => trivial
      | readRoles membership =>
          exact hmember (notMem_of_update hfree (by simp [Phase.locks, MemberStage.locks])) _ h
      | check record todo =>
          exact hmember (notMem_of_update hfree (by simp [Phase.locks, MemberStage.locks])) _ h
      | insert record todo inserted =>
          obtain ⟨htarget, htodo, hinserted⟩ := h
          refine ⟨?_, htodo, fun roleId hroleId => ?_⟩
          · exact hmember (notMem_of_update hfree (by simp [Phase.locks, MemberStage.locks])) _ htarget
          · refine hframe.role roleId ?_ (hinserted roleId hroleId)
            refine notMem_of_conflicts hfree ?_ (show LockMode.keyShare.conflicts _ = true from rfl)
            simp [Phase.locks, MemberStage.locks, hroleId]
  | role context stage =>
      have hassigned : ∀ roleId, .role roleId ∉ locks.map Prod.fst → ∀ id,
          (id, roleId) ∈ db'.membershipRoles → (id, roleId) ∈ db.membershipRoles :=
        fun roleId hnot id hmem => (hframe.assigned id roleId hmem).resolve_right hnot
      cases stage with
      | bumping role payload codes todo bumped =>
          intro id hmem
          refine h id (hassigned role.id (notMem_of_update hfree ?_) id hmem)
          simp [Phase.locks, RoleStage.locks]
      | deleteRow role =>
          intro id hmem
          refine h id (hassigned role.id (notMem_of_update hfree ?_) id hmem)
          simp [Phase.locks, RoleStage.locks]
      | _ => trivial
  | accept payload stage =>
      cases stage with
      | accepted invitation user created =>
          refine hframe.role _
            (notMem_of_conflicts hfree ?_ (show LockMode.keyShare.conflicts _ = true from rfl)) h
          simp [Phase.locks, AcceptStage.locks]
      | _ => trivial
  | _ => trivial

/-! ## Statements -/

theorem MemberStage.Relies.step {context : TenantContext} {request : MemberRequest}
    {stage stage' : MemberStage} {choice : Choice} (h : stage.Relies db request)
    (hstep : stage.step db context request choice = some (.ok stage')) :
    stage'.Relies db request := by
  cases stage with
  | lock =>
      cases choice with
      | row id => cases hstep
      | next =>
          simp only [MemberStage.step] at hstep
          split at hstep
          next => cases hstep
          next membership hm =>
            cases hstep
            exact hm
  | readRoles membership =>
      cases choice with
      | row id => cases hstep
      | next =>
          cases hstep
          exact h
  | check record todo =>
      cases choice with
      | row id =>
          cases todo with
          | nil => cases hstep
          | cons first todo => cases hstep
      | next =>
          cases todo with
          | cons first todo =>
              simp only [MemberStage.step] at hstep
              split at hstep
              next => cases hstep
              next =>
                cases hstep
                exact h
          | nil =>
              cases request with
              | updateRoles target roleIds =>
                  cases hstep
                  refine ⟨h, fun roleId hroleId => .inl ?_, nofun⟩
                  simpa [MemberRequest.roleIds] using hroleId
              | updateStatus target status => cases hstep
              | remove target => cases hstep
  | insert record todo inserted =>
      cases choice with
      | next => cases hstep
      | row roleId =>
          simp only [MemberStage.step] at hstep
          split at hstep
          next =>
            split at hstep
            next hrole =>
              cases hstep
              obtain ⟨htarget, htodo, hinserted⟩ := h
              refine ⟨htarget, fun r hr => ?_, fun r hr => ?_⟩
              · by_cases heq : r = roleId
                · exact .inr (by simp [heq])
                · rcases htodo r hr with hr | hr
                  · exact .inl ((List.mem_erase_of_ne heq).mpr hr)
                  · exact .inr (List.mem_cons_of_mem _ hr)
              · rcases List.mem_cons.mp hr with rfl | hr
                · exact hrole
                · exact hinserted r hr
            next => cases hstep
          next => cases hstep

theorem RoleStage.Relies.step {context : TenantContext} {stage stage' : RoleStage}
    {choice : Choice} (hdb : db.Consistent) (h : stage.Relies db)
    (hstep : stage.step settings db context choice = some (.ok stage')) : stage'.Relies db := by
  cases stage with
  | createValidate roleId payload =>
      cases choice with
      | row id => cases hstep
      | next =>
          simp only [RoleStage.step] at hstep
          split at hstep
          · cases hstep
          · cases hstep
            trivial
  | createInsert roleId payload =>
      cases choice with
      | row id => cases hstep
      | next =>
          simp only [RoleStage.step] at hstep
          split at hstep
          · cases hstep
          · cases hstep
            trivial
  | updateLock roleId payload =>
      cases choice with
      | row id => cases hstep
      | next =>
          simp only [RoleStage.step] at hstep
          split at hstep
          · cases hstep
          · cases hstep
            trivial
  | updateValidate role payload =>
      cases choice with
      | row id => cases hstep
      | next =>
          simp only [RoleStage.step] at hstep
          split at hstep
          · cases hstep
            trivial
          · split at hstep
            · cases hstep
            · cases hstep
              trivial
  | updateReplace role payload codes =>
      cases choice with
      | row id => cases hstep
      | next =>
          cases hstep
          trivial
  | updateBump role payload codes =>
      cases choice with
      | row id => cases hstep
      | next =>
          cases hstep
          intro id hmem
          obtain ⟨m, hm⟩ := Option.ne_none_iff_exists'.mp (hdb.membership id role.id hmem)
          refine .inl (List.mem_filter.mpr ⟨?_, decide_eq_true hmem⟩)
          rw [← db.member_id hm]
          exact List.mem_map_of_mem (db.mem_of_member hm)
  | bumping role payload codes todo bumped =>
      cases choice with
      | next => cases hstep
      | row id =>
          simp only [RoleStage.step] at hstep
          split at hstep
          next =>
            cases hstep
            intro id' hmem
            by_cases heq : id' = id
            · exact .inr (by simp [heq])
            · rcases h id' hmem with hmem | hmem
              · exact .inl ((List.mem_erase_of_ne heq).mpr hmem)
              · exact .inr (List.mem_cons_of_mem _ hmem)
          next => cases hstep
  | deleteLock roleId =>
      cases choice with
      | row id => cases hstep
      | next =>
          simp only [RoleStage.step] at hstep
          split at hstep
          · cases hstep
          · cases hstep
            trivial
  | deleteCount role =>
      cases choice with
      | row id => cases hstep
      | next =>
          simp only [RoleStage.step] at hstep
          split at hstep
          next => cases hstep
          next hnone =>
            cases hstep
            intro id hmem
            exact hnone (List.any_eq_true.mpr ⟨_, hmem, decide_eq_true rfl⟩)
  | _ => cases hstep

theorem AcceptStage.Relies.step {payload : InvitationAccept} {stage stage' : AcceptStage}
    (hstep : stage.step mdb payload = some (.ok stage')) : stage'.Relies mdb.access := by
  cases stage with
  | lockToken =>
      simp only [AcceptStage.step] at hstep
      split at hstep
      · cases hstep
      · split at hstep
        · cases hstep
        · cases hstep
          trivial
  | resolveUser invitation =>
      simp only [AcceptStage.step] at hstep
      split at hstep
      · cases hstep
      · cases hstep
        trivial
  | checkExisting invitation user created =>
      simp only [AcceptStage.step] at hstep
      split at hstep
      · cases hstep
      · cases hstep
        trivial
  | insertMembership invitation user created =>
      simp only [AcceptStage.step] at hstep
      split at hstep
      · cases hstep
      · cases hstep
        trivial
  | insertRole invitation user created =>
      simp only [AcceptStage.step] at hstep
      split at hstep
      next hrole =>
        cases hstep
        exact hrole
      next => cases hstep
  | accepted invitation user created => cases hstep

/-! ## Ends -/

theorem addUser_eq_some {user : User} (h : mdb.addUser user = some mdb') :
    ∃ users, mdb.users.insert user = some users ∧ mdb' = { mdb with users := users } := by
  unfold MembersDb.addUser at h
  split at h
  · cases h
  · obtain ⟨users, hinsert, rfl⟩ := Option.map_eq_some_iff.mp h
    exact ⟨users, hinsert, rfl⟩

theorem accepted_eq_some {payload : InvitationAccept} {invitation : Invitation} {user : User}
    {created : Bool}
    (h : AcceptStage.commit mdb payload (.accepted invitation user created) = some mdb') :
    ∃ access users, mdb.access.addMembership (payload.membership user) = some access ∧
      (created = false ∧ users = mdb.users ∨
        created = true ∧ mdb.users.insert user = some users) ∧
      mdb' = { access := access.assignRole payload.membershipId invitation.roleId
               users := users
               invitations :=
                mdb.invitations.modifyAt invitation.id payload.redeem payload.redeem_id } := by
  cases created with
  | false =>
      obtain ⟨access, hadd, hsome⟩ := Option.bind_eq_some_iff.mp h
      cases hsome
      exact ⟨access, mdb.users, hadd, .inl ⟨rfl, rfl⟩, rfl⟩
  | true =>
      obtain ⟨db, huser, hrest⟩ := Option.bind_eq_some_iff.mp h
      obtain ⟨users, hinsert, rfl⟩ := addUser_eq_some huser
      obtain ⟨access, hadd, hsome⟩ := Option.bind_eq_some_iff.mp hrest
      cases hsome
      exact ⟨access, users, hadd, .inr ⟨rfl, hinsert⟩, rfl⟩

/-- Every commit keeps the versions in step with the permissions. -/
theorem Phase.Holds.commits {phase : Phase} (hdb : mdb.access.Consistent)
    (h : phase.Holds mdb.access) (hcommit : phase.commit settings mdb = some mdb') :
    Commits phase.locks mdb.access mdb'.access := by
  cases phase with
  | member context request stage =>
      obtain ⟨access, hwrite, rfl⟩ := Option.map_eq_some_iff.mp hcommit
      cases stage with
      | check record todo =>
          cases todo with
          | cons first todo => cases hwrite
          | nil =>
              cases request with
              | updateRoles target roleIds => cases hwrite
              | updateStatus target status =>
                  cases hwrite
                  exact commits_write hdb h (by simp [Phase.locks, MemberStage.locks])
                    fun roleId hroleId => by simp [MemberRequest.roleIds] at hroleId
              | remove target =>
                  cases hwrite
                  exact commits_write hdb h (by simp [Phase.locks, MemberStage.locks])
                    fun roleId hroleId => by simp [MemberRequest.roleIds] at hroleId
      | insert record todo inserted =>
          cases todo with
          | cons first todo => cases hwrite
          | nil =>
              cases hwrite
              obtain ⟨htarget, htodo, hinserted⟩ := h
              refine commits_write hdb htarget (by simp [Phase.locks, MemberStage.locks])
                fun roleId hroleId => ?_
              have hmem := (htodo roleId hroleId).resolve_left (List.not_mem_nil)
              exact ⟨hinserted roleId hmem, by simp [Phase.locks, MemberStage.locks, hmem]⟩
      | _ => cases hwrite
  | role context stage =>
      obtain ⟨access, hwrite, rfl⟩ := Option.map_eq_some_iff.mp hcommit
      cases stage with
      | created roleId payload =>
          obtain ⟨access, hadd, rfl⟩ := Option.map_eq_some_iff.mp hwrite
          exact commits_addRole hdb hadd
      | bumping role payload codes todo bumped =>
          cases todo with
          | cons first todo => cases hwrite
          | nil =>
              cases hwrite
              refine commits_bump hdb (fun id hid => ?_) fun id hmem =>
                (h id hmem).resolve_left List.not_mem_nil
              simp [Phase.locks, RoleStage.locks, hid]
      | renamed role payload codes =>
          cases hwrite
          refine commits_of_same hdb (fun id => ?_) ?_ (fun roleId hrole => ?_)
            fun id roleId code _ hcode => ?_
          · rw [member_rename]
          · rw [membershipRoles_rename]
          · rwa [hasRole_rename]
          · rwa [rolePermissions_rename]
      | deleteRow role =>
          simp only [RoleStage.commit] at hwrite
          split at hwrite
          · cases hwrite
          · cases hwrite
            exact commits_deleteRole hdb (by simp [Phase.locks, RoleStage.locks]) h
      | _ => cases hwrite
  | invite context payload stage =>
      cases stage with
      | invited =>
          simp only [Phase.commit, InviteStage.commit, MembersDb.addInvitation] at hcommit
          split at hcommit
          · cases hcommit
          · obtain ⟨invitations, -, rfl⟩ := Option.map_eq_some_iff.mp hcommit
            exact .refl hdb
      | _ => cases hcommit
  | accept payload stage =>
      cases stage with
      | accepted invitation user created =>
          obtain ⟨access, users, hadd, -, rfl⟩ := accepted_eq_some hcommit
          exact commits_join hdb h (by simp [Phase.locks, AcceptStage.locks]) hadd
      | _ => cases hcommit
  | changeInvitation context invitationId change stage =>
      cases stage with
      | lock => cases hcommit
      | locked invitation =>
          simp only [Phase.commit, ChangeStage.commit] at hcommit
          split at hcommit
          · cases hcommit
            exact .refl hdb
          · cases hcommit
  | _ => cases hcommit

/-! ## The cache -/

/-- The membership is what a committed state had. -/
def Reading.At (reading : Reading) (state : AccessState) : Prop :=
  ∃ db, state.history[reading.seen]? = some db ∧
    db.getActiveMembership reading.userId = some reading.membership

/-- The committed states from the one in which the membership was read. -/
def Reading.since (reading : Reading) (state : AccessState) : List AccessDb :=
  state.history.drop reading.seen

/-- Each of the permissions was held when the membership was read, or since. -/
def Reading.Held (reading : Reading) (state : AccessState) (permissions : Finset String) : Prop :=
  ∀ code ∈ permissions, ∃ db ∈ reading.since state, code ∈ db.getPermissions reading.membership.id

/-- An entry of the cache holds permissions that the membership had at its version or later. -/
structure Coherent (state : AccessState) : Prop where
  consistent : state.db.access.Consistent
  ordered : state.history.Pairwise Later
  filled : ∀ id version, ∀ code ∈ state.cache id version, ∃ db ∈ state.history,
    ∃ m ∈ db.member id, version ≤ m.rolesVersion ∧ code ∈ db.getPermissions id
  served : ∀ served ∈ state.served, served.reading.At state ∧
    served.context.membershipId = served.reading.membership.id ∧
    served.reading.Held state served.context.permissions

theorem Reading.At.grow {reading : Reading} {more : List AccessDb} (h : reading.At state)
    (hgrow : state'.history = state.history ++ more) : reading.At state' := by
  obtain ⟨db, hdb, hmembership⟩ := h
  have hlt := (List.getElem?_eq_some_iff.mp hdb).1
  exact ⟨db, by rw [hgrow, List.getElem?_append_left hlt, hdb], hmembership⟩

theorem Reading.Held.grow {reading : Reading} {permissions : Finset String} {more : List AccessDb}
    (h : reading.Held state permissions) (hgrow : state'.history = state.history ++ more) :
    reading.Held state' permissions := by
  intro code hcode
  obtain ⟨db, hdb, hheld⟩ := h code hcode
  refine ⟨db, ?_, hheld⟩
  unfold Reading.since at hdb ⊢
  rw [hgrow, List.drop_append]
  exact List.mem_append_left _ hdb

/-- The row that the reader found, by its key. -/
theorem Reading.At.member {reading : Reading} (h : reading.At state) :
    ∃ db before after, state.history = before ++ db :: after ∧
      reading.since state = db :: after ∧
      db.member reading.membership.id = some reading.membership := by
  obtain ⟨db, hdb, hmembership⟩ := h
  obtain ⟨hlt, rfl⟩ := List.getElem?_eq_some_iff.mp hdb
  refine ⟨_, state.history.take reading.seen, state.history.drop (reading.seen + 1), ?_, ?_,
    AccessDb.member_of_mem (List.mem_of_find?_eq_some hmembership)⟩
  · rw [List.getElem_cons_drop, List.take_append_drop]
  · exact (List.getElem_cons_drop hlt).symm

/-- Since the reader found the row, its version has not gone down. -/
theorem Coherent.version_le (h : Coherent state) {reading : Reading} (hread : reading.At state)
    {db : AccessDb} (hdb : db ∈ reading.since state) :
    ∃ m ∈ db.member reading.membership.id, reading.membership.rolesVersion ≤ m.rolesVersion := by
  obtain ⟨found, before, after, hhistory, hsince, hmember⟩ := hread.member
  rw [hsince] at hdb
  rcases List.mem_cons.mp hdb with rfl | hdb
  · exact ⟨_, hmember, le_refl _⟩
  · have hordered := h.ordered
    rw [hhistory, List.pairwise_append, List.pairwise_cons] at hordered
    obtain ⟨m, hm, hle, -⟩ := hordered.2.1.1 db hdb _ _ hmember
    exact ⟨m, hm, hle⟩

/-- What the cache holds for the version that was read was held at that time or since. -/
theorem Coherent.cached (h : Coherent state) {reading : Reading} (hread : reading.At state) :
    reading.Held state (state.cache reading.membership.id reading.membership.rolesVersion) := by
  intro code hcode
  obtain ⟨db, hdb, m, hm, hversion, hheld⟩ := h.filled _ _ code hcode
  obtain ⟨found, before, after, hhistory, hsince, hmember⟩ := hread.member
  rw [hhistory] at hdb
  rcases List.mem_append.mp hdb with hbefore | hafter
  · -- An older state had the same version, so its permissions are still there.
    have hordered := h.ordered
    rw [hhistory, List.pairwise_append] at hordered
    obtain ⟨m', hm', hle, hkeeps⟩ := hordered.2.2 db hbefore found (List.mem_cons_self ..) _ m hm
    rw [Option.mem_def, hmember] at hm'
    cases hm'
    refine ⟨found, by rw [hsince]; exact List.mem_cons_self .., hkeeps ?_ hheld⟩
    omega
  · exact ⟨db, by rwa [hsince], hheld⟩

/-- What the reader found in the tables may go into the cache. -/
theorem Coherent.fill (h : Coherent state) {reading : Reading} {permissions : Finset String}
    (hread : reading.At state) (hheld : reading.Held state permissions) :
    Coherent { state with
      cache := state.cache.set reading.membership.id reading.membership.rolesVersion
        (state.cache reading.membership.id reading.membership.rolesVersion ∪ permissions) } where
  consistent := h.consistent
  ordered := h.ordered
  served := h.served
  filled := by
    intro id version code hcode
    by_cases hid : id = reading.membership.id
    · subst hid
      by_cases hversion : version = reading.membership.rolesVersion
      · subst hversion
        simp only [PermCache.set, Function.update_self, Finset.mem_union] at hcode
        rcases hcode with hcode | hcode
        · exact h.filled _ _ code hcode
        · obtain ⟨db, hdb, hcode⟩ := hheld code hcode
          obtain ⟨m, hm, hle⟩ := h.version_le hread hdb
          exact ⟨db, List.mem_of_mem_drop hdb, m, hm, hle, hcode⟩
      · simp only [PermCache.set, Function.update_self, Function.update_of_ne hversion] at hcode
        exact h.filled _ _ code hcode
    · simp only [PermCache.set, Function.update_of_ne hid] at hcode
      exact h.filled _ _ code hcode

theorem Coherent.expire (h : Coherent state) (id : Uuid) (version : Nat) :
    Coherent { state with cache := state.cache.set id version ∅ } where
  consistent := h.consistent
  ordered := h.ordered
  served := h.served
  filled := by
    intro id' version' code hcode
    by_cases hid : id' = id
    · subst hid
      by_cases hversion : version' = version
      · subst hversion
        simp [PermCache.set] at hcode
      · simp only [PermCache.set, Function.update_self, Function.update_of_ne hversion] at hcode
        exact h.filled _ _ code hcode
    · simp only [PermCache.set, Function.update_of_ne hid] at hcode
      exact h.filled _ _ code hcode

theorem history_commit (state : AccessState) (db : MembersDb) :
    (state.commit db).history = state.history ++ [db.access] := rfl

/-- A commit is added to the history. -/
theorem Coherent.commit {locks : List (Row × LockMode)} (h : Coherent state)
    (hcommits : Commits locks state.db.access mdb.access) : Coherent (state.commit mdb) where
  consistent := hcommits.consistent
  ordered := by
    rw [history_commit, List.pairwise_append]
    refine ⟨h.ordered, List.pairwise_singleton _ _, fun db hdb db' hdb' => ?_⟩
    rw [List.mem_singleton.mp hdb']
    have hordered := h.ordered
    rw [AccessState.history, List.pairwise_append] at hordered
    rcases List.mem_append.mp hdb with hdb | hdb
    · exact (hordered.2.2 db hdb _ (List.mem_singleton_self _)).trans hcommits.later
    · rw [List.mem_singleton.mp hdb]
      exact hcommits.later
  filled := fun id version code hcode => by
    obtain ⟨db, hdb, hrest⟩ := h.filled id version code hcode
    exact ⟨db, by rw [history_commit]; exact List.mem_append_left _ hdb, hrest⟩
  served := fun served hserved => by
    obtain ⟨hread, hid, hheld⟩ := h.served served hserved
    exact ⟨hread.grow (history_commit state mdb), hid, hheld.grow (history_commit state mdb)⟩

/-! ## The protocol -/

/-- What a call of `build_tenant_context` has found out. -/
def ContextStage.Relies (state : AccessState) : ContextStage → Prop
  | .readMembership _ => True
  | .readCache reading | .readPermissions reading => reading.At state
  | .fillCache reading permissions | .readRoles reading permissions
  | .readBranches reading permissions _ => reading.At state ∧ reading.Held state permissions
  | .built reading context => reading.At state ∧
      context.membershipId = reading.membership.id ∧ reading.Held state context.permissions

/-- What an open transaction relies on. -/
def Phase.Relies (state : AccessState) : Phase → Prop
  | .building stage => stage.Relies state
  | phase => phase.Holds state.db.access

theorem ContextStage.Relies.grow {stage : ContextStage} (more : List AccessDb)
    (h : stage.Relies state) (hgrow : state'.history = state.history ++ more) :
    stage.Relies state' := by
  cases stage with
  | readMembership userId => trivial
  | readCache reading => exact Reading.At.grow h hgrow
  | readPermissions reading => exact Reading.At.grow h hgrow
  | fillCache reading permissions => exact ⟨h.1.grow hgrow, h.2.grow hgrow⟩
  | readRoles reading permissions => exact ⟨h.1.grow hgrow, h.2.grow hgrow⟩
  | readBranches reading permissions roleIds => exact ⟨h.1.grow hgrow, h.2.grow hgrow⟩
  | built reading context => exact ⟨h.1.grow hgrow, h.2.1, h.2.2.grow hgrow⟩

/-- One statement of `build_tenant_context`. -/
theorem ContextStage.Relies.step {stage : ContextStage} {out : Except Err ContextStage}
    (hcoherent : Coherent state) (h : stage.Relies state)
    (hstep : stage.step state = some (state', out)) :
    Coherent state' ∧ ∀ stage', out = .ok stage' → stage'.Relies state' := by
  cases stage with
  | readMembership userId =>
      simp only [ContextStage.step] at hstep
      split at hstep
      next =>
        cases hstep
        exact ⟨hcoherent, fun stage' hstage => by cases hstage⟩
      next membership hmembership =>
        cases hstep
        refine ⟨hcoherent, fun stage' hstage => ?_⟩
        cases hstage
        exact ⟨state.db.access, by simp [AccessState.history], hmembership⟩
  | readCache reading =>
      simp only [ContextStage.step] at hstep
      split at hstep
      next =>
        cases hstep
        refine ⟨hcoherent, fun stage' hstage => ?_⟩
        cases hstage
        exact h
      next =>
        cases hstep
        refine ⟨hcoherent, fun stage' hstage => ?_⟩
        cases hstage
        exact ⟨h, hcoherent.cached h⟩
  | readPermissions reading =>
      simp only [ContextStage.step] at hstep
      split at hstep
      next =>
        cases hstep
        refine ⟨hcoherent, fun stage' hstage => ?_⟩
        cases hstage
        exact ⟨h, fun code hcode => absurd hcode (Finset.notMem_empty code)⟩
      next =>
        cases hstep
        refine ⟨hcoherent, fun stage' hstage => ?_⟩
        cases hstage
        refine ⟨h, fun code hcode => ⟨state.db.access, ?_, hcode⟩⟩
        -- The newest state is one of those since the row was read.
        obtain ⟨db, hdb, -⟩ := h
        have hlt := (List.getElem?_eq_some_iff.mp hdb).1
        unfold Reading.since
        simp only [AccessState.history, List.length_append, List.length_singleton] at hlt ⊢
        rw [List.drop_append_of_le_length (by omega)]
        exact List.mem_append_right _ (List.mem_singleton_self _)
  | fillCache reading permissions =>
      cases hstep
      refine ⟨hcoherent.fill h.1 h.2, fun stage' hstage => ?_⟩
      cases hstage
      exact h
  | readRoles reading permissions =>
      cases hstep
      refine ⟨hcoherent, fun stage' hstage => ?_⟩
      cases hstage
      exact h
  | readBranches reading permissions roleIds =>
      cases hstep
      refine ⟨hcoherent, fun stage' hstage => ?_⟩
      cases hstage
      exact ⟨h.1, rfl, h.2⟩
  | built reading context => cases hstep

theorem Phase.Relies.run {phase phase' : Phase} {choice : Choice} (hcoherent : Coherent state)
    (h : phase.Relies state) (hrun : run settings state phase choice = some (state', phase')) :
    Coherent state' ∧ phase'.Relies state' := by
  cases phase with
  | building stage =>
      cases choice with
      | row id => cases hrun
      | next =>
          obtain ⟨⟨state₁, out⟩, hstep, heq⟩ := Option.map_eq_some_iff.mp hrun
          cases heq
          obtain ⟨hcoherent', hrelies⟩ := ContextStage.Relies.step hcoherent h hstep
          refine ⟨hcoherent', ?_⟩
          cases out with
          | error e => trivial
          | ok stage' => exact hrelies stage' rfl
  | member context request stage =>
      obtain ⟨out, hstep, heq⟩ := Option.map_eq_some_iff.mp hrun
      cases heq
      refine ⟨hcoherent, ?_⟩
      cases out with
      | error e => trivial
      | ok stage' => exact MemberStage.Relies.step h hstep
  | role context stage =>
      obtain ⟨out, hstep, heq⟩ := Option.map_eq_some_iff.mp hrun
      cases heq
      refine ⟨hcoherent, ?_⟩
      cases out with
      | error e => trivial
      | ok stage' => exact RoleStage.Relies.step hcoherent.consistent h hstep
  | invite context payload stage =>
      cases choice with
      | row id => cases hrun
      | next =>
          obtain ⟨out, hstep, heq⟩ := Option.map_eq_some_iff.mp hrun
          cases heq
          refine ⟨hcoherent, ?_⟩
          cases out with
          | error e => trivial
          | ok stage' => trivial
  | accept payload stage =>
      cases choice with
      | row id => cases hrun
      | next =>
          obtain ⟨out, hstep, heq⟩ := Option.map_eq_some_iff.mp hrun
          cases heq
          refine ⟨hcoherent, ?_⟩
          cases out with
          | error e => trivial
          | ok stage' => exact AcceptStage.Relies.step hstep
  | changeInvitation context invitationId change stage =>
      cases choice with
      | row id => cases hrun
      | next =>
          obtain ⟨out, hstep, heq⟩ := Option.map_eq_some_iff.mp hrun
          cases heq
          refine ⟨hcoherent, ?_⟩
          cases out with
          | error e => trivial
          | ok stage' => trivial
  | _ => cases hrun

theorem Phase.Relies.holds {phase : Phase} (h : phase.Relies state) :
    phase.Holds state.db.access := by
  cases phase with
  | building stage => trivial
  | _ => exact h

theorem Coherent.finish {phase : Phase} (h : Coherent state) (hrelies : phase.Relies state)
    (hfinish : Access.finish settings state phase = some state') : Coherent state' := by
  rcases finish_cases hfinish with ⟨db, hcommit, rfl⟩ | ⟨reading, context, rfl, rfl⟩ |
    ⟨id, version, rfl, rfl⟩ | rfl
  · exact h.commit (hrelies.holds.commits h.consistent hcommit)
  · refine ⟨h.consistent, h.ordered, h.filled, fun served hserved => ?_⟩
    rcases List.mem_append.mp hserved with hserved | hserved
    · exact h.served served hserved
    · rw [List.mem_singleton.mp hserved]
      exact hrelies
  · exact h.expire id version
  · exact h

theorem Phase.Relies.stable {phase other : Phase} (hcoherent : Coherent state)
    (hrelies : phase.Relies state) (hother : other.Relies state)
    (hfree : locksConflict other.locks phase.locks = false)
    (hfinish : finish settings state phase = some state') : other.Relies state' := by
  rcases finish_cases hfinish with ⟨db, hcommit, rfl⟩ | ⟨reading, context, rfl, rfl⟩ |
    ⟨id, version, rfl, rfl⟩ | rfl
  · cases other with
    | building stage => exact ContextStage.Relies.grow _ hother (history_commit state db)
    | _ =>
        exact Phase.Holds.stable hother.holds hfree
          (hrelies.holds.commits hcoherent.consistent hcommit).frame
  · cases other with
    | building stage => exact ContextStage.Relies.grow [] hother (by simp [AccessState.history])
    | _ => exact hother
  · cases other with
    | building stage => exact ContextStage.Relies.grow [] hother (by simp [AccessState.history])
    | _ => exact hother
  · exact hother

theorem sound_cache (settings : Settings) :
    (protocol settings).Sound (fun _ _ => True) Coherent (fun state phase => phase.Relies state) where
  start state request _ := by
    cases request with
    | member context request =>
        show (start (.member context request)).Relies state
        simp only [start]
        split
        · trivial
        · trivial
    | _ => trivial
  run state phase choice state' phase' h hrelies hrun := by
    exact Phase.Relies.run h hrelies hrun
  run_stable state phase choice state' phase' other h hrelies hother hrun := by
    obtain ⟨hdb, hpast⟩ := run_tables hrun
    cases other with
    | building stage =>
        exact ContextStage.Relies.grow [] hother (by simp [AccessState.history, hdb, hpast])
    | _ =>
        have hholds := hother.holds
        rw [← hdb] at hholds
        exact hholds
  finish state phase state' h hrelies _ hfinish := h.finish hrelies hfinish
  finish_stable state phase state' other h hrelies _ hother hfree hfinish :=
    Phase.Relies.stable h hrelies hother hfree hfinish

/-! ## Every interleaving -/

/-- The tables of a tenant, with an empty cache. -/
def AccessState.initial (db : MembersDb) : AccessState := ⟨db, fun _ _ => ∅, [], []⟩

theorem coherent_initial (hdb : mdb.access.Consistent) : Coherent (.initial mdb) :=
  ⟨hdb, List.pairwise_singleton _ _, nofun, nofun⟩

/-- In every interleaving of `build_tenant_context` with role updates, role assignments, status
changes and accepted invitations: the membership of a context that was served is the one that
some committed state had, and each of its permissions was held in that state or in a later
one. -/
theorem served_permissions {settings : Settings} {db : MembersDb} (hdb : db.access.Consistent)
    {s : Interleaved AccessState Phase}
    (h : (protocol settings).Reaches (Protocol.init (.initial db)) s) :
    ∀ served ∈ s.committed.served,
      (∃ found, s.committed.history[served.reading.seen]? = some found ∧
        found.getActiveMembership served.reading.userId = some served.reading.membership) ∧
      served.context.membershipId = served.reading.membership.id ∧
      ∀ code ∈ served.context.permissions, ∃ later ∈ s.committed.history.drop served.reading.seen,
        code ∈ later.getPermissions served.context.membershipId := by
  intro served hserved
  have hinv := (sound_cache settings).runs h (.init (coherent_initial hdb))
  obtain ⟨hread, hid, hheld⟩ := hinv.committed.served served hserved
  refine ⟨hread, hid, fun code hcode => ?_⟩
  rw [hid]
  exact hheld code hcode

/-- A clerk who may read sales. -/
def oneClerk : MembersDb :=
  { access :=
      { tenantId := 1, branches := [], memberships := [⟨1, 2, .active, 0⟩]
        memberships_nodup := by decide
        membershipBranches := []
        membershipRoles := [(1, 10)]
        roles := [⟨10, "CLERK", "Clerk", false⟩]
        systemRoles_nodup := by decide
        rolePermissions := [(10, "sales.read")] }
    users := .empty _
    invitations := .empty _ }

theorem oneClerk_consistent : oneClerk.access.Consistent := by
  constructor
  · intro id roleId hmem
    obtain ⟨rfl, rfl⟩ : id = 1 ∧ roleId = 10 := by simpa [oneClerk] using hmem
    decide
  · intro id roleId hmem
    obtain ⟨rfl, rfl⟩ : id = 1 ∧ roleId = 10 := by simpa [oneClerk] using hmem
    decide

/-- A context is built while the role loses its permission: the old permission goes into the
cache after the commit. -/
def staleFill : List (TxAction Request Choice) :=
  [.begin 1 (.buildTenantContext 2), .run 1 .next, .run 1 .next, .run 1 .next,
   .begin 2 (.updateRole ⟨1, 3, 4, ∅, ∅, none⟩ 10 ⟨none, some ∅⟩), .run 2 .next, .run 2 .next,
   .run 2 .next, .run 2 .next, .run 2 (.row 1), .finish 2,
   .run 1 .next, .run 1 .next, .run 1 .next, .finish 1,
   .begin 3 (.buildTenantContext 2), .run 3 .next, .run 3 .next, .run 3 .next, .run 3 .next,
   .run 3 .next, .finish 3]

/-- The next context reads the new version, and is served nothing. -/
theorem served_permissions_stale : ∃ s : Interleaved AccessState Phase,
    (protocol ⟨∅, 7⟩).Reaches (Protocol.init (.initial oneClerk)) s ∧
      (s.committed.served.map fun served =>
        (served.reading.membership.rolesVersion, served.context.permissions)) =
          [(0, {"sales.read"}), (1, ∅)] ∧
      ∀ served ∈ s.committed.served, ∀ code ∈ served.context.permissions,
        ∃ later ∈ s.committed.history.drop served.reading.seen,
          code ∈ later.getPermissions served.context.membershipId := by
  have hsome : (staleFill.foldlM (protocol ⟨∅, 7⟩).step
      (Protocol.init (.initial oneClerk))).isSome := by decide +kernel
  obtain ⟨s, hs⟩ := Option.isSome_iff_exists.mp hsome
  have hfacts : (staleFill.foldlM (protocol ⟨∅, 7⟩).step
      (Protocol.init (.initial oneClerk))).all fun s =>
        (s.committed.served.map fun served =>
          (served.reading.membership.rolesVersion, served.context.permissions)) =
            [(0, {"sales.read"}), (1, ∅)] := by decide +kernel
  rw [hs, Option.all_some, decide_eq_true_eq] at hfacts
  have hreaches := Protocol.Reaches.of_foldlM staleFill hs
  refine ⟨s, hreaches, hfacts, fun served hserved => ?_⟩
  exact (served_permissions oneClerk_consistent hreaches served hserved).2.2

end Nexora.Access
