import Nexora.Access.Tables
import Nexora.Foundations.Runs
import Mathlib.Data.Finset.Sort

/-!
# The last owner

`update_roles`, `update_status` and `remove` of `app/modules/members/service.py`
as concurrent transactions under `READ COMMITTED`.

Each request locks the membership row it acts on (`_get_locked`), reads its
record, and checks.  A request that takes `OWNER` away from an active membership
counts the active owners first (`_require_another_owner`) and raises unless there
are two.  The count reads committed rows and locks none of them.  So two requests
on two different owners can both count two, and both commit
(`owners_both_removed`).

`Spares` is the condition under which that does not happen: a request passes its
count only while some active owner is neither its own target nor the target of
another request that has counted and is still open.  The invariant `Guarded`
carries the argument: the owner that was spared is still there when the last of
them commits.
-/

namespace Nexora.Access

open Nexora

/-- Transactions. -/
abbrev Tid := Nat

/-! ## Requests -/

/-- `MemberRecord`: a membership and the roles read with it. -/
structure MemberRecord where
  membership : Membership
  roleIds : Finset Uuid
deriving DecidableEq

/-- `MemberRepository.get`. -/
def AccessDb.record (db : AccessDb) (membershipId : Uuid) : Option MemberRecord :=
  (db.member membershipId).map fun m => ⟨m, db.getRoleIds membershipId⟩

inductive MemberRequest where
  | updateRoles (membershipId : Uuid) (roleIds : Finset Uuid)
  | updateStatus (membershipId : Uuid) (status : MembershipStatus)
  | remove (membershipId : Uuid)

/-- The membership a request acts on. -/
def MemberRequest.target : MemberRequest → Uuid
  | .updateRoles id _ => id
  | .updateStatus id _ => id
  | .remove id => id

/-- What a request raises before its transaction. -/
def MemberRequest.accept (context : TenantContext) : MemberRequest → Except Err Unit
  | .updateRoles id _ =>
      if id = context.membershipId then
        .error (.permissionDenied "CANNOT_MODIFY_OWN_ROLES" "You cannot modify your own roles.")
      else .ok ()
  | .updateStatus _ status =>
      if status = .invited then
        .error (.domainValidation "INVALID_STATE_TRANSITION"
          "A membership cannot transition back to invited.")
      else .ok ()
  | .remove _ => .ok ()

/-- `record.membership.status == ACTIVE and owner_role_id in record.role_ids`. -/
def MemberRecord.isActiveOwner (record : MemberRecord) (owner : Option Uuid) : Bool :=
  record.membership.status = .active && owner.any (· ∈ record.roleIds)

/-- The request takes `OWNER` away from an active membership. -/
def MemberRequest.takesOwner (owner : Option Uuid) (record : MemberRecord) :
    MemberRequest → Bool
  | .updateRoles _ roleIds => record.isActiveOwner owner && !owner.any (· ∈ roleIds)
  | .updateStatus _ status => status ≠ .active && record.isActiveOwner owner
  | .remove _ => record.isActiveOwner owner

/-- `MemberService._require_another_owner`. -/
def AccessDb.requireAnotherOwner (db : AccessDb) : Except Err Unit :=
  if db.activeOwnerCount ≤ 1 then
    .error (.conflict "LAST_OWNER_REQUIRED" "The last active OWNER cannot be removed.")
  else .ok ()

/-- `MemberRepository.roles`: the requested roles that exist. -/
def AccessDb.existingRoles (db : AccessDb) (roleIds : Finset Uuid) : Finset Uuid :=
  roleIds.filter fun id => db.roles.any (·.id = id)

/-- `MemberRepository.role_permissions`. -/
def AccessDb.permissionsOf (db : AccessDb) (roleIds : Finset Uuid) : Finset String :=
  ((db.rolePermissions.filter (·.1 ∈ roleIds)).map Prod.snd).toFinset

/-- The checks on the request itself, after the row lock. -/
def MemberRequest.validate (db : AccessDb) (context : TenantContext) (record : MemberRecord) :
    MemberRequest → Except Err Unit
  | .updateRoles _ roleIds =>
      if db.existingRoles roleIds ≠ roleIds then
        .error (.domainValidation "VALIDATION_ERROR" "One or more roles are invalid.")
      else if ¬db.permissionsOf roleIds ⊆ context.permissions then
        .error (.permissionDenied "CANNOT_GRANT_UNHELD_PERMISSION"
          "You cannot grant permissions you do not hold.")
      else if db.ownerRoleId.any (· ∈ roleIds) && !db.ownerRoleId.any (· ∈ context.roleIds) then
        .error (.permissionDenied "CANNOT_GRANT_UNHELD_PERMISSION"
          "Only an OWNER can assign OWNER.")
      else .ok ()
  | .updateStatus _ _ =>
      if record.membership.status = .revoked then
        .error (.conflict "INVALID_STATE_TRANSITION" "A revoked membership cannot be restored.")
      else .ok ()
  | .remove _ => .ok ()

/-- The checks between the row lock and the write.  The value says whether the
request went through `_require_another_owner`. -/
def MemberRequest.check (db : AccessDb) (context : TenantContext) (record : MemberRecord)
    (request : MemberRequest) : Except Err Bool := do
  request.validate db context record
  if request.takesOwner db.ownerRoleId record then
    (do db.requireAnotherOwner; return true)
  else
    return false

/-! ## Writes -/

/-- A membership row changed in place. -/
def AccessDb.modifyMember (db : AccessDb) (id : Uuid) (f : Membership → Membership)
    (hf : ∀ m, (f m).id = m.id) : AccessDb :=
  { db with
    memberships := db.memberships.map fun m => if m.id = id then f m else m
    memberships_nodup := by
      have hids : (db.memberships.map fun m => if m.id = id then f m else m).map Membership.id =
          db.memberships.map Membership.id := by
        rw [List.map_map]
        refine List.map_congr_left fun m _ => ?_
        simp only [Function.comp_apply]
        split
        · exact hf m
        · rfl
      rw [hids]
      exact db.memberships_nodup }

/-- The update both status requests send. -/
def AccessDb.setStatus (db : AccessDb) (record : MemberRecord) (id : Uuid)
    (status : MembershipStatus) : AccessDb :=
  db.modifyMember id
    (fun m => { m with status := status, rolesVersion := record.membership.rolesVersion + 1 })
    fun _ => rfl

/-- `DELETE` of the roles of a membership and `INSERT` of the new ones. -/
def AccessDb.setRoles (db : AccessDb) (id : Uuid) (roleIds : Finset Uuid) : AccessDb :=
  { db with membershipRoles :=
      db.membershipRoles.filter (·.1 ≠ id) ++ roleIds.sort.map fun r => (id, r) }

/-- `MemberRepository.replace_roles`. -/
def AccessDb.replaceRoles (db : AccessDb) (record : MemberRecord) (id : Uuid)
    (roleIds : Finset Uuid) : AccessDb :=
  (db.setRoles id roleIds).modifyMember id
    (fun m => { m with rolesVersion := record.membership.rolesVersion + 1 }) fun _ => rfl

/-- What a request that passed its checks commits. -/
def MemberRequest.write (db : AccessDb) (record : MemberRecord) : MemberRequest → AccessDb
  | .updateRoles id roleIds => db.replaceRoles record id roleIds
  | .updateStatus id status => db.setStatus record id status
  | .remove id =>
      if record.membership.status = .revoked then db else db.setStatus record id .revoked

/-! ## The system -/

/-- How far a transaction has come. -/
inductive MemberPhase where
  /-- Before `SELECT ... FOR UPDATE`. -/
  | started
  /-- Holds the row lock, with the record it read. -/
  | locked (record : MemberRecord)
  /-- Past its checks; `counted` if it went through `_require_another_owner`. -/
  | passed (record : MemberRecord) (counted : Bool)

structure MemberTx where
  context : TenantContext
  request : MemberRequest
  phase : MemberPhase

/-- Committed tables, row locks on memberships, and open transactions. -/
structure MemberSystem where
  db : AccessDb
  locks : Uuid → Option Tid
  txs : Tid → Option MemberTx

inductive MemberAction where
  | begin (t : Tid) (context : TenantContext) (request : MemberRequest)
  | lock (t : Tid)
  | check (t : Tid)
  | commit (t : Tid)
  | abort (t : Tid)

/-- The end of a transaction: its locks are free again. -/
def MemberSystem.finish (s : MemberSystem) (t : Tid) : MemberSystem :=
  { s with
    locks := fun id => if s.locks id = some t then none else s.locks id
    txs := Function.update s.txs t none }

def MemberSystem.setPhase (s : MemberSystem) (t : Tid) (tx : MemberTx) (phase : MemberPhase) :
    MemberSystem :=
  { s with txs := Function.update s.txs t (some { tx with phase := phase }) }

/-- One statement of one transaction.  `none` is a step that is not enabled, such
as a lock another transaction holds. -/
def MemberSystem.step (s : MemberSystem) : MemberAction → Option MemberSystem
  | .begin t context request =>
      match s.txs t, request.accept context with
      | none, .ok () =>
          some { s with txs := Function.update s.txs t (some ⟨context, request, .started⟩) }
      | _, _ => none
  | .lock t =>
      match s.txs t with
      | some ⟨context, request, .started⟩ =>
          match s.locks request.target, s.db.record request.target with
          | some _, _ => none
          -- `NotFoundError`
          | none, none => some (s.finish t)
          | none, some record =>
              some { s.setPhase t ⟨context, request, .started⟩ (.locked record) with
                locks := Function.update s.locks request.target (some t) }
      | _ => none
  | .check t =>
      match s.txs t with
      | some ⟨context, request, .locked record⟩ =>
          match request.check s.db context record with
          | .error _ => some (s.finish t)
          | .ok counted => some (s.setPhase t ⟨context, request, .locked record⟩
              (.passed record counted))
      | _ => none
  | .commit t =>
      match s.txs t with
      | some ⟨_, request, .passed record _⟩ =>
          some { s.finish t with db := request.write s.db record }
      | _ => none
  | .abort t =>
      match s.txs t with
      | some _ => some (s.finish t)
      | none => none

/-- The membership is the target of an open request that has counted the owners. -/
def MemberSystem.Claimed (s : MemberSystem) (id : Uuid) : Prop :=
  ∃ t context request record,
    s.txs t = some ⟨context, request, .passed record true⟩ ∧ request.target = id

/-- A request that passes its count spares an active owner: one who is neither
its target nor the target of another open request that has counted. -/
def MemberSystem.Spares (s : MemberSystem) : MemberAction → Prop
  | .check t => ∀ context request record,
      s.txs t = some ⟨context, request, .locked record⟩ →
      request.check s.db context record = .ok true →
      ∃ id ∈ s.db.activeOwners, id ≠ request.target ∧ ¬s.Claimed id
  | _ => True

/-! ## Records and owners -/

theorem AccessDb.mem_activeOwners_iff_record {db : AccessDb} {id : Uuid} :
    id ∈ db.activeOwners ↔
      ∃ record, db.record id = some record ∧ record.isActiveOwner db.ownerRoleId = true := by
  rw [mem_activeOwners]
  unfold record MemberRecord.isActiveOwner
  cases hm : db.member id with
  | none => simp
  | some m =>
      cases ho : db.ownerRoleId with
      | none => simp
      | some owner => simp

theorem AccessDb.member_modifyMember (db : AccessDb) (id id' : Uuid)
    (f : Membership → Membership) (hf : ∀ m, (f m).id = m.id) :
    (db.modifyMember id f hf).member id' =
      (db.member id').map fun m => if m.id = id then f m else m := by
  unfold member modifyMember
  rw [List.find?_map]
  congr 2
  funext m
  simp only [Function.comp_apply]
  split
  · rw [hf]
  · rfl

theorem AccessDb.record_modifyMember (db : AccessDb) (id id' : Uuid)
    (f : Membership → Membership) (hf : ∀ m, (f m).id = m.id) :
    (db.modifyMember id f hf).record id' = (db.record id').map fun r =>
      if id' = id then ⟨f r.membership, r.roleIds⟩ else r := by
  unfold record
  rw [member_modifyMember]
  cases hm : db.member id' with
  | none => rfl
  | some m =>
      have hid := db.member_id hm
      subst hid
      simp only [Option.map_some]
      split
      · rfl
      · rfl

theorem AccessDb.record_setRoles (db : AccessDb) (id id' : Uuid) (roleIds : Finset Uuid) :
    (db.setRoles id roleIds).record id' = (db.record id').map fun r =>
      if id' = id then ⟨r.membership, roleIds⟩ else r := by
  have hroles : (db.setRoles id roleIds).getRoleIds id' =
      if id' = id then roleIds else db.getRoleIds id' := by
    ext r
    simp only [getRoleIds, setRoles, List.mem_toFinset, List.mem_map, List.mem_filter,
      List.mem_append, Prod.exists, decide_eq_true_eq, Finset.mem_sort, Prod.mk.injEq]
    split
    next h => subst h; simp
    next h =>
      have h' : id ≠ id' := fun e => h e.symm
      simp [h, h']
  have hmember : (db.setRoles id roleIds).member id' = db.member id' := rfl
  unfold record
  rw [hroles, hmember]
  cases db.member id' with
  | none => rfl
  | some m =>
      simp only [Option.map_some]
      split
      · rfl
      · rfl

/-- The record of the target after a request that found `record`. -/
def MemberRequest.rewritten (record : MemberRecord) : MemberRequest → MemberRecord
  | .updateRoles _ roleIds =>
      ⟨{ record.membership with rolesVersion := record.membership.rolesVersion + 1 }, roleIds⟩
  | .updateStatus _ status =>
      ⟨{ record.membership with
          status := status
          rolesVersion := record.membership.rolesVersion + 1 }, record.roleIds⟩
  | .remove _ =>
      if record.membership.status = .revoked then record
      else
        ⟨{ record.membership with
            status := .revoked
            rolesVersion := record.membership.rolesVersion + 1 }, record.roleIds⟩

/-- A write rewrites the record of its target and leaves the others alone. -/
theorem MemberRequest.record_write {db : AccessDb} {record : MemberRecord}
    {request : MemberRequest} (h : db.record request.target = some record) (id : Uuid) :
    (request.write db record).record id =
      if id = request.target then some (request.rewritten record) else db.record id := by
  cases request with
  | updateStatus target' status =>
      simp only [write, AccessDb.setStatus, AccessDb.record_modifyMember, target] at h ⊢
      by_cases hid : id = target'
      · simp [hid, h, rewritten]
      · simp [hid]
  | remove target' =>
      simp only [target] at h ⊢
      simp only [write, rewritten]
      by_cases hrev : record.membership.status = .revoked
      · simp only [hrev, if_true]
        by_cases hid : id = target'
        · simp [hid, h]
        · simp [hid]
      · simp only [hrev, if_false, AccessDb.setStatus, AccessDb.record_modifyMember]
        by_cases hid : id = target'
        · simp [hid, h]
        · simp [hid]
  | updateRoles target' roleIds =>
      simp only [write, AccessDb.replaceRoles, AccessDb.record_modifyMember,
        AccessDb.record_setRoles, target] at h ⊢
      by_cases hid : id = target'
      · simp [hid, h, rewritten]
      · simp [hid]

@[simp] theorem MemberRequest.ownerRoleId_write (db : AccessDb) (record : MemberRecord)
    (request : MemberRequest) : (request.write db record).ownerRoleId = db.ownerRoleId := by
  cases request with
  | updateRoles _ _ => rfl
  | updateStatus _ _ => rfl
  | remove _ =>
      simp only [write]
      split
      · rfl
      · rfl

/-- A request that does not take `OWNER` leaves an active owner one. -/
theorem MemberRequest.isActiveOwner_rewritten {owner : Option Uuid} {record : MemberRecord}
    {request : MemberRequest} (hkeep : request.takesOwner owner record = false)
    (howner : record.isActiveOwner owner = true) :
    (request.rewritten record).isActiveOwner owner = true := by
  cases request with
  | remove _ => simp [takesOwner, howner] at hkeep
  | updateStatus _ status =>
      simp only [takesOwner, howner, Bool.and_true, decide_eq_false_iff_not, not_not] at hkeep
      simp only [MemberRecord.isActiveOwner, Bool.and_eq_true] at howner
      simpa [rewritten, MemberRecord.isActiveOwner, hkeep] using howner.2
  | updateRoles _ roleIds =>
      simp only [takesOwner, howner, Bool.true_and, Bool.not_eq_false'] at hkeep
      simp only [MemberRecord.isActiveOwner, Bool.and_eq_true, decide_eq_true_eq] at howner
      simpa [rewritten, MemberRecord.isActiveOwner, howner.1] using hkeep

/-- Owners other than the target stay owners through a write. -/
theorem MemberRequest.mem_activeOwners_write_of_ne {db : AccessDb} {record : MemberRecord}
    {request : MemberRequest} (h : db.record request.target = some record) {id : Uuid}
    (hid : id ≠ request.target) (ho : id ∈ db.activeOwners) :
    id ∈ (request.write db record).activeOwners := by
  rw [AccessDb.mem_activeOwners_iff_record] at ho ⊢
  rw [record_write h, if_neg hid, ownerRoleId_write]
  exact ho

/-- A write that does not take `OWNER` loses no owner. -/
theorem MemberRequest.activeOwners_subset_write {db : AccessDb} {record : MemberRecord}
    {request : MemberRequest} (h : db.record request.target = some record)
    (hkeep : request.takesOwner db.ownerRoleId record = false) :
    db.activeOwners ⊆ (request.write db record).activeOwners := by
  intro id ho
  by_cases hid : id = request.target
  · rw [AccessDb.mem_activeOwners_iff_record] at ho ⊢
    obtain ⟨r, hr, howner⟩ := ho
    rw [hid, h] at hr
    cases hr
    rw [record_write h, if_pos hid, ownerRoleId_write]
    exact ⟨_, rfl, isActiveOwner_rewritten hkeep howner⟩
  · exact mem_activeOwners_write_of_ne h hid ho

/-- A request that did not count takes no `OWNER` away. -/
theorem MemberRequest.check_ok {db : AccessDb} {context : TenantContext}
    {record : MemberRecord} {request : MemberRequest} {counted : Bool}
    (h : request.check db context record = .ok counted) :
    request.takesOwner db.ownerRoleId record = counted := by
  unfold check at h
  obtain ⟨-, -, h⟩ := Foundations.bind_eq_ok.mp h
  split at h
  next htakes =>
    obtain ⟨-, -, h⟩ := Foundations.bind_eq_ok.mp h
    cases h
    exact htakes
  next htakes =>
    cases h
    exact Bool.eq_false_iff.mpr htakes

/-! ## The invariant -/

/-- The record a transaction read under its lock. -/
def MemberPhase.record : MemberPhase → Option MemberRecord
  | .started => none
  | .locked record => some record
  | .passed record _ => some record

/-- Open transactions hold the row they read, and some active owner is out of
reach of those that will take `OWNER` away. -/
structure MemberSystem.Guarded (s : MemberSystem) : Prop where
  spare : ∃ id ∈ s.db.activeOwners, ¬s.Claimed id
  held : ∀ t tx record, s.txs t = some tx → tx.phase.record = some record →
    s.locks tx.request.target = some t ∧ s.db.record tx.request.target = some record
  kept : ∀ t context request record, s.txs t = some ⟨context, request, .passed record false⟩ →
    request.takesOwner s.db.ownerRoleId record = false

/-- Everything one statement can do. -/
theorem MemberSystem.step_cases {s s' : MemberSystem} {a : MemberAction}
    (h : s.step a = some s') :
    (∃ t context request, s.txs t = none ∧
      s' = { s with txs := Function.update s.txs t (some ⟨context, request, .started⟩) }) ∨
    (∃ t, s' = s.finish t) ∨
    (∃ t context request record, s.txs t = some ⟨context, request, .started⟩ ∧
      s.locks request.target = none ∧ s.db.record request.target = some record ∧
      s' = { s.setPhase t ⟨context, request, .started⟩ (.locked record) with
        locks := Function.update s.locks request.target (some t) }) ∨
    (∃ t context request record counted, a = .check t ∧
      s.txs t = some ⟨context, request, .locked record⟩ ∧
      request.check s.db context record = .ok counted ∧
      s' = s.setPhase t ⟨context, request, .locked record⟩ (.passed record counted)) ∨
    (∃ t context request record counted,
      s.txs t = some ⟨context, request, .passed record counted⟩ ∧
      s' = { s.finish t with db := request.write s.db record }) := by
  cases a with
  | begin t context request =>
      simp only [step] at h
      split at h
      next hnone _ =>
        cases h
        exact .inl ⟨t, context, request, hnone, rfl⟩
      next => cases h
  | lock t =>
      simp only [step] at h
      split at h
      next context request htx =>
        split at h
        next => cases h
        next =>
          cases h
          exact .inr (.inl ⟨t, rfl⟩)
        next record hlock hrecord =>
          cases h
          exact .inr (.inr (.inl ⟨t, context, request, record, htx, hlock, hrecord, rfl⟩))
      next => cases h
  | check t =>
      simp only [step] at h
      split at h
      next context request record htx =>
        split at h
        next =>
          cases h
          exact .inr (.inl ⟨t, rfl⟩)
        next counted hcheck =>
          cases h
          exact .inr (.inr (.inr (.inl
            ⟨t, context, request, record, counted, rfl, htx, hcheck, rfl⟩)))
      next => cases h
  | commit t =>
      simp only [step] at h
      split at h
      next context request record counted htx =>
        cases h
        exact .inr (.inr (.inr (.inr ⟨t, context, request, record, counted, htx, rfl⟩)))
      next => cases h
  | abort t =>
      simp only [step] at h
      split at h
      next =>
        cases h
        exact .inr (.inl ⟨t, rfl⟩)
      next => cases h

namespace MemberSystem.Guarded

variable {s : MemberSystem} {t : Tid} {context : TenantContext} {request : MemberRequest}
  {record : MemberRecord} {counted : Bool}

/-- A step that adds no counted request adds no claim. -/
theorem claimed_of_update {s s' : MemberSystem} {t : Tid} {id : Uuid} {new : Option MemberTx}
    (htxs : s'.txs = Function.update s.txs t new) (h : s'.Claimed id)
    (hnew : ∀ context request record, new ≠ some ⟨context, request, .passed record true⟩) :
    s.Claimed id := by
  obtain ⟨t', context, request, record, htx, htarget⟩ := h
  rw [htxs] at htx
  rcases Foundations.update_eq_some.mp htx with ⟨-, heq⟩ | ⟨-, hold⟩
  · exact absurd heq (hnew context request record)
  · exact ⟨t', context, request, record, hold, htarget⟩

theorem begin (h : s.Guarded) :
    Guarded { s with txs := Function.update s.txs t (some ⟨context, request, .started⟩) } where
  spare := by
    obtain ⟨id, howner, hfree⟩ := h.spare
    exact ⟨id, howner, fun hclaim => hfree (claimed_of_update rfl hclaim nofun)⟩
  held := by
    intro t' tx' record' htx hrec
    rcases Foundations.update_eq_some.mp htx with ⟨-, hnew⟩ | ⟨-, hold⟩
    · cases hnew
      cases hrec
    · exact h.held t' tx' record' hold hrec
  kept := by
    intro t' context' request' record' htx
    rcases Foundations.update_eq_some.mp htx with ⟨-, hnew⟩ | ⟨-, hold⟩
    · cases hnew
    · exact h.kept t' context' request' record' hold

/-- The lock of another transaction outlives the end of `t`. -/
theorem locks_finish (h : s.Guarded) {t' : Tid} {tx' : MemberTx} {record' : MemberRecord}
    (hne : t' ≠ t) (htx : s.txs t' = some tx') (hrec : tx'.phase.record = some record') :
    (s.finish t).locks tx'.request.target = some t' := by
  have hlock := (h.held t' tx' record' htx hrec).1
  simp only [finish, hlock, Option.some.injEq, hne, if_false]

theorem finish (h : s.Guarded) : (s.finish t).Guarded where
  spare := by
    obtain ⟨id, howner, hfree⟩ := h.spare
    exact ⟨id, howner, fun hclaim => hfree (claimed_of_update rfl hclaim nofun)⟩
  held := by
    intro t' tx' record' htx hrec
    rcases Foundations.update_eq_some.mp htx with ⟨-, hnew⟩ | ⟨hne, hold⟩
    · cases hnew
    · exact ⟨h.locks_finish hne hold hrec, (h.held t' tx' record' hold hrec).2⟩
  kept := by
    intro t' context' request' record' htx
    rcases Foundations.update_eq_some.mp htx with ⟨-, hnew⟩ | ⟨-, hold⟩
    · cases hnew
    · exact h.kept t' context' request' record' hold

theorem lock (h : s.Guarded) (hnone : s.locks request.target = none)
    (hrecord : s.db.record request.target = some record) :
    Guarded { s.setPhase t ⟨context, request, .started⟩ (.locked record) with
      locks := Function.update s.locks request.target (some t) } where
  spare := by
    obtain ⟨id, howner, hfree⟩ := h.spare
    exact ⟨id, howner, fun hclaim => hfree (claimed_of_update rfl hclaim nofun)⟩
  held := by
    intro t' tx' record' htx hrec
    rcases Foundations.update_eq_some.mp htx with ⟨rfl, hnew⟩ | ⟨-, hold⟩
    · cases hnew
      cases hrec
      exact ⟨Function.update_self .., hrecord⟩
    · obtain ⟨hlock, hrow⟩ := h.held t' tx' record' hold hrec
      have hne : tx'.request.target ≠ request.target := by
        intro heq
        rw [heq, hnone] at hlock
        cases hlock
      exact ⟨by simpa only [Function.update_of_ne hne] using hlock, hrow⟩
  kept := by
    intro t' context' request' record' htx
    rcases Foundations.update_eq_some.mp htx with ⟨-, hnew⟩ | ⟨-, hold⟩
    · cases hnew
    · exact h.kept t' context' request' record' hold

theorem check (h : s.Guarded) (htx : s.txs t = some ⟨context, request, .locked record⟩)
    (hcheck : request.check s.db context record = .ok counted)
    (hspares : counted = true → ∃ id ∈ s.db.activeOwners, id ≠ request.target ∧ ¬s.Claimed id) :
    (s.setPhase t ⟨context, request, .locked record⟩ (.passed record counted)).Guarded where
  spare := by
    -- A request that counted needs the owner it spares; any other keeps the old one.
    have hid : ∃ id ∈ s.db.activeOwners, (counted = true → id ≠ request.target) ∧
        ¬s.Claimed id := by
      cases counted with
      | true =>
          obtain ⟨id, howner, hne, hfree⟩ := hspares rfl
          exact ⟨id, howner, fun _ => hne, hfree⟩
      | false =>
          obtain ⟨id, howner, hfree⟩ := h.spare
          exact ⟨id, howner, (fun hc => by cases hc), hfree⟩
    obtain ⟨id, howner, hne, hfree⟩ := hid
    refine ⟨id, howner, ?_⟩
    rintro ⟨t', context', request', record', htx', htarget⟩
    rcases Foundations.update_eq_some.mp htx' with ⟨-, hnew⟩ | ⟨-, hold⟩
    · cases hnew
      exact hne rfl htarget.symm
    · exact hfree ⟨t', context', request', record', hold, htarget⟩
  held := by
    intro t' tx' record' htx' hrec
    rcases Foundations.update_eq_some.mp htx' with ⟨rfl, hnew⟩ | ⟨-, hold⟩
    · cases hnew
      cases hrec
      exact h.held t' ⟨context, request, .locked record⟩ record htx rfl
    · exact h.held t' tx' record' hold hrec
  kept := by
    intro t' context' request' record' htx'
    rcases Foundations.update_eq_some.mp htx' with ⟨-, hnew⟩ | ⟨-, hold⟩
    · cases hnew
      exact MemberRequest.check_ok hcheck
    · exact h.kept t' context' request' record' hold

theorem commit (h : s.Guarded)
    (htx : s.txs t = some ⟨context, request, .passed record counted⟩) :
    Guarded { s.finish t with db := request.write s.db record } where
  spare := by
    have hrow := (h.held t _ record htx rfl).2
    obtain ⟨id, howner, hfree⟩ := h.spare
    refine ⟨id, ?_, ?_⟩
    · cases counted with
      | true =>
          have hne : id ≠ request.target := by
            intro heq
            exact hfree ⟨t, context, request, record, htx, heq.symm⟩
          exact MemberRequest.mem_activeOwners_write_of_ne hrow hne howner
      | false =>
          exact MemberRequest.activeOwners_subset_write hrow
            (h.kept t context request record htx) howner
    · exact fun hclaim => hfree (claimed_of_update rfl hclaim nofun)
  held := by
    intro t' tx' record' htx' hrec
    rcases Foundations.update_eq_some.mp htx' with ⟨-, hnew⟩ | ⟨hne, hold⟩
    · cases hnew
    · refine ⟨h.locks_finish hne hold hrec, ?_⟩
      obtain ⟨hlock, hrow⟩ := h.held t _ record htx rfl
      obtain ⟨hlock', hrow'⟩ := h.held t' tx' record' hold hrec
      have htarget : tx'.request.target ≠ request.target := by
        intro heq
        rw [heq] at hlock'
        exact hne (Option.some.inj (hlock'.symm.trans hlock))
      simpa only [MemberRequest.record_write hrow, if_neg htarget] using hrow'
  kept := by
    intro t' context' request' record' htx'
    rcases Foundations.update_eq_some.mp htx' with ⟨-, hnew⟩ | ⟨-, hold⟩
    · cases hnew
    · simpa only [MemberRequest.ownerRoleId_write] using
        h.kept t' context' request' record' hold

theorem step {s s' : MemberSystem} {a : MemberAction} (h : s.Guarded) (hg : s.Spares a)
    (hs : s.step a = some s') : s'.Guarded := by
  rcases step_cases hs with ⟨t, context, request, -, rfl⟩ | ⟨t, rfl⟩ |
    ⟨t, context, request, record, -, hfree, hrecord, rfl⟩ |
    ⟨t, context, request, record, counted, rfl, htx, hcheck, rfl⟩ |
    ⟨t, context, request, record, counted, htx, rfl⟩
  · exact h.begin
  · exact h.finish
  · exact h.lock hfree hrecord
  · refine h.check htx hcheck ?_
    rintro rfl
    exact hg context request record htx hcheck
  · exact h.commit htx

end MemberSystem.Guarded

end Nexora.Access
