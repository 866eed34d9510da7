import Nexora.Core.Context
import Mathlib.Data.Finset.Dedup
import Mathlib.Data.Finset.Image
import Mathlib.Data.Finset.Card

/-!
# Access tables

The tables of `app/modules/branches`, `app/modules/tenancy` and
`app/modules/rbac` that decide who may do what: branches, memberships, the
branches and the roles of a membership, roles and their permissions.

A membership is read by its primary key (`AccessDb.member`).  Its owners are
counted by `active_owner_count`, here the size of `AccessDb.activeOwners`.
-/

namespace Nexora.Access

open Nexora

/-! ## Tables -/

/-- A row of `branches`. -/
structure Branch where
  id : Uuid
  code : String
  name : String
  address : Option String
  phone : Option String
  email : Option String
  isActive : Bool
  isDefault : Bool
deriving DecidableEq, Repr

/-- `MembershipStatus`. -/
inductive MembershipStatus where
  | invited
  | active
  | suspended
  | revoked
deriving DecidableEq, Repr

/-- A row of `memberships`. -/
structure Membership where
  id : Uuid
  userId : Uuid
  status : MembershipStatus
  rolesVersion : Nat
deriving DecidableEq, Repr

/-- A row of `roles`.  System roles belong to no tenant. -/
structure Role where
  id : Uuid
  code : String
  name : String
  isSystem : Bool
deriving DecidableEq, Repr

/-- The access tables of one tenant, and the system roles. -/
structure AccessDb where
  tenantId : Uuid
  branches : List Branch
  memberships : List Membership
  /-- `memberships.id` is the primary key. -/
  memberships_nodup : (memberships.map Membership.id).Nodup
  /-- `membership_branches`: membership and branch. -/
  membershipBranches : List (Uuid × Uuid)
  /-- `membership_roles`: membership and role. -/
  membershipRoles : List (Uuid × Uuid)
  roles : List Role
  /-- `uq_roles_system_code`. -/
  systemRoles_nodup : ((roles.filter Role.isSystem).map Role.code).Nodup
  /-- `role_permissions`: role and permission code. -/
  rolePermissions : List (Uuid × String)

/-- `get_role_ids`. -/
def AccessDb.getRoleIds (db : AccessDb) (membershipId : Uuid) : Finset Uuid :=
  ((db.membershipRoles.filter (·.1 = membershipId)).map Prod.snd).toFinset

/-! ## Members and owners -/

/-- The row of `memberships` with this key. -/
def AccessDb.member (db : AccessDb) (id : Uuid) : Option Membership :=
  db.memberships.find? (·.id = id)

/-- `role_ids` names the system role `OWNER`: the role a joined row points to. -/
def AccessDb.isOwnerRole (db : AccessDb) (roleId : Uuid) : Bool :=
  db.roles.any fun r => r.id = roleId && r.code = "OWNER" && r.isSystem

/-- `MemberRepository.owner_role_id`. -/
def AccessDb.ownerRoleId (db : AccessDb) : Option Uuid :=
  (db.roles.find? fun r => r.code = "OWNER" && r.isSystem).map Role.id

/-- The active memberships joined with the role `OWNER`. -/
def AccessDb.activeOwners (db : AccessDb) : Finset Uuid :=
  ((db.memberships.filter fun m =>
    m.status = .active && db.membershipRoles.any fun r => r.1 = m.id && db.isOwnerRole r.2).map
      Membership.id).toFinset

/-- `MemberRepository.active_owner_count`. -/
def AccessDb.activeOwnerCount (db : AccessDb) : Nat := db.activeOwners.card

/-- `uq_roles_system_code` makes the joined role and `owner_role_id` agree. -/
theorem AccessDb.isOwnerRole_iff {db : AccessDb} {roleId : Uuid} :
    db.isOwnerRole roleId = true ↔ db.ownerRoleId = some roleId := by
  unfold isOwnerRole ownerRoleId
  have hnodup := db.systemRoles_nodup
  revert hnodup
  induction db.roles with
  | nil => simp
  | cons head tail ih =>
      intro hnodup
      by_cases hsys : head.isSystem = true
      · rw [List.filter_cons_of_pos hsys, List.map_cons, List.nodup_cons] at hnodup
        by_cases hcode : head.code = "OWNER"
        · have hno : ∀ r ∈ tail, ¬(r.code = "OWNER" ∧ r.isSystem = true) := by
            rintro r hr ⟨hc, hs⟩
            exact hnodup.1 (List.mem_map.mpr
              ⟨r, List.mem_filter.mpr ⟨hr, hs⟩, hc.trans hcode.symm⟩)
          rw [List.find?_cons_of_pos (by simp [hcode, hsys])]
          simp only [List.any_cons, hcode, hsys, decide_true, Bool.and_true, Bool.or_eq_true,
            decide_eq_true_eq, Option.map_some, Option.some.injEq, or_iff_left_iff_imp,
            List.any_eq_true, Bool.and_eq_true]
          rintro ⟨r, hr, ⟨-, hc⟩, hs⟩
          exact absurd ⟨hc, hs⟩ (hno r hr)
        · rw [List.find?_cons_of_neg (by simp [hcode])]
          simpa [hcode] using ih hnodup.2
      · rw [List.filter_cons_of_neg hsys] at hnodup
        rw [List.find?_cons_of_neg (by simp [hsys])]
        simpa [hsys] using ih hnodup

theorem AccessDb.member_id {db : AccessDb} {id : Uuid} {m : Membership}
    (h : db.member id = some m) : m.id = id := by
  have := List.find?_some h
  simpa using this

theorem AccessDb.mem_of_member {db : AccessDb} {id : Uuid} {m : Membership}
    (h : db.member id = some m) : m ∈ db.memberships := List.mem_of_find?_eq_some h

/-- The primary key finds every row. -/
theorem AccessDb.member_of_mem {db : AccessDb} {m : Membership} (h : m ∈ db.memberships) :
    db.member m.id = some m := by
  unfold member
  have hnodup := db.memberships_nodup
  revert h hnodup
  induction db.memberships with
  | nil => intro h; cases h
  | cons head tail ih =>
      intro h hnodup
      rw [List.map_cons, List.nodup_cons] at hnodup
      rcases List.mem_cons.mp h with rfl | htail
      · simp
      · have hne : head.id ≠ m.id := fun e => hnodup.1 (e ▸ List.mem_map_of_mem htail)
        rw [List.find?_cons_of_neg (by simpa using hne)]
        exact ih htail hnodup.2

/-- Ownership read off the row with the key. -/
theorem AccessDb.mem_activeOwners {db : AccessDb} {id : Uuid} :
    id ∈ db.activeOwners ↔ ∃ m, db.member id = some m ∧ m.status = .active ∧
      ∃ r ∈ db.getRoleIds id, db.ownerRoleId = some r := by
  simp only [activeOwners, getRoleIds, ← isOwnerRole_iff, List.mem_toFinset, List.mem_map,
    List.mem_filter, Bool.and_eq_true, decide_eq_true_eq, List.any_eq_true, Prod.exists]
  constructor
  · rintro ⟨m, ⟨hm, hact, m', r, hr, hid, howner⟩, rfl⟩
    exact ⟨m, db.member_of_mem hm, hact, r, ⟨m', r, ⟨hr, hid⟩, rfl⟩, howner⟩
  · rintro ⟨m, hm, hact, r, ⟨m', r', ⟨hr, hid⟩, rfl⟩, howner⟩
    have hmid := db.member_id hm
    exact ⟨m, ⟨db.mem_of_member hm, hact, m', r', hr, hid.trans hmid.symm, howner⟩, hmid⟩

end Nexora.Access
