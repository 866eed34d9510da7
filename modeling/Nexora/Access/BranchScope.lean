import Nexora.Access.Tables
import Nexora.Foundations.Runs
import Mathlib.Data.Finset.Sort

/-!
# Branch scope

A membership is restricted to branches by its rows in `membership_branches`.
`get_branch_scope` joins the rows with the branches that are still active and
returns `values or None`, and `build_tenant_context` puts the result in the
context.  A membership without rows is unrestricted, and `None` is how the
context says so.

The join drops the rows of deactivated branches.  So a membership whose last
active branch is deactivated keeps its rows and gets the scope `None`
(`getBranchScope_eq_none_iff`): the restriction turns into full access.
`confined_iff_covered` says that this is the only way it is lost.

Runs mix branch creations, updates and deactivations with
`MemberService.update_branches`.  `states_confined_iff` characterises the runs
along which every restriction stands.
-/

namespace Nexora.Access

open Nexora

/-! ## Building a context -/

/-- The Redis cache of permission sets, keyed by membership and roles version.
A key that is absent reads as the empty set. -/
abbrev PermCache := Uuid → Nat → Finset String

/-- `get_active_membership`. -/
def AccessDb.getActiveMembership (db : AccessDb) (userId : Uuid) : Option Membership :=
  db.memberships.find? fun m => m.userId = userId && m.status = .active

/-- `get_permissions`. -/
def AccessDb.getPermissions (db : AccessDb) (membershipId : Uuid) : Finset String :=
  ((db.rolePermissions.filter fun r => r.1 ∈ db.getRoleIds membershipId).map Prod.snd).toFinset

/-- The branches a membership's rows name, restricted to the active ones. -/
def AccessDb.scopeValues (db : AccessDb) (membershipId : Uuid) : Finset Uuid :=
  ((db.membershipBranches.filter fun r =>
    r.1 = membershipId && db.branches.any fun b => b.id = r.2 && b.isActive).map Prod.snd).toFinset

/-- `get_branch_scope`: `values or None`. -/
def AccessDb.getBranchScope (db : AccessDb) (membershipId : Uuid) : Option (Finset Uuid) :=
  if db.scopeValues membershipId = ∅ then none else some (db.scopeValues membershipId)

/-- `build_tenant_context`: the context and the cache after the call. -/
def AccessDb.buildTenantContext (db : AccessDb) (cache : PermCache) (userId : Uuid) :
    Except Err (TenantContext × PermCache) :=
  match db.getActiveMembership userId with
  | none => .error (.permissionDenied "NO_ACTIVE_TENANT" "No active tenant membership.")
  | some membership =>
      let cached := cache membership.id membership.rolesVersion
      let permissions := if cached = ∅ then db.getPermissions membership.id else cached
      let cache' := Function.update cache membership.id
        (Function.update (cache membership.id) membership.rolesVersion permissions)
      .ok
        ({ tenantId := db.tenantId
           membershipId := membership.id
           userId := userId
           roleIds := db.getRoleIds membership.id
           permissions := permissions
           branchIds := db.getBranchScope membership.id }, cache')

/-! ## Operations -/

/-- `BranchCreate`. -/
structure BranchCreate where
  code : String
  name : String
  address : Option String
  phone : Option String
  email : Option String

/-- `BranchUpdate` with `exclude_unset`: `none` is a field the request leaves
out, `some v` a field it sets to `v`. -/
structure BranchUpdate where
  name : Option (Option String)
  address : Option (Option String)
  phone : Option (Option String)
  email : Option (Option String)

/-- `BranchService.create` with the identifier `uuid7` drew. -/
def AccessDb.createBranch (db : AccessDb) (id : Uuid) (payload : BranchCreate) :
    Except Err (AccessDb × Unit) :=
  if db.branches.any fun b => b.id = id || b.code = payload.code then
    .error (.conflict "DUPLICATE_RESOURCE" "Branch code already exists.")
  else
    .ok ({ db with branches := db.branches ++ [
      { id := id, code := payload.code, name := payload.name, address := payload.address,
        phone := payload.phone, email := payload.email, isActive := true,
        isDefault := false }] }, ())

/-- The fields a `BranchUpdate` sets, with `setattr` on the loaded row. -/
def BranchUpdate.setFields (payload : BranchUpdate) (b : Branch) : Branch :=
  { b with
    name := (payload.name.getD (some b.name)).getD b.name
    address := payload.address.getD b.address
    phone := payload.phone.getD b.phone
    email := payload.email.getD b.email }

/-- The row of a branch changed in place. -/
def AccessDb.modifyBranch (db : AccessDb) (branchId : Uuid) (f : Branch → Branch) : AccessDb :=
  { db with branches := db.branches.map fun b => if b.id = branchId then f b else b }

/-- `BranchRepository.get`. -/
def AccessDb.getBranch (db : AccessDb) (branchId : Uuid) : Option Branch :=
  db.branches.find? (·.id = branchId)

/-- `BranchService.update`. -/
def AccessDb.updateBranch (db : AccessDb) (context : TenantContext) (branchId : Uuid)
    (payload : BranchUpdate) : Except Err (AccessDb × Unit) := do
  match db.getBranch branchId with
  | none => .error .notFound
  | some branch =>
      context.requireBranch branch.id
      -- `name` is `NOT NULL`, so the flush refuses an explicit null.
      if payload.name = some none then .error (.integrity "name")
      else .ok (db.modifyBranch branchId payload.setFields, ())

/-- `BranchRepository.active_count`. -/
def AccessDb.activeCount (db : AccessDb) : Nat :=
  (db.branches.filter (·.isActive)).length

/-- A branch row after `deactivate`. -/
def Branch.deactivated (b : Branch) : Branch := { b with isActive := false, isDefault := false }

/-- `BranchService.deactivate`. -/
def AccessDb.deactivateBranch (db : AccessDb) (context : TenantContext) (branchId : Uuid) :
    Except Err (AccessDb × Unit) := do
  match db.getBranch branchId with
  | none => .error .notFound
  | some branch =>
      context.requireBranch branch.id
      if !branch.isActive then
        .ok (db, ())
      else if db.activeCount ≤ 1 then
        .error (.conflict "INVALID_STATE_TRANSITION"
          "The last active branch cannot be deactivated.")
      else
        .ok (db.modifyBranch branchId Branch.deactivated, ())

/-- `MemberService._require_grantable_branches`. -/
def requireGrantableBranches (context : TenantContext) (branchIds : Finset Uuid) :
    Except Err Unit :=
  match context.branchIds with
  | none => .ok ()
  | some held =>
      if branchIds = ∅ ∨ ¬branchIds ⊆ held then
        .error (.permissionDenied "CANNOT_GRANT_UNHELD_BRANCH"
          "You cannot grant branch access you do not hold.")
      else .ok ()

/-- `MemberRepository.active_branch_ids`. -/
def AccessDb.activeBranchIds (db : AccessDb) (branchIds : Finset Uuid) : Finset Uuid :=
  branchIds.filter fun id => db.branches.any fun b => b.id = id && b.isActive

/-- `MemberService.update_branches`. -/
def AccessDb.updateBranches (db : AccessDb) (context : TenantContext) (membershipId : Uuid)
    (branchIds : Finset Uuid) : Except Err (AccessDb × Unit) := do
  if membershipId = context.membershipId then
    .error (.permissionDenied "CANNOT_MODIFY_OWN_BRANCHES"
      "You cannot modify your own branch access.")
  else
    requireGrantableBranches context branchIds
    if db.memberships.all (·.id ≠ membershipId) then .error .notFound
    else if db.activeBranchIds branchIds ≠ branchIds then
      .error (.domainValidation "VALIDATION_ERROR"
        "One or more branches are invalid or inactive.")
    else
      .ok ({ db with membershipBranches :=
        db.membershipBranches.filter (·.1 ≠ membershipId) ++
          branchIds.sort.map fun b => (membershipId, b) }, ())

/-- The requests of a run. -/
inductive BranchOp where
  | create (id : Uuid) (payload : BranchCreate)
  | update (context : TenantContext) (branchId : Uuid) (payload : BranchUpdate)
  | deactivate (context : TenantContext) (branchId : Uuid)
  | updateBranches (context : TenantContext) (membershipId : Uuid) (branchIds : Finset Uuid)

/-- The tables after one request. -/
def AccessDb.step (db : AccessDb) : BranchOp → AccessDb
  | .create id payload => (serviceTransaction db (·.createBranch id payload)).1
  | .update context id payload => (serviceTransaction db (·.updateBranch context id payload)).1
  | .deactivate context id => (serviceTransaction db (·.deactivateBranch context id)).1
  | .updateBranches context m ids => (serviceTransaction db (·.updateBranches context m ids)).1

/-- Every state of a run, the first and the last included. -/
def AccessDb.states (db : AccessDb) : List BranchOp → List AccessDb
  | [] => [db]
  | op :: ops => db :: (db.step op).states ops

/-! ## What the scope of a membership is -/

/-- A row of `membership_branches` whose branch is active. -/
def AccessDb.ActiveRow (db : AccessDb) (membershipId branchId : Uuid) : Prop :=
  (membershipId, branchId) ∈ db.membershipBranches ∧
    ∃ b ∈ db.branches, b.id = branchId ∧ b.isActive = true

theorem AccessDb.mem_scopeValues {db : AccessDb} {m b : Uuid} :
    b ∈ db.scopeValues m ↔ db.ActiveRow m b := by
  simp [scopeValues, ActiveRow]

/-- The scope is lifted exactly when no row of the membership is active. -/
theorem AccessDb.getBranchScope_eq_none_iff {db : AccessDb} {m : Uuid} :
    db.getBranchScope m = none ↔ ∀ b, ¬db.ActiveRow m b := by
  unfold getBranchScope
  rw [ite_eq_left_iff]
  simp only [reduceCtorEq, imp_false, not_not, Finset.eq_empty_iff_forall_notMem,
    mem_scopeValues]

theorem AccessDb.getBranchScope_of_activeRow {db : AccessDb} {m b : Uuid}
    (h : db.ActiveRow m b) : db.getBranchScope m = some (db.scopeValues m) := by
  unfold getBranchScope
  rw [if_neg]
  intro hempty
  have hmem := mem_scopeValues.mpr h
  rw [hempty] at hmem
  simp at hmem

/-- A context carries the membership it was built for and that membership's
scope. -/
theorem AccessDb.buildTenantContext_ok {db : AccessDb} {cache cache' : PermCache}
    {userId : Uuid} {context : TenantContext}
    (h : db.buildTenantContext cache userId = .ok (context, cache')) :
    ∃ m, db.getActiveMembership userId = some m ∧ context.membershipId = m.id ∧
      context.branchIds = db.getBranchScope m.id := by
  unfold buildTenantContext at h
  split at h
  next => cases h
  next m hm =>
    simp only [Except.ok.injEq, Prod.mk.injEq] at h
    exact ⟨m, hm, by rw [← h.1], by rw [← h.1]⟩

/-! ## Restrictions that stand -/

/-- Every context built for a membership with rows is restricted, to branches
its rows name. -/
def AccessDb.Confined (db : AccessDb) : Prop :=
  ∀ cache userId context cache', db.buildTenantContext cache userId = .ok (context, cache') →
    (∃ b, (context.membershipId, b) ∈ db.membershipBranches) →
    ∃ scope, context.branchIds = some scope ∧
      ∀ b ∈ scope, (context.membershipId, b) ∈ db.membershipBranches

/-- Every active membership with rows has one whose branch is active. -/
def AccessDb.Covered (db : AccessDb) : Prop :=
  ∀ userId m, db.getActiveMembership userId = some m →
    (∃ b, (m.id, b) ∈ db.membershipBranches) → ∃ b, db.ActiveRow m.id b

theorem AccessDb.confined_iff_covered (db : AccessDb) : db.Confined ↔ db.Covered := by
  constructor
  · intro h userId m hm hrow
    obtain ⟨scope, hscope, -⟩ := h (fun _ _ => ∅) userId _ _
      (by unfold buildTenantContext; rw [hm]) hrow
    by_contra hnone
    rw [getBranchScope_eq_none_iff.mpr (not_exists.mp hnone)] at hscope
    cases hscope
  · intro h cache userId context cache' hctx hrow
    obtain ⟨m, hm, hid, hscope⟩ := buildTenantContext_ok hctx
    rw [hid] at hrow ⊢
    obtain ⟨b, hb⟩ := h userId m hm hrow
    refine ⟨db.scopeValues m.id, by rw [hscope, getBranchScope_of_activeRow hb], ?_⟩
    intro b' hb'
    exact (mem_scopeValues.mp hb').1

/-! ## What each request does to the rows and branches -/

/-- The deactivation of a branch is accepted and changes its row. -/
def AccessDb.Deactivates (db : AccessDb) (context : TenantContext) (branchId : Uuid) : Prop :=
  ∃ branch, db.getBranch branchId = some branch ∧ context.allowsBranch branch.id = true ∧
    branch.isActive = true ∧ 1 < db.activeCount

/-- A request spares the restrictions: if it deactivates a branch, every active
membership with a row on that branch has another row whose branch is active. -/
def AccessDb.Spares (db : AccessDb) : BranchOp → Prop
  | .deactivate context branchId => db.Deactivates context branchId →
      ∀ userId m, db.getActiveMembership userId = some m →
        (m.id, branchId) ∈ db.membershipBranches → ∃ b, b ≠ branchId ∧ db.ActiveRow m.id b
  | _ => True

/-- Every request of the run spares the restrictions in the state it meets. -/
def AccessDb.SparesAll (db : AccessDb) : List BranchOp → Prop
  | [] => True
  | op :: ops => db.Spares op ∧ (db.step op).SparesAll ops

/-- A change of a branch that keeps its id and its activity keeps the active
rows. -/
theorem AccessDb.modifyBranch_activeRow {db : AccessDb} {branchId m b : Uuid}
    {f : Branch → Branch} (hid : ∀ b, (f b).id = b.id) (hact : ∀ b, (f b).isActive = b.isActive)
    (h : db.ActiveRow m b) : (db.modifyBranch branchId f).ActiveRow m b := by
  obtain ⟨hrow, b', hb', hid', hact'⟩ := h
  refine ⟨hrow, if b'.id = branchId then f b' else b', List.mem_map_of_mem hb', ?_, ?_⟩
  · split
    · rw [hid, hid']
    · exact hid'
  · split
    · rw [hact, hact']
    · exact hact'

/-- After a deactivation the active rows are those of the other branches. -/
theorem AccessDb.modifyBranch_deactivated_activeRow {db : AccessDb} {branchId m b : Uuid} :
    (db.modifyBranch branchId Branch.deactivated).ActiveRow m b ↔
      b ≠ branchId ∧ db.ActiveRow m b := by
  constructor
  · rintro ⟨hrow, b', hb', hid', hact'⟩
    obtain ⟨b₀, hb₀, hb₀'⟩ := List.mem_map.mp hb'
    by_cases hb : b₀.id = branchId
    · rw [if_pos hb] at hb₀'
      rw [← hb₀'] at hact'
      cases hact'
    · rw [if_neg hb] at hb₀'
      subst hb₀'
      exact ⟨hid' ▸ hb, hrow, b₀, hb₀, hid', hact'⟩
  · rintro ⟨hne, hrow, b', hb', hid', hact'⟩
    refine ⟨hrow, b', List.mem_map.mpr ⟨b', hb', ?_⟩, hid', hact'⟩
    rw [if_neg (by rw [hid']; exact hne)]

/-- A request that keeps the memberships and the rows, and every active row,
keeps the cover. -/
theorem AccessDb.Covered.of_activeRow {db db' : AccessDb} (h : db.Covered)
    (hm : db'.memberships = db.memberships)
    (hr : db'.membershipBranches = db.membershipBranches)
    (ha : ∀ m b, db.ActiveRow m b → db'.ActiveRow m b) : db'.Covered := by
  intro userId m hmem hrow
  unfold getActiveMembership at hmem
  rw [hm] at hmem
  rw [hr] at hrow
  obtain ⟨b, hb⟩ := h userId m hmem hrow
  exact ⟨b, ha m.id b hb⟩

theorem AccessDb.Covered.createBranch {db db' : AccessDb} {id : Uuid} {payload : BranchCreate}
    (h : db.Covered) (hs : db.createBranch id payload = .ok (db', ())) : db'.Covered := by
  unfold AccessDb.createBranch at hs
  split at hs
  next => cases hs
  next =>
    cases hs
    refine h.of_activeRow rfl rfl ?_
    rintro m b ⟨hrow, b', hb', hid, hact⟩
    exact ⟨hrow, b', List.mem_append_left _ hb', hid, hact⟩

theorem AccessDb.Covered.updateBranch {db db' : AccessDb} {context : TenantContext}
    {branchId : Uuid} {payload : BranchUpdate} (h : db.Covered)
    (hs : db.updateBranch context branchId payload = .ok (db', ())) : db'.Covered := by
  unfold AccessDb.updateBranch at hs
  split at hs
  next => cases hs
  next branch _ =>
    obtain ⟨-, -, hs⟩ := Foundations.bind_eq_ok.mp hs
    obtain ⟨-, hs⟩ := Foundations.ite_error_eq_ok.mp hs
    cases hs
    exact h.of_activeRow rfl rfl
      fun m b => modifyBranch_activeRow (fun _ => rfl) (fun _ => rfl)

theorem AccessDb.mem_rows_updateBranches {rows : List (Uuid × Uuid)} {target m b : Uuid}
    {branchIds : Finset Uuid} :
    (m, b) ∈ rows.filter (·.1 ≠ target) ++ branchIds.sort.map (fun b => (target, b)) ↔
      if m = target then b ∈ branchIds else (m, b) ∈ rows := by
  split
  next h => subst h; simp
  next h =>
    have h' : target ≠ m := fun e => h e.symm
    simp [h, h']

/-- `update_branches` admits only active branches, so the target stays covered. -/
theorem AccessDb.Covered.updateBranches {db db' : AccessDb} {context : TenantContext}
    {target : Uuid} {branchIds : Finset Uuid} (h : db.Covered)
    (hs : db.updateBranches context target branchIds = .ok (db', ())) : db'.Covered := by
  unfold AccessDb.updateBranches at hs
  obtain ⟨-, hs⟩ := Foundations.ite_error_eq_ok.mp hs
  obtain ⟨-, -, hs⟩ := Foundations.bind_eq_ok.mp hs
  obtain ⟨-, hs⟩ := Foundations.ite_error_eq_ok.mp hs
  obtain ⟨hactive, hs⟩ := Foundations.ite_error_eq_ok.mp hs
  rw [not_not] at hactive
  cases hs
  intro userId m hmem hrow
  obtain ⟨b, hb⟩ := hrow
  rw [mem_rows_updateBranches] at hb
  by_cases hm : m.id = target
  · rw [if_pos hm] at hb
    have hba : b ∈ db.activeBranchIds branchIds := by rw [hactive]; exact hb
    refine ⟨b, mem_rows_updateBranches.mpr (by rw [if_pos hm]; exact hb), ?_⟩
    simpa [activeBranchIds, hb] using hba
  · rw [if_neg hm] at hb
    obtain ⟨b', hrow', hact'⟩ := h userId m hmem ⟨b, hb⟩
    exact ⟨b', mem_rows_updateBranches.mpr (by rw [if_neg hm]; exact hrow'), hact'⟩

/-- What `deactivate` does to the tables. -/
theorem AccessDb.step_deactivate (db : AccessDb) (context : TenantContext) (branchId : Uuid) :
    (db.Deactivates context branchId ∧ db.step (.deactivate context branchId) =
      db.modifyBranch branchId Branch.deactivated) ∨
    (¬db.Deactivates context branchId ∧ db.step (.deactivate context branchId) = db) := by
  simp only [Deactivates, step, serviceTransaction, deactivateBranch,
    TenantContext.requireBranch, Bind.bind, Except.bind]
  cases hb : db.getBranch branchId with
  | none => exact Or.inr ⟨by simp, rfl⟩
  | some branch =>
      by_cases hallow : context.allowsBranch branch.id = true
      · by_cases hact : branch.isActive = true
        · by_cases hcount : db.activeCount ≤ 1
          · exact Or.inr ⟨by simp; omega, by simp [hallow, hact, hcount]⟩
          · exact Or.inl ⟨⟨branch, rfl, hallow, hact, by omega⟩, by simp [hallow, hact, hcount]⟩
        · exact Or.inr ⟨by simp [hact], by simp [hallow, hact]⟩
      · exact Or.inr ⟨by simp [hallow], by simp [hallow]⟩

/-- One request keeps the cover exactly when it spares the restrictions. -/
theorem AccessDb.Covered.step_iff {db : AccessDb} (h : db.Covered) (op : BranchOp) :
    (db.step op).Covered ↔ db.Spares op := by
  cases op with
  | create id payload =>
      exact iff_of_true (serviceTransaction_preserves h fun _ _ => h.createBranch) trivial
  | update context id payload =>
      exact iff_of_true (serviceTransaction_preserves h fun _ _ => h.updateBranch) trivial
  | updateBranches context m ids =>
      exact iff_of_true (serviceTransaction_preserves h fun _ _ => h.updateBranches) trivial
  | deactivate context branchId =>
      rcases db.step_deactivate context branchId with ⟨hd, he⟩ | ⟨hd, he⟩
      · rw [he]
        constructor
        · intro hc _ userId m hm hrow
          obtain ⟨b, hb⟩ := hc userId m hm ⟨branchId, hrow⟩
          exact ⟨b, modifyBranch_deactivated_activeRow.mp hb⟩
        · intro hsp userId m hm hrow
          obtain ⟨b, hb⟩ := h userId m hm hrow
          by_cases hbb : b = branchId
          · obtain ⟨b', hb'⟩ := hsp hd userId m hm (hbb ▸ hb.1)
            exact ⟨b', modifyBranch_deactivated_activeRow.mpr hb'⟩
          · exact ⟨b, modifyBranch_deactivated_activeRow.mpr ⟨hbb, hb⟩⟩
      · rw [he]
        exact iff_of_true h fun hd' => absurd hd' hd

/-! ## Runs -/

theorem AccessDb.states_covered_iff (db : AccessDb) (ops : List BranchOp) :
    (∀ db' ∈ db.states ops, db'.Covered) ↔ db.Covered ∧ db.SparesAll ops := by
  induction ops generalizing db with
  | nil => simp [states, SparesAll]
  | cons op ops ih =>
      rw [states, List.forall_mem_cons, ih (db.step op)]
      constructor
      · rintro ⟨hc, hc', hsp⟩
        exact ⟨hc, (hc.step_iff op).mp hc', hsp⟩
      · rintro ⟨hc, hsp, hsps⟩
        exact ⟨hc, (hc.step_iff op).mpr hsp, hsps⟩

/-- Along a run every restriction stands in every state exactly when the first
state covers its memberships and no deactivation takes the last active branch of
an active membership. -/
theorem AccessDb.states_confined_iff (db : AccessDb) (ops : List BranchOp) :
    (∀ db' ∈ db.states ops, db'.Confined) ↔ db.Covered ∧ db.SparesAll ops := by
  rw [← states_covered_iff]
  exact forall₂_congr fun db' _ => confined_iff_covered db'

/-- Two branches, one membership confined to the first, and an unrestricted
manager deactivating it. -/
def confinedExample : AccessDb where
  tenantId := 1
  branches :=
    [ { id := 10, code := "A", name := "A", address := none, phone := none, email := none,
        isActive := true, isDefault := true },
      { id := 11, code := "B", name := "B", address := none, phone := none, email := none,
        isActive := true, isDefault := false } ]
  memberships :=
    [ { id := 20, userId := 30, status := .active, rolesVersion := 0 },
      { id := 21, userId := 31, status := .active, rolesVersion := 0 } ]
  membershipBranches := [(20, 10)]
  memberships_nodup := by decide
  membershipRoles := []
  roles := []
  systemRoles_nodup := by decide
  rolePermissions := []

def unrestrictedContext : TenantContext where
  tenantId := 1
  membershipId := 21
  userId := 31
  roleIds := ∅
  permissions := {"branches.update"}
  branchIds := none

theorem confinedExample_covered : confinedExample.Covered := by
  intro userId m _ hrow
  obtain ⟨b, hb⟩ := hrow
  have hm : m.id = 20 := by simpa [confinedExample] using (And.left <| Prod.mk.inj <|
    List.mem_singleton.mp hb)
  rw [hm]
  exact ⟨10, by simp [AccessDb.ActiveRow, confinedExample]⟩

/-- Deactivating branch 10 leaves the row `(20, 10)` and turns the scope in the
context of membership 20 into `None`. -/
theorem AccessDb.deactivate_lifts_restriction :
    confinedExample.Confined ∧
      (20, 10) ∈ (confinedExample.step (.deactivate unrestrictedContext 10)).membershipBranches ∧
      ((confinedExample.step (.deactivate unrestrictedContext 10)).buildTenantContext
        (fun _ _ => ∅) 30).toOption.map (fun r => (r.1.membershipId, r.1.branchIds)) =
          some (20, none) ∧
      ¬∀ db' ∈ confinedExample.states [.deactivate unrestrictedContext 10], db'.Confined := by
  refine ⟨(confined_iff_covered _).mpr confinedExample_covered, by decide, by decide, ?_⟩
  intro hall
  have hcov := fun db' hdb' => (confined_iff_covered db').mp (hall db' hdb')
  obtain ⟨-, hsp, -⟩ := (states_covered_iff _ _).mp hcov
  obtain ⟨b, hne, hrow, -⟩ := hsp ⟨_, rfl, rfl, rfl, by decide⟩ 30
    { id := 20, userId := 30, status := .active, rolesVersion := 0 } (by decide) (by decide)
  have hb : b = 10 := by simpa [confinedExample] using hrow
  exact hne hb

end Nexora.Access
