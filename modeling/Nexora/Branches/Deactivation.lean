import Nexora.Core.Context
import Nexora.Foundations.Interleaving

/-!
# Creating and deactivating branches

`create` and `deactivate` of `app/modules/branches/service.py`, statement by statement.  A
deactivation locks its own branch, and then counts the active branches of the tenant without locking
them.  Two deactivations of two branches can both count two (`both_branches_deactivated`).

`Spares` says when that does not happen: a deactivation that passes its count leaves an active branch
that is neither its own nor one that another open deactivation has counted for.  That branch is what
the invariant keeps (`active_branch_stays`).  `update` writes other columns, and is left out.
-/

namespace Nexora.Branches

open Nexora Foundations

/-! ## Branches -/

/-- `Branch`. -/
structure Branch where
  id : Uuid
  tenantId : Uuid
  code : String
  name : String
  address : Option String
  phone : Option String
  email : Option String
  isActive : Bool
  isDefault : Bool
deriving DecidableEq

/-- The branches of all tenants. -/
abbrev BranchDb := Table Branch.id

/-- `get`, within the rows of the tenant. -/
def BranchDb.find (db : BranchDb) (context : TenantContext) (branchId : Uuid) : Option Branch :=
  (db.get branchId).filter (·.tenantId = context.tenantId)

/-- `active_count`. -/
def BranchDb.activeCount (db : BranchDb) (context : TenantContext) : ℕ :=
  db.rows.countP fun branch => branch.tenantId = context.tenantId && branch.isActive

/-- `UNIQUE (tenant_id, code)` and the primary key, as a row comes beside the others. -/
def BranchDb.free (db : BranchDb) (branch : Branch) : Bool :=
  db.rows.all fun row => row.id ≠ branch.id &&
    !(row.tenantId = branch.tenantId && row.code = branch.code)

/-- `branch.is_active = False` and `branch.is_default = False`, within the rows of the tenant. -/
def BranchDb.deactivate (db : BranchDb) (context : TenantContext) (branchId : Uuid) : BranchDb :=
  db.modify (fun row => if row.id = branchId ∧ row.tenantId = context.tenantId then
    { row with isActive := false, isDefault := false } else row)
    fun row => by split <;> rfl

/-! ## Requests -/

/-- `BranchCreate`. -/
structure BranchCreate where
  code : String
  name : String
  address : Option String
  phone : Option String
  email : Option String

/-- The row of a new branch. -/
def BranchCreate.branch (payload : BranchCreate) (context : TenantContext) (id : Uuid) : Branch where
  id := id
  tenantId := context.tenantId
  code := payload.code
  name := payload.name
  address := payload.address
  phone := payload.phone
  email := payload.email
  isActive := true
  isDefault := false

inductive BranchRequest where
  /-- `create`, with the identifier that is drawn. -/
  | create (context : TenantContext) (id : Uuid) (payload : BranchCreate)
  | deactivate (context : TenantContext) (branchId : Uuid)

/-- The checks of `deactivate` on a branch that is there: whether it is to be deactivated. -/
def checkDeactivate (db : BranchDb) (context : TenantContext) (branch : Branch) :
    Except Err Bool := do
  context.requireBranch branch.id
  if !branch.isActive then
    return false
  else if db.activeCount context ≤ 1 then
    .error (.conflict "INVALID_STATE_TRANSITION" "The last active branch cannot be deactivated.")
  else
    return true

/-! ## The system -/

/-- How far a request has come. -/
inductive Phase where
  /-- Before its `INSERT`. -/
  | creating (branch : Branch)
  /-- Before `SELECT ... FOR UPDATE`. -/
  | deactivating (context : TenantContext) (branchId : Uuid)
  /-- Holds the row lock, with the row it read. -/
  | locked (context : TenantContext) (branch : Branch)
  /-- Past the count. -/
  | counted (context : TenantContext) (branchId : Uuid)
  /-- Returned or raised. -/
  | over (result : Except Err Unit)

def start (_ : BranchDb) : BranchRequest → Phase
  | .create context id payload => .creating (payload.branch context id)
  | .deactivate context branchId => .deactivating context branchId

def run (db : BranchDb) : Phase → Unit → Option (BranchDb × Phase)
  | .creating branch, _ =>
      -- `IntegrityError` becomes a conflict, and the row is not there.
      if db.free branch then none
      else some (db, .over (.error (.conflict "DUPLICATE_RESOURCE" "Branch code already exists.")))
  | .deactivating context branchId, _ =>
      match db.find context branchId with
      | none => some (db, .over (.error .notFound))
      | some branch => some (db, .locked context branch)
  | .locked context branch, _ =>
      match checkDeactivate db context branch with
      | .error e => some (db, .over (.error e))
      | .ok false => some (db, .over (.ok ()))
      | .ok true => some (db, .counted context branch.id)
  | .counted _ _, _ => none
  | .over _, _ => none

def finish (db : BranchDb) : Phase → Option BranchDb
  | .creating branch => if db.free branch then some (db.put branch) else none
  | .counted context branchId => some (db.deactivate context branchId)
  | .over _ => some db
  | .deactivating _ _ => none
  | .locked _ _ => none

def locks : Phase → List (Uuid × LockMode)
  | .locked _ branch => [(branch.id, .update)]
  | .counted _ branchId => [(branchId, .update)]
  | _ => []

/-- The requests on branches. -/
def branches : Protocol BranchDb BranchRequest Phase Unit Uuid := ⟨start, run, finish, locks⟩

variable {db db' : BranchDb} {s s' : Interleaved BranchDb Phase} {tenantId : Uuid}

/-! ## The condition -/

/-- The branch that an open request is about to deactivate, with its tenant. -/
def Phase.target : Phase → Option (Uuid × Uuid)
  | .counted context branchId => some (context.tenantId, branchId)
  | _ => none

/-- The branch that a request is to deactivate if it counts now, with its tenant. -/
def Phase.counting (db : BranchDb) : Phase → Option (Uuid × Uuid)
  | .locked context branch =>
      if checkDeactivate db context branch = .ok true then some (context.tenantId, branch.id)
      else none
  | _ => none

/-- The branch is active, and no open request is about to deactivate it. -/
def Spare (s : Interleaved BranchDb Phase) (tenantId : Uuid) (branch : Branch) : Prop :=
  branch.tenantId = tenantId ∧ branch.isActive ∧
    ∀ tx ∈ s.txs.rows, tx.2.target ≠ some (tenantId, branch.id)

instance (s : Interleaved BranchDb Phase) (tenantId : Uuid) (branch : Branch) :
    Decidable (Spare s tenantId branch) :=
  inferInstanceAs (Decidable (branch.tenantId = tenantId ∧ branch.isActive ∧
    ∀ tx ∈ s.txs.rows, tx.2.target ≠ some (tenantId, branch.id)))

/-- A deactivation that passes its count leaves another branch that is spare. -/
def Spares (s : Interleaved BranchDb Phase) : TxAction BranchRequest Unit → Prop
  | .run t _ => ∀ tx ∈ s.txs.get t, ∀ own ∈ tx.2.counting s.committed,
      ∃ other ∈ s.committed.rows, other.id ≠ own.2 ∧ Spare s own.1 other
  | _ => True

instance (s : Interleaved BranchDb Phase) (action : TxAction BranchRequest Unit) :
    Decidable (Spares s action) :=
  match action with
  | .run t _ => inferInstanceAs (Decidable (∀ tx ∈ s.txs.get t, ∀ own ∈ tx.2.counting s.committed,
      ∃ other ∈ s.committed.rows, other.id ≠ own.2 ∧ Spare s own.1 other))
  | .begin _ _ => .isTrue trivial
  | .finish _ => .isTrue trivial
  | .abort _ => .isTrue trivial

/-! ## The invariant -/

/-- The tenant has an active branch. -/
def BranchDb.HasActive (db : BranchDb) (tenantId : Uuid) : Prop :=
  ∃ branch ∈ db.rows, branch.tenantId = tenantId ∧ branch.isActive

/-- The tenant has a branch that is spare. -/
def Guarded (tenantId : Uuid) (s : Interleaved BranchDb Phase) : Prop :=
  ∃ branch ∈ s.committed.rows, Spare s tenantId branch

theorem Guarded.init (h : db.HasActive tenantId) : Guarded tenantId (Protocol.init db) := by
  obtain ⟨branch, hmem, htenant, hactive⟩ := h
  exact ⟨branch, hmem, htenant, hactive, List.forall_mem_nil _⟩

/-- A request comes to a phase, and a spare branch is not its target. -/
theorem Spare.put {branch : Branch} {t : Nat} {phase : Phase} (h : Spare s tenantId branch)
    (hphase : phase.target ≠ some (tenantId, branch.id)) (db : BranchDb) :
    Spare ⟨db, s.txs.put (t, phase)⟩ tenantId branch := by
  refine ⟨h.1, h.2.1, fun tx htx => ?_⟩
  rcases Table.mem_put.mp htx with ⟨htx, -⟩ | rfl
  · exact h.2.2 tx htx
  · exact hphase

theorem Spare.erase {branch : Branch} (h : Spare s tenantId branch) (t : Nat) (db : BranchDb) :
    Spare ⟨db, s.txs.erase t⟩ tenantId branch :=
  ⟨h.1, h.2.1, fun tx htx => h.2.2 tx (Table.mem_erase.mp htx).1⟩

/-- A statement writes nothing, and what it makes the target of its request was counted for. -/
theorem run_cases {phase phase' : Phase} (h : run db phase () = some (db', phase')) :
    db' = db ∧ (phase'.target = none ∨ phase'.target = phase.counting db) := by
  cases phase with
  | creating branch =>
      simp only [run] at h
      split at h
      · cases h
      · cases h
        exact ⟨rfl, .inl rfl⟩
  | deactivating context branchId =>
      simp only [run] at h
      split at h
      · cases h
        exact ⟨rfl, .inl rfl⟩
      · cases h
        exact ⟨rfl, .inl rfl⟩
  | locked context branch =>
      simp only [run] at h
      split at h
      · cases h
        exact ⟨rfl, .inl rfl⟩
      · cases h
        exact ⟨rfl, .inl rfl⟩
      · rename_i hcheck
        cases h
        exact ⟨rfl, .inr (if_pos hcheck).symm⟩
  | counted context branchId => cases h
  | «over» result => cases h

/-- An active branch stays, unless the request that ends deactivates it. -/
theorem finish_keeps {phase : Phase} (h : finish db phase = some db') {branch : Branch}
    (hmem : branch ∈ db.rows) (hphase : phase.target ≠ some (branch.tenantId, branch.id)) :
    branch ∈ db'.rows := by
  cases phase with
  | creating new =>
      simp only [finish] at h
      split at h
      · rename_i hfree
        cases h
        have hne := List.all_eq_true.mp hfree branch hmem
        simp only [Bool.and_eq_true, decide_eq_true_eq] at hne
        exact Table.mem_put.mpr (.inl ⟨hmem, hne.1⟩)
      · cases h
  | counted context branchId =>
      cases h
      have hother : ¬(branch.id = branchId ∧ branch.tenantId = context.tenantId) := by
        rintro ⟨rfl, htenant⟩
        exact hphase (by rw [Phase.target, htenant])
      exact List.mem_map.mpr ⟨branch, hmem, if_neg hother⟩
  | «over» result =>
      cases h
      exact hmem
  | deactivating context branchId => cases h
  | locked context branch => cases h

theorem Guarded.step {action : TxAction BranchRequest Unit} (h : Guarded tenantId s)
    (hspares : Spares s action) (hstep : branches.step s action = some s') :
    Guarded tenantId s' := by
  obtain ⟨branch, hmem, hspare⟩ := h
  cases action with
  | begin t req =>
      obtain ⟨-, rfl⟩ := Protocol.step_begin hstep
      refine ⟨branch, hmem, hspare.put ?_ _⟩
      cases req with
      | create context id payload => exact nofun
      | deactivate context branchId => exact nofun
  | run t choice =>
      obtain ⟨old, db, phase, hget, hrun, rfl⟩ := Protocol.step_run hstep
      obtain ⟨rfl, htarget⟩ := run_cases hrun
      by_cases hown : phase.target = some (tenantId, branch.id)
      · -- The spare branch is counted for, and so another one is spare.
        have hcounting := htarget.resolve_left (by simp [hown])
        obtain ⟨other, hother, hne, hspare'⟩ :=
          hspares _ hget (tenantId, branch.id) (hcounting.symm.trans hown)
        refine ⟨other, hother, hspare'.put ?_ _⟩
        rw [hown]
        intro heq
        exact hne (Prod.mk.inj (Option.some.inj heq)).2.symm
      · exact ⟨branch, hmem, hspare.put hown _⟩
  | finish t =>
      obtain ⟨old, db, hget, hfinish, rfl⟩ := Protocol.step_finish hstep
      refine ⟨branch, finish_keeps hfinish hmem ?_, hspare.erase t db⟩
      rw [hspare.1]
      exact hspare.2.2 _ (Table.get_mem hget).1
  | abort t =>
      obtain rfl : s' = ⟨s.committed, s.txs.erase t⟩ := (Option.some.inj hstep).symm
      exact ⟨branch, hmem, hspare.erase t _⟩

/-! ## Active branches -/

/-- In every interleaving in which each deactivation that passes its count leaves another active
branch that no open deactivation has counted for, a tenant that has an active branch always has
one. -/
theorem active_branch_stays (hactive : db.HasActive tenantId)
    (h : Run Spares (fun s action s' => branches.step s action = some s') (Protocol.init db) s) :
    s.committed.HasActive tenantId := by
  have hguarded : Guarded tenantId s :=
    Run.invariant (fun _ _ _ hs hspares hstep => hs.step hspares hstep) h (.init hactive)
  obtain ⟨branch, hmem, htenant, hactive, -⟩ := hguarded
  exact ⟨branch, hmem, htenant, hactive⟩

/-- A branch of tenant `1`. -/
def plainBranch (id : Uuid) : Branch := ⟨id, 1, toString id, "Shop", none, none, none, true, false⟩

/-- Two active branches. -/
def twoBranches : BranchDb := ⟨[plainBranch 1, plainBranch 2], by decide⟩

/-- A member of tenant `1` without limits. -/
def manager : TenantContext := ⟨1, 7, 8, ∅, ∅, none⟩

/-- The whole of a deactivation up to its commit. -/
def deactivation (t : Nat) (branchId : Uuid) : List (TxAction BranchRequest Unit) :=
  [.begin t (.deactivate manager branchId), .run t (), .run t ()]

/-- One of two branches is deactivated, and then a third is opened and the second deactivated. -/
theorem active_branch_stays_third : ∃ s : Interleaved BranchDb Phase,
    Run Spares (fun s action s' => branches.step s action = some s')
      (Protocol.init twoBranches) s ∧
      (s.committed.rows.map fun branch => (branch.id, branch.isActive))
        = [(1, false), (2, false), (3, true)] ∧
      s.committed.HasActive 1 := by
  obtain ⟨s, hrun, hrows⟩ := Run.exists_of_any
    (F := fun s : Interleaved BranchDb Phase =>
      (s.committed.rows.map fun branch => (branch.id, branch.isActive))
        = [(1, false), (2, false), (3, true)])
    (deactivation 0 1 ++ [.finish 0, .begin 1 (.create manager 3 ⟨"3", "Shop", none, none, none⟩),
      .finish 1] ++ deactivation 2 2 ++ [.finish 2])
    (by decide : (List.foldlM (fun s action => if Spares s action then branches.step s action
      else none) (Protocol.init twoBranches) _).any _)
  exact ⟨s, hrun, hrows, active_branch_stays ⟨plainBranch 1, by decide, rfl, rfl⟩ hrun⟩

/-- Two deactivations that both count two. -/
theorem both_branches_deactivated :
    ¬ ∀ (db : BranchDb) (tenantId : Uuid), db.HasActive tenantId → ∀ s,
      branches.Reaches (Protocol.init db) s → s.committed.HasActive tenantId := by
  intro h
  obtain ⟨s, hreaches, hnone⟩ := Protocol.Reaches.exists_of_any (p := branches)
    (s := Protocol.init twoBranches)
    (F := fun s : Interleaved BranchDb Phase => s.committed.rows.all (!·.isActive))
    (deactivation 0 1 ++ deactivation 1 2 ++ [.finish 0, .finish 1]) (by decide)
  obtain ⟨branch, hmem, -, hactive⟩ :=
    h twoBranches 1 ⟨plainBranch 1, by decide, rfl, rfl⟩ s hreaches
  have hinactive := List.all_eq_true.mp hnone branch hmem
  rw [hactive] at hinactive
  cases hinactive

end Nexora.Branches
