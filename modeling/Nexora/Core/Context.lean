import Mathlib.Data.Finset.Basic

/-!
# Requests, errors and transactions

What every service of the backend shares (`app/core/errors.py`,
`app/core/context.py`, `app/db/session.py`).

A service raises an `AppError`, carrying the code and message the client sees,
or lets an error of the database through.  `serviceTransaction` is the frame
every write runs in.  A body that returns commits what it wrote, a body that
raises rolls back, so the tables are then exactly what they were.

The rows of other tenants never reach a service: the tenant guard and the
row-level policies confine every statement to the tenant of the context.  So a
database value here holds one tenant's rows and no tenant column.
-/

namespace Nexora

/-- Identifiers.  UUIDs are compared for equality and sorted by their bytes. -/
abbrev Uuid := Nat

/-! ## Errors -/

/-- `AppError`: the code, the message and the HTTP status of a refused request. -/
structure AppError where
  /-- Machine-readable code. -/
  code : String
  /-- Text shown to the caller. -/
  message : String
  /-- HTTP status. -/
  statusCode : Nat
deriving DecidableEq, Repr

/-- What a service call can raise. -/
inductive Err where
  /-- An `AppError`. -/
  | app (e : AppError)
  /-- `IntegrityError`: the database refused a row; the constraint it names. -/
  | integrity (constraint : String)
  /-- `DataError`: a value does not fit its column. -/
  | outOfRange (column : String)
  /-- `RAISE EXCEPTION` in a trigger. -/
  | raised (message : String)
  /-- `RuntimeError`. -/
  | runtime (message : String)
deriving DecidableEq, Repr

def Err.notFound : Err := .app ⟨"RESOURCE_NOT_FOUND", "Resource not found.", 404⟩

def Err.permissionDenied (code message : String) : Err := .app ⟨code, message, 403⟩

def Err.conflict (code message : String) : Err := .app ⟨code, message, 409⟩

def Err.domainValidation (code message : String) : Err := .app ⟨code, message, 422⟩

/-- `_require_branch` raises this in every service. -/
def Err.branchAccessDenied : Err :=
  .permissionDenied "BRANCH_ACCESS_DENIED" "Branch access denied."

/-! ## The tenant context -/

/-- `TenantContext`: who acts, with which roles and permissions, on which
branches.  `branchIds = none` is the unrestricted scope. -/
structure TenantContext where
  tenantId : Uuid
  membershipId : Uuid
  userId : Uuid
  roleIds : Finset Uuid
  permissions : Finset String
  branchIds : Option (Finset Uuid)

/-- `branch_ids is None or branch_id in branch_ids`. -/
def TenantContext.allowsBranch (context : TenantContext) (branchId : Uuid) : Bool :=
  match context.branchIds with
  | none => true
  | some held => branchId ∈ held

/-- `_require_branch`. -/
def TenantContext.requireBranch (context : TenantContext) (branchId : Uuid) : Except Err Unit :=
  if context.allowsBranch branchId then .ok () else .error .branchAccessDenied

/-- `_require_branch` of a column that may be null.  A restricted caller holds no such row. -/
def TenantContext.requireNullableBranch (context : TenantContext) :
    Option Uuid → Except Err Unit
  | some branchId => context.requireBranch branchId
  | none => if context.branchIds.isNone then .ok () else .error .branchAccessDenied

theorem TenantContext.requireBranch_eq_ok {context : TenantContext} {branches : Finset Uuid}
    {branchId : Uuid} {u : Unit} (hscope : context.branchIds = some branches)
    (h : context.requireBranch branchId = .ok u) : branchId ∈ branches := by
  unfold requireBranch at h
  split at h
  next hallows => simpa [allowsBranch, hscope] using hallows
  next => cases h

theorem TenantContext.requireNullableBranch_eq_ok {context : TenantContext}
    {branches : Finset Uuid} {branchId : Option Uuid} {u : Unit}
    (hscope : context.branchIds = some branches)
    (h : context.requireNullableBranch branchId = .ok u) :
    branchId.any (· ∈ branches) = true := by
  cases branchId with
  | some branchId => simpa using requireBranch_eq_ok hscope h
  | none => simp [requireNullableBranch, hscope] at h

/-! ## Transactions -/

/-- `service_transaction`: the tables after the request and its outcome. -/
def serviceTransaction {Db α : Type} (db : Db) (body : Db → Except Err (Db × α)) :
    Db × Except Err α :=
  match body db with
  | .ok (db', result) => (db', .ok result)
  | .error e => (db, .error e)

/-- A request that raises leaves the tables as they were. -/
theorem serviceTransaction_error {Db α : Type} {db : Db} {body : Db → Except Err (Db × α)}
    {e : Err} (h : (serviceTransaction db body).2 = .error e) :
    (serviceTransaction db body).1 = db := by
  unfold serviceTransaction at h ⊢
  split
  next hb => simp [hb] at h
  next => rfl

/-- A request that returns has committed what its body wrote. -/
theorem serviceTransaction_ok {Db α : Type} {db : Db} {body : Db → Except Err (Db × α)}
    {result : α} (h : (serviceTransaction db body).2 = .ok result) :
    ∃ db', body db = .ok (db', result) ∧ (serviceTransaction db body).1 = db' := by
  unfold serviceTransaction at h ⊢
  split
  next db' result' hb =>
    rw [hb] at h
    cases h
    exact ⟨db', hb, rfl⟩
  next hb => simp [hb] at h

/-- What the body keeps, the request keeps. -/
theorem serviceTransaction_preserves {Db α : Type} {I : Db → Prop} {db : Db}
    {body : Db → Except Err (Db × α)} (h : I db)
    (hbody : ∀ db' result, body db = .ok (db', result) → I db') :
    I (serviceTransaction db body).1 := by
  unfold serviceTransaction
  split
  next db' result hb => exact hbody db' result hb
  next => exact h

end Nexora
