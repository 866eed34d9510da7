import Nexora.Core.Context
import Mathlib.Data.List.Basic
import Mathlib.Data.List.Dedup

/-!
# The tenant guard

`apply_tenant_filter` of `app/db/tenant_guard.py` is called before every statement that the ORM
executes.  It adds `with_loader_criteria` to a `SELECT`, which restricts every occurrence of a
`TenantScoped` class, in joins and subqueries too, to the tenant of the context.

It decides from `all_mappers`, the mapped classes that the rows of the result represent: an
entity or a column of an entity that is selected.  An aggregate represents no class.  So
`guarded_iff` says that the guard does its work on exactly the statements that select an entity
or a column of a `TenantScoped` class, whatever else they read.
-/

namespace Nexora.TenantGuard

open Nexora

/-! ## Statements -/

/-- A mapped class, and whether it inherits `TenantScoped`. -/
structure Mapper where
  className : String
  tenantScoped : Bool
deriving DecidableEq, Repr

/-- A value of a column. -/
inductive Value where
  | null
  | bool (b : Bool)
  | uuid (id : Uuid)
  | text (s : String)
deriving DecidableEq, Repr

/-- A row of a table.  The tables of classes that are not `TenantScoped` may lack the tenant. -/
structure Row where
  tenantId : Option Uuid
  column : String → Value

/-- One expression of a `SELECT` list. -/
inductive Selected where
  /-- `select(Branch)` -/
  | entity (mapper : Mapper)
  /-- `select(Branch.id)` -/
  | column (mapper : Mapper)
  /-- `select(func.count())`, and whatever else is no attribute of a class. -/
  | expression
deriving DecidableEq, Repr

/-- A `SELECT`: its list, the entities of `FROM` and `JOIN`, and its subqueries. -/
inductive Query where
  | select (selected : List Selected) (sources : List Mapper) (subqueries : List Query)

mutual

/-- Every entity that a `SELECT` reads. -/
def Query.entities : Query → List Mapper
  | .select _ sources subqueries => sources ++ subqueryEntities subqueries

def subqueryEntities : List Query → List Mapper
  | [] => []
  | query :: queries => query.entities ++ subqueryEntities queries

end

/-- The class that an expression of the list represents. -/
def Selected.mapper? : Selected → Option Mapper
  | .entity mapper | .column mapper => some mapper
  | .expression => none

/-- `state.all_mappers`. -/
def Query.allMappers : Query → List Mapper
  | .select selected _ _ => selected.filterMap Selected.mapper?

/-- `ORMExecuteState`.  `evaluate` is what the database computes from the rows of the entities,
in the order of `query.entities`: joins, conditions, groups and aggregates. -/
structure ORMExecuteState (Answer : Type) where
  isSelect : Bool
  skipTenantFilter : Bool
  query : Query
  evaluate : List (List Row) → Answer

/-! ## The guard -/

/-- `MissingTenantContextError`. -/
def missingTenantContext (detail : String) : AppError :=
  ⟨"MISSING_TENANT_CONTEXT", detail, 500⟩

/-- `_require_context`. -/
def requireContext (context : Option TenantContext) (what : String) :
    Except AppError TenantContext :=
  match context with
  | none => .error (missingTenantContext (what ++ " requires a tenant context. Establish one via " ++
      "the request dependency, or pass execution_options(skip_tenant_filter=True) for a " ++
      "deliberate platform-level operation."))
  | some context => .ok context

section

variable {Answer : Type}

/-- `_touches_tenant_scoped`. -/
def touchesTenantScoped (state : ORMExecuteState Answer) : Bool :=
  state.query.allMappers.any (·.tenantScoped)

/-- `apply_tenant_filter`: the tenant to which `with_loader_criteria` restricts the statement,
or `none` when the statement is left as it is. -/
def applyTenantFilter (context : Option TenantContext) (state : ORMExecuteState Answer) :
    Except AppError (Option Uuid) :=
  if !state.isSelect || state.skipTenantFilter then .ok none
  else if !touchesTenantScoped state then .ok none
  else do
    let context ← requireContext context "A tenant-scoped SELECT"
    return some context.tenantId

/-- The rows of an entity that a statement reads under its criteria. -/
def visibleRows (criteria : Option Uuid) (tables : Mapper → List Row) (mapper : Mapper) : List Row :=
  match criteria with
  | none => tables mapper
  | some tenantId =>
      if mapper.tenantScoped then (tables mapper).filter (·.tenantId = some tenantId)
      else tables mapper

/-- What the statement returns. -/
def ORMExecuteState.result (state : ORMExecuteState Answer) (criteria : Option Uuid)
    (tables : Mapper → List Row) : Answer :=
  state.evaluate (state.query.entities.map (visibleRows criteria tables))

/-! ## What the guard is for -/

/-- Tables that differ at most in the rows of other tenants. -/
def SameTenantRows (tenantId : Uuid) (tables tables' : Mapper → List Row) : Prop :=
  ∀ mapper, visibleRows (some tenantId) tables mapper = visibleRows (some tenantId) tables' mapper

/-- Every `TenantScoped` entity of the statement is restricted to the tenant, so the rows of
other tenants make no difference. -/
structure ConfinedTo (tenantId : Uuid) (criteria : Option Uuid) (state : ORMExecuteState Answer) :
    Prop where
  rows : ∀ tables, ∀ mapper ∈ state.query.entities, mapper.tenantScoped →
    ∀ row ∈ visibleRows criteria tables mapper, row.tenantId = some tenantId
  result : ∀ tables tables', SameTenantRows tenantId tables tables' →
    state.result criteria tables = state.result criteria tables'

/-- The guard refuses the statement for want of a context, or confines it to the tenant of the
context. -/
def Guarded (context : Option TenantContext) (state : ORMExecuteState Answer) : Prop :=
  match applyTenantFilter context state with
  | .error _ => context = none
  | .ok criteria => ∃ tenant ∈ context, ConfinedTo tenant.tenantId criteria state

variable {context : Option TenantContext} {state : ORMExecuteState Answer}

theorem confinedTo_criteria (tenantId : Uuid) (state : ORMExecuteState Answer) :
    ConfinedTo tenantId (some tenantId) state where
  rows := by
    intro tables mapper _ hscoped row hrow
    simp only [visibleRows, hscoped, if_true, List.mem_filter, decide_eq_true_eq] at hrow
    exact hrow.2
  result := by
    intro tables tables' hsame
    unfold ORMExecuteState.result
    rw [List.map_congr_left fun mapper _ => hsame mapper]

/-- Without criteria a statement reads the rows of all tenants. -/
theorem not_confinedTo_none {tenantId : Uuid}
    (hreads : ∃ mapper ∈ state.query.entities, mapper.tenantScoped) :
    ¬ConfinedTo tenantId none state := by
  obtain ⟨mapper, hmapper, hscoped⟩ := hreads
  intro hconfined
  have hforeign := hconfined.rows (fun _ => [⟨some (tenantId + 1), fun _ => .null⟩]) mapper hmapper
    hscoped _ (List.mem_singleton_self _)
  simp at hforeign

/-- A `SELECT` that reads a `TenantScoped` class, without the skip option, is refused for want of
a context or confined to its tenant exactly when it selects an entity or a column of a
`TenantScoped` class. -/
theorem guarded_iff (hselect : state.isSelect = true) (hskip : state.skipTenantFilter = false)
    (hreads : ∃ mapper ∈ state.query.entities, mapper.tenantScoped) :
    Guarded context state ↔ ∃ mapper ∈ state.query.allMappers, mapper.tenantScoped := by
  rw [← List.any_eq_true, ← touchesTenantScoped]
  cases htouches : touchesTenantScoped state with
  | false =>
      have hleft : applyTenantFilter context state = .ok none := by
        simp [applyTenantFilter, hselect, hskip, htouches]
      simp only [Guarded, hleft, Bool.false_eq_true, iff_false, not_exists, not_and]
      exact fun tenant _ => not_confinedTo_none hreads
  | true =>
      simp only [iff_true]
      cases context with
      | none =>
          simp [Guarded, applyTenantFilter, hselect, hskip, htouches, requireContext]
      | some tenant =>
          have hscoped : applyTenantFilter (some tenant) state = .ok (some tenant.tenantId) := by
            simp [applyTenantFilter, hselect, hskip, htouches, requireContext]
          simp only [Guarded, hscoped]
          exact ⟨tenant, rfl, confinedTo_criteria tenant.tenantId state⟩

end

/-! ## Statements of the repositories -/

def branchMapper : Mapper := ⟨"Branch", true⟩

def membershipMapper : Mapper := ⟨"Membership", true⟩

def membershipRoleMapper : Mapper := ⟨"MembershipRole", false⟩

def roleMapper : Mapper := ⟨"Role", false⟩

/-- `BranchRepository.get`. -/
def getBranch (branchId : Uuid) : ORMExecuteState (Option Row) where
  isSelect := true
  skipTenantFilter := false
  query := .select [.entity branchMapper] [branchMapper] []
  evaluate
    | branches :: _ => branches.find? fun branch => branch.column "id" = .uuid branchId
    | [] => none

/-- `BranchRepository.active_count`. -/
def activeCount : ORMExecuteState Nat where
  isSelect := true
  skipTenantFilter := false
  query := .select [.expression] [branchMapper] []
  evaluate
    | branches :: _ => branches.countP fun branch => branch.column "is_active" = .bool true
    | [] => 0

/-- `MemberRepository.active_owner_count`. -/
def activeOwnerCount : ORMExecuteState Nat where
  isSelect := true
  skipTenantFilter := false
  query := .select [.expression] [membershipMapper, membershipRoleMapper, roleMapper] []
  evaluate
    | memberships :: assignments :: roles :: _ =>
        ((memberships.filter fun membership =>
          membership.column "status" = .text "ACTIVE" &&
          assignments.any fun assignment =>
            assignment.column "membership_id" = membership.column "id" &&
            roles.any fun role =>
              role.column "id" = assignment.column "role_id" &&
              role.column "code" = .text "OWNER" &&
              role.column "is_system" = .bool true).map (·.column "id")).dedup.length
    | _ => 0

/-- A member of tenant `1` without any restriction. -/
def guardContext : TenantContext where
  tenantId := 1
  membershipId := 1
  userId := 1
  roleIds := ∅
  permissions := ∅
  branchIds := none

theorem guarded_iff_getBranch :
    Guarded (some guardContext) (getBranch 7) ∧ Guarded none (getBranch 7) :=
  ⟨(guarded_iff rfl rfl ⟨branchMapper, List.mem_singleton_self _, rfl⟩).mpr
      ⟨branchMapper, List.mem_singleton_self _, rfl⟩,
    (guarded_iff rfl rfl ⟨branchMapper, List.mem_singleton_self _, rfl⟩).mpr
      ⟨branchMapper, List.mem_singleton_self _, rfl⟩⟩

/-- One active branch of tenant `1` and one of tenant `2`. -/
def twoTenants (mapper : Mapper) : List Row :=
  if mapper = branchMapper then
    [⟨some 1, fun name => if name = "id" then .uuid 7 else .bool true⟩,
      ⟨some 2, fun name => if name = "id" then .uuid 8 else .bool true⟩]
  else []

/-- The count of active branches is not refused without a context, and in a context it counts
the branches of all tenants. -/
theorem activeCount_unguarded :
    (applyTenantFilter none activeCount = .ok none ∧
      applyTenantFilter (some guardContext) activeCount = .ok none ∧
      activeCount.result none twoTenants = 2 ∧ activeCount.result (some 1) twoTenants = 1) ∧
    ¬∀ (context : Option TenantContext) (state : ORMExecuteState Nat), state.isSelect = true →
      state.skipTenantFilter = false →
      (∃ mapper ∈ state.query.entities, mapper.tenantScoped = true) → Guarded context state := by
  refine ⟨⟨rfl, rfl, by decide, by decide⟩, fun h => ?_⟩
  obtain ⟨_, hcontext, -⟩ := h none activeCount rfl rfl ⟨branchMapper, List.mem_singleton_self _, rfl⟩
  cases hcontext

end Nexora.TenantGuard
