import Nexora.Core.TenantGuard
import Mathlib.Data.List.Nodup
import Mathlib.Logic.Function.Basic

/-!
# Row security

The row-level policies of the migrations `0008_rls`, `0010_membership_self_access`,
`0011_invitation_redemption` and `0014_membership_role_self_access`, and of those that add a table, as
PostgreSQL applies them to the application's role.  They are the layer below the tenant guard: every statement
meets them, also the aggregates that the guard leaves as they are.

The policies read three settings of a transaction.  Most tables have one policy, on their `tenant_id`.  A user
also reads the memberships that the user has in any tenant, with their roles, and who has the token of an
invitation reads and changes that one.

A statement does to the rows that an observer may see what it would do if there were no others (`exec_view`).
The policies of two tables look for a membership, so this needs that a row of a membership goes when the
membership does (`Consistent`).
-/

namespace Nexora.RowSecurity

open TenantGuard (Row Value Mapper)

/-! ## Settings -/

/-- `app.tenant_id`, `app.user_id` and `app.invitation_token`, which are local to a transaction. -/
structure Settings where
  tenantId : Option Uuid
  userId : Option Uuid
  invitationToken : Option String

/-- Where a transaction begins. -/
def Settings.unset : Settings := ⟨none, none, none⟩

/-- Who looks: a transaction with its settings, or all users of a tenant together. -/
structure Observer where
  tenant : Uuid → Bool
  user : Uuid → Bool
  token : String → Bool

/-- The settings, as the policies compare with them. -/
def Settings.observer (settings : Settings) : Observer where
  tenant t := settings.tenantId = some t
  user u := settings.userId = some u
  token h := settings.invitationToken = some h

/-- Whom the one is, the other is too. -/
structure Observer.Within (reader observer : Observer) : Prop where
  tenant : ∀ t, reader.tenant t = true → observer.tenant t = true
  user : ∀ u, reader.user u = true → observer.user u = true
  token : ∀ h, reader.token h = true → observer.token h = true

theorem unset_within (observer : Observer) : Settings.unset.observer.Within observer := ⟨nofun, nofun, nofun⟩

/-- `tenant_id = NULLIF(current_setting('app.tenant_id', true), '')::uuid`. -/
def Observer.isTenant (observer : Observer) (row : Row) : Bool := row.tenantId.any observer.tenant

/-- `user_id = NULLIF(current_setting('app.user_id', true), '')::uuid`. -/
def Observer.isUser (observer : Observer) (row : Row) : Bool :=
  match row.column "user_id" with
  | .uuid u => observer.user u
  | _ => false

/-- `token_hash = NULLIF(current_setting('app.invitation_token', true), '')`. -/
def Observer.hasToken (observer : Observer) (row : Row) : Bool :=
  match row.column "token_hash" with
  | .text h => observer.token h
  | _ => false

theorem isTenant_observer (settings : Settings) (row : Row) :
    settings.observer.isTenant row = settings.tenantId.any fun t => row.tenantId = some t := by
  rcases settings with ⟨_ | t, _, _⟩ <;> rcases row with ⟨_ | t', _⟩ <;>
    simp [Observer.isTenant, Settings.observer, eq_comm]

theorem isUser_observer (settings : Settings) (row : Row) :
    settings.observer.isUser row = settings.userId.any fun u => row.column "user_id" = .uuid u := by
  rcases settings with ⟨_, _ | u, _⟩ <;> cases hcolumn : row.column "user_id" <;>
    simp [Observer.isUser, Settings.observer, hcolumn, eq_comm]

/-! ## Tables -/

inductive TableName where
  | memberships
  | invitations
  | roles
  | membershipBranches
  | membershipRoles
  /-- A table with the one policy on its `tenant_id`. -/
  | tenantOwned (name : String)
  /-- A table without row security. -/
  | shared (name : String)
deriving DecidableEq

/-- The tables of the migrations with the one policy. -/
def tenantTables : List String :=
  ["branches", "warehouses", "audit_events", "idempotency_keys", "brands", "categories", "tax_categories",
    "units_of_measure", "products", "inventory_balances", "inventory_movements", "product_variants",
    "stock_adjustments", "stock_reservations", "stock_transfers", "product_barcodes", "stock_transfer_lines",
    "customers", "suppliers", "document_sequences", "quotations", "quotation_lines", "sales_orders",
    "sales_order_lines", "fulfillments", "fulfillment_lines", "invoices", "invoice_lines", "payments",
    "payment_allocations", "credit_notes", "credit_note_lines", "purchase_orders", "purchase_order_lines",
    "goods_receipts", "goods_receipt_lines", "supplier_bills", "supplier_bill_lines", "pos_terminals",
    "pos_sessions", "sales", "sale_lines", "sale_payments", "held_sales", "receipts", "sale_returns",
    "sale_return_lines", "accounts", "journals", "fiscal_periods", "journal_entries", "journal_entry_lines",
    "product_cost_layers", "leads", "opportunities", "crm_activities", "crm_notes", "vat_rates",
    "vat_transactions", "vat_returns", "documents", "document_chunks", "document_acl", "document_jobs",
    "anomaly_alerts"]

def TableName.named (name : String) : TableName :=
  if name = "memberships" then .memberships
  else if name = "invitations" then .invitations
  else if name = "roles" then .roles
  else if name = "membership_branches" then .membershipBranches
  else if name = "membership_roles" then .membershipRoles
  else if name ∈ tenantTables then .tenantOwned name
  else .shared name

/-- The tables whose policies look for a membership. -/
def TableName.ofMembership : TableName → Bool
  | .membershipBranches | .membershipRoles => true
  | _ => false

/-- A foreign key `ON DELETE CASCADE`. -/
structure ForeignKey where
  child : String
  column : String
  parent : String
deriving DecidableEq

/-- The foreign keys of the migrations that cascade, but for those on tenants and users, which nothing deletes.
No child is a parent. -/
def cascades : List ForeignKey :=
  [⟨"membership_branches", "branch_id", "branches"⟩, ⟨"membership_branches", "membership_id", "memberships"⟩,
    ⟨"membership_roles", "membership_id", "memberships"⟩, ⟨"membership_roles", "role_id", "roles"⟩,
    ⟨"role_permissions", "role_id", "roles"⟩, ⟨"refresh_tokens", "session_id", "auth_sessions"⟩,
    ⟨"stock_transfer_lines", "transfer_id", "stock_transfers"⟩,
    ⟨"quotation_lines", "quotation_id", "quotations"⟩,
    ⟨"purchase_order_lines", "purchase_order_id", "purchase_orders"⟩,
    ⟨"sales_order_lines", "sales_order_id", "sales_orders"⟩,
    ⟨"fulfillment_lines", "fulfillment_id", "fulfillments"⟩,
    ⟨"goods_receipt_lines", "goods_receipt_id", "goods_receipts"⟩, ⟨"invoice_lines", "invoice_id", "invoices"⟩,
    ⟨"payment_allocations", "payment_id", "payments"⟩,
    ⟨"supplier_bill_lines", "supplier_bill_id", "supplier_bills"⟩,
    ⟨"credit_note_lines", "credit_note_id", "credit_notes"⟩, ⟨"held_sales", "session_id", "pos_sessions"⟩,
    ⟨"sale_lines", "sale_id", "sales"⟩, ⟨"sale_payments", "sale_id", "sales"⟩,
    ⟨"sale_return_lines", "sale_return_id", "sale_returns"⟩, ⟨"crm_activities", "customer_id", "customers"⟩,
    ⟨"crm_activities", "lead_id", "leads"⟩, ⟨"crm_activities", "opportunity_id", "opportunities"⟩,
    ⟨"crm_notes", "customer_id", "customers"⟩, ⟨"crm_notes", "lead_id", "leads"⟩,
    ⟨"crm_notes", "opportunity_id", "opportunities"⟩, ⟨"document_chunks", "document_id", "documents"⟩,
    ⟨"document_acl", "document_id", "documents"⟩, ⟨"document_acl", "role_id", "roles"⟩,
    ⟨"document_jobs", "document_id", "documents"⟩]

/-- The row goes with its parent. -/
def hangsOn (table : TableName) (row : Row) (parentTable : TableName) (parent : Row) : Bool :=
  cascades.any fun key => .named key.child = table && .named key.parent = parentTable &&
    row.column key.column = parent.column "id"

/-! ## Policies -/

/-- A policy: whether it is for `SELECT` alone, its `USING` and its `WITH CHECK`.  What a subquery finds in
`memberships` is given to both. -/
structure Policy where
  selectOnly : Bool
  qual : List Row → Row → Bool
  withCheck : List Row → Row → Bool

/-- The row is of the membership. -/
def isOf (row membership : Row) : Bool := row.column "membership_id" = membership.column "id"

/-- `tenant_isolation`. -/
def tenantIsolation (reader : Observer) : Policy :=
  ⟨false, fun _ row => reader.isTenant row, fun _ row => reader.isTenant row⟩

/-- `tenant_isolation` of the tables whose rows are of a membership. -/
def membershipIsolation (reader : Observer) : Policy :=
  ⟨false, fun memberships row => memberships.any fun m => isOf row m && reader.isTenant m,
    fun memberships row => memberships.any fun m => isOf row m && reader.isTenant m⟩

/-- The policies of a table. -/
def policies (reader : Observer) : TableName → List Policy
  | .memberships =>
      -- `membership_self_read`
      [tenantIsolation reader, ⟨true, fun _ row => reader.isUser row, fun _ _ => false⟩]
  | .invitations =>
      -- `invitation_redeem`
      [tenantIsolation reader,
        ⟨false, fun _ row => reader.hasToken row, fun _ row => reader.hasToken row⟩]
  | .roles =>
      [⟨false, fun _ row => row.tenantId.isNone || reader.isTenant row,
        fun _ row => reader.isTenant row⟩]
  | .membershipBranches => [membershipIsolation reader]
  | .membershipRoles =>
      -- `membership_role_self_read`
      [membershipIsolation reader,
        ⟨true, fun memberships row => memberships.any fun m => isOf row m && reader.isUser m,
          fun _ _ => false⟩]
  | .tenantOwned _ => [tenantIsolation reader]
  | .shared _ => [⟨false, fun _ _ => true, fun _ _ => true⟩]

/-- A `SELECT` finds the row. -/
def canSelect (reader : Observer) (memberships : List Row) (table : TableName) (row : Row) : Bool :=
  (policies reader table).any fun policy => policy.qual memberships row

/-- An `UPDATE` or `DELETE` finds the row. -/
def canChange (reader : Observer) (memberships : List Row) (table : TableName) (row : Row) : Bool :=
  (policies reader table).any fun policy => !policy.selectOnly && policy.qual memberships row

/-- An `INSERT` or `UPDATE` may leave the row behind. -/
def canLeave (reader : Observer) (memberships : List Row) (table : TableName) (row : Row) : Bool :=
  (policies reader table).any fun policy => !policy.selectOnly && policy.withCheck memberships row

/-! ## Statements -/

/-- The rows of all tenants, and the index of the primary key of `memberships`, which has no policy. -/
structure Database where
  tables : TableName → List Row
  membershipIds : List Value

/-- What a subquery of a policy finds in `memberships`. -/
def Database.visibleMemberships (db : Database) (reader : Observer) : List Row :=
  (db.tables .memberships).filter (canSelect reader [] .memberships)

/-- The rows that the policies show. -/
def Database.view (db : Database) (reader : Observer) : Database :=
  { db with tables := fun table =>
      (db.tables table).filter (canSelect reader (db.visibleMemberships reader) table) }

/-- Other rows in a table. -/
def Database.put (db : Database) (table : TableName) (rows : List Row) (ids : List Value) : Database :=
  ⟨Function.update db.tables table rows, ids⟩

theorem Database.put_self (db : Database) (table : TableName) (rows : List Row) (ids : List Value) :
    (db.put table rows ids).tables table = rows :=
  Function.update_self _ _ _

theorem Database.put_other (db : Database) {table t : TableName} (h : t ≠ table) (rows : List Row)
    (ids : List Value) : (db.put table rows ids).tables t = db.tables t :=
  Function.update_of_ne h _ _

/-- A statement that writes.  The conditions and the subqueries of a statement read what the policies show. -/
inductive Statement where
  | insert (table : TableName) (row : Row)
  /-- What becomes of a row that the statement finds, unless its condition fails. -/
  | update (table : TableName) (set : (TableName → List Row) → Row → Option Row)
  | delete (table : TableName) (condition : (TableName → List Row) → Row → Bool)

/-- No statement changes an identifier. -/
def keepKey (row new : Row) : Row :=
  { new with column := fun name => if name = "id" then row.column "id" else new.column name }

/-- What an `UPDATE` makes of a row that it changes. -/
def Database.updated (db : Database) (reader : Observer) (table : TableName)
    (set : (TableName → List Row) → Row → Option Row) (row : Row) : Option Row :=
  if canChange reader (db.visibleMemberships reader) table row then
    (set (db.view reader).tables row).map (keepKey row)
  else none

/-- The rows that a `DELETE` finds. -/
def Database.deleted (db : Database) (reader : Observer) (table : TableName)
    (condition : (TableName → List Row) → Row → Bool) (row : Row) : Bool :=
  canChange reader (db.visibleMemberships reader) table row && condition (db.view reader).tables row

/-- The rows that a `DELETE` of some rows leaves. -/
def keeps (table : TableName) (doomed : Row → Bool) (rows : List Row) (t : TableName) (row : Row) : Bool :=
  !(t = table && doomed row) && !rows.any (hangsOn t row table)

/-- A statement, and the rows that it returns.  It is refused where a policy does not let it leave a row
behind, and where a membership has the identifier of another. -/
def Database.exec (db : Database) (reader : Observer) : Statement → Option (Database × List Row)
  | .insert table row =>
      if canLeave reader (db.visibleMemberships reader) table row &&
          !(table = .memberships && row.column "id" ∈ db.membershipIds) then
        some (db.put table (db.tables table ++ [row])
          (if table = .memberships then db.membershipIds ++ [row.column "id"] else db.membershipIds), [row])
      else none
  | .update table set =>
      let updated := db.updated reader table set
      if (db.tables table).all fun row =>
          (updated row).all (canLeave reader (db.visibleMemberships reader) table) then
        some (db.put table ((db.tables table).map fun row => (updated row).getD row) db.membershipIds,
          (db.tables table).filterMap updated)
      else none
  | .delete table condition =>
      let doomed := db.deleted reader table condition
      let rows := (db.tables table).filter doomed
      some (⟨fun t => (db.tables t).filter (keeps table doomed rows t),
        if table = .memberships then db.membershipIds.filter (· ∉ rows.map (·.column "id"))
        else db.membershipIds⟩, rows)

/-! ## What the policies show -/

section

variable {reader observer : Observer} {memberships memberships' : List Row} {table : TableName} {row : Row}
  {db db' : Database}

theorem canSelect_of_canChange (h : canChange reader memberships table row = true) :
    canSelect reader memberships table row = true := by
  obtain ⟨policy, hpolicy, hqual⟩ := List.any_eq_true.mp h
  exact List.any_eq_true.mpr ⟨policy, hpolicy, (Bool.and_eq_true_iff.mp hqual).2⟩

/-- A row that a statement leaves behind is shown to it. -/
theorem canSelect_of_canLeave (h : canLeave reader memberships table row = true) :
    canSelect reader memberships table row = true := by
  cases table with
  | membershipBranches | tenantOwned | shared => exact h
  | memberships | invitations | roles | membershipRoles =>
      simp only [canLeave, canSelect, policies, tenantIsolation, membershipIsolation, List.any_cons,
        List.any_nil, Bool.or_false, Bool.not_false, Bool.not_true, Bool.true_and, Bool.false_and,
        Bool.or_eq_true] at h ⊢
      tauto

theorem Observer.Within.isTenant (h : reader.Within observer) (hrow : reader.isTenant row = true) :
    observer.isTenant row = true := by
  obtain ⟨t, ht, hrow⟩ := Option.any_eq_true _ _ |>.mp hrow
  exact Option.any_eq_true _ _ |>.mpr ⟨t, ht, h.tenant t hrow⟩

theorem Observer.Within.isUser (h : reader.Within observer) (hrow : reader.isUser row = true) :
    observer.isUser row = true := by
  unfold Observer.isUser at hrow ⊢
  split at hrow
  · exact h.user _ hrow
  · cases hrow

theorem Observer.Within.hasToken (h : reader.Within observer) (hrow : reader.hasToken row = true) :
    observer.hasToken row = true := by
  unfold Observer.hasToken at hrow ⊢
  split at hrow
  · exact h.token _ hrow
  · cases hrow

theorem canSelect_memberships :
    canSelect reader memberships .memberships row = (reader.isTenant row || reader.isUser row) := by
  simp [canSelect, policies, tenantIsolation]

theorem canSelect_membershipBranches : canSelect reader memberships .membershipBranches row =
    memberships.any fun m => isOf row m && reader.isTenant m := by
  simp [canSelect, policies, membershipIsolation]

theorem canSelect_membershipRoles : canSelect reader memberships .membershipRoles row =
    memberships.any fun m => isOf row m && (reader.isTenant m || reader.isUser m) := by
  rw [Bool.eq_iff_iff]
  simp only [canSelect, policies, membershipIsolation, List.any_cons, List.any_nil, Bool.or_false,
    Bool.or_eq_true, List.any_eq_true, Bool.and_eq_true]
  constructor
  · rintro (⟨m, hm, hof, htenant⟩ | ⟨m, hm, hof, huser⟩)
    · exact ⟨m, hm, hof, .inl htenant⟩
    · exact ⟨m, hm, hof, .inr huser⟩
  · rintro ⟨m, hm, hof, htenant | huser⟩
    · exact .inl ⟨m, hm, hof, htenant⟩
    · exact .inr ⟨m, hm, hof, huser⟩

theorem canSelect_mono (h : reader.Within observer) (hsub : memberships ⊆ memberships')
    (hrow : canSelect reader memberships table row = true) :
    canSelect observer memberships' table row = true := by
  cases table with
  | memberships =>
      rw [canSelect_memberships, Bool.or_eq_true] at hrow ⊢
      exact hrow.imp h.isTenant h.isUser
  | membershipBranches =>
      rw [canSelect_membershipBranches, List.any_eq_true] at hrow ⊢
      obtain ⟨m, hm, hrow⟩ := hrow
      rw [Bool.and_eq_true] at hrow
      exact ⟨m, hsub hm, Bool.and_eq_true_iff.mpr ⟨hrow.1, h.isTenant hrow.2⟩⟩
  | membershipRoles =>
      rw [canSelect_membershipRoles, List.any_eq_true] at hrow ⊢
      obtain ⟨m, hm, hrow⟩ := hrow
      rw [Bool.and_eq_true, Bool.or_eq_true] at hrow
      refine ⟨m, hsub hm, Bool.and_eq_true_iff.mpr ⟨hrow.1, Bool.or_eq_true_iff.mpr ?_⟩⟩
      exact hrow.2.imp h.isTenant h.isUser
  | invitations =>
      simp only [canSelect, policies, tenantIsolation, List.any_cons, List.any_nil, Bool.or_false,
        Bool.or_eq_true] at hrow ⊢
      exact hrow.imp h.isTenant h.hasToken
  | roles =>
      simp only [canSelect, policies, List.any_cons, List.any_nil, Bool.or_false, Bool.or_eq_true] at hrow ⊢
      exact hrow.imp_right h.isTenant
  | tenantOwned =>
      simp only [canSelect, policies, tenantIsolation, List.any_cons, List.any_nil, Bool.or_false] at hrow ⊢
      exact h.isTenant hrow
  | shared => rfl

theorem any_congr_mem {l : List Row} {p q : Row → Bool} (h : ∀ row ∈ l, p row = q row) :
    l.any p = l.any q := by
  rw [Bool.eq_iff_iff, List.any_eq_true, List.any_eq_true]
  exact exists_congr fun row => and_congr_right fun hrow => by rw [h row hrow]

/-- The memberships matter to the tables whose rows are of one. -/
theorem canSelect_congr
    (h : table.ofMembership = true → ∀ p : Row → Bool, (p = reader.isTenant ∨
      p = fun m => reader.isTenant m || reader.isUser m) →
        (memberships.any fun m => isOf row m && p m) = memberships'.any fun m => isOf row m && p m) :
    canSelect reader memberships table row = canSelect reader memberships' table row := by
  cases table with
  | membershipBranches =>
      rw [canSelect_membershipBranches, canSelect_membershipBranches]
      exact h rfl _ (.inl rfl)
  | membershipRoles =>
      rw [canSelect_membershipRoles, canSelect_membershipRoles]
      exact h rfl _ (.inr rfl)
  | memberships | invitations | roles | tenantOwned | shared => rfl

theorem visibleMemberships_subset (h : reader.Within observer) :
    db.visibleMemberships reader ⊆ db.visibleMemberships observer := by
  intro m hm
  obtain ⟨hmem, hselect⟩ := List.mem_filter.mp hm
  exact List.mem_filter.mpr ⟨hmem, canSelect_mono h (List.Subset.refl _) hselect⟩

theorem view_tables (db : Database) (observer : Observer) (table : TableName) :
    (db.view observer).tables table =
      (db.tables table).filter (canSelect observer (db.visibleMemberships observer) table) := rfl

theorem view_memberships (db : Database) (observer : Observer) :
    (db.view observer).tables .memberships = db.visibleMemberships observer := rfl

/-- A second look shows what is shown at once. -/
theorem visibleMemberships_view (h : reader.Within observer) :
    (db.view observer).visibleMemberships reader = db.visibleMemberships reader := by
  rw [Database.visibleMemberships, view_memberships, Database.visibleMemberships, List.filter_filter]
  refine List.filter_congr fun m _ => ?_
  rw [Bool.eq_iff_iff, Bool.and_eq_true]
  exact ⟨And.left, fun hm => ⟨hm, canSelect_mono h (List.Subset.refl _) hm⟩⟩

theorem view_view (h : reader.Within observer) : (db.view observer).view reader = db.view reader := by
  have htables : ((db.view observer).view reader).tables = (db.view reader).tables := by
    funext table
    rw [view_tables, view_tables, view_tables, visibleMemberships_view h, List.filter_filter]
    refine List.filter_congr fun row _ => ?_
    rw [Bool.eq_iff_iff, Bool.and_eq_true]
    exact ⟨And.left, fun hrow => ⟨hrow, canSelect_mono h (visibleMemberships_subset h) hrow⟩⟩
  exact congrArg (Database.mk · db.membershipIds) htables

theorem updated_view (h : reader.Within observer) :
    (db.view observer).updated reader = db.updated reader := by
  funext table set row
  rw [Database.updated, Database.updated, visibleMemberships_view h, view_view h]

theorem deleted_view (h : reader.Within observer) :
    (db.view observer).deleted reader = db.deleted reader := by
  funext table condition row
  rw [Database.deleted, Database.deleted, visibleMemberships_view h, view_view h]

/-- What a statement finds, an observer sees. -/
theorem canSelect_observer (h : reader.Within observer)
    (hrow : canChange reader (db.visibleMemberships reader) table row = true) :
    canSelect observer (db.visibleMemberships observer) table row = true :=
  canSelect_mono h (visibleMemberships_subset h) (canSelect_of_canChange hrow)

/-! ## Statements on what is shown -/

/-- The keys of the memberships, and those of their branches and roles. -/
structure Database.Consistent (db : Database) : Prop where
  keys : ((db.tables .memberships).map (·.column "id")).Nodup
  indexed : ∀ m ∈ db.tables .memberships, m.column "id" ∈ db.membershipIds
  linked : ∀ table : TableName, table.ofMembership = true → ∀ row ∈ db.tables table,
    row.column "membership_id" ∈ db.membershipIds

theorem hangsOn_of_isOf {m : Row} (htable : table.ofMembership = true) (h : isOf row m = true) :
    hangsOn table row .memberships m = true := by
  have hcolumn := of_decide_eq_true h
  cases table with
  | membershipBranches =>
      exact List.any_eq_true.mpr ⟨⟨"membership_branches", "membership_id", "memberships"⟩, by decide +kernel,
        Bool.and_eq_true_iff.mpr ⟨by decide +kernel, decide_eq_true hcolumn⟩⟩
  | membershipRoles =>
      exact List.any_eq_true.mpr ⟨⟨"membership_roles", "membership_id", "memberships"⟩, by decide +kernel,
        Bool.and_eq_true_iff.mpr ⟨by decide +kernel, decide_eq_true hcolumn⟩⟩
  | memberships | invitations | roles | tenantOwned | shared => cases htable

/-- Nothing that is deleted takes a membership along. -/
theorem hangsOn_memberships (row : Row) (table : TableName) (parent : Row) :
    hangsOn .memberships row table parent = false := by
  have hchild : ∀ key ∈ cascades, TableName.named key.child ≠ .memberships := by decide +kernel
  refine List.any_eq_false.mpr fun key hkey h => ?_
  rw [Bool.and_eq_true, Bool.and_eq_true, decide_eq_true_iff] at h
  exact hchild key hkey h.1.1

/-- Where nothing goes along, a table keeps what the statement has not found. -/
theorem keeps_of_not_hangsOn {doomed : Row → Bool} {rows : List Row} {t : TableName}
    (h : ∀ parent, hangsOn t row table parent = false) :
    keeps table doomed rows t row = !(decide (t = table) && doomed row) := by
  have hrows : rows.any (hangsOn t row table) = false :=
    List.any_eq_false.mpr fun parent _ => by rw [h]; exact Bool.false_ne_true
  rw [keeps, hrows, Bool.not_false, Bool.and_true]

theorem keeps_memberships {doomed : Row → Bool} {rows : List Row} :
    keeps table doomed rows .memberships row = !(decide (TableName.memberships = table) && doomed row) :=
  keeps_of_not_hangsOn (hangsOn_memberships row table)

/-- A row that is kept is of no membership that goes. -/
theorem not_isOf_of_keeps {doomed : Row → Bool} {rows : List Row} {m : Row}
    (htable : table.ofMembership = true) (hkept : keeps .memberships doomed rows table row = true)
    (hm : m ∈ rows) : isOf row m = false := by
  refine Bool.eq_false_iff.mpr fun hof => ?_
  have hhangs : rows.any (hangsOn table row .memberships) = true :=
    List.any_eq_true.mpr ⟨m, hm, hangsOn_of_isOf htable hof⟩
  rw [keeps, hhangs, Bool.not_true, Bool.and_false] at hkept
  cases hkept

theorem visibleMemberships_insert (ids : List Value) :
    (db.put table (db.tables table ++ [row]) ids).visibleMemberships observer =
      db.visibleMemberships observer ++
        if table = .memberships then [row].filter (canSelect observer [] .memberships) else [] := by
  rw [Database.visibleMemberships, Database.visibleMemberships]
  by_cases htable : table = .memberships
  · subst htable
    rw [Database.put_self, if_pos rfl, List.filter_append]
  · rw [Database.put_other _ (Ne.symm htable), if_neg htable, List.append_nil]

theorem view_insert (hdb : db.Consistent) (hwithin : reader.Within observer)
    (hleave : canLeave reader (db.visibleMemberships reader) table row = true)
    (hfree : table = .memberships → row.column "id" ∉ db.membershipIds) (ids : List Value) :
    (db.put table (db.tables table ++ [row]) ids).view observer =
      (db.view observer).put table ((db.view observer).tables table ++ [row]) ids := by
  have hmemberships : (db.put table (db.tables table ++ [row]) ids).visibleMemberships observer =
      db.visibleMemberships observer ++
        if table = .memberships then [row].filter (canSelect observer [] .memberships) else [] :=
    visibleMemberships_insert ids
  have hold : ∀ t, ∀ r ∈ db.tables t, canSelect observer
      ((db.put table (db.tables table ++ [row]) ids).visibleMemberships observer) t r =
        canSelect observer (db.visibleMemberships observer) t r := by
    intro t r hr
    refine canSelect_congr fun ht p _ => ?_
    rw [hmemberships, List.any_append, Bool.or_eq_left_iff_imp]
    intro hany
    -- the new membership has an identifier that no row of another names
    obtain ⟨m, hm, hof⟩ := List.any_eq_true.mp hany
    split at hm
    · rename_i htable
      obtain rfl := List.mem_singleton.mp (List.mem_filter.mp hm).1
      have hid := of_decide_eq_true (Bool.and_eq_true_iff.mp hof).1
      exact absurd (hid ▸ hdb.linked t ht r hr) (hfree htable)
    · cases hm
  have hnew : canSelect observer
      ((db.put table (db.tables table ++ [row]) ids).visibleMemberships observer) table row = true := by
    refine canSelect_mono hwithin ?_ (canSelect_of_canLeave hleave)
    rw [hmemberships]
    exact List.Subset.trans (visibleMemberships_subset hwithin) (List.subset_append_left _ _)
  refine congrArg (Database.mk · ids) ?_
  funext t
  by_cases ht : t = table
  · subst ht
    rw [Database.put_self, Function.update_self, List.filter_append, List.filter_cons_of_pos hnew,
      List.filter_nil, view_tables]
    exact congrArg (· ++ [row]) (List.filter_congr (hold t))
  · rw [Database.put_other _ ht, Function.update_of_ne ht, view_tables]
    exact List.filter_congr (hold t)

/-- The rows of a table after an `UPDATE`. -/
def Database.afterUpdate (db : Database) (reader : Observer) (table : TableName)
    (set : (TableName → List Row) → Row → Option Row) (row : Row) : Row :=
  (db.updated reader table set row).getD row

theorem updated_eq_some {set : (TableName → List Row) → Row → Option Row} {new : Row}
    (h : db.updated reader table set row = some new) :
    canChange reader (db.visibleMemberships reader) table row = true ∧
      new.column "id" = row.column "id" := by
  unfold Database.updated at h
  split at h
  · rename_i hchange
    obtain ⟨written, -, rfl⟩ := Option.map_eq_some_iff.mp h
    exact ⟨hchange, rfl⟩
  · cases h

/-- A membership stays with its tenant, and who reads it for the tenant still does. -/
theorem afterUpdate_membership (hwithin : reader.Within observer)
    {set : (TableName → List Row) → Row → Option Row}
    (hleave : ∀ new ∈ db.updated reader .memberships set row,
      canLeave reader (db.visibleMemberships reader) .memberships new = true) :
    (db.afterUpdate reader .memberships set row).column "id" = row.column "id" ∧
      observer.isTenant (db.afterUpdate reader .memberships set row) = observer.isTenant row ∧
        (observer.isTenant (db.afterUpdate reader .memberships set row) ||
          observer.isUser (db.afterUpdate reader .memberships set row)) =
            (observer.isTenant row || observer.isUser row) := by
  unfold Database.afterUpdate
  cases hupdated : db.updated reader .memberships set row with
  | none => exact ⟨rfl, rfl, rfl⟩
  | some new =>
      obtain ⟨hchange, hid⟩ := updated_eq_some hupdated
      have htenant : reader.isTenant row = true := by
        simpa [canChange, policies, tenantIsolation] using hchange
      have hnew : reader.isTenant new = true := by
        simpa [canLeave, policies, tenantIsolation] using hleave new hupdated
      rw [Option.getD_some, hwithin.isTenant htenant, hwithin.isTenant hnew, Bool.true_or, Bool.true_or]
      exact ⟨hid, rfl, rfl⟩

theorem visibleMemberships_update (hwithin : reader.Within observer)
    {set : (TableName → List Row) → Row → Option Row}
    (hleave : ∀ row ∈ db.tables .memberships, ∀ new ∈ db.updated reader .memberships set row,
      canLeave reader (db.visibleMemberships reader) .memberships new = true) (ids : List Value) :
    (db.put .memberships ((db.tables .memberships).map (db.afterUpdate reader .memberships set))
      ids).visibleMemberships observer =
        (db.visibleMemberships observer).map (db.afterUpdate reader .memberships set) := by
  rw [Database.visibleMemberships, Database.visibleMemberships, Database.put_self, List.filter_map]
  refine congrArg (List.map _) (List.filter_congr fun m hm => ?_)
  rw [Function.comp_apply, canSelect_memberships, canSelect_memberships]
  exact (afterUpdate_membership hwithin (hleave m hm)).2.2

theorem view_update (hwithin : reader.Within observer)
    {set : (TableName → List Row) → Row → Option Row}
    (hleave : ∀ row ∈ db.tables table, ∀ new ∈ db.updated reader table set row,
      canLeave reader (db.visibleMemberships reader) table new = true) (ids : List Value) :
    (db.put table ((db.tables table).map (db.afterUpdate reader table set)) ids).view observer =
      (db.view observer).put table
        (((db.view observer).tables table).map (db.afterUpdate reader table set)) ids := by
  have hsame : ∀ t r, canSelect observer
      ((db.put table ((db.tables table).map (db.afterUpdate reader table set)) ids).visibleMemberships
        observer) t r = canSelect observer (db.visibleMemberships observer) t r := by
    intro t r
    refine canSelect_congr fun _ p hp => ?_
    by_cases htable : table = .memberships
    · subst htable
      rw [visibleMemberships_update hwithin hleave, List.any_map]
      refine any_congr_mem fun m hm => ?_
      obtain ⟨hid, htenant, huser⟩ :=
        afterUpdate_membership hwithin (hleave m (List.mem_filter.mp hm).1)
      rw [Function.comp_apply, isOf, isOf, hid]
      rcases hp with rfl | rfl
      · rw [htenant]
      · exact congrArg (_ && ·) huser
    · rw [Database.visibleMemberships, Database.put_other _ (Ne.symm htable), Database.visibleMemberships]
  refine congrArg (Database.mk · ids) ?_
  funext t
  by_cases ht : t = table
  · subst ht
    rw [Database.put_self, Function.update_self, List.filter_map, view_tables]
    refine congrArg (List.map _) (List.filter_congr fun r hr => ?_)
    rw [Function.comp_apply, hsame, Database.afterUpdate]
    cases hupdated : db.updated reader t set r with
    | none => rfl
    | some new =>
        have hnew := canSelect_of_canLeave (hleave r hr new hupdated)
        rw [canSelect_observer hwithin (updated_eq_some hupdated).1, Option.getD_some]
        exact canSelect_mono hwithin (visibleMemberships_subset hwithin) hnew
  · rw [Database.put_other _ ht, Function.update_of_ne ht, view_tables]
    exact List.filter_congr fun r _ => hsame t r

theorem view_delete {doomed : Row → Bool} {rows : List Row}
    (hrows : rows = (db.tables table).filter doomed) (ids : List Value) :
    (Database.mk (fun t => (db.tables t).filter (keeps table doomed rows t)) ids).view observer =
      ⟨fun t => ((db.view observer).tables t).filter (keeps table doomed rows t), ids⟩ := by
  have hmemberships : (Database.mk (fun t => (db.tables t).filter (keeps table doomed rows t))
      ids).visibleMemberships observer =
        (db.visibleMemberships observer).filter (keeps table doomed rows .memberships) := by
    rw [Database.visibleMemberships, Database.visibleMemberships, List.filter_comm]
  refine congrArg (Database.mk · ids) ?_
  funext t
  rw [view_tables, hmemberships, List.filter_filter, List.filter_filter]
  refine List.filter_congr fun r _ => ?_
  rw [Bool.and_comm]
  cases hkept : keeps table doomed rows t r with
  | false => rfl
  | true =>
      rw [Bool.true_and, Bool.true_and]
      refine canSelect_congr fun ht p _ => ?_
      rw [List.any_filter]
      refine any_congr_mem fun m hm => ?_
      cases hof : isOf r m with
      | false => rw [Bool.false_and, Bool.and_false]
      | true =>
          -- a row whose membership goes is not kept
          suffices hm : keeps table doomed rows .memberships m = true by rw [hm, Bool.true_and]
          rw [keeps_memberships, Bool.not_eq_true', Bool.and_eq_false_imp, decide_eq_true_iff]
          rintro rfl
          by_contra hdoomed
          have hmem : m ∈ rows := by
            rw [hrows]
            exact List.mem_filter.mpr ⟨(List.mem_filter.mp hm).1, Bool.not_eq_false _ ▸ hdoomed⟩
          rw [not_isOf_of_keeps ht hkept hmem] at hof
          cases hof

theorem updated_hidden (hwithin : reader.Within observer)
    (hhidden : canSelect observer (db.visibleMemberships observer) table row = false)
    (set : (TableName → List Row) → Row → Option Row) : db.updated reader table set row = none := by
  refine if_neg fun hchange => ?_
  rw [canSelect_observer hwithin hchange] at hhidden
  cases hhidden

theorem deleted_hidden (hwithin : reader.Within observer)
    (hhidden : canSelect observer (db.visibleMemberships observer) table row = false)
    (condition : (TableName → List Row) → Row → Bool) :
    db.deleted reader table condition row = false := by
  rw [Database.deleted, Bool.and_eq_false_imp]
  intro hchange
  rw [canSelect_observer hwithin hchange] at hhidden
  cases hhidden

/-- A statement finds and returns among the rows that an observer sees what it does among all, and what it
leaves of them the observer sees. -/
theorem exec_view (hdb : db.Consistent) (hwithin : reader.Within observer) (statement : Statement) :
    (db.view observer).exec reader statement =
      (db.exec reader statement).map fun (db', rows) => (db'.view observer, rows) := by
  cases statement with
  | insert table row =>
      have hids : (db.view observer).membershipIds = db.membershipIds := rfl
      simp only [Database.exec, visibleMemberships_view hwithin, hids]
      split
      · rename_i hallowed
        rw [Option.map_some]
        rw [Bool.and_eq_true, Bool.not_eq_true', Bool.and_eq_false_imp, decide_eq_true_iff,
          decide_eq_false_iff_not] at hallowed
        rw [view_insert hdb hwithin hallowed.1 hallowed.2]
      · rfl
  | update table set =>
      have hall : ((db.view observer).tables table).all (fun row =>
          (db.updated reader table set row).all
            (canLeave reader (db.visibleMemberships reader) table)) =
          (db.tables table).all fun row => (db.updated reader table set row).all
            (canLeave reader (db.visibleMemberships reader) table) := by
        rw [view_tables, List.all_filter]
        refine List.all_congr rfl fun row => ?_
        cases hshown : canSelect observer (db.visibleMemberships observer) table row with
        | true => rfl
        | false => rw [updated_hidden hwithin hshown]; rfl
      have hrows : ((db.view observer).tables table).filterMap (db.updated reader table set) =
          (db.tables table).filterMap (db.updated reader table set) := by
        rw [view_tables, List.filterMap_filter]
        refine List.filterMap_congr fun row _ => ?_
        split
        · rfl
        · rename_i hhidden
          exact (updated_hidden hwithin (Bool.not_eq_true _ ▸ hhidden) set).symm
      simp only [Database.exec, visibleMemberships_view hwithin, updated_view hwithin, hall, hrows]
      split
      · rename_i hleave
        rw [Option.map_some]
        refine congrArg some (Prod.ext ?_ rfl)
        refine (view_update hwithin (fun row hrow new hnew => ?_) db.membershipIds).symm
        exact Option.all_eq_true _ _ |>.mp (List.all_eq_true.mp hleave row hrow) new hnew
      · rfl
  | delete table condition =>
      have hrows : ((db.view observer).tables table).filter (db.deleted reader table condition) =
          (db.tables table).filter (db.deleted reader table condition) := by
        rw [view_tables, List.filter_filter]
        refine List.filter_congr fun row _ => ?_
        cases hshown : canSelect observer (db.visibleMemberships observer) table row with
        | true => rw [Bool.and_true]
        | false => rw [deleted_hidden hwithin hshown, Bool.false_and]
      simp only [Database.exec, deleted_view hwithin, hrows, Option.map_some]
      exact congrArg some (Prod.ext (view_delete rfl _).symm rfl)

/-- A row that a policy lets a statement leave behind is of a membership that there is. -/
theorem linked_of_canLeave (hdb : db.Consistent) (htable : table.ofMembership = true)
    (h : canLeave reader (db.visibleMemberships reader) table row = true) :
    row.column "membership_id" ∈ db.membershipIds := by
  have hshown := canSelect_of_canLeave h
  have hlinked : ∀ p : Row → Bool,
      ((db.visibleMemberships reader).any fun m => isOf row m && p m) = true →
        row.column "membership_id" ∈ db.membershipIds := by
    intro p hany
    obtain ⟨m, hm, hof⟩ := List.any_eq_true.mp hany
    rw [of_decide_eq_true (Bool.and_eq_true_iff.mp hof).1]
    exact hdb.indexed m (List.mem_filter.mp hm).1
  cases table with
  | membershipBranches => exact hlinked _ (canSelect_membershipBranches ▸ hshown)
  | membershipRoles => exact hlinked _ (canSelect_membershipRoles ▸ hshown)
  | memberships | invitations | roles | tenantOwned | shared => cases htable

theorem consistent_insert (hdb : db.Consistent)
    (hleave : canLeave reader (db.visibleMemberships reader) table row = true)
    (hfree : table = .memberships → row.column "id" ∉ db.membershipIds) :
    (db.put table (db.tables table ++ [row])
      (if table = .memberships then db.membershipIds ++ [row.column "id"]
        else db.membershipIds)).Consistent := by
  by_cases htable : table = .memberships
  · subst htable
    rw [if_pos rfl]
    refine ⟨?_, ?_, fun t ht r hr => ?_⟩
    · rw [Database.put_self, List.map_append, List.map_singleton, List.nodup_append]
      refine ⟨hdb.keys, List.nodup_singleton _, ?_⟩
      rintro key hkey _ hnew rfl
      obtain ⟨m, hm, rfl⟩ := List.mem_map.mp hkey
      exact hfree rfl (List.mem_singleton.mp hnew ▸ hdb.indexed m hm)
    · rw [Database.put_self]
      intro m hm
      refine (List.mem_append.mp hm).elim (fun hm => List.mem_append_left _ (hdb.indexed m hm)) fun hm => ?_
      exact List.mem_append_right _ (List.mem_singleton.mp hm ▸ List.mem_singleton_self _)
    · have hother : t ≠ .memberships := by rintro rfl; cases ht
      rw [Database.put_other _ hother] at hr
      exact List.mem_append_left _ (hdb.linked t ht r hr)
  · rw [if_neg htable]
    have hmemberships := Database.put_other db (Ne.symm htable) (db.tables table ++ [row]) db.membershipIds
    refine ⟨hmemberships ▸ hdb.keys, hmemberships ▸ hdb.indexed, fun t ht r hr => ?_⟩
    by_cases hsame : t = table
    · subst hsame
      rw [Database.put_self] at hr
      refine (List.mem_append.mp hr).elim (hdb.linked t ht r) fun hr => ?_
      have hlinked := linked_of_canLeave hdb ht hleave
      rwa [List.mem_singleton.mp hr]
    · rw [Database.put_other _ hsame] at hr
      exact hdb.linked t ht r hr

theorem afterUpdate_id (set : (TableName → List Row) → Row → Option Row) :
    (db.afterUpdate reader table set row).column "id" = row.column "id" := by
  unfold Database.afterUpdate
  cases hupdated : db.updated reader table set row with
  | none => rfl
  | some new => exact (updated_eq_some hupdated).2

theorem consistent_update (hdb : db.Consistent) {set : (TableName → List Row) → Row → Option Row}
    (hleave : ∀ row ∈ db.tables table, ∀ new ∈ db.updated reader table set row,
      canLeave reader (db.visibleMemberships reader) table new = true) :
    (db.put table ((db.tables table).map (db.afterUpdate reader table set))
      db.membershipIds).Consistent := by
  have hids : ∀ rows : List Row,
      (rows.map (db.afterUpdate reader table set)).map (·.column "id") = rows.map (·.column "id") := by
    intro rows
    rw [List.map_map]
    exact List.map_congr_left fun row _ => afterUpdate_id set
  refine ⟨?_, fun m hm => ?_, fun t ht r hr => ?_⟩
  · by_cases htable : table = .memberships
    · subst htable
      rw [Database.put_self, hids]
      exact hdb.keys
    · rw [Database.put_other _ (Ne.symm htable)]
      exact hdb.keys
  · by_cases htable : table = .memberships
    · subst htable
      rw [Database.put_self] at hm
      obtain ⟨old, hold, rfl⟩ := List.mem_map.mp hm
      rw [afterUpdate_id]
      exact hdb.indexed old hold
    · rw [Database.put_other _ (Ne.symm htable)] at hm
      exact hdb.indexed m hm
  · by_cases htable : t = table
    · subst htable
      rw [Database.put_self] at hr
      obtain ⟨old, hold, rfl⟩ := List.mem_map.mp hr
      unfold Database.afterUpdate
      cases hupdated : db.updated reader t set old with
      | none => exact hdb.linked t ht old hold
      | some new =>
          have hlinked := linked_of_canLeave hdb ht (hleave old hold new hupdated)
          exact hlinked
    · rw [Database.put_other _ htable] at hr
      exact hdb.linked t ht r hr

theorem consistent_delete (hdb : db.Consistent) {doomed : Row → Bool} {rows : List Row}
    (hrows : rows = (db.tables table).filter doomed) :
    (Database.mk (fun t => (db.tables t).filter (keeps table doomed rows t))
      (if table = .memberships then db.membershipIds.filter (· ∉ rows.map (·.column "id"))
        else db.membershipIds)).Consistent := by
  refine ⟨hdb.keys.sublist (List.filter_sublist.map _), fun m hm => ?_, fun t ht r hr => ?_⟩
  · obtain ⟨hmem, hkept⟩ := List.mem_filter.mp hm
    split
    · rename_i htable
      subst htable
      refine List.mem_filter.mpr ⟨hdb.indexed m hmem, decide_eq_true fun hgone => ?_⟩
      obtain ⟨r, hr, hid⟩ := List.mem_map.mp hgone
      rw [hrows] at hr
      obtain ⟨hr, hdoomed⟩ := List.mem_filter.mp hr
      rw [← List.inj_on_of_nodup_map hdb.keys hr hmem hid, keeps_memberships, hdoomed] at hkept
      simp at hkept
    · exact hdb.indexed m hmem
  · obtain ⟨hmem, hkept⟩ := List.mem_filter.mp hr
    split
    · rename_i htable
      subst htable
      refine List.mem_filter.mpr ⟨hdb.linked t ht r hmem, decide_eq_true fun hgone => ?_⟩
      obtain ⟨parent, hparent, hid⟩ := List.mem_map.mp hgone
      have hof : isOf r parent = true := decide_eq_true hid.symm
      rw [not_isOf_of_keeps ht hkept hparent] at hof
      cases hof
    · exact hdb.linked t ht r hmem

/-- What an `INSERT` does, and what it has met. -/
theorem insert_eq_some {rows : List Row} (h : db.exec reader (.insert table row) = some (db', rows)) :
    canLeave reader (db.visibleMemberships reader) table row = true ∧
      (table = .memberships → row.column "id" ∉ db.membershipIds) ∧
        db' = db.put table (db.tables table ++ [row])
          (if table = .memberships then db.membershipIds ++ [row.column "id"] else db.membershipIds) := by
  simp only [Database.exec] at h
  split at h
  · rename_i hallowed
    rw [Bool.and_eq_true, Bool.not_eq_true', Bool.and_eq_false_imp, decide_eq_true_iff,
      decide_eq_false_iff_not] at hallowed
    cases h
    exact ⟨hallowed.1, hallowed.2, rfl⟩
  · cases h

/-- What an `UPDATE` does, and what it has met. -/
theorem update_eq_some {set : (TableName → List Row) → Row → Option Row} {rows : List Row}
    (h : db.exec reader (.update table set) = some (db', rows)) :
    (∀ row ∈ db.tables table, ∀ new ∈ db.updated reader table set row,
      canLeave reader (db.visibleMemberships reader) table new = true) ∧
        db' = db.put table ((db.tables table).map (db.afterUpdate reader table set)) db.membershipIds := by
  simp only [Database.exec] at h
  split at h
  · rename_i hleave
    cases h
    refine ⟨fun row hrow new hnew => ?_, rfl⟩
    exact Option.all_eq_true _ _ |>.mp (List.all_eq_true.mp hleave row hrow) new hnew
  · cases h

theorem exec_consistent (hdb : db.Consistent) {statement : Statement} {rows : List Row}
    (h : db.exec reader statement = some (db', rows)) : db'.Consistent := by
  cases statement with
  | insert table row =>
      obtain ⟨hleave, hfree, rfl⟩ := insert_eq_some h
      exact consistent_insert hdb hleave hfree
  | update table set =>
      obtain ⟨hleave, rfl⟩ := update_eq_some h
      exact consistent_update hdb hleave
  | delete table condition =>
      cases h
      exact consistent_delete hdb rfl

end

end Nexora.RowSecurity
