import Nexora.Foundations.Amounts
import Nexora.Foundations.Calendar
import Nexora.Tenant.Operations
import Nexora.Tenant.Receivables

/-!
# The dashboard

`ReportingService.dashboard` reads its figures in one query over the tables of a tenant.

Its receivable is what the issued invoices come to less what is paid of them.  `receivables` of the
sales module takes the credit notes off as well, so the two figures are the same exactly when no
issued invoice has been credited (`dashboard_receivable_iff`).
-/

namespace Nexora

open Catalog Sales Purchasing Pos Tenant Foundations
open Accounting (Date Money between money)

/-! ## Figures -/

/-- The sales of the query: every sale in the table is completed. -/
def Tenant.TenantDb.salesBetween (db : TenantDb) (start stop : Date) : List SaleRow :=
  db.pos.sales.rows.filter fun row => between start stop row.occurredOn

/-- `pos.revenue`. -/
def Tenant.TenantDb.posRevenue (db : TenantDb) (start stop : Date) : Money :=
  ((db.salesBetween start stop).map (·.sale.totalAmount)).sum

/-- `pos.refunds`. -/
def Tenant.TenantDb.posRefunds (db : TenantDb) (start stop : Date) : Money :=
  ((db.salesBetween start stop).map (·.sale.refundedAmount)).sum

/-- `l.quantity * l.unit_cost`, with twelve decimals. -/
def Pos.SaleLine.cost (line : SaleLine) : ℚ := ((line.quantity * line.unitCost : ℤ) : ℚ) / 10 ^ 12

/-- `cogs.cost`. -/
def Tenant.TenantDb.costOfGoodsSold (db : TenantDb) (start stop : Date) : ℚ :=
  ((db.salesBetween start stop).flatMap fun row => row.sale.lines.map SaleLine.cost).sum

/-- The invoices of the query. -/
def Sales.SalesDb.invoicesBetween (db : SalesDb) (start stop : Date) : List Invoice :=
  db.invoices.rows.filter fun invoice =>
    invoice.status.isIssued && between start stop invoice.issueDate

/-- `invoiced.invoiced`. -/
def Sales.SalesDb.invoicedBetween (db : SalesDb) (start stop : Date) : Money :=
  ((db.invoicesBetween start stop).map (·.amounts.totalAmount)).sum

/-- `invoiced.receivable`. -/
def Sales.SalesDb.receivableBetween (db : SalesDb) (start stop : Date) : Money :=
  ((db.invoicesBetween start stop).map fun i => i.amounts.totalAmount - i.paidAmount).sum

/-- `billed.payable`. -/
def Purchasing.PurchasingDb.payable (db : PurchasingDb) : Money :=
  ((db.bills.rows.filter (·.status.isIssued)).map fun b =>
    b.amounts.totalAmount - b.paidAmount).sum

/-- `stock.value`, with twelve decimals. -/
def Inventory.InventoryDb.stockValue (db : Inventory.InventoryDb) : ℚ :=
  (db.balances.rows.map fun row =>
    ((db.products.get row.1.2).map fun product =>
      ((row.2.quantityOnHand * product.product.costPrice : ℤ) : ℚ) / 10 ^ 12).getD 0).sum

/-- What `dashboard` returns.  The figures are texts of these decimals. -/
structure Reports.Dashboard where
  fromDate : Date
  toDate : Date
  posRevenue : ℚ
  refunds : ℚ
  transactions : ℕ
  costOfGoodsSold : ℚ
  grossProfit : ℚ
  invoiced : ℚ
  accountsReceivable : ℚ
  accountsPayable : ℚ
  inventoryValue : ℚ

/-- `_validate_range`. -/
def Reports.validateRange (start stop : Date) : Except Err Unit :=
  if stop < start then
    .error (.domainValidation "INVALID_DATE_RANGE" "Report end must not precede start.")
  else if 366 < (ordinal stop.year stop.month stop.day : ℤ)
      - ordinal start.year start.month start.day then
    .error (.domainValidation "INVALID_DATE_RANGE" "Report range must not exceed 366 days.")
  else .ok ()

/-- The figures of the query. -/
def Tenant.TenantDb.figures (db : TenantDb) (start stop : Date) : Reports.Dashboard where
  fromDate := start
  toDate := stop
  posRevenue := money (db.posRevenue start stop)
  refunds := money (db.posRefunds start stop)
  transactions := (db.salesBetween start stop).length
  costOfGoodsSold := db.costOfGoodsSold start stop
  grossProfit := toContext (money (db.posRevenue start stop) - db.costOfGoodsSold start stop)
  invoiced := money (db.sales.invoicedBetween start stop)
  accountsReceivable := money (db.sales.receivableBetween start stop)
  accountsPayable := money db.purchasing.payable
  inventoryValue := db.inventory.stockValue

/-- `ReportingService.dashboard`.  `cached` is what an earlier request has stored, if it is still
there. -/
def Tenant.TenantDb.dashboard (db : TenantDb) (cached : Option Reports.Dashboard)
    (start stop : Date) : Except Err Reports.Dashboard := do
  Reports.validateRange start stop
  match cached with
  | some hit => .ok hit
  | none => .ok (db.figures start stop)

/-! ## The two receivables -/

namespace Sales

/-- `SalesService.receivables`: what is outstanding of the rows. -/
def SalesDb.totalOutstanding (db : SalesDb) (context : TenantContext) : ℚ :=
  decimalSum ((db.receivables context).map fun row => toContext (money row.2.1 - money row.2.2))

variable {db : SalesDb} {context : TenantContext} {start stop : Date}

theorem sum_filter_ne_zero (amounts : List Money) :
    (amounts.filter (· ≠ 0)).sum = amounts.sum := by
  induction amounts with
  | nil => rfl
  | cons amount amounts ih =>
      by_cases hzero : amount = 0
      · rw [List.filter_cons_of_neg (by simpa using hzero), ih, List.sum_cons, hzero, zero_add]
      · rw [List.filter_cons_of_pos (by simpa using hzero), List.sum_cons, ih, List.sum_cons]

/-- The invoices of every customer are all invoices. -/
theorem sum_customers (f : Invoice → Money) (invoices : List Invoice) :
    (((invoices.map (·.customerId)).dedup.map fun customerId =>
      ((invoices.filter (·.customerId = customerId)).map f).sum)).sum = (invoices.map f).sum := by
  refine sum_classes f fun invoice hinvoice => ?_
  have hmem : invoice.customerId ∈ (invoices.map (·.customerId)).dedup :=
    List.mem_dedup.mpr (List.mem_map_of_mem hinvoice)
  have hcount := List.count_eq_one_of_mem (List.nodup_dedup _) hmem
  rw [List.count] at hcount
  rw [← hcount]
  refine List.countP_congr fun customerId _ => ?_
  rw [decide_eq_true_eq, beq_iff_eq, eq_comm]

theorem abs_sum_le (f : Invoice → Money) (invoices : List Invoice) :
    |(invoices.map f).sum| ≤ (invoices.map fun i => |f i|).sum := by
  induction invoices with
  | nil => simp
  | cons invoice invoices ih =>
      simp only [List.map_cons, List.sum_cons]
      exact (abs_add_le _ _).trans (by linarith)

/-- What is outstanding of a customer. -/
def SalesDb.owedBy (db : SalesDb) (context : TenantContext) (customerId : Uuid) : Money :=
  (((db.receivableInvoices context).filter (·.customerId = customerId)).map db.outstanding).sum

/-- What the rows leave is what the invoices leave, customer by customer. -/
theorem SalesDb.receivables_differences (db : SalesDb) (context : TenantContext) :
    (db.receivables context).map (fun row => row.2.1 - row.2.2) =
      (((db.receivableInvoices context).map (·.customerId)).dedup.map (db.owedBy context)).filter
        (· ≠ 0) := by
  have howed : ∀ customerId, (((db.receivableInvoices context).filter
      (·.customerId = customerId)).map fun i => i.amounts.totalAmount - db.creditedOn i.id).sum -
      (((db.receivableInvoices context).filter (·.customerId = customerId)).map
        (·.paidAmount)).sum = db.owedBy context customerId := by
    intro customerId
    exact db.sum_outstanding _
  rw [receivables, List.filter_map, List.map_map, List.filter_map]
  simp only [Function.comp_def, howed]

/-- What is outstanding in all, while 28 digits are enough. -/
theorem SalesDb.totalOutstanding_eq (db : SalesDb) (context : TenantContext)
    (h : ((db.receivableInvoices context).map fun i => |db.outstanding i|).sum < 10 ^ 28) :
    db.totalOutstanding context =
      money ((db.receivableInvoices context).map db.outstanding).sum := by
  have hsum : ((db.receivables context).map fun row => row.2.1 - row.2.2).sum =
      ((db.receivableInvoices context).map db.outstanding).sum := by
    rw [receivables_differences, ← sum_customers db.outstanding, sum_filter_ne_zero]
    rfl
  have hbound : (((db.receivables context).map fun row => row.2.1 - row.2.2).map (|·|)).sum
      < 10 ^ 28 := by
    refine lt_of_le_of_lt ?_ h
    rw [receivables_differences, ← sum_customers fun i => |db.outstanding i|]
    refine (List.Sublist.sum_le_sum (List.filter_sublist.map _) (by simp)).trans ?_
    rw [List.map_map]
    exact List.sum_le_sum fun customerId _ => abs_sum_le _ _
  have hrows : (db.receivables context).map (fun row => toContext (money row.2.1 - money row.2.2)) =
      ((db.receivables context).map fun row => row.2.1 - row.2.2).map
        fun n : ℤ => (n : ℚ) / 10 ^ 4 := by
    rw [List.map_map]
    refine List.map_congr_left fun row hrow => ?_
    have hdigits : |row.2.1 - row.2.2| < 10 ^ 28 := by
      refine lt_of_le_of_lt (List.single_le_sum ?_ _ ?_) hbound
      · intro x hx
        obtain ⟨n, -, rfl⟩ := List.mem_map.mp hx
        exact abs_nonneg n
      · exact List.mem_map_of_mem (List.mem_map_of_mem hrow)
    rw [money, money, ← sub_div, ← Int.cast_sub]
    exact toContext_of_places hdigits
  rw [totalOutstanding, hrows, decimalSum_of_places hbound, hsum]
  rfl

theorem SalesDb.creditedOn_nonneg (db : SalesDb) (invoiceId : Uuid) : 0 ≤ db.creditedOn invoiceId :=
  List.sum_nonneg (by simpa using fun _ note _ _ h => h ▸ note.amounts.totalAmount_nonneg)

/-- The credit notes on the invoices that are counted. -/
def SalesDb.countedNotes (db : SalesDb) (context : TenantContext) : List CreditNote :=
  db.creditNotes.rows.filter fun note => (db.invoices.get note.invoiceId).any fun invoice =>
    invoice.status.isIssued && context.allowsBranch invoice.branchId

theorem SalesDb.sum_credited (db : SalesDb) (context : TenantContext) :
    ((db.receivableInvoices context).map fun i => db.creditedOn i.id).sum =
      ((db.countedNotes context).map (·.amounts.totalAmount)).sum :=
  db.invoices.sum_group _ CreditNote.invoiceId (·.amounts.totalAmount) db.creditNotes.rows

/-- Totals of documents are below `10 ^ 18`. -/
theorem sum_totals_le {X : Type} (amounts : X → Amounts) {rows : List X} {n : ℕ}
    (hrows : rows.length ≤ n) :
    (rows.map fun row => (amounts row).totalAmount).sum ≤ n * (10 ^ 18 - 1) := by
  have hone : ∀ x ∈ rows.map fun row => (amounts row).totalAmount, x ≤ 10 ^ 18 - 1 := by
    intro x hx
    obtain ⟨row, -, rfl⟩ := List.mem_map.mp hx
    exact Int.le_sub_one_of_lt (amounts row).total_lt
  have hsum := List.sum_le_card_nsmul _ _ hone
  rw [List.length_map, nsmul_eq_mul] at hsum
  have hcast : (rows.length : ℤ) ≤ n := by exact_mod_cast hrows
  exact hsum.trans (mul_le_mul_of_nonneg_right hcast (by norm_num))

/-- A tenant with no more than ten thousand million invoices and credit notes. -/
def SalesDb.Countable (db : SalesDb) : Prop :=
  db.invoices.rows.length + db.creditNotes.rows.length ≤ 10 ^ 10

/-- The figures of such a tenant have no more than 28 digits. -/
theorem SalesDb.Countable.digits (h : db.Countable) (context : TenantContext) :
    ((db.receivableInvoices context).map fun i => |db.outstanding i|).sum < 10 ^ 28 := by
  have hone : ∀ i ∈ db.receivableInvoices context,
      |db.outstanding i| ≤ i.amounts.totalAmount + db.creditedOn i.id := by
    intro i _
    have hpaid := i.paid_within_total
    have hcredited := db.creditedOn_nonneg i.id
    rw [SalesDb.outstanding, abs_le]
    constructor
    · linarith
    · linarith
  have hinvoices : ((db.receivableInvoices context).map (·.amounts.totalAmount)).sum ≤
      db.invoices.rows.length * (10 ^ 18 - 1) :=
    sum_totals_le Invoice.amounts (List.length_filter_le _ _)
  have hnotes : ((db.countedNotes context).map (·.amounts.totalAmount)).sum ≤
      db.creditNotes.rows.length * (10 ^ 18 - 1) :=
    sum_totals_le CreditNote.amounts (List.length_filter_le _ _)
  have hlength : (db.invoices.rows.length : ℤ) + db.creditNotes.rows.length ≤ 10 ^ 10 := by
    exact_mod_cast h
  calc ((db.receivableInvoices context).map fun i => |db.outstanding i|).sum
      ≤ ((db.receivableInvoices context).map fun i =>
          i.amounts.totalAmount + db.creditedOn i.id).sum := List.sum_le_sum hone
    _ = ((db.receivableInvoices context).map (·.amounts.totalAmount)).sum
          + ((db.countedNotes context).map (·.amounts.totalAmount)).sum := by
        rw [List.sum_map_add, sum_credited]
    _ < 10 ^ 28 := by linarith

/-- Over a range that has all issued invoices, the dashboard leaves out what is credited. -/
theorem SalesDb.receivableBetween_eq (hcontext : context.branchIds = none)
    (hrange : ∀ invoice ∈ db.invoices.rows, invoice.status.isIssued = true →
      between start stop invoice.issueDate = true) :
    db.receivableBetween start stop =
      ((db.receivableInvoices context).map db.outstanding).sum +
        ((db.countedNotes context).map (·.amounts.totalAmount)).sum := by
  have hinvoices : db.invoicesBetween start stop = db.receivableInvoices context := by
    refine List.filter_congr fun invoice hinvoice => ?_
    rw [TenantContext.allowsBranch, hcontext, Bool.and_true]
    cases hissued : invoice.status.isIssued with
    | false => rfl
    | true => rw [hrange invoice hinvoice hissued, Bool.and_true]
  rw [receivableBetween, hinvoices, ← sum_credited, ← List.sum_map_add]
  congr 2
  funext i
  rw [SalesDb.outstanding]
  ring

/-- No issued invoice has been credited. -/
def SalesDb.Uncredited (db : SalesDb) : Prop :=
  ∀ note ∈ db.creditNotes.rows, ∀ invoice, db.invoices.get note.invoiceId = some invoice →
    invoice.status.isIssued = true → note.amounts.totalAmount = 0

/-- The two figures agree exactly when no issued invoice has been credited. -/
theorem SalesDb.Countable.receivable_iff (h : db.Countable) (hcontext : context.branchIds = none)
    (hrange : ∀ invoice ∈ db.invoices.rows, invoice.status.isIssued = true →
      between start stop invoice.issueDate = true) :
    money (db.receivableBetween start stop) = db.totalOutstanding context ↔ db.Uncredited := by
  have hcounted : ((db.countedNotes context).map (·.amounts.totalAmount)).sum = 0 ↔
      ∀ note ∈ db.countedNotes context, note.amounts.totalAmount = 0 := by
    constructor
    · intro hsum note hnote
      refine List.all_zero_of_le_zero_le_of_sum_eq_zero ?_ hsum (List.mem_map_of_mem hnote)
      intro x hx
      obtain ⟨note, -, rfl⟩ := List.mem_map.mp hx
      exact note.amounts.totalAmount_nonneg
    · intro hzero
      refine List.sum_eq_zero fun x hx => ?_
      obtain ⟨note, hnote, rfl⟩ := List.mem_map.mp hx
      exact hzero note hnote
  rw [db.totalOutstanding_eq context (h.digits context), receivableBetween_eq hcontext hrange,
    money, money, div_left_inj' (by norm_num), Int.cast_inj, add_eq_left, hcounted]
  constructor
  · intro hzero note hnote invoice hget hissued
    refine hzero note (List.mem_filter.mpr ⟨hnote, ?_⟩)
    rw [hget, Option.any_some, hissued, TenantContext.allowsBranch, hcontext]
    rfl
  · intro hzero note hnote
    obtain ⟨hnote, hany⟩ := List.mem_filter.mp hnote
    obtain ⟨invoice, hget, hcounted⟩ := (Option.any_eq_true _ _).mp hany
    exact hzero note hnote invoice hget (Bool.and_eq_true _ _ ▸ hcounted).1

end Sales

/-! ## Runs -/

namespace Tenant

variable {request : Request} {db db' : TenantDb}

/-- A credit note comes to nothing. -/
def Op.CreditsNothing (db : TenantDb) (op : Op) : Prop :=
  ∀ payload ∈ op.creditNote, ∀ invoice ∈ db.sales.invoices.get payload.invoiceId,
    invoice.creditTotal payload.lines = 0

instance (db : TenantDb) (op : Op) : Decidable (op.CreditsNothing db) := by
  unfold Op.CreditsNothing
  infer_instance

/-- All credit notes come to nothing. -/
structure NothingCredited (db : TenantDb) : Prop where
  linked : db.ledger.Linked
  zero : ∀ note ∈ db.sales.creditNotes.rows, note.amounts.totalAmount = 0

theorem Op.keeps_creditNotes {op : Op} (hdb : db.ledger.Linked) (hop : op.creditNote = none)
    (hok : op.body request db = .ok db') : db'.sales.creditNotes = db.sales.creditNotes := by
  cases op with
  | createInvoice payload =>
      obtain ⟨_, _, _, -, -, rfl⟩ := createInvoice_eq_ok hok
      rfl
  | issueInvoice id claim =>
      obtain rfl | ⟨_, _, _, _, -, -, -, -, -, htables⟩ := issueInvoice_eq_ok hdb hok
      · rfl
      · rw [htables]
  | recordCustomerPayment payload claim =>
      rcases Sales.recordPayment_pays hok with ⟨-, rfl⟩ | ⟨-, _, _, _, -, -, -, -, -, hdocs⟩
      · rfl
      · rw [show db'.sales = _ from congrArg Documents.sales hdocs]
  | issueCreditNote payload => cases hop
  | _ => exact (Op.keeps_invoices hdb rfl hok).2

theorem NothingCredited.body {op : Op} (h : NothingCredited db) (hop : op.CreditsNothing db)
    (hok : op.body request db = .ok db') : NothingCredited db' := by
  obtain ⟨_, _, hbooks, -⟩ := Op.books h.linked hok
  refine ⟨hbooks.linked, ?_⟩
  cases hcredit : op.creditNote with
  | none =>
      rw [Op.keeps_creditNotes h.linked hcredit hok]
      exact h.zero
  | some payload =>
      cases op with
      | issueCreditNote payload =>
          obtain ⟨invoice, _, _, note, hget, -, -, -, -, -, -, -, -, htotal, hinsert⟩ :=
            issueCreditNote_credits hok
          rw [(Table.insert_eq_some hinsert).1, List.forall_mem_append, List.forall_mem_singleton]
          exact ⟨h.zero, htotal.trans (hop payload rfl invoice hget)⟩
      | _ => cases hcredit

theorem NothingCredited.run {calls : List Call} (h : NothingCredited db)
    (hcalls : db.AllOver Op.CreditsNothing calls) : NothingCredited (db.run calls) := by
  induction calls generalizing db with
  | nil => exact h
  | cons call calls ih =>
      obtain ⟨hcall, hrest⟩ := hcalls
      refine ih ?_ hrest
      rcases db.step_cases call with ⟨-, hstep⟩ | ⟨db', hok, hcommits, hstep⟩
      · rw [hstep]
        exact h
      · rw [hstep]
        exact h.body (hcall hcommits) hok

/-- In every tenant that a run reaches, over a range that has the dates of all issued invoices, the
receivable of the dashboard is what `receivables` finds outstanding exactly when no issued invoice
has been credited.  A run whose credit notes come to nothing reaches no other tenant. -/
theorem dashboard_receivable_iff (configuration : Configuration) (calls : List Call)
    {context : TenantContext} (hcontext : context.branchIds = none) {start stop : Date}
    {dashboard : Reports.Dashboard}
    (h : ((TenantDb.start configuration).run calls).dashboard none start stop = .ok dashboard)
    (hrange : ∀ invoice ∈ ((TenantDb.start configuration).run calls).sales.invoices.rows,
      invoice.status.isIssued = true → between start stop invoice.issueDate = true)
    (hcount : ((TenantDb.start configuration).run calls).sales.Countable) :
    (dashboard.accountsReceivable =
        ((TenantDb.start configuration).run calls).sales.totalOutstanding context ↔
      ((TenantDb.start configuration).run calls).sales.Uncredited) ∧
      ((TenantDb.start configuration).AllOver Op.CreditsNothing calls →
        ((TenantDb.start configuration).run calls).sales.Uncredited) := by
  obtain ⟨_, -, h⟩ := bind_eq_ok.mp h
  cases h
  refine ⟨hcount.receivable_iff hcontext hrange, fun hcalls note hnote _ _ _ => ?_⟩
  have hstart : NothingCredited (.start configuration) :=
    ⟨Accounting.LedgerDb.linked_empty, List.forall_mem_nil _⟩
  exact (hstart.run hcalls).zero note hnote

/-- Half of an invoice is paid. -/
def halfPaid : List Call :=
  cornerInvoice 2000000 50000 Sample.twoPieces Sample.five_nonneg ++
    [cornerPayment 5 50000 (by decide)]

theorem dashboard_receivable_half_paid : ∃ dashboard,
    ((TenantDb.start corner).run halfPaid).dashboard none ⟨2026, 1, 1⟩ ⟨2026, 1, 31⟩ =
        .ok dashboard ∧
      dashboard.accountsReceivable = ((TenantDb.start corner).run halfPaid).sales.totalOutstanding
        (cornerRequest 1).env.context := by
  have hrange : ∀ invoice ∈ ((TenantDb.start corner).run halfPaid).sales.invoices.rows,
      invoice.status.isIssued = true →
        between ⟨2026, 1, 1⟩ ⟨2026, 1, 31⟩ invoice.issueDate = true := by decide +kernel
  have hcount : ((TenantDb.start corner).run halfPaid).sales.Countable := by
    unfold SalesDb.Countable
    decide +kernel
  have hnothing : (TenantDb.start corner).AllOver Op.CreditsNothing halfPaid := by decide +kernel
  have hreport : ((TenantDb.start corner).run halfPaid).dashboard none ⟨2026, 1, 1⟩ ⟨2026, 1, 31⟩ =
      .ok (((TenantDb.start corner).run halfPaid).figures ⟨2026, 1, 1⟩ ⟨2026, 1, 31⟩) := rfl
  have hcontext : (cornerRequest 1).env.context.branchIds = none := rfl
  obtain ⟨hiff, huncredited⟩ :=
    dashboard_receivable_iff corner halfPaid hcontext hreport hrange hcount
  exact ⟨_, hreport, hiff.mpr (huncredited hnothing)⟩

/-- Half of an invoice of `10` is credited. -/
def halfCredited : List Call :=
  cornerInvoice 2000000 50000 Sample.twoPieces Sample.five_nonneg ++
    [cornerCredit 5 1000000 Sample.onePiece]

/-- The dashboard still shows `10` as receivable, and `receivables` finds `5` outstanding. -/
theorem credited_invoice_receivable :
    (((TenantDb.start corner).run halfCredited).figures
        ⟨2026, 1, 1⟩ ⟨2026, 1, 31⟩).accountsReceivable = 10 ∧
    (∀ invoice ∈ ((TenantDb.start corner).run halfCredited).sales.invoices.rows,
      invoice.status.isIssued = true →
        between ⟨2026, 1, 1⟩ ⟨2026, 1, 31⟩ invoice.issueDate = true) ∧
    ((TenantDb.start corner).run halfCredited).sales.totalOutstanding
        (cornerRequest 1).env.context = 5 := by
  decide +kernel

end Tenant

end Nexora
