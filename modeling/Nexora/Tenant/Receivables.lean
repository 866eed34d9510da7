import Nexora.Tenant.Documents
import Nexora.Tenant.Grni

/-!
# Receivables

What is left to pay of an invoice is computed in three places: the report takes the total less
the credit notes and the payments (`SalesDb.outstanding`), `record_payment` takes the total less
the payments (`Invoice.pay`), and a credit note takes what its lines were invoiced for
(`Invoice.creditTotal`).

A payment of an invoice that was credited may therefore exceed what is left of it, and so may
credit notes on parts of a line, which are rounded on their own.
`payments_within_outstanding` is about the runs in which neither happens.
-/

namespace Nexora.Sales

open Nexora Nexora.Catalog Nexora.Tenant Foundations
open Nexora.Accounting (Money)

variable {request : Request} {db db' : TenantDb}

/-! ## The report -/

/-- `credited`: the sum of the credit notes on an invoice. -/
def SalesDb.creditedOn (db : SalesDb) (invoiceId : Uuid) : Money :=
  ((db.creditNotes.rows.filter (·.invoiceId = invoiceId)).map (·.amounts.totalAmount)).sum

/-- What is left to pay of an invoice. -/
def SalesDb.outstanding (db : SalesDb) (invoice : Invoice) : Money :=
  invoice.amounts.totalAmount - db.creditedOn invoice.id - invoice.paidAmount

/-- The invoices that `receivables` counts. -/
def SalesDb.receivableInvoices (db : SalesDb) (context : TenantContext) : List Invoice :=
  db.invoices.rows.filter fun invoice =>
    invoice.status.isIssued && context.allowsBranch invoice.branchId

/-- `receivables`: for each customer what was invoiced, less what was credited, and what was
paid.  Names and the order by name are left out. -/
def SalesDb.receivables (db : SalesDb) (context : TenantContext) : List (Uuid × Money × Money) :=
  let counted := db.receivableInvoices context
  let rows := (counted.map (·.customerId)).dedup.map fun customerId =>
    let own := counted.filter (·.customerId = customerId)
    (customerId, (own.map fun i => i.amounts.totalAmount - db.creditedOn i.id).sum,
      (own.map (·.paidAmount)).sum)
  rows.filter fun row => row.2.1 - row.2.2 ≠ 0

theorem SalesDb.sum_outstanding (sales : SalesDb) (own : List Invoice) :
    (own.map fun i => i.amounts.totalAmount - sales.creditedOn i.id).sum -
      (own.map (·.paidAmount)).sum = (own.map sales.outstanding).sum := by
  induction own with
  | nil => rfl
  | cons invoice own ih =>
      simp only [List.map_cons, List.sum_cons]
      rw [← ih, SalesDb.outstanding]
      ring

/-- The report owes a customer's invoices one by one. -/
theorem SalesDb.receivables_outstanding {sales : SalesDb} {context : TenantContext}
    {customerId : Uuid} {invoiced paid : Money}
    (h : (customerId, invoiced, paid) ∈ sales.receivables context) :
    invoiced - paid = (((sales.receivableInvoices context).filter
      (·.customerId = customerId)).map sales.outstanding).sum := by
  obtain ⟨_, -, hrow⟩ := List.mem_map.mp (List.mem_of_mem_filter h)
  cases hrow
  exact sales.sum_outstanding _

/-! ## Payments -/

theorem Invoice.pay_of_le {invoice : Invoice} {item : PaymentAllocation}
    (h : item.amount ≤ invoice.amounts.totalAmount - invoice.paidAmount) :
    ∃ paid, invoice.pay item = .ok paid :=
  ⟨_, dif_pos h⟩

/-! ## Credit notes -/

/-- `line_total` of the credited part of a line. -/
def InvoiceLine.creditTotal (line : InvoiceLine) (item : RequestedLine) : Money :=
  ((line.creditPart item).price.map (·.amounts.totalAmount)).toOption.getD 0

theorem InvoiceLine.creditTotal_eq {line : InvoiceLine} {item : RequestedLine} {priced : PricedLine}
    (h : (line.creditPart item).price = .ok priced) :
    line.creditTotal item = priced.amounts.totalAmount := by
  rw [creditTotal, h]
  rfl

/-- What the lines of a credit note come to. -/
def Invoice.creditTotal (invoice : Invoice) (items : List RequestedLine) : Money :=
  (items.map fun item =>
    ((invoice.lines.find? (·.id = item.lineId)).map (·.creditTotal item)).getD 0).sum

theorem Invoice.find_line {invoice : Invoice} {line : InvoiceLine} (hline : line ∈ invoice.lines) :
    invoice.lines.find? (·.id = line.id) = some line := by
  obtain ⟨found, hfound⟩ : ∃ found, invoice.lines.find? (·.id = line.id) = some found :=
    Option.isSome_iff_exists.mp (List.find?_isSome.mpr ⟨line, hline, by simp⟩)
  have hid : found.id = line.id := by simpa using List.find?_some hfound
  rw [hfound, List.inj_on_of_nodup_map invoice.unique_lines (List.mem_of_find?_eq_some hfound)
    hline hid]

/-- Crediting a line leaves its price, so it leaves what other credits come to. -/
theorem Invoice.creditTotal_setLine {invoice : Invoice} {line : InvoiceLine}
    (hline : line ∈ invoice.lines) {item : RequestedLine}
    (h : item.quantity ≤ line.quantity - line.creditedQuantity) (items : List RequestedLine) :
    (invoice.setLine (line.credit item h) (invoice.amounts_of_id hline h)).creditTotal items =
      invoice.creditTotal items := by
  have hsame : ∀ other, (invoice.lines.map fun l =>
      if l.id = line.id then line.credit item h else l).find? (·.id = other) =
        (invoice.lines.find? (·.id = other)).map fun l =>
          if l.id = line.id then line.credit item h else l := by
    intro other
    rw [List.find?_map]
    congr 1
    refine congrArg (List.find? · invoice.lines) (funext fun l => ?_)
    by_cases hid : l.id = line.id
    · simp only [Function.comp_apply, hid, if_true]
      rfl
    · simp only [Function.comp_apply, hid, if_false]
  refine congrArg List.sum (List.map_congr_left fun other _ => ?_)
  have hfind := hsame other.lineId
  show ((List.find? _ (invoice.lines.map fun l =>
    if l.id = line.id then line.credit item h else l)).map _).getD 0 = _
  rw [hfind]
  cases hfound : invoice.lines.find? (·.id = other.lineId) with
  | none => rfl
  | some found =>
      rw [Option.map_some, Option.map_some]
      by_cases hid : found.id = line.id
      · have hmem := List.mem_of_find?_eq_some hfound
        have heq := List.inj_on_of_nodup_map invoice.unique_lines hmem hline hid
        rw [if_pos hid, heq]
        rfl
      · rw [if_neg hid]
        rfl

/-- One pass adds what its item comes to. -/
theorem creditLine_total {restocks : Option Uuid} {state state' : CreditState}
    {row : RequestedLine × Nat} (h : creditLine request restocks state row = .ok state') :
    (∀ items, state'.invoice.creditTotal items = state.invoice.creditTotal items) ∧
      state'.invoice.paidAmount = state.invoice.paidAmount ∧
      (state'.lines.map (·.amounts.totalAmount)).sum =
        (state.lines.map (·.amounts.totalAmount)).sum + state.invoice.creditTotal [row.1] := by
  obtain ⟨line, hline, h⟩ := bind_eq_ok.mp h
  have hfound := List.find?_some (orRaise_eq_ok.mp hline)
  have hid : line.1.id = row.1.lineId := by simpa using hfound
  clear hline hfound
  split at h
  next hle =>
    obtain ⟨priced, hpriced, h⟩ := bind_eq_ok.mp h
    obtain ⟨⟨inventory, cost⟩, -, h⟩ := bind_eq_ok.mp h
    cases h
    refine ⟨Invoice.creditTotal_setLine line.2 hle, rfl, ?_⟩
    have hitem : state.invoice.creditTotal [row.1] = priced.amounts.totalAmount := by
      rw [Invoice.creditTotal, List.map_singleton, List.sum_singleton, ← hid,
        Invoice.find_line line.2, Option.map_some, Option.getD_some,
        InvoiceLine.creditTotal_eq hpriced]
    rw [hitem, List.map_append, List.sum_append, List.map_singleton, List.sum_singleton]
  next => cases h

theorem creditLines_total {restocks : Option Uuid} {rows : List (RequestedLine × Nat)}
    {state state' : CreditState}
    (h : rows.foldlM (creditLine request restocks) state = .ok state') :
    state'.invoice.paidAmount = state.invoice.paidAmount ∧
      (state'.lines.map (·.amounts.totalAmount)).sum =
        (state.lines.map (·.amounts.totalAmount)).sum +
          state.invoice.creditTotal (rows.map Prod.fst) := by
  induction rows generalizing state with
  | nil =>
      cases h
      exact ⟨rfl, (add_zero _).symm⟩
  | cons row rows ih =>
      rw [List.foldlM_cons] at h
      obtain ⟨state₁, hpass, h⟩ := bind_eq_ok.mp h
      obtain ⟨hsame, hpaid, hsum⟩ := creditLine_total hpass
      obtain ⟨hpaid', hsum'⟩ := ih h
      refine ⟨hpaid'.trans hpaid, ?_⟩
      rw [hsum', hsum, hsame]
      simp [Invoice.creditTotal, add_assoc]

theorem Amounts.total_totalAmount {lines : List Amounts} {amounts : Amounts}
    (h : Amounts.total lines = .ok amounts) :
    amounts.totalAmount = (lines.map (·.totalAmount)).sum := by
  obtain ⟨hnet, htax⟩ := Amounts.total_eq_ok h
  rw [Amounts.totalAmount, hnet, htax, ← List.sum_map_add]
  rfl

theorem newCreditNote_totals {id : Uuid} {number : String} {payload : CreditNoteCreate}
    {invoice : Invoice} {lines : List CreditNoteLine} {note : CreditNote}
    (h : newCreditNote id number payload invoice lines = .ok note) :
    note.invoiceId = invoice.id ∧
      note.amounts.totalAmount = (lines.map (·.amounts.totalAmount)).sum := by
  unfold newCreditNote at h
  split at h
  next => cases h
  next amounts htotals =>
    cases h
    refine ⟨rfl, ?_⟩
    rw [Amounts.total_totalAmount htotals, List.map_map]
    rfl

/-- A credit note comes to what its lines do, and only its invoice is written. -/
theorem issueCreditNote_credits {payload : CreditNoteCreate}
    (h : issueCreditNote request db payload = .ok db') :
    ∃ (invoice credited : Invoice) (state : CreditState) (note : CreditNote),
      db.sales.invoices.get payload.invoiceId = some invoice ∧
      (sortedItems payload.lines).zipIdx.foldlM (creditLine request payload.restocks)
        ⟨invoice, db.inventory, 0, []⟩ = .ok state ∧ credited = state.invoice ∧
      note.amounts.totalAmount = (state.lines.map (·.amounts.totalAmount)).sum ∧
      credited.id = invoice.id ∧ credited.amounts = invoice.amounts ∧
      credited.paidAmount = invoice.paidAmount ∧
      (∀ id, db'.sales.invoices.get id =
        if id = invoice.id then some credited else db.sales.invoices.get id) ∧
      note.invoiceId = invoice.id ∧
      note.amounts.totalAmount = invoice.creditTotal payload.lines ∧
      db.sales.creditNotes.insert note = some db'.sales.creditNotes := by
  obtain ⟨invoice, hfind, h⟩ := bind_eq_ok.mp h
  obtain ⟨_, -, h⟩ := bind_eq_ok.mp h
  obtain ⟨_, -, h⟩ := bind_eq_ok.mp h
  obtain ⟨_, -, h⟩ := bind_eq_ok.mp h
  obtain ⟨state, hloop, h⟩ := bind_eq_ok.mp h
  obtain ⟨db₁, hsave, h⟩ := bind_eq_ok.mp h
  obtain ⟨invoices, hreplace, rfl⟩ := saveInvoice_eq_ok hsave
  obtain ⟨note, hnote, h⟩ := bind_eq_ok.mp h
  obtain ⟨creditNotes, hinsert, h⟩ := bind_eq_ok.mp h
  obtain ⟨rows, -, h⟩ := bind_eq_ok.mp h
  obtain ⟨ledger, -, h⟩ := bind_eq_ok.mp h
  obtain ⟨register, -, h⟩ := bind_eq_ok.mp h
  cases h
  obtain ⟨hid, -, hamounts⟩ := foldlM_invariant
    (I := fun state : CreditState => state.invoice.id = invoice.id ∧
      state.invoice.status = invoice.status ∧ state.invoice.amounts = invoice.amounts)
    (fun _ _ _ _ hstate hpass => by
      obtain ⟨hid, hstatus, hamounts⟩ := creditLine_eq_ok hpass
      exact ⟨hid.trans hstate.1, hstatus.trans hstate.2.1, hamounts.trans hstate.2.2⟩)
    hloop ⟨rfl, rfl, rfl⟩
  obtain ⟨hpaid, hsum⟩ := creditLines_total hloop
  have hget := findInvoice_eq_ok hfind
  have hself := Table.get_self hget
  rw [hid] at hreplace
  obtain ⟨hinvoice, htotal⟩ := newCreditNote_totals hnote
  refine ⟨invoice, state.invoice, state, note, hget, hloop, rfl, htotal, hid, hamounts, hpaid,
    Table.get_replace hself hid hreplace, hinvoice, ?_, orRaise_eq_ok.mp hinsert⟩
  have hperm : (sortedItems payload.lines).Perm payload.lines := List.perm_insertionSort _ _
  rw [htotal, hsum, List.zipIdx_map_fst]
  simpa [Invoice.creditTotal] using (hperm.map _).sum_eq

end Nexora.Sales

namespace Nexora.Tenant

open Nexora Nexora.Catalog Nexora.Sales Nexora.Purchasing Nexora.Pos Foundations
open Nexora.Accounting (Money)

variable {request : Request} {db db' : TenantDb} {invoiceId : Uuid}

/-! ## Requests -/

/-- The payment of a request, with the answer of the idempotency service. -/
def Op.customerPayment : Op → Option (PaymentCreate × Except Err (Option Uuid))
  | .recordCustomerPayment payload claim => some (payload, claim)
  | _ => none

/-- The credit note of a request. -/
def Op.creditNote : Op → Option CreditNoteCreate
  | .issueCreditNote payload => some payload
  | _ => none

/-- A payment takes no more of an invoice than is outstanding. -/
def Op.PaysOutstanding (db : TenantDb) (op : Op) : Prop :=
  ∀ payment ∈ op.customerPayment, replayed payment.2 db.sales.payments.get = false →
    ∀ item ∈ payment.1.allocations, ∃ invoice ∈ db.sales.invoices.get item.targetId,
      item.amount ≤ db.sales.outstanding invoice

/-- A credit note takes no more than is outstanding of the invoice, if that was paid before. -/
def Op.NotOverCredited (invoiceId : Uuid) (db : TenantDb) (op : Op) : Prop :=
  ∀ payload ∈ op.creditNote, payload.invoiceId = invoiceId →
    ∀ invoice ∈ db.sales.invoices.get invoiceId, 0 < invoice.paidAmount →
      invoice.creditTotal payload.lines ≤ db.sales.outstanding invoice

/-- A payment names no invoice with credit notes, and the lines of a credit note on an invoice
that is not paid come to no more than what is left of its total. -/
def Op.CountsCredits (db : TenantDb) (op : Op) : Prop :=
  (∀ payment ∈ op.customerPayment, ∀ item ∈ payment.1.allocations,
    db.sales.creditedOn item.targetId = 0) ∧
  ∀ payload ∈ op.creditNote, ∀ invoice ∈ db.sales.invoices.get payload.invoiceId,
    invoice.paidAmount = 0 → invoice.creditTotal payload.lines ≤
      invoice.amounts.totalAmount - db.sales.creditedOn invoice.id

instance (db : TenantDb) (op : Op) : Decidable (op.PaysOutstanding db) :=
  inferInstanceAs (Decidable (∀ payment ∈ op.customerPayment,
    replayed payment.2 db.sales.payments.get = false → ∀ item ∈ payment.1.allocations,
      ∃ invoice ∈ db.sales.invoices.get item.targetId,
        item.amount ≤ db.sales.outstanding invoice))

instance (invoiceId : Uuid) (db : TenantDb) (op : Op) : Decidable (op.NotOverCredited invoiceId db) :=
  inferInstanceAs (Decidable (∀ payload ∈ op.creditNote, payload.invoiceId = invoiceId →
    ∀ invoice ∈ db.sales.invoices.get invoiceId, 0 < invoice.paidAmount →
      invoice.creditTotal payload.lines ≤ db.sales.outstanding invoice))

instance (db : TenantDb) (op : Op) : Decidable (op.CountsCredits db) :=
  inferInstanceAs (Decidable ((∀ payment ∈ op.customerPayment, ∀ item ∈ payment.1.allocations,
    db.sales.creditedOn item.targetId = 0) ∧
    ∀ payload ∈ op.creditNote, ∀ invoice ∈ db.sales.invoices.get payload.invoiceId,
      invoice.paidAmount = 0 → invoice.creditTotal payload.lines ≤
        invoice.amounts.totalAmount - db.sales.creditedOn invoice.id))

/-- The requests that change invoices or credit notes. -/
def Op.isReceivable : Op → Bool
  | .createInvoice _ | .issueInvoice .. | .recordCustomerPayment .. | .issueCreditNote _ => true
  | _ => false

theorem Op.keeps_invoices {op : Op} (hdb : db.ledger.Linked) (hop : op.isReceivable = false)
    (hok : op.body request db = .ok db') :
    db'.sales.invoices = db.sales.invoices ∧ db'.sales.creditNotes = db.sales.creditNotes := by
  have horders : ChangesOrders db db' → db'.sales.invoices = db.sales.invoices ∧
      db'.sales.creditNotes = db.sales.creditNotes := by
    intro h
    obtain ⟨_, _, htables⟩ := h.tables
    rw [htables]
    exact ⟨rfl, rfl⟩
  have hsessions : ChangesSessions db db' → db'.sales.invoices = db.sales.invoices ∧
      db'.sales.creditNotes = db.sales.creditNotes := by
    intro h
    obtain ⟨_, htables⟩ := h.tables
    rw [htables]
    exact ⟨rfl, rfl⟩
  cases op with
  | createQuotation payload => exact horders (createQuotation_eq_ok hok)
  | setQuotationStatus id status => exact horders (setQuotationStatus_eq_ok hok)
  | convertQuotation id payload => exact horders (convertQuotation_eq_ok hok)
  | createSalesOrder payload => exact horders (Sales.createOrder_eq_ok hok)
  | confirmSalesOrder id => exact horders (Sales.confirmOrder_eq_ok hok)
  | cancelSalesOrder id => exact horders (Sales.cancelOrder_eq_ok hok)
  | fulfil id lines =>
      obtain ⟨_, _, _, _, _, _, -, -, -, -, htables⟩ := fulfil_eq_ok hdb hok
      rw [htables]
      exact ⟨rfl, rfl⟩
  | createInvoice payload => cases hop
  | issueInvoice id claim => cases hop
  | recordCustomerPayment payload claim => cases hop
  | issueCreditNote payload => cases hop
  | createPurchaseOrder payload =>
      obtain ⟨_, _, -, -, -, -, htables⟩ := Purchasing.createOrder_eq_ok hok
      rw [htables]
      exact ⟨rfl, rfl⟩
  | confirmPurchaseOrder id =>
      obtain ⟨_, _, _, _, -, -, rfl⟩ := Purchasing.confirmOrder_eq_ok hok
      exact ⟨rfl, rfl⟩
  | cancelPurchaseOrder id =>
      obtain ⟨_, _, _, _, -, -, rfl⟩ := Purchasing.cancelOrder_eq_ok hok
      exact ⟨rfl, rfl⟩
  | receive id lines =>
      obtain ⟨_, _, _, _, _, _, -, -, -, -, -, -, htables⟩ := receive_eq_ok hdb hok
      rw [htables]
      exact ⟨rfl, rfl⟩
  | createBill payload =>
      obtain ⟨_, _, _, _, _, -, -, -, -, -, -, -, -, rfl⟩ := createBill_eq_ok hok
      exact ⟨rfl, rfl⟩
  | issueBill id =>
      obtain ⟨_, _, _, _, -, -, -, -, -, htables⟩ := issueBill_eq_ok hdb hok
      rw [htables]
      exact ⟨rfl, rfl⟩
  | recordSupplierPayment payload claim =>
      obtain rfl | ⟨_, _, _, -, -, -, -, -, htables⟩ := Purchasing.recordPayment_eq_ok hdb hok
      · exact ⟨rfl, rfl⟩
      · rw [htables]
        exact ⟨rfl, rfl⟩
  | openSession payload => exact hsessions (openSession_eq_ok hok)
  | closeSession id countedCash => exact hsessions (closeSession_eq_ok hok)
  | checkout payload claim =>
      obtain ⟨-, rfl⟩ | ⟨-, _, _, _, _, -, -, -, -, -, -, -, htables⟩ := checkout_eq_ok hdb hok
      · exact ⟨rfl, rfl⟩
      · rw [htables]
        exact ⟨rfl, rfl⟩
  | refund payload claim =>
      obtain ⟨-, rfl⟩ | ⟨-, _, _, _, _, _, _, _, _, -, -, -, -, -, -, -, -, -, htables⟩ :=
        refund_eq_ok hdb hok
      · exact ⟨rfl, rfl⟩
      · rw [htables]
        exact ⟨rfl, rfl⟩
  | inventory op own =>
      obtain ⟨result, -, rfl⟩ := map_eq_ok.mp hok
      exact ⟨rfl, rfl⟩
  | ledger op own =>
      obtain ⟨ledger, -, rfl⟩ := map_eq_ok.mp hok
      exact ⟨rfl, rfl⟩
  | configure configuration =>
      cases hok
      exact ⟨rfl, rfl⟩

/-- An accepted allocation fits what is left of an invoice without credit notes. -/
theorem Op.paysOutstanding {op : Op} (hop : op.CountsCredits db)
    (hok : op.body request db = .ok db') : op.PaysOutstanding db := by
  cases op with
  | recordCustomerPayment payload claim =>
      rintro _ ⟨⟩ hfirst item hitem
      rcases Sales.recordPayment_pays hok with ⟨hreplayed, -⟩ |
        ⟨-, _, _, _, -, -, -, hpays, -, -⟩
      · rw [hreplayed] at hfirst
        cases hfirst
      · obtain ⟨invoice, paid, hget, -, hpay, -⟩ := hpays.named item hitem
        have hcredited := hop.1 _ rfl item hitem
        rw [← (Table.get_mem hget).2] at hcredited
        refine ⟨invoice, hget, ?_⟩
        rw [SalesDb.outstanding, hcredited, sub_zero]
        exact (Invoice.pay_within hpay).1
  | _ =>
      intro payment hpayment
      cases hpayment

/-! ## An invoice -/

/-- The invoice is not overpaid. -/
structure Covered (invoiceId : Uuid) (db : TenantDb) : Prop where
  linked : db.ledger.Linked
  unknown : db.sales.invoices.get invoiceId = none → db.sales.creditedOn invoiceId = 0
  covered : ∀ invoice ∈ db.sales.invoices.get invoiceId, 0 ≤ db.sales.outstanding invoice

/-- The row of the invoice keeps its amounts, and no credit note is added. -/
theorem Covered.of_face (h : Covered invoiceId db) (hlinked : db'.ledger.Linked)
    (hnotes : db'.sales.creditNotes = db.sales.creditNotes)
    (hnone : db'.sales.invoices.get invoiceId = none → db.sales.invoices.get invoiceId = none)
    (hface : ∀ invoice' ∈ db'.sales.invoices.get invoiceId,
      ∃ invoice ∈ db.sales.invoices.get invoiceId,
        invoice'.amounts = invoice.amounts ∧ invoice'.paidAmount = invoice.paidAmount) :
    Covered invoiceId db' where
  linked := hlinked
  unknown hget := by
    rw [SalesDb.creditedOn, hnotes]
    exact h.unknown (hnone hget)
  covered invoice' hget' := by
    obtain ⟨invoice, hget, hamounts, hpaid⟩ := hface invoice' hget'
    have hid : invoice'.id = invoice.id := (Table.get_mem hget').2.trans (Table.get_mem hget).2.symm
    have hcovered := h.covered invoice hget
    rw [SalesDb.outstanding, SalesDb.creditedOn, hnotes, hid, hamounts, hpaid]
    exact hcovered

theorem Covered.createInvoice {payload : InvoiceCreate} (h : Covered invoiceId db)
    (hok : Sales.createInvoice request db payload = .ok db') : Covered invoiceId db' := by
  obtain ⟨invoice, orders, invoices, -, hinsert, rfl⟩ := createInvoice_eq_ok hok
  have hget := Table.get_insert hinsert invoiceId
  by_cases hid : invoiceId = invoice.id
  · -- A new invoice has no credit notes.
    subst hid
    rw [if_pos rfl] at hget
    have hcredited := h.unknown (Table.insert_eq_some hinsert).2
    refine ⟨h.linked, fun _ => hcredited, fun found hfound => ?_⟩
    cases hget.symm.trans hfound
    have hpaid := invoice.paid_within_total.2
    show 0 ≤ invoice.amounts.totalAmount - db.sales.creditedOn invoice.id - invoice.paidAmount
    rw [hcredited]
    linarith
  · rw [if_neg hid] at hget
    refine h.of_face h.linked rfl (fun hnone => hget.symm.trans hnone) fun found hfound => ?_
    exact ⟨found, hget.symm.trans hfound, rfl, rfl⟩

theorem Covered.issueInvoice {id : Uuid} {claim : Except Err (Option Uuid)}
    (h : Covered invoiceId db) (hok : Sales.issueInvoice request db id claim = .ok db') :
    Covered invoiceId db' := by
  obtain rfl | ⟨invoice, number, invoices, rows, hget, -, hreplace, -, hbooks, htables⟩ :=
    issueInvoice_eq_ok h.linked hok
  · exact h
  have hkey : ({ invoice with status := .issued, invoiceNumber := some number } : Invoice).id =
      invoice.id := rfl
  have hgets := Table.get_replace (Table.get_self hget) hkey hreplace invoiceId
  have hinvoices : db'.sales.invoices = invoices := by rw [htables]
  have hnotes : db'.sales.creditNotes = db.sales.creditNotes := by rw [htables]
  rw [← hinvoices] at hgets
  by_cases hid : invoiceId = invoice.id
  · rw [if_pos hid] at hgets
    refine h.of_face hbooks.linked hnotes (fun hnone => ?_) fun found hfound => ?_
    · rw [hgets] at hnone
      cases hnone
    · cases hgets.symm.trans hfound
      exact ⟨invoice, hid ▸ Table.get_self hget, rfl, rfl⟩
  · rw [if_neg hid] at hgets
    refine h.of_face hbooks.linked hnotes (fun hnone => hgets.symm.trans hnone)
      fun found hfound => ?_
    exact ⟨found, hgets.symm.trans hfound, rfl, rfl⟩

theorem Covered.recordPayment {payload : PaymentCreate} {claim : Except Err (Option Uuid)}
    (h : Covered invoiceId db)
    (hop : ∀ item ∈ payload.allocations, db.sales.creditedOn item.targetId = 0)
    (hlinked : db'.ledger.Linked) (hok : Sales.recordPayment request db payload claim = .ok db') :
    Covered invoiceId db' := by
  rcases Sales.recordPayment_pays hok with ⟨-, rfl⟩ |
    ⟨-, _, invoices, payments, -, -, -, hpays, -, hdocs⟩
  · exact h
  have hsales : db'.sales = { db.sales with invoices := invoices, payments := payments } :=
    congrArg Documents.sales hdocs
  have hinvoices : db'.sales.invoices = invoices := congrArg SalesDb.invoices hsales
  have hnotes : db'.sales.creditNotes = db.sales.creditNotes := by rw [hsales]
  rw [← hinvoices] at hpays
  by_cases hnamed : ∃ item ∈ payload.allocations, item.targetId = invoiceId
  · obtain ⟨item, hitem, rfl⟩ := hnamed
    obtain ⟨invoice, paid, hget, -, hpay, hpaid⟩ := hpays.named item hitem
    refine ⟨hlinked, fun hnone => ?_, fun found hfound => ?_⟩
    · rw [hpaid] at hnone
      cases hnone
    · cases hpaid.symm.trans hfound
      have hcredited := hop item hitem
      have hwithin := paid.paid_within_total.2
      rw [← (Table.get_mem hpaid).2] at hcredited
      rw [SalesDb.outstanding, SalesDb.creditedOn, hnotes]
      rw [SalesDb.creditedOn] at hcredited
      linarith
  · have hsame := hpays.others invoiceId fun item hitem heq => hnamed ⟨item, hitem, heq⟩
    refine h.of_face hlinked hnotes (fun hnone => hsame.symm.trans hnone)
      fun found hfound => ?_
    exact ⟨found, hsame.symm.trans hfound, rfl, rfl⟩

/-- The credit notes on an invoice, after one more note. -/
theorem creditedOn_insert {sales sales' : SalesDb} {note : CreditNote}
    (h : sales.creditNotes.insert note = some sales'.creditNotes) (id : Uuid) :
    sales'.creditedOn id =
      sales.creditedOn id + if note.invoiceId = id then note.amounts.totalAmount else 0 := by
  rw [SalesDb.creditedOn, (Table.insert_eq_some h).1, List.filter_append, List.map_append,
    List.sum_append, SalesDb.creditedOn]
  by_cases hid : note.invoiceId = id
  · simp [hid]
  · simp [hid]

theorem Covered.issueCreditNote {payload : CreditNoteCreate} (h : Covered invoiceId db)
    (hop : Op.CountsCredits db (.issueCreditNote payload))
    (hcredits : Op.NotOverCredited invoiceId db (.issueCreditNote payload))
    (hlinked : db'.ledger.Linked) (hok : Sales.issueCreditNote request db payload = .ok db') :
    Covered invoiceId db' := by
  obtain ⟨invoice, credited, _, note, hget, -, -, -, hid, hamounts, hpaid, hgets, hnote, htotal,
    hinsert⟩ := issueCreditNote_credits hok
  have hsum := creditedOn_insert hinsert invoiceId
  rw [hnote] at hsum
  have hkey := (Table.get_mem hget).2
  by_cases hsame : invoiceId = invoice.id
  · have hfound := hgets invoiceId
    rw [if_pos hsame] at hfound
    refine ⟨hlinked, fun hnone => ?_, fun found hfound' => ?_⟩
    · rw [hfound] at hnone
      cases hnone
    · cases hfound.symm.trans hfound'
      rw [if_pos hsame.symm, htotal] at hsum
      have hwithin : invoice.creditTotal payload.lines ≤ db.sales.outstanding invoice := by
        rcases invoice.paid_within_total.1.eq_or_lt with hzero | hpos
        · rw [SalesDb.outstanding, ← hzero, sub_zero]
          exact hop.2 _ rfl invoice hget hzero.symm
        · have hrow : db.sales.invoices.get invoiceId = some invoice := by
            rw [hsame, hkey]
            exact hget
          exact hcredits _ rfl (hkey.symm.trans hsame.symm) invoice hrow hpos
      rw [SalesDb.outstanding, ← hsame] at hwithin
      rw [SalesDb.outstanding, hid, ← hsame, hamounts, hpaid, hsum]
      linarith
  · have hother := hgets invoiceId
    rw [if_neg hsame] at hother
    rw [if_neg (Ne.symm hsame), add_zero] at hsum
    refine ⟨hlinked, fun hnone => ?_, fun found hfound => ?_⟩
    · rw [hsum]
      exact h.unknown (hother.symm.trans hnone)
    · have hcovered := h.covered found (hother.symm.trans hfound)
      rw [SalesDb.outstanding, (Table.get_mem hfound).2] at hcovered ⊢
      rw [hsum]
      exact hcovered

theorem Covered.body {op : Op} (h : Covered invoiceId db) (hop : op.CountsCredits db)
    (hcredits : op.NotOverCredited invoiceId db) (hok : op.body request db = .ok db') :
    Covered invoiceId db' := by
  have hlinked : db'.ledger.Linked := by
    obtain ⟨_, _, hbooks, -⟩ := Op.books h.linked hok
    exact hbooks.linked
  cases op with
  | createInvoice payload => exact h.createInvoice hok
  | issueInvoice id claim => exact h.issueInvoice hok
  | recordCustomerPayment payload claim => exact h.recordPayment (hop.1 _ rfl) hlinked hok
  | issueCreditNote payload => exact h.issueCreditNote hop hcredits hlinked hok
  | _ =>
      obtain ⟨hinvoices, hnotes⟩ := Op.keeps_invoices h.linked rfl hok
      refine h.of_face hlinked hnotes (fun hnone => hinvoices ▸ hnone) fun found hfound => ?_
      exact ⟨found, hinvoices ▸ hfound, rfl, rfl⟩

/-! ## Runs -/

theorem Covered.start (configuration : Configuration) (invoiceId : Uuid) :
    Covered invoiceId (.start configuration) where
  linked := Accounting.LedgerDb.linked_empty
  unknown _ := rfl
  covered invoice hget := by
    have hnone : (TenantDb.start configuration).sales.invoices.get invoiceId = none := rfl
    rw [hnone] at hget
    cases hget

instance TenantDb.AllOver.decidable {P : TenantDb → Op → Prop} [∀ db op, Decidable (P db op)] :
    (db : TenantDb) → (calls : List Call) → Decidable (db.AllOver P calls)
  | _, [] => .isTrue trivial
  | db, call :: calls =>
      have := AllOver.decidable (P := P) (db.step call) calls
      inferInstanceAs (Decidable ((db.commits call → P db call.op) ∧ (db.step call).AllOver P calls))

theorem TenantDb.AllOver.imp {P P' : TenantDb → Op → Prop} {calls : List Call}
    (himp : ∀ (db : TenantDb) (call : Call) (db' : TenantDb), P db call.op →
      call.op.body call.request db = .ok db' → P' db call.op)
    (h : db.AllOver P calls) : db.AllOver P' calls := by
  induction calls generalizing db with
  | nil => trivial
  | cons call calls ih =>
      obtain ⟨hcall, hcalls⟩ := h
      refine ⟨fun hcommits => ?_, ih hcalls⟩
      rcases db.step_cases call with ⟨hfails, -⟩ | ⟨db', hok, -, -⟩
      · rw [hfails] at hcommits
        cases hcommits
      · exact himp db call db' (hcall hcommits) hok

/-- What every request that goes through keeps under two conditions, a run keeps. -/
theorem Covered.run {calls : List Call} (h : Covered invoiceId db)
    (hguard : db.AllOver Op.CountsCredits calls)
    (hcredits : db.AllOver (Op.NotOverCredited invoiceId) calls) :
    Covered invoiceId (db.run calls) := by
  induction calls generalizing db with
  | nil => exact h
  | cons call calls ih =>
      obtain ⟨hcall, hcalls⟩ := hguard
      obtain ⟨hcredit, hrest⟩ := hcredits
      refine ih ?_ hcalls hrest
      rcases db.step_cases call with ⟨-, hstep⟩ | ⟨db', hok, hcommits, hstep⟩
      · rw [hstep]
        exact h
      · rw [hstep]
        exact h.body (hcall hcommits) (hcredit hcommits) hok

/-- In every run in which payments name no invoice with credit notes, and the credited parts of
an invoice that is not paid come to no more than what is left of its total: an accepted
allocation takes no more than is outstanding, and an invoice that was not over-credited after
it was paid is not overpaid.  Of an invoice with credit notes that is not paid in full, an
allocation of more than is outstanding is accepted. -/
theorem payments_within_outstanding (configuration : Configuration) (calls : List Call)
    (hguard : (TenantDb.start configuration).AllOver Op.CountsCredits calls) :
    (TenantDb.start configuration).AllOver Op.PaysOutstanding calls ∧
      (∀ invoice ∈ ((TenantDb.start configuration).run calls).sales.invoices.rows,
        (TenantDb.start configuration).AllOver (Op.NotOverCredited invoice.id) calls →
          0 ≤ ((TenantDb.start configuration).run calls).sales.outstanding invoice) ∧
      ∀ (sales : SalesDb) (invoice : Invoice), 0 < sales.creditedOn invoice.id →
        invoice.paidAmount < invoice.amounts.totalAmount →
          ∃ item paid, invoice.pay item = .ok paid ∧ sales.outstanding invoice < item.amount := by
  refine ⟨hguard.imp fun _ _ _ hop hok => Op.paysOutstanding hop hok, ?_, ?_⟩
  · intro invoice hinvoice hcredits
    have hcovered := (Covered.start configuration invoice.id).run hguard hcredits
    exact hcovered.covered invoice (Table.get_eq_some.mpr ⟨hinvoice, rfl⟩)
  · intro sales invoice hcredited hopen
    obtain ⟨item, hitem⟩ : ∃ item : PaymentAllocation,
        item.amount = invoice.amounts.totalAmount - invoice.paidAmount :=
      ⟨⟨invoice.id, _, sub_pos.mpr hopen⟩, rfl⟩
    obtain ⟨paid, hpay⟩ := Invoice.pay_of_le hitem.le
    refine ⟨item, paid, hpay, ?_⟩
    rw [SalesDb.outstanding, hitem]
    linarith

/-- An order of the service, invoiced as invoice `3`. -/
def cornerInvoice (quantity : Quantity) (unitPrice : Money) (h : 0 < quantity ∧ quantity < 10 ^ 20)
    (hprice : 0 ≤ unitPrice) : List Call :=
  [⟨cornerRequest 1, .createSalesOrder
    { customerId := 1
      branchId := 4
      warehouseId := 1
      orderDate := ⟨2026, 1, 15⟩
      lines := [⟨8, quantity, unitPrice, 0, 0, Sample.quantity_pos h, Sample.quantity_lt h, hprice,
        Sample.zero_rate, Sample.zero_rate⟩] }⟩,
   ⟨cornerRequest 2, .confirmSalesOrder 1⟩,
   ⟨cornerRequest 3, .createInvoice ⟨1, ⟨2026, 1, 15⟩, none, false⟩⟩,
   ⟨cornerRequest 4, .issueInvoice 3 (.ok none)⟩]

/-- A credit note on `quantity` of the line of that invoice. -/
def cornerCredit (n : Nat) (quantity : Quantity) (h : 0 < quantity ∧ quantity < 10 ^ 20) : Call :=
  ⟨cornerRequest n, .issueCreditNote ⟨3, ⟨2026, 1, 16⟩, false, none, [⟨3000, quantity, h.1, h.2⟩]⟩⟩

/-- A payment of that invoice. -/
def cornerPayment (n : Nat) (amount : Money) (h : 0 < amount ∧ amount < 10 ^ 18) : Call :=
  ⟨cornerRequest n, .recordCustomerPayment
    { customerId := 1
      branchId := 4
      method := .cash
      amount := amount
      paymentDate := ⟨2026, 1, 17⟩
      allocations := [⟨3, amount, h.1⟩]
      amount_positive := h.1
      amount_lt := h.2 } (.ok none)⟩

/-- Half of an invoice is paid, and then the other half is credited. -/
theorem payments_within_outstanding_half_paid :
    (TenantDb.start corner).AllOver Op.PaysOutstanding
      (cornerInvoice 2000000 50000 (by decide) (by decide) ++
        [cornerPayment 5 50000 (by decide), cornerCredit 6 1000000 (by decide)]) ∧
    ((TenantDb.start corner).run (cornerInvoice 2000000 50000 (by decide) (by decide) ++
      [cornerPayment 5 50000 (by decide),
        cornerCredit 6 1000000 (by decide)])).sales.invoices.rows.map (·.paidAmount) = [50000] := by
  constructor
  · exact (payments_within_outstanding corner _ (by decide +kernel)).1
  · decide +kernel

/-- Half of an invoice of `10` is credited, and then all of it is paid.  And an invoice of `0.0001`
is credited in two halves, each of which is rounded to `0.0001`. -/
theorem credited_invoice_overpaid :
    (¬(TenantDb.start corner).AllOver Op.PaysOutstanding
      (cornerInvoice 2000000 50000 (by decide) (by decide) ++
        [cornerCredit 5 1000000 (by decide), cornerPayment 6 100000 (by decide)])) ∧
    ¬∀ invoice ∈ ((TenantDb.start corner).run (cornerInvoice 1000000 1 (by decide) (by decide) ++
        [cornerCredit 5 500000 (by decide), cornerCredit 6 500000 (by decide)])).sales.invoices.rows,
      (TenantDb.start corner).AllOver (Op.NotOverCredited invoice.id)
        (cornerInvoice 1000000 1 (by decide) (by decide) ++
          [cornerCredit 5 500000 (by decide), cornerCredit 6 500000 (by decide)]) →
      0 ≤ ((TenantDb.start corner).run (cornerInvoice 1000000 1 (by decide) (by decide) ++
        [cornerCredit 5 500000 (by decide),
          cornerCredit 6 500000 (by decide)])).sales.outstanding invoice := by
  constructor
  · decide +kernel
  · decide +kernel

end Nexora.Tenant
