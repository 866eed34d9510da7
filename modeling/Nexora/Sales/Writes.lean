import Nexora.Sales.Service

/-!
# What the sales service writes

One theorem for each request that goes through: the rows it found, the loop it ran, what it
booked, and the tables it leaves.  Everything it says of the other tables is that they are
the same.
-/

namespace Nexora.Sales

open Nexora Nexora.Catalog Nexora.Tenant Foundations
open Nexora.Accounting (Money)
open Nexora.Accounting.PostingRules (customerPayment)

variable {request : Request} {db db' : TenantDb}

/-! ## Quotations and orders -/

/-- Only quotations and orders changed, and a number may have been drawn. -/
structure ChangesOrders (db db' : TenantDb) : Prop where
  ledger : db.ledger.SameCodes db'.ledger
  tables : ∃ quotations orders, db' = { db with
    ledger := db'.ledger
    sales := { db.sales with quotations := quotations, orders := orders } }

theorem createQuotation_eq_ok {payload : QuotationCreate}
    (h : createQuotation request db payload = .ok db') : ChangesOrders db db' := by
  obtain ⟨_, -, h⟩ := bind_eq_ok.mp h
  obtain ⟨_, -, h⟩ := bind_eq_ok.mp h
  obtain ⟨_, -, h⟩ := bind_eq_ok.mp h
  obtain ⟨lines, -, h⟩ := bind_eq_ok.mp h
  obtain ⟨amounts, -, h⟩ := bind_eq_ok.mp h
  obtain ⟨quotations, -, h⟩ := bind_eq_ok.mp h
  cases h
  exact ⟨Numbering.allocate_sameCodes _ _ _, quotations, _, rfl⟩

theorem setQuotationStatus_eq_ok {quotationId : Uuid} {status : QuotationStatus}
    (h : setQuotationStatus request db quotationId status = .ok db') : ChangesOrders db db' := by
  obtain ⟨quotation, -, h⟩ := bind_eq_ok.mp h
  obtain ⟨_, -, h⟩ := bind_eq_ok.mp h
  obtain ⟨_, -, h⟩ := bind_eq_ok.mp h
  obtain ⟨quotations, -, h⟩ := bind_eq_ok.mp h
  cases h
  exact ⟨.refl _, quotations, _, rfl⟩

theorem convertQuotation_eq_ok {quotationId : Uuid} {payload : QuotationConvert}
    (h : convertQuotation request db quotationId payload = .ok db') : ChangesOrders db db' := by
  obtain ⟨quotation, -, h⟩ := bind_eq_ok.mp h
  obtain ⟨_, -, h⟩ := bind_eq_ok.mp h
  obtain ⟨_, -, h⟩ := bind_eq_ok.mp h
  obtain ⟨_, -, h⟩ := bind_eq_ok.mp h
  obtain ⟨_, -, h⟩ := bind_eq_ok.mp h
  obtain ⟨lines, -, h⟩ := bind_eq_ok.mp h
  obtain ⟨orders, -, h⟩ := bind_eq_ok.mp h
  obtain ⟨quotations, -, h⟩ := bind_eq_ok.mp h
  cases h
  exact ⟨Numbering.allocate_sameCodes _ _ _, quotations, orders, rfl⟩

theorem createOrder_eq_ok {payload : SalesOrderCreate}
    (h : createOrder request db payload = .ok db') : ChangesOrders db db' := by
  obtain ⟨_, -, h⟩ := bind_eq_ok.mp h
  obtain ⟨_, -, h⟩ := bind_eq_ok.mp h
  obtain ⟨_, -, h⟩ := bind_eq_ok.mp h
  obtain ⟨priced, -, h⟩ := bind_eq_ok.mp h
  obtain ⟨lines, -, h⟩ := bind_eq_ok.mp h
  obtain ⟨amounts, -, h⟩ := bind_eq_ok.mp h
  obtain ⟨orders, -, h⟩ := bind_eq_ok.mp h
  cases h
  exact ⟨Numbering.allocate_sameCodes _ _ _, _, orders, rfl⟩

theorem findOrder_eq_ok {orderId : Uuid} {order : SalesOrder}
    (h : findOrder request db orderId = .ok order) :
    db.sales.orders.get orderId = some order := by
  obtain ⟨order', hget, h⟩ := bind_eq_ok.mp h
  obtain ⟨_, -, h⟩ := bind_eq_ok.mp h
  cases h
  exact orRaise_eq_ok.mp hget

theorem saveOrder_eq_ok {order : SalesOrder} (h : saveOrder db order = .ok db') :
    ∃ orders, db.sales.orders.replace order.id order = some orders ∧
      db' = { db with sales := { db.sales with orders := orders } } := by
  obtain ⟨orders, hreplace, h⟩ := bind_eq_ok.mp h
  cases h
  exact ⟨orders, orRaise_eq_ok.mp hreplace, rfl⟩

theorem confirmOrder_eq_ok {orderId : Uuid} (h : confirmOrder request db orderId = .ok db') :
    ChangesOrders db db' := by
  obtain ⟨order, -, h⟩ := bind_eq_ok.mp h
  obtain ⟨_, -, h⟩ := bind_eq_ok.mp h
  obtain ⟨orders, -, rfl⟩ := saveOrder_eq_ok h
  exact ⟨.refl _, _, orders, rfl⟩

theorem cancelOrder_eq_ok {orderId : Uuid} (h : cancelOrder request db orderId = .ok db') :
    ChangesOrders db db' := by
  obtain ⟨order, -, h⟩ := bind_eq_ok.mp h
  obtain ⟨_, -, h⟩ := bind_eq_ok.mp h
  obtain ⟨_, -, h⟩ := bind_eq_ok.mp h
  obtain ⟨orders, -, rfl⟩ := saveOrder_eq_ok h
  exact ⟨.refl _, _, orders, rfl⟩

/-! ## Fulfilment -/

theorem fulfil_eq_ok {orderId : Uuid} {lines : Option (List RequestedLine)}
    (hdb : db.ledger.Linked) (h : fulfil request db orderId lines = .ok db') :
    ∃ order items state number orders fulfillments,
      db.sales.orders.get orderId = some order ∧ order.requested lines = .ok items ∧
      order.lines.foldlM (fulfilLine order.warehouseId request.documentId items)
        ⟨db.inventory, 0, [], []⟩ = .ok state ∧
      Books db (fulfillmentEntries request number state.cost) [] db' ∧
      db' = { db with
        inventory := state.inventory
        ledger := db'.ledger
        register := db'.register
        sales := { db.sales with orders := orders, fulfillments := fulfillments } } := by
  obtain ⟨order, hfind, h⟩ := bind_eq_ok.mp h
  obtain ⟨_, -, h⟩ := bind_eq_ok.mp h
  obtain ⟨items, hitems, h⟩ := bind_eq_ok.mp h
  obtain ⟨_, -, h⟩ := bind_eq_ok.mp h
  obtain ⟨state, hloop, h⟩ := bind_eq_ok.mp h
  obtain ⟨db₁, hsave, h⟩ := bind_eq_ok.mp h
  obtain ⟨orders, -, rfl⟩ := saveOrder_eq_ok hsave
  obtain ⟨fulfillments, -, h⟩ := bind_eq_ok.mp h
  obtain ⟨hbooks, hdb'⟩ := TenantDb.book_eq_ok hdb h (Numbering.allocate_sameCodes _ _ _) rfl
  exact ⟨order, items, state, _, orders, fulfillments, findOrder_eq_ok hfind, hitems, hloop,
    hbooks, hdb'⟩

/-! ## Invoices -/

theorem draftInvoice_eq_ok {id : Uuid} {order : SalesOrder} {payload : InvoiceCreate}
    {lines : List InvoiceLine} {invoice : Invoice}
    (h : draftInvoice id order payload lines = .ok invoice) :
    invoice.id = id ∧ invoice.status = .draft ∧ invoice.lines = lines := by
  unfold draftInvoice at h
  split at h
  next =>
    split at h
    next => cases h
    next =>
      cases h
      exact ⟨rfl, rfl, rfl⟩
  next => cases h

theorem createInvoice_eq_ok {payload : InvoiceCreate}
    (h : createInvoice request db payload = .ok db') :
    ∃ invoice orders invoices, invoice.status = .draft ∧
      db.sales.invoices.insert invoice = some invoices ∧
      db' = { db with sales := { db.sales with orders := orders, invoices := invoices } } := by
  obtain ⟨order, -, h⟩ := bind_eq_ok.mp h
  obtain ⟨_, -, h⟩ := bind_eq_ok.mp h
  obtain ⟨state, -, h⟩ := bind_eq_ok.mp h
  obtain ⟨_, -, h⟩ := bind_eq_ok.mp h
  obtain ⟨invoice, hdraft, h⟩ := bind_eq_ok.mp h
  obtain ⟨db₁, hsave, h⟩ := bind_eq_ok.mp h
  obtain ⟨orders, -, rfl⟩ := saveOrder_eq_ok hsave
  obtain ⟨invoices, hinsert, h⟩ := bind_eq_ok.mp h
  cases h
  exact ⟨invoice, orders, invoices, (draftInvoice_eq_ok hdraft).2.1, orRaise_eq_ok.mp hinsert, rfl⟩

theorem findInvoice_eq_ok {invoiceId : Uuid} {invoice : Invoice}
    (h : findInvoice request db invoiceId = .ok invoice) :
    db.sales.invoices.get invoiceId = some invoice := by
  obtain ⟨invoice', hget, h⟩ := bind_eq_ok.mp h
  obtain ⟨_, -, h⟩ := bind_eq_ok.mp h
  cases h
  exact orRaise_eq_ok.mp hget

theorem saveInvoice_eq_ok {invoice : Invoice} (h : saveInvoice db invoice = .ok db') :
    ∃ invoices, db.sales.invoices.replace invoice.id invoice = some invoices ∧
      db' = { db with sales := { db.sales with invoices := invoices } } := by
  obtain ⟨invoices, hreplace, h⟩ := bind_eq_ok.mp h
  cases h
  exact ⟨invoices, orRaise_eq_ok.mp hreplace, rfl⟩

/-- An invoice is issued, or its key shows that it was. -/
theorem issueInvoice_eq_ok {invoiceId : Uuid} {claim : Except Err (Option Uuid)}
    (hdb : db.ledger.Linked) (h : issueInvoice request db invoiceId claim = .ok db') :
    db' = db ∨ ∃ invoice number invoices rows,
      db.sales.invoices.get invoiceId = some invoice ∧ invoice.status = .draft ∧
      db.sales.invoices.replace invoice.id
        { invoice with status := .issued, invoiceNumber := some number } = some invoices ∧
      invoice.taxableEvent.recordLines request.vatId (invoice.lines.map (·.taxable)) = .ok rows ∧
      Books db (invoice.entries number) rows db' ∧
      db' = { db with
        ledger := db'.ledger
        register := db'.register
        sales := { db.sales with invoices := invoices } } := by
  obtain ⟨stored, -, h⟩ := bind_eq_ok.mp h
  split at h
  next =>
    obtain ⟨_, -, h⟩ := bind_eq_ok.mp h
    cases h
    exact .inl rfl
  next =>
    obtain ⟨invoice, hfind, h⟩ := bind_eq_ok.mp h
    obtain ⟨_, hstatus, h⟩ := bind_eq_ok.mp h
    obtain ⟨db₁, hsave, h⟩ := bind_eq_ok.mp h
    obtain ⟨invoices, hreplace, rfl⟩ := saveInvoice_eq_ok hsave
    obtain ⟨rows, hrows, h⟩ := bind_eq_ok.mp h
    obtain ⟨hbooks, hdb'⟩ := TenantDb.book_eq_ok hdb h (Numbering.allocate_sameCodes _ _ _) rfl
    exact .inr ⟨invoice, _, invoices, rows, findInvoice_eq_ok hfind,
      List.mem_singleton.mp (requireStatus_eq_ok hstatus), hreplace, hrows, hbooks, hdb'⟩

/-! ## Issued totals -/

/-- The total of an invoice once it is issued. -/
def issuedTotal (status : InvoiceStatus) (amounts : Amounts) : Money :=
  if status.isIssued then amounts.totalAmount else 0

@[simp] theorem issuedTotal_draft (amounts : Amounts) : issuedTotal .draft amounts = 0 := rfl

@[simp] theorem issuedTotal_issued (amounts : Amounts) :
    issuedTotal .issued amounts = amounts.totalAmount := rfl

/-- The sum of the issued invoices. -/
def SalesDb.invoiced (db : SalesDb) : Money :=
  (db.invoices.rows.map fun invoice => issuedTotal invoice.status invoice.amounts).sum

/-- A change of an invoice moves the sum by its own total. -/
theorem invoiced_replace {sales : SalesDb} {invoices : Table Invoice.id} {id : Uuid}
    {old new : Invoice} (hget : sales.invoices.get id = some old)
    (hreplace : sales.invoices.replace id new = some invoices) :
    ({ sales with invoices := invoices } : SalesDb).invoiced =
      sales.invoiced - issuedTotal old.status old.amounts +
        issuedTotal new.status new.amounts :=
  Table.sum_replace hget hreplace fun invoice => issuedTotal invoice.status invoice.amounts

/-! ## Payments -/

theorem newPayment_eq_ok {id : Uuid} {number : String} {counterparty : Counterparty}
    {branchId : Uuid} {method : PaymentMethod} {amount : Money} {hpos : 0 < amount}
    {paymentDate : Accounting.Date} {allocations : List PaymentAllocation} {payment : Payment}
    (h : newPayment id number counterparty branchId method amount hpos paymentDate allocations =
      .ok payment) :
    payment.counterparty = counterparty ∧ payment.amount = amount := by
  unfold newPayment at h
  split at h
  next =>
    split at h
    next =>
      cases h
      exact ⟨rfl, rfl⟩
    next => cases h
  next => cases h

theorem Invoice.pay_eq_ok {invoice paid : Invoice} {item : PaymentAllocation}
    (h : invoice.pay item = .ok paid) :
    paid.id = invoice.id ∧ paid.amounts = invoice.amounts ∧
      (paid.status = .paid ∨ paid.status = .partiallyPaid) := by
  unfold pay at h
  split at h
  next =>
    cases h
    refine ⟨rfl, rfl, ?_⟩
    dsimp only
    split
    · exact .inl rfl
    · exact .inr rfl
  next => cases h

/-- A payment of an invoice leaves it issued. -/
theorem payInvoice_eq_ok {payload : PaymentCreate} {item : PaymentAllocation}
    (h : payInvoice request payload db item = .ok db') :
    ∃ invoices, db' = { db with sales := { db.sales with invoices := invoices } } ∧
      db'.sales.invoiced = db.sales.invoiced := by
  obtain ⟨invoice, hfind, h⟩ := bind_eq_ok.mp h
  obtain ⟨_, -, h⟩ := bind_eq_ok.mp h
  obtain ⟨_, hstatus, h⟩ := bind_eq_ok.mp h
  obtain ⟨paid, hpay, h⟩ := bind_eq_ok.mp h
  obtain ⟨invoices, hreplace, rfl⟩ := saveInvoice_eq_ok h
  obtain ⟨hid, hamounts, hpaid⟩ := Invoice.pay_eq_ok hpay
  have hget := Table.get_self (findInvoice_eq_ok hfind)
  rw [← hid] at hget
  refine ⟨invoices, rfl, ?_⟩
  have hold : issuedTotal invoice.status invoice.amounts = invoice.amounts.totalAmount := by
    have hmem := requireStatus_eq_ok hstatus
    simp only [List.mem_cons, List.not_mem_nil, or_false] at hmem
    rcases hmem with hissued | hissued
    · simp [issuedTotal, InvoiceStatus.isIssued, hissued]
    · simp [issuedTotal, InvoiceStatus.isIssued, hissued]
  have hnew : issuedTotal paid.status paid.amounts = invoice.amounts.totalAmount := by
    rcases hpaid with hpaid | hpaid
    · simp [issuedTotal, InvoiceStatus.isIssued, hpaid, hamounts]
    · simp [issuedTotal, InvoiceStatus.isIssued, hpaid, hamounts]
  rw [invoiced_replace hget hreplace, hold, hnew]
  exact sub_add_cancel _ _

/-- A payment is recorded, or its key shows that it was. -/
theorem recordPayment_eq_ok {payload : PaymentCreate} {claim : Except Err (Option Uuid)}
    (hdb : db.ledger.Linked) (h : recordPayment request db payload claim = .ok db') :
    db' = db ∨ ∃ payment invoices payments,
      payment.counterparty = .customer payload.customerId ∧ payment.amount = payload.amount ∧
      ({ db.sales with invoices := invoices } : SalesDb).invoiced = db.sales.invoiced ∧
      db.sales.payments.insert payment = some payments ∧
      Books db (payment.entries "Customer payment " "CUSTOMER_PAYMENT"
        (customerPayment (Accounting.money payload.amount) (payload.method = .cash))) [] db' ∧
      db' = { db with
        ledger := db'.ledger
        register := db'.register
        sales := { db.sales with invoices := invoices, payments := payments } } := by
  obtain ⟨_, -, h⟩ := bind_eq_ok.mp h
  obtain ⟨stored, -, h⟩ := bind_eq_ok.mp h
  split at h
  next =>
    cases h
    exact .inl rfl
  next =>
    obtain ⟨_, -, h⟩ := bind_eq_ok.mp h
    obtain ⟨payment, hpayment, h⟩ := bind_eq_ok.mp h
    obtain ⟨db₁, hloop, h⟩ := bind_eq_ok.mp h
    obtain ⟨payments, hinsert, h⟩ := bind_eq_ok.mp h
    obtain ⟨invoices, rfl, hinvoiced⟩ := foldlM_invariant
      (I := fun db₁ : TenantDb => ∃ invoices,
        db₁ = { (db.allocate request .salesPayment).2 with
          sales := { db.sales with invoices := invoices } } ∧
        db₁.sales.invoiced = db.sales.invoiced)
      (fun item _ db₁ db₂ hdb₁ hpass => by
        obtain ⟨_, rfl, hsame⟩ := hdb₁
        obtain ⟨invoices, rfl, hpay⟩ := payInvoice_eq_ok hpass
        exact ⟨invoices, rfl, hpay.trans hsame⟩)
      hloop ⟨db.sales.invoices, rfl, rfl⟩
    obtain ⟨hcounterparty, hamount⟩ := newPayment_eq_ok hpayment
    obtain ⟨hbooks, hdb'⟩ := TenantDb.book_eq_ok hdb h (Numbering.allocate_sameCodes _ _ _) rfl
    exact .inr ⟨payment, invoices, payments, hcounterparty, hamount, hinvoiced,
      orRaise_eq_ok.mp hinsert, hbooks, hdb'⟩

/-! ## Credit notes -/

/-- A credited line leaves the totals of its invoice alone. -/
theorem creditLine_eq_ok {restocks : Option Uuid} {state state' : CreditState}
    {row : RequestedLine × Nat} (h : creditLine request restocks state row = .ok state') :
    state'.invoice.id = state.invoice.id ∧ state'.invoice.status = state.invoice.status ∧
      state'.invoice.amounts = state.invoice.amounts := by
  obtain ⟨line, -, h⟩ := bind_eq_ok.mp h
  split at h
  next =>
    obtain ⟨priced, -, h⟩ := bind_eq_ok.mp h
    obtain ⟨⟨inventory, cost⟩, -, h⟩ := bind_eq_ok.mp h
    cases h
    exact ⟨rfl, rfl, rfl⟩
  next => cases h

theorem newCreditNote_eq_ok {id : Uuid} {number : String} {payload : CreditNoteCreate}
    {invoice : Invoice} {lines : List CreditNoteLine} {note : CreditNote}
    (h : newCreditNote id number payload invoice lines = .ok note) :
    note.id = id ∧ note.lines = lines := by
  unfold newCreditNote at h
  split at h
  next => cases h
  next =>
    cases h
    exact ⟨rfl, rfl⟩

theorem issueCreditNote_eq_ok {payload : CreditNoteCreate} (hdb : db.ledger.Linked)
    (h : issueCreditNote request db payload = .ok db') :
    ∃ invoice state note invoices creditNotes rows,
      db.sales.invoices.get payload.invoiceId = some invoice ∧
      (sortedItems payload.lines).zipIdx.foldlM (creditLine request payload.restocks)
        ⟨invoice, db.inventory, 0, []⟩ = .ok state ∧
      ({ db.sales with invoices := invoices } : SalesDb).invoiced = db.sales.invoiced ∧
      note.id = request.documentId ∧
      db.sales.creditNotes.insert note = some creditNotes ∧
      note.taxableEvent.recordLines request.vatId (note.lines.map (·.taxable)) = .ok rows ∧
      Books db (note.entries state.cost) rows db' ∧
      db' = { db with
        inventory := state.inventory
        ledger := db'.ledger
        register := db'.register
        sales := { db.sales with invoices := invoices, creditNotes := creditNotes } } := by
  obtain ⟨invoice, hfind, h⟩ := bind_eq_ok.mp h
  obtain ⟨_, -, h⟩ := bind_eq_ok.mp h
  obtain ⟨_, -, h⟩ := bind_eq_ok.mp h
  obtain ⟨_, -, h⟩ := bind_eq_ok.mp h
  obtain ⟨state, hloop, h⟩ := bind_eq_ok.mp h
  obtain ⟨db₁, hsave, h⟩ := bind_eq_ok.mp h
  obtain ⟨invoices, hreplace, rfl⟩ := saveInvoice_eq_ok hsave
  obtain ⟨note, hnote, h⟩ := bind_eq_ok.mp h
  obtain ⟨creditNotes, hinsert, h⟩ := bind_eq_ok.mp h
  obtain ⟨rows, hrows, h⟩ := bind_eq_ok.mp h
  obtain ⟨hid, hstatus, hamounts⟩ := foldlM_invariant
    (I := fun state : CreditState => state.invoice.id = invoice.id ∧
      state.invoice.status = invoice.status ∧ state.invoice.amounts = invoice.amounts)
    (fun _ _ _ _ hstate hpass => by
      obtain ⟨hid, hstatus, hamounts⟩ := creditLine_eq_ok hpass
      exact ⟨hid.trans hstate.1, hstatus.trans hstate.2.1, hamounts.trans hstate.2.2⟩)
    hloop ⟨rfl, rfl, rfl⟩
  have hget := Table.get_self (findInvoice_eq_ok hfind)
  rw [← hid] at hget
  have hinvoiced := invoiced_replace hget hreplace
  rw [hstatus, hamounts, sub_add_cancel] at hinvoiced
  obtain ⟨hbooks, hdb'⟩ := TenantDb.book_eq_ok hdb h (Numbering.allocate_sameCodes _ _ _) rfl
  exact ⟨invoice, state, note, invoices, creditNotes, rows, findInvoice_eq_ok hfind, hloop,
    hinvoiced, (newCreditNote_eq_ok hnote).1, orRaise_eq_ok.mp hinsert, hrows, hbooks, hdb'⟩

end Nexora.Sales
