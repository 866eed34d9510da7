import Nexora.Purchasing.Writes
import Nexora.Tenant.Operations

/-!
# Documents

The requests of sales and purchasing on orders, invoices, bills and payments: what each writes
(`Op.writes`), and the rows that it locks (`Op.lockPlan`).

`Documents` are the tables of the documents.  Stock, ledger and register decide whether a request
goes through, and nothing that is written to the documents depends on them otherwise.
-/

namespace Nexora.Tenant

open Nexora Nexora.Catalog Nexora.Sales Nexora.Purchasing Nexora.Pos Foundations
open Nexora.Accounting (Money)

/-! ## Tables -/

structure Documents where
  sales : SalesDb
  purchasing : PurchasingDb

def TenantDb.documents (db : TenantDb) : Documents := ⟨db.sales, db.purchasing⟩

def TenantDb.withDocuments (db : TenantDb) (docs : Documents) : TenantDb :=
  { db with sales := docs.sales, purchasing := docs.purchasing }

@[simp] theorem TenantDb.withDocuments_documents (db : TenantDb) (docs : Documents) :
    (db.withDocuments docs).documents = docs := rfl

/-- The requests on documents.  An order has at least one line, by the schema of its payload. -/
def Op.isDocument : Op → Bool
  | .createSalesOrder payload => !payload.lines.isEmpty
  | .createPurchaseOrder payload => !payload.lines.isEmpty
  | .confirmSalesOrder _ | .cancelSalesOrder _ | .fulfil .. | .createInvoice _ | .issueInvoice ..
  | .recordCustomerPayment .. | .issueCreditNote _ | .confirmPurchaseOrder _
  | .cancelPurchaseOrder _ | .receive .. | .createBill _ | .issueBill _
  | .recordSupplierPayment .. => true
  | _ => false

end Nexora.Tenant

namespace Nexora.Sales

open Nexora Nexora.Catalog Nexora.Tenant Foundations
open Nexora.Accounting (Money)

variable {request : Request} {db db' : TenantDb}

/-! ## The loop of a payment -/

/-- A loop pays the documents that its items name, and no other. -/
structure PaysEach {Doc : Type} {key : Doc → Uuid} (pay : Doc → PaymentAllocation → Except Err Doc)
    (status : Doc → InvoiceStatus) (items : List PaymentAllocation) (docs docs' : Table key) :
    Prop where
  others : ∀ id, (∀ item ∈ items, item.targetId ≠ id) → docs'.get id = docs.get id
  named : ∀ item ∈ items, ∃ doc paid, docs.get item.targetId = some doc ∧
    status doc ∈ [.issued, .partiallyPaid] ∧ pay doc item = .ok paid ∧
      docs'.get item.targetId = some paid

namespace PaysEach

variable {Doc : Type} {key : Doc → Uuid} {pay : Doc → PaymentAllocation → Except Err Doc}
  {status : Doc → InvoiceStatus} {item : PaymentAllocation} {items : List PaymentAllocation}
  {docs docs₁ docs' : Table key}

theorem nil (docs : Table key) : PaysEach pay status [] docs docs := ⟨fun _ _ => rfl, nofun⟩

/-- One pass. -/
theorem single {doc paid : Doc} (hget : docs.get item.targetId = some doc)
    (hstatus : status doc ∈ [.issued, .partiallyPaid]) (hpay : pay doc item = .ok paid)
    (hkey : key paid = key doc) (hreplace : docs.replace (key paid) paid = some docs') :
    PaysEach pay status [item] docs docs' := by
  have hid : key paid = item.targetId := hkey.trans (Table.get_mem hget).2
  rw [hid] at hreplace
  have hgets := Table.get_replace hget hid hreplace
  refine ⟨fun id hne => ?_, fun item' hitem' => ?_⟩
  · exact (hgets id).trans (if_neg fun heq => hne item (List.mem_singleton_self item) heq.symm)
  · rw [List.mem_singleton.mp hitem']
    exact ⟨doc, paid, hget, hstatus, hpay, (hgets _).trans (if_pos rfl)⟩

theorem cons (hfresh : item.targetId ∉ items.map (·.targetId))
    (h : PaysEach pay status [item] docs docs₁) (h' : PaysEach pay status items docs₁ docs') :
    PaysEach pay status (item :: items) docs docs' := by
  have hne : ∀ item' ∈ items, item'.targetId ≠ item.targetId := by
    intro item' hitem' heq
    exact hfresh (heq ▸ List.mem_map_of_mem hitem')
  refine ⟨fun id hid => ?_, fun item' hitem' => ?_⟩
  · rw [h'.others id fun item' hitem' => hid item' (List.mem_cons_of_mem _ hitem')]
    refine h.others id fun item' hitem' => ?_
    rw [List.mem_singleton.mp hitem']
    exact hid item List.mem_cons_self
  · rcases List.mem_cons.mp hitem' with rfl | hitem'
    · obtain ⟨doc, paid, hget, hstatus, hpay, hpaid⟩ := h.named item' (List.mem_singleton_self item')
      exact ⟨doc, paid, hget, hstatus, hpay, (h'.others _ hne).trans hpaid⟩
    · obtain ⟨doc, paid, hget, hstatus, hpay, hpaid⟩ := h'.named item' hitem'
      refine ⟨doc, paid, ?_, hstatus, hpay, hpaid⟩
      rw [← hget]
      refine (h.others _ fun first hfirst => ?_).symm
      rw [List.mem_singleton.mp hfirst]
      exact (hne item' hitem').symm

theorem perm {items' : List PaymentAllocation} (hperm : items.Perm items')
    (h : PaysEach pay status items docs docs') : PaysEach pay status items' docs docs' :=
  ⟨fun id hid => h.others id fun item hitem => hid item (hperm.mem_iff.mp hitem),
    fun item hitem => h.named item (hperm.mem_iff.mpr hitem)⟩

/-- What a payment leaves of its documents, it leaves of all. -/
theorem map_get {X : Type} {f : Doc → X} (h : PaysEach pay status items docs docs')
    (hpay : ∀ doc item paid, pay doc item = .ok paid → f paid = f doc) (id : Uuid) :
    (docs'.get id).map f = (docs.get id).map f := by
  by_cases hnamed : ∃ item ∈ items, item.targetId = id
  · obtain ⟨item, hitem, rfl⟩ := hnamed
    obtain ⟨doc, paid, hget, -, hpaid, hget'⟩ := h.named item hitem
    rw [hget, hget', Option.map_some, Option.map_some, hpay doc item paid hpaid]
  · rw [h.others id fun item hitem heq => hnamed ⟨item, hitem, heq⟩]

end PaysEach

/-- What an accepted allocation makes of its invoice. -/
theorem Invoice.pay_within {invoice paid : Invoice} {item : PaymentAllocation}
    (h : invoice.pay item = .ok paid) :
    item.amount ≤ invoice.amounts.totalAmount - invoice.paidAmount ∧ paid.id = invoice.id ∧
      paid.amounts = invoice.amounts ∧ paid.paidAmount = invoice.paidAmount + item.amount ∧
      paid.status = if invoice.amounts.totalAmount ≤ invoice.paidAmount + item.amount then .paid
        else .partiallyPaid := by
  unfold pay at h
  split at h
  next hle =>
    cases h
    exact ⟨hle, rfl, rfl, rfl, rfl⟩
  next => cases h

theorem payInvoices_pays {payload : PaymentCreate} {items : List PaymentAllocation}
    (hunique : (items.map PaymentAllocation.targetId).Nodup)
    (h : items.foldlM (payInvoice request payload) db = .ok db') :
    ∃ invoices, db' = { db with sales := { db.sales with invoices := invoices } } ∧
      PaysEach Invoice.pay Invoice.status items db.sales.invoices invoices := by
  induction items generalizing db with
  | nil =>
      cases h
      exact ⟨_, rfl, .nil _⟩
  | cons item items ih =>
      rw [List.map_cons, List.nodup_cons] at hunique
      rw [List.foldlM_cons] at h
      obtain ⟨db₁, hpass, h⟩ := bind_eq_ok.mp h
      obtain ⟨invoice, hfind, hpass⟩ := bind_eq_ok.mp hpass
      obtain ⟨_, -, hpass⟩ := bind_eq_ok.mp hpass
      obtain ⟨_, hstatus, hpass⟩ := bind_eq_ok.mp hpass
      obtain ⟨paid, hpay, hpass⟩ := bind_eq_ok.mp hpass
      obtain ⟨invoices₁, hreplace, rfl⟩ := saveInvoice_eq_ok hpass
      obtain ⟨invoices, rfl, hpays⟩ := ih hunique.2 h
      refine ⟨invoices, rfl, .cons hunique.1 (.single (findInvoice_eq_ok hfind)
        (requireStatus_eq_ok hstatus) hpay (Invoice.pay_within hpay).2.1 hreplace) hpays⟩

/-- The payment that a request records. -/
theorem newPayment_allocations {id : Uuid} {number : String} {counterparty : Counterparty}
    {branchId : Uuid} {method : PaymentMethod} {amount : Money} {hpos : 0 < amount}
    {paymentDate : Accounting.Date} {allocations : List PaymentAllocation} {payment : Payment}
    (h : newPayment id number counterparty branchId method amount hpos paymentDate allocations =
      .ok payment) : payment.counterparty = counterparty ∧ payment.allocations = allocations ∧
        payment.allocatedAmount = allocated allocations := by
  unfold newPayment at h
  split at h
  next =>
    split at h
    next =>
      cases h
      exact ⟨rfl, rfl, rfl⟩
    next => cases h
  next => cases h

/-- A payment that is not a replay pays what it names, and is recorded. -/
theorem recordPayment_pays {payload : PaymentCreate} {claim : Except Err (Option Uuid)}
    (h : recordPayment request db payload claim = .ok db') :
    (replayed claim db.sales.payments.get = true ∧ db' = db) ∨
      replayed claim db.sales.payments.get = false ∧
      ∃ payment invoices payments, payment.counterparty = .customer payload.customerId ∧
        payment.allocations = payload.allocations ∧
        payment.allocatedAmount = allocated payload.allocations ∧
        PaysEach Invoice.pay Invoice.status payload.allocations db.sales.invoices invoices ∧
        db.sales.payments.insert payment = some payments ∧
        db'.documents =
          ⟨{ db.sales with invoices := invoices, payments := payments }, db.purchasing⟩ := by
  obtain ⟨_, -, h⟩ := bind_eq_ok.mp h
  obtain ⟨stored, hclaim, h⟩ := bind_eq_ok.mp h
  cases hfound : stored.bind db.sales.payments.get with
  | some existing =>
    simp only [hfound] at h
    cases h
    refine .inl ⟨?_, rfl⟩
    simp only [replayed, hclaim, hfound, Option.isSome_some]
  | none =>
    simp only [hfound] at h
    obtain ⟨_, -, h⟩ := bind_eq_ok.mp h
    obtain ⟨payment, hpayment, h⟩ := bind_eq_ok.mp h
    obtain ⟨db₁, hloop, h⟩ := bind_eq_ok.mp h
    obtain ⟨payments, hinsert, h⟩ := bind_eq_ok.mp h
    obtain ⟨ledger, -, h⟩ := bind_eq_ok.mp h
    obtain ⟨register, -, h⟩ := bind_eq_ok.mp h
    cases h
    obtain ⟨hparty, hallocations, hallocated⟩ := newPayment_allocations hpayment
    have hperm : (sortedAllocations payload.allocations).Perm payload.allocations :=
      List.perm_insertionSort _ _
    have hunique := payment.unique_targets
    rw [hallocations] at hunique
    obtain ⟨invoices, rfl, hpays⟩ := payInvoices_pays ((hperm.map _).nodup_iff.mpr hunique) hloop
    refine .inr ⟨?_, payment, invoices, payments, hparty, hallocations, hallocated,
      hpays.perm hperm, orRaise_eq_ok.mp hinsert, rfl⟩
    simp only [replayed, hclaim, hfound, Option.isSome_none]

/-! ## Credit notes -/

/-- What payments and orders know of an invoice.  A credit note leaves it alone. -/
def Invoice.face (invoice : Invoice) :
    Uuid × Uuid × InvoiceStatus × Amounts × Money × List (Uuid × Quantity) :=
  (invoice.id, invoice.salesOrderId, invoice.status, invoice.amounts, invoice.paidAmount,
    invoice.lines.map fun line => (line.salesOrderLineId, line.quantity))

theorem Invoice.face_setLine {invoice : Invoice} {line : InvoiceLine} (hline : line ∈ invoice.lines)
    {item : RequestedLine} (h : item.quantity ≤ line.quantity - line.creditedQuantity) :
    (invoice.setLine (line.credit item h) (invoice.amounts_of_id hline h)).face = invoice.face := by
  have hlines : (invoice.lines.map fun l => if l.id = line.id then line.credit item h else l).map
      (fun l => (l.salesOrderLineId, l.quantity)) =
        invoice.lines.map fun l => (l.salesOrderLineId, l.quantity) := by
    rw [List.map_map]
    refine List.map_congr_left fun l hl => ?_
    by_cases hid : l.id = line.id
    · rw [List.inj_on_of_nodup_map invoice.unique_lines hl hline hid]
      simp only [Function.comp_apply, if_true]
      rfl
    · simp only [Function.comp_apply, if_neg hid]
  simp only [face, setLine]
  exact congrArg _ (congrArg _ (congrArg _ (congrArg _ (congrArg _ hlines))))

theorem creditLine_face {restocks : Option Uuid} {state state' : CreditState}
    {row : RequestedLine × Nat} (h : creditLine request restocks state row = .ok state') :
    state'.invoice.face = state.invoice.face := by
  obtain ⟨line, -, h⟩ := bind_eq_ok.mp h
  split at h
  next hle =>
    obtain ⟨priced, -, h⟩ := bind_eq_ok.mp h
    obtain ⟨⟨inventory, cost⟩, -, h⟩ := bind_eq_ok.mp h
    cases h
    exact Invoice.face_setLine line.2 hle
  next => cases h

end Nexora.Sales

namespace Nexora.Purchasing

open Nexora Nexora.Catalog Nexora.Sales Nexora.Tenant Foundations
open Nexora.Accounting (Money)

variable {request : Request} {db db' : TenantDb}

/-- What an accepted allocation makes of its bill. -/
theorem SupplierBill.pay_within {bill paid : SupplierBill} {item : PaymentAllocation}
    (h : bill.pay item = .ok paid) :
    item.amount ≤ bill.amounts.totalAmount - bill.paidAmount ∧ paid.id = bill.id ∧
      paid.amounts = bill.amounts ∧ paid.paidAmount = bill.paidAmount + item.amount ∧
      paid.status = if bill.amounts.totalAmount ≤ bill.paidAmount + item.amount then .paid
        else .partiallyPaid := by
  unfold pay at h
  split at h
  next hle =>
    cases h
    exact ⟨hle, rfl, rfl, rfl, rfl⟩
  next => cases h

theorem payBills_pays {payload : SupplierPaymentCreate} {items : List PaymentAllocation}
    (hunique : (items.map PaymentAllocation.targetId).Nodup)
    (h : items.foldlM (payBill request payload) db = .ok db') :
    ∃ bills, db' = { db with purchasing := { db.purchasing with bills := bills } } ∧
      PaysEach SupplierBill.pay SupplierBill.status items db.purchasing.bills bills := by
  induction items generalizing db with
  | nil =>
      cases h
      exact ⟨_, rfl, .nil _⟩
  | cons item items ih =>
      rw [List.map_cons, List.nodup_cons] at hunique
      rw [List.foldlM_cons] at h
      obtain ⟨db₁, hpass, h⟩ := bind_eq_ok.mp h
      obtain ⟨bill, hfind, hpass⟩ := bind_eq_ok.mp hpass
      obtain ⟨_, -, hpass⟩ := bind_eq_ok.mp hpass
      obtain ⟨_, hstatus, hpass⟩ := bind_eq_ok.mp hpass
      obtain ⟨paid, hpay, hpass⟩ := bind_eq_ok.mp hpass
      obtain ⟨bills₁, hreplace, rfl⟩ := saveBill_eq_ok hpass
      obtain ⟨bills, rfl, hpays⟩ := ih hunique.2 h
      refine ⟨bills, rfl, .cons hunique.1 (.single (findBill_eq_ok hfind)
        (requireStatus_eq_ok hstatus) hpay (SupplierBill.pay_within hpay).2.1 hreplace) hpays⟩

/-- A payment that is not a replay pays what it names, and is recorded. -/
theorem recordPayment_pays {payload : SupplierPaymentCreate} {claim : Except Err (Option Uuid)}
    (h : recordPayment request db payload claim = .ok db') :
    (replayed claim db.sales.payments.get = true ∧ db' = db) ∨
      replayed claim db.sales.payments.get = false ∧
      ∃ payment bills payments, payment.counterparty = .supplier payload.supplierId ∧
        payment.allocations = payload.allocations ∧
        payment.allocatedAmount = allocated payload.allocations ∧
        PaysEach SupplierBill.pay SupplierBill.status payload.allocations db.purchasing.bills bills ∧
        db.sales.payments.insert payment = some payments ∧
        db'.documents =
          ⟨{ db.sales with payments := payments }, { db.purchasing with bills := bills }⟩ := by
  obtain ⟨_, -, h⟩ := bind_eq_ok.mp h
  obtain ⟨stored, hclaim, h⟩ := bind_eq_ok.mp h
  cases hfound : stored.bind db.sales.payments.get with
  | some existing =>
    simp only [hfound] at h
    cases h
    refine .inl ⟨?_, rfl⟩
    simp only [replayed, hclaim, hfound, Option.isSome_some]
  | none =>
    simp only [hfound] at h
    obtain ⟨_, -, h⟩ := bind_eq_ok.mp h
    obtain ⟨payment, hpayment, h⟩ := bind_eq_ok.mp h
    obtain ⟨db₁, hloop, h⟩ := bind_eq_ok.mp h
    obtain ⟨payments, hinsert, h⟩ := bind_eq_ok.mp h
    obtain ⟨ledger, -, h⟩ := bind_eq_ok.mp h
    obtain ⟨register, -, h⟩ := bind_eq_ok.mp h
    cases h
    obtain ⟨hparty, hallocations, hallocated⟩ := newPayment_allocations hpayment
    have hperm : (sortedAllocations payload.allocations).Perm payload.allocations :=
      List.perm_insertionSort _ _
    have hunique := payment.unique_targets
    rw [hallocations] at hunique
    obtain ⟨bills, rfl, hpays⟩ := payBills_pays ((hperm.map _).nodup_iff.mpr hunique) hloop
    refine .inr ⟨?_, payment, bills, payments, hparty, hallocations, hallocated,
      hpays.perm hperm, orRaise_eq_ok.mp hinsert, rfl⟩
    simp only [replayed, hclaim, hfound, Option.isSome_none]

end Nexora.Purchasing

namespace Nexora.Tenant

open Nexora Nexora.Catalog Nexora.Sales Nexora.Purchasing Nexora.Pos Foundations
open Nexora.Accounting (Money)

variable {request : Request} {db db' : TenantDb}

/-! ## What a request writes -/

def Documents.withSales (docs : Documents) (sales : SalesDb) : Documents := { docs with sales := sales }

def Documents.withPurchasing (docs : Documents) (purchasing : PurchasingDb) : Documents :=
  { docs with purchasing := purchasing }

/-- A new order for sale. -/
structure NewSalesOrder (payload : SalesOrderCreate) (order : SalesOrder) : Prop where
  status : order.status = .draft
  length : order.lines.length = payload.lines.length
  unique : (order.lines.map SalesOrderLine.id).Nodup
  lines : ∀ line ∈ order.lines, line.fulfilledQuantity = 0 ∧ line.invoicedQuantity = 0

/-- A new order for purchase. -/
structure NewPurchaseOrder (payload : PurchaseOrderCreate) (order : PurchaseOrder) : Prop where
  status : order.status = .draft
  length : order.lines.length = payload.lines.length
  unique : (order.lines.map PurchaseOrderLine.id).Nodup
  lines : ∀ line ∈ order.lines, line.receivedQuantity = 0 ∧ line.billedQuantity = 0

/-- The request was answered before. -/
def Op.replays (docs : Documents) : Op → Bool
  | .issueInvoice _ claim => replayed claim docs.sales.invoices.get
  | .recordCustomerPayment _ claim => replayed claim docs.sales.payments.get
  | .recordSupplierPayment _ claim => replayed claim docs.sales.payments.get
  | _ => false

/-- The documents after a request that goes through and is no replay. -/
inductive Writes (request : Request) (docs : Documents) : Op → Documents → Prop
  | createSalesOrder {payload order orders} : NewSalesOrder payload order →
      docs.sales.orders.insert order = some orders →
      Writes request docs (.createSalesOrder payload)
        (docs.withSales { docs.sales with orders := orders })
  | confirmSalesOrder {id order orders} : docs.sales.orders.get id = some order →
      order.status = .draft →
      docs.sales.orders.replace order.id { order with status := .confirmed } = some orders →
      Writes request docs (.confirmSalesOrder id)
        (docs.withSales { docs.sales with orders := orders })
  | cancelSalesOrder {id order orders} : docs.sales.orders.get id = some order →
      order.status ≠ .cancelled → (∀ line ∈ order.lines, ¬0 < line.fulfilledQuantity) →
      docs.sales.orders.replace order.id { order with status := .cancelled } = some orders →
      Writes request docs (.cancelSalesOrder id)
        (docs.withSales { docs.sales with orders := orders })
  | fulfil {id lines order items inventory state orders number fulfillments} :
      docs.sales.orders.get id = some order → order.status ≠ .cancelled →
      order.requested lines = .ok items → items ≠ [] →
      order.lines.foldlM (fulfilLine order.warehouseId request.documentId items)
        ⟨inventory, 0, [], []⟩ = .ok state →
      docs.sales.orders.replace order.id
        { order with status := fulfilledStatus state.lines, lines := state.lines } = some orders →
      docs.sales.fulfillments.insert
        ⟨request.documentId, number, order.id, order.warehouseId, state.shipped⟩ =
          some fulfillments →
      Writes request docs (.fulfil id lines)
        (docs.withSales { docs.sales with orders := orders, fulfillments := fulfillments })
  | createInvoice {payload order state invoice orders invoices} :
      docs.sales.orders.get payload.salesOrderId = some order → order.status ≠ .cancelled →
      order.lines.zipIdx.foldlM (invoiceLine request payload.invoiceFulfilledOnly) ⟨[], []⟩ =
        .ok state →
      invoice.status = .draft → invoice.paidAmount = 0 → invoice.salesOrderId = order.id →
      invoice.lines = state.invoiced →
      docs.sales.orders.replace order.id { order with lines := state.lines } = some orders →
      docs.sales.invoices.insert invoice = some invoices →
      Writes request docs (.createInvoice payload)
        (docs.withSales { docs.sales with orders := orders, invoices := invoices })
  | issueInvoice {id claim invoice number invoices} : docs.sales.invoices.get id = some invoice →
      invoice.status = .draft →
      docs.sales.invoices.replace invoice.id
        { invoice with status := .issued, invoiceNumber := some number } = some invoices →
      Writes request docs (.issueInvoice id claim)
        (docs.withSales { docs.sales with invoices := invoices })
  | recordCustomerPayment {payload claim payment invoices payments} :
      payment.counterparty = .customer payload.customerId →
      payment.allocations = payload.allocations →
      payment.allocatedAmount = allocated payload.allocations →
      PaysEach Invoice.pay Invoice.status payload.allocations docs.sales.invoices invoices →
      docs.sales.payments.insert payment = some payments →
      Writes request docs (.recordCustomerPayment payload claim)
        (docs.withSales { docs.sales with invoices := invoices, payments := payments })
  | issueCreditNote {payload invoice credited invoices creditNotes} :
      docs.sales.invoices.get payload.invoiceId = some invoice →
      credited.face = invoice.face →
      docs.sales.invoices.replace invoice.id credited = some invoices →
      Writes request docs (.issueCreditNote payload)
        (docs.withSales { docs.sales with invoices := invoices, creditNotes := creditNotes })
  | createPurchaseOrder {payload order orders} : NewPurchaseOrder payload order →
      docs.purchasing.orders.insert order = some orders →
      Writes request docs (.createPurchaseOrder payload)
        (docs.withPurchasing { docs.purchasing with orders := orders })
  | confirmPurchaseOrder {id order orders} : docs.purchasing.orders.get id = some order →
      order.status = .draft →
      docs.purchasing.orders.replace order.id { order with status := .confirmed } = some orders →
      Writes request docs (.confirmPurchaseOrder id)
        (docs.withPurchasing { docs.purchasing with orders := orders })
  | cancelPurchaseOrder {id order orders} : docs.purchasing.orders.get id = some order →
      order.status ≠ .cancelled → (∀ line ∈ order.lines, ¬0 < line.receivedQuantity) →
      docs.purchasing.orders.replace order.id { order with status := .cancelled } = some orders →
      Writes request docs (.cancelPurchaseOrder id)
        (docs.withPurchasing { docs.purchasing with orders := orders })
  | receive {id lines order items inventory state orders number receipts} :
      docs.purchasing.orders.get id = some order → order.status ≠ .cancelled →
      order.requested lines = .ok items → items ≠ [] →
      order.lines.foldlM (receiveLine order.warehouseId request.documentId items)
        ⟨inventory, 0, [], []⟩ = .ok state →
      docs.purchasing.orders.replace order.id
        { order with status := receivedStatus state.lines, lines := state.lines } = some orders →
      docs.purchasing.receipts.insert
        ⟨request.documentId, number, order.id, order.warehouseId, state.received⟩ =
          some receipts →
      Writes request docs (.receive id lines)
        (docs.withPurchasing { docs.purchasing with orders := orders, receipts := receipts })
  | createBill {payload order state bill orders bills} :
      docs.purchasing.orders.get payload.purchaseOrderId = some order → order.status ≠ .cancelled →
      order.lines.foldlM (billLine payload.billReceivedOnly) ⟨[], []⟩ = .ok state →
      bill.status = .draft → bill.paidAmount = 0 → bill.purchaseOrderId = order.id →
      bill.lines = state.billed →
      docs.purchasing.orders.replace order.id { order with lines := state.lines } = some orders →
      docs.purchasing.bills.insert bill = some bills →
      Writes request docs (.createBill payload)
        (docs.withPurchasing { docs.purchasing with orders := orders, bills := bills })
  | issueBill {id bill number bills} : docs.purchasing.bills.get id = some bill →
      bill.status = .draft →
      docs.purchasing.bills.replace bill.id
        { bill with status := .issued, billNumber := some number } = some bills →
      Writes request docs (.issueBill id)
        (docs.withPurchasing { docs.purchasing with bills := bills })
  | recordSupplierPayment {payload claim payment bills payments} :
      payment.counterparty = .supplier payload.supplierId →
      payment.allocations = payload.allocations →
      payment.allocatedAmount = allocated payload.allocations →
      PaysEach SupplierBill.pay SupplierBill.status payload.allocations docs.purchasing.bills
        bills →
      docs.sales.payments.insert payment = some payments →
      Writes request docs (.recordSupplierPayment payload claim)
        ⟨{ docs.sales with payments := payments }, { docs.purchasing with bills := bills }⟩

/-! ## Requests of sales -/

theorem TenantDb.book_documents {entries : List Entry} {rows : List Vat.VatTransaction}
    (h : db.book request entries rows = .ok db') : db'.documents = db.documents := by
  obtain ⟨ledger, -, h⟩ := bind_eq_ok.mp h
  obtain ⟨register, -, h⟩ := bind_eq_ok.mp h
  cases h
  rfl

theorem not_cancelled {Status : Type} [DecidableEq Status] {value : Status → String}
    {actual cancelled : Status} {allowed : List Status} {what : String} {u : Unit}
    (h : requireStatus value actual allowed what = .ok u) (hnot : cancelled ∉ allowed) :
    actual ≠ cancelled :=
  fun heq => hnot (heq ▸ requireStatus_eq_ok h)

theorem newSalesOrderLines {priced : List PricedLine} {lines : List SalesOrderLine}
    (h : Sales.newOrderLines request priced = .ok lines) :
    lines.length = priced.length ∧ (lines.map SalesOrderLine.id).Nodup ∧
      ∀ line ∈ lines, line.fulfilledQuantity = 0 ∧ line.invoicedQuantity = 0 := by
  simp only [Sales.newOrderLines] at h
  split at h
  next hnodup =>
    cases h
    refine ⟨?_, hnodup, fun line hline => ?_⟩
    · rw [List.length_map, List.length_zipIdx, sortedLines, List.length_insertionSort]
    · obtain ⟨row, -, rfl⟩ := List.mem_map.mp hline
      exact ⟨rfl, rfl⟩
  next => cases h

theorem createSalesOrder_writes {payload : SalesOrderCreate}
    (h : Sales.createOrder request db payload = .ok db') :
    Writes request db.documents (.createSalesOrder payload) db'.documents := by
  obtain ⟨_, -, h⟩ := bind_eq_ok.mp h
  obtain ⟨_, -, h⟩ := bind_eq_ok.mp h
  obtain ⟨_, -, h⟩ := bind_eq_ok.mp h
  obtain ⟨priced, hpriced, h⟩ := bind_eq_ok.mp h
  obtain ⟨lines, hlines, h⟩ := bind_eq_ok.mp h
  obtain ⟨amounts, -, h⟩ := bind_eq_ok.mp h
  obtain ⟨orders, hinsert, h⟩ := bind_eq_ok.mp h
  cases h
  obtain ⟨hlength, hunique, hzero⟩ := newSalesOrderLines hlines
  exact .createSalesOrder
    ⟨rfl, hlength.trans (mapM_forall₂ hpriced).length_eq.symm, hunique, hzero⟩
    (orRaise_eq_ok.mp hinsert)

theorem confirmSalesOrder_writes {orderId : Uuid}
    (h : Sales.confirmOrder request db orderId = .ok db') :
    Writes request db.documents (.confirmSalesOrder orderId) db'.documents := by
  obtain ⟨order, hfind, h⟩ := bind_eq_ok.mp h
  obtain ⟨_, hstatus, h⟩ := bind_eq_ok.mp h
  obtain ⟨orders, hreplace, rfl⟩ := Sales.saveOrder_eq_ok h
  exact .confirmSalesOrder (Sales.findOrder_eq_ok hfind)
    (List.mem_singleton.mp (requireStatus_eq_ok hstatus)) hreplace

theorem cancelSalesOrder_writes {orderId : Uuid}
    (h : Sales.cancelOrder request db orderId = .ok db') :
    Writes request db.documents (.cancelSalesOrder orderId) db'.documents := by
  obtain ⟨order, hfind, h⟩ := bind_eq_ok.mp h
  obtain ⟨_, hstatus, h⟩ := bind_eq_ok.mp h
  obtain ⟨_, hunfulfilled, h⟩ := bind_eq_ok.mp h
  obtain ⟨orders, hreplace, rfl⟩ := Sales.saveOrder_eq_ok h
  obtain ⟨hnone, -⟩ := ite_error_eq_ok.mp hunfulfilled
  exact .cancelSalesOrder (Sales.findOrder_eq_ok hfind) (not_cancelled hstatus (by decide))
    (by simpa using hnone) hreplace

theorem fulfil_writes {orderId : Uuid} {lines : Option (List RequestedLine)}
    (h : Sales.fulfil request db orderId lines = .ok db') :
    Writes request db.documents (.fulfil orderId lines) db'.documents := by
  obtain ⟨order, hfind, h⟩ := bind_eq_ok.mp h
  obtain ⟨_, hstatus, h⟩ := bind_eq_ok.mp h
  obtain ⟨items, hitems, h⟩ := bind_eq_ok.mp h
  obtain ⟨_, hrequested, h⟩ := bind_eq_ok.mp h
  obtain ⟨state, hloop, h⟩ := bind_eq_ok.mp h
  obtain ⟨db₁, hsave, h⟩ := bind_eq_ok.mp h
  obtain ⟨orders, hreplace, rfl⟩ := Sales.saveOrder_eq_ok hsave
  obtain ⟨fulfillments, hinsert, h⟩ := bind_eq_ok.mp h
  obtain ⟨hne, -⟩ := ite_error_eq_ok.mp hrequested
  rw [TenantDb.book_documents h]
  exact .fulfil (Sales.findOrder_eq_ok hfind) (not_cancelled hstatus (by decide)) hitems
    (by simpa using hne) hloop hreplace (orRaise_eq_ok.mp hinsert)

theorem draftInvoice_fields {id : Uuid} {order : SalesOrder} {payload : InvoiceCreate}
    {lines : List InvoiceLine} {invoice : Invoice}
    (h : draftInvoice id order payload lines = .ok invoice) :
    invoice.status = .draft ∧ invoice.paidAmount = 0 ∧ invoice.salesOrderId = order.id ∧
      invoice.lines = lines := by
  unfold draftInvoice at h
  split at h
  next =>
    split at h
    next => cases h
    next =>
      cases h
      exact ⟨rfl, rfl, rfl, rfl⟩
  next => cases h

theorem createInvoice_writes {payload : InvoiceCreate}
    (h : Sales.createInvoice request db payload = .ok db') :
    Writes request db.documents (.createInvoice payload) db'.documents := by
  obtain ⟨order, hfind, h⟩ := bind_eq_ok.mp h
  obtain ⟨_, hstatus, h⟩ := bind_eq_ok.mp h
  obtain ⟨state, hloop, h⟩ := bind_eq_ok.mp h
  obtain ⟨_, -, h⟩ := bind_eq_ok.mp h
  obtain ⟨invoice, hdraft, h⟩ := bind_eq_ok.mp h
  obtain ⟨db₁, hsave, h⟩ := bind_eq_ok.mp h
  obtain ⟨orders, hreplace, rfl⟩ := Sales.saveOrder_eq_ok hsave
  obtain ⟨invoices, hinsert, h⟩ := bind_eq_ok.mp h
  cases h
  obtain ⟨hdraft, hpaid, horder, hlines⟩ := draftInvoice_fields hdraft
  exact .createInvoice (Sales.findOrder_eq_ok hfind) (not_cancelled hstatus (by decide)) hloop
    hdraft hpaid horder hlines hreplace (orRaise_eq_ok.mp hinsert)

theorem issueInvoice_writes {invoiceId : Uuid} {claim : Except Err (Option Uuid)}
    (h : Sales.issueInvoice request db invoiceId claim = .ok db') :
    replayed claim db.sales.invoices.get = true ∧ db' = db ∨
      replayed claim db.sales.invoices.get = false ∧
        Writes request db.documents (.issueInvoice invoiceId claim) db'.documents := by
  obtain ⟨stored, hclaim, h⟩ := bind_eq_ok.mp h
  cases hfound : stored.bind db.sales.invoices.get with
  | some existing =>
    simp only [hfound] at h
    obtain ⟨_, -, h⟩ := bind_eq_ok.mp h
    cases h
    refine .inl ⟨?_, rfl⟩
    simp only [replayed, hclaim, hfound, Option.isSome_some]
  | none =>
    simp only [hfound] at h
    obtain ⟨invoice, hfind, h⟩ := bind_eq_ok.mp h
    obtain ⟨_, hstatus, h⟩ := bind_eq_ok.mp h
    obtain ⟨db₁, hsave, h⟩ := bind_eq_ok.mp h
    obtain ⟨invoices, hreplace, rfl⟩ := saveInvoice_eq_ok hsave
    obtain ⟨rows, -, h⟩ := bind_eq_ok.mp h
    rw [TenantDb.book_documents h]
    refine .inr ⟨?_, .issueInvoice (findInvoice_eq_ok hfind)
      (List.mem_singleton.mp (requireStatus_eq_ok hstatus)) hreplace⟩
    simp only [replayed, hclaim, hfound, Option.isSome_none]

theorem recordCustomerPayment_writes {payload : PaymentCreate} {claim : Except Err (Option Uuid)}
    (h : Sales.recordPayment request db payload claim = .ok db') :
    replayed claim db.sales.payments.get = true ∧ db' = db ∨
      replayed claim db.sales.payments.get = false ∧
        Writes request db.documents (.recordCustomerPayment payload claim) db'.documents := by
  rcases Sales.recordPayment_pays h with hreplays |
    ⟨hfirst, payment, invoices, payments, hparty, hallocations, hallocated, hpays, hinsert, hdocs⟩
  · exact .inl hreplays
  · rw [hdocs]
    exact .inr ⟨hfirst, .recordCustomerPayment hparty hallocations hallocated hpays hinsert⟩

theorem issueCreditNote_writes {payload : CreditNoteCreate}
    (h : Sales.issueCreditNote request db payload = .ok db') :
    Writes request db.documents (.issueCreditNote payload) db'.documents := by
  obtain ⟨invoice, hfind, h⟩ := bind_eq_ok.mp h
  obtain ⟨_, -, h⟩ := bind_eq_ok.mp h
  obtain ⟨_, -, h⟩ := bind_eq_ok.mp h
  obtain ⟨_, -, h⟩ := bind_eq_ok.mp h
  obtain ⟨state, hloop, h⟩ := bind_eq_ok.mp h
  obtain ⟨db₁, hsave, h⟩ := bind_eq_ok.mp h
  obtain ⟨invoices, hreplace, rfl⟩ := saveInvoice_eq_ok hsave
  obtain ⟨note, -, h⟩ := bind_eq_ok.mp h
  obtain ⟨creditNotes, -, h⟩ := bind_eq_ok.mp h
  obtain ⟨rows, -, h⟩ := bind_eq_ok.mp h
  rw [TenantDb.book_documents h]
  have hface : state.invoice.face = invoice.face := foldlM_invariant
    (I := fun state : CreditState => state.invoice.face = invoice.face)
    (fun _ _ _ _ hstate hpass => (creditLine_face hpass).trans hstate) hloop rfl
  have hid : state.invoice.id = invoice.id := congrArg Prod.fst hface
  rw [hid] at hreplace
  exact .issueCreditNote (findInvoice_eq_ok hfind) hface hreplace

/-! ## Requests of purchasing -/

theorem createPurchaseOrder_writes {payload : PurchaseOrderCreate}
    (h : Purchasing.createOrder request db payload = .ok db') :
    Writes request db.documents (.createPurchaseOrder payload) db'.documents := by
  obtain ⟨_, -, h⟩ := bind_eq_ok.mp h
  obtain ⟨_, -, h⟩ := bind_eq_ok.mp h
  obtain ⟨_, -, h⟩ := bind_eq_ok.mp h
  obtain ⟨priced, hpriced, h⟩ := bind_eq_ok.mp h
  obtain ⟨lines, hlines, h⟩ := bind_eq_ok.mp h
  obtain ⟨amounts, -, h⟩ := bind_eq_ok.mp h
  obtain ⟨orders, hinsert, h⟩ := bind_eq_ok.mp h
  cases h
  obtain ⟨hunique, hzero⟩ := Purchasing.newOrderLines_eq_ok hlines
  have hlength : lines.length = priced.length := by
    simp only [Purchasing.newOrderLines] at hlines
    split at hlines
    next =>
      cases hlines
      rw [List.length_map, List.length_zipIdx, List.length_insertionSort]
    next => cases hlines
  exact .createPurchaseOrder
    ⟨rfl, hlength.trans (mapM_forall₂ hpriced).length_eq.symm, hunique, hzero⟩
    (orRaise_eq_ok.mp hinsert)

theorem confirmPurchaseOrder_writes {orderId : Uuid}
    (h : Purchasing.confirmOrder request db orderId = .ok db') :
    Writes request db.documents (.confirmPurchaseOrder orderId) db'.documents := by
  obtain ⟨order, hfind, h⟩ := bind_eq_ok.mp h
  obtain ⟨_, hstatus, h⟩ := bind_eq_ok.mp h
  obtain ⟨orders, hreplace, rfl⟩ := Purchasing.saveOrder_eq_ok h
  exact .confirmPurchaseOrder (Purchasing.findOrder_eq_ok hfind)
    (List.mem_singleton.mp (requireStatus_eq_ok hstatus)) hreplace

theorem cancelPurchaseOrder_writes {orderId : Uuid}
    (h : Purchasing.cancelOrder request db orderId = .ok db') :
    Writes request db.documents (.cancelPurchaseOrder orderId) db'.documents := by
  obtain ⟨order, hfind, h⟩ := bind_eq_ok.mp h
  obtain ⟨_, hstatus, h⟩ := bind_eq_ok.mp h
  obtain ⟨_, hunreceived, h⟩ := bind_eq_ok.mp h
  obtain ⟨orders, hreplace, rfl⟩ := Purchasing.saveOrder_eq_ok h
  obtain ⟨hnone, -⟩ := ite_error_eq_ok.mp hunreceived
  exact .cancelPurchaseOrder (Purchasing.findOrder_eq_ok hfind) (not_cancelled hstatus (by decide))
    (by simpa using hnone) hreplace

theorem receive_writes {orderId : Uuid} {lines : Option (List ReceiptLineInput)}
    (h : Purchasing.receive request db orderId lines = .ok db') :
    Writes request db.documents (.receive orderId lines) db'.documents := by
  obtain ⟨order, hfind, h⟩ := bind_eq_ok.mp h
  obtain ⟨_, hstatus, h⟩ := bind_eq_ok.mp h
  obtain ⟨items, hitems, h⟩ := bind_eq_ok.mp h
  obtain ⟨_, hrequested, h⟩ := bind_eq_ok.mp h
  obtain ⟨state, hloop, h⟩ := bind_eq_ok.mp h
  obtain ⟨db₁, hsave, h⟩ := bind_eq_ok.mp h
  obtain ⟨orders, hreplace, rfl⟩ := Purchasing.saveOrder_eq_ok hsave
  obtain ⟨receipts, hinsert, h⟩ := bind_eq_ok.mp h
  obtain ⟨hne, -⟩ := ite_error_eq_ok.mp hrequested
  rw [TenantDb.book_documents h]
  exact .receive (Purchasing.findOrder_eq_ok hfind) (not_cancelled hstatus (by decide)) hitems
    (by simpa using hne) hloop hreplace (orRaise_eq_ok.mp hinsert)

theorem draftBill_fields {id : Uuid} {order : PurchaseOrder} {payload : SupplierBillCreate}
    {lines : List SupplierBillLine} {bill : SupplierBill}
    (h : draftBill id order payload lines = .ok bill) :
    bill.status = .draft ∧ bill.paidAmount = 0 ∧ bill.purchaseOrderId = order.id ∧
      bill.lines = lines := by
  unfold draftBill at h
  split at h
  next => cases h
  next =>
    cases h
    exact ⟨rfl, rfl, rfl, rfl⟩

theorem createBill_writes {payload : SupplierBillCreate}
    (h : Purchasing.createBill request db payload = .ok db') :
    Writes request db.documents (.createBill payload) db'.documents := by
  obtain ⟨order, hfind, h⟩ := bind_eq_ok.mp h
  obtain ⟨_, hstatus, h⟩ := bind_eq_ok.mp h
  obtain ⟨state, hloop, h⟩ := bind_eq_ok.mp h
  obtain ⟨_, -, h⟩ := bind_eq_ok.mp h
  obtain ⟨bill, hdraft, h⟩ := bind_eq_ok.mp h
  obtain ⟨db₁, hsave, h⟩ := bind_eq_ok.mp h
  obtain ⟨orders, hreplace, rfl⟩ := Purchasing.saveOrder_eq_ok hsave
  obtain ⟨bills, hinsert, h⟩ := bind_eq_ok.mp h
  cases h
  obtain ⟨hdraft, hpaid, horder, hlines⟩ := draftBill_fields hdraft
  exact .createBill (Purchasing.findOrder_eq_ok hfind) (not_cancelled hstatus (by decide)) hloop
    hdraft hpaid horder hlines hreplace (orRaise_eq_ok.mp hinsert)

theorem issueBill_writes {billId : Uuid} (h : Purchasing.issueBill request db billId = .ok db') :
    Writes request db.documents (.issueBill billId) db'.documents := by
  obtain ⟨bill, hfind, h⟩ := bind_eq_ok.mp h
  obtain ⟨_, hstatus, h⟩ := bind_eq_ok.mp h
  obtain ⟨db₁, hsave, h⟩ := bind_eq_ok.mp h
  obtain ⟨bills, hreplace, rfl⟩ := saveBill_eq_ok hsave
  obtain ⟨rows, -, h⟩ := bind_eq_ok.mp h
  rw [TenantDb.book_documents h]
  exact .issueBill (findBill_eq_ok hfind) (List.mem_singleton.mp (requireStatus_eq_ok hstatus))
    hreplace

theorem recordSupplierPayment_writes {payload : SupplierPaymentCreate}
    {claim : Except Err (Option Uuid)}
    (h : Purchasing.recordPayment request db payload claim = .ok db') :
    replayed claim db.sales.payments.get = true ∧ db' = db ∨
      replayed claim db.sales.payments.get = false ∧
        Writes request db.documents (.recordSupplierPayment payload claim) db'.documents := by
  rcases Purchasing.recordPayment_pays h with hreplays |
    ⟨hfirst, payment, bills, payments, hparty, hallocations, hallocated, hpays, hinsert, hdocs⟩
  · exact .inl hreplays
  · rw [hdocs]
    exact .inr ⟨hfirst, .recordSupplierPayment hparty hallocations hallocated hpays hinsert⟩

/-- What the requests on documents write. -/
theorem Op.writes {op : Op} (hop : op.isDocument) (hok : op.body request db = .ok db') :
    op.replays db.documents = true ∧ db' = db ∨
      op.replays db.documents = false ∧ Writes request db.documents op db'.documents := by
  cases op with
  | createSalesOrder payload => exact .inr ⟨rfl, createSalesOrder_writes hok⟩
  | confirmSalesOrder id => exact .inr ⟨rfl, confirmSalesOrder_writes hok⟩
  | cancelSalesOrder id => exact .inr ⟨rfl, cancelSalesOrder_writes hok⟩
  | fulfil id lines => exact .inr ⟨rfl, fulfil_writes hok⟩
  | createInvoice payload => exact .inr ⟨rfl, createInvoice_writes hok⟩
  | issueInvoice id claim => exact issueInvoice_writes hok
  | recordCustomerPayment payload claim => exact recordCustomerPayment_writes hok
  | issueCreditNote payload => exact .inr ⟨rfl, issueCreditNote_writes hok⟩
  | createPurchaseOrder payload => exact .inr ⟨rfl, createPurchaseOrder_writes hok⟩
  | confirmPurchaseOrder id => exact .inr ⟨rfl, confirmPurchaseOrder_writes hok⟩
  | cancelPurchaseOrder id => exact .inr ⟨rfl, cancelPurchaseOrder_writes hok⟩
  | receive id lines => exact .inr ⟨rfl, receive_writes hok⟩
  | createBill payload => exact .inr ⟨rfl, createBill_writes hok⟩
  | issueBill id => exact .inr ⟨rfl, issueBill_writes hok⟩
  | recordSupplierPayment payload claim => exact recordSupplierPayment_writes hok
  | _ => cases hop

/-! ## Rows -/

/-- The rows that requests lock. -/
inductive DocumentRow where
  | salesOrder (id : Uuid)
  | invoice (id : Uuid)
  | purchaseOrder (id : Uuid)
  | supplierBill (id : Uuid)
deriving DecidableEq, Repr

/-- A row as a request has read it. -/
inductive ReadRow where
  | salesOrder (order : SalesOrder)
  | invoice (invoice : Invoice)
  | purchaseOrder (order : PurchaseOrder)
  | supplierBill (bill : SupplierBill)

def ReadRow.row : ReadRow → DocumentRow
  | .salesOrder order => .salesOrder order.id
  | .invoice doc => .invoice doc.id
  | .purchaseOrder order => .purchaseOrder order.id
  | .supplierBill bill => .supplierBill bill.id

def Documents.read (docs : Documents) : DocumentRow → Option ReadRow
  | .salesOrder id => (docs.sales.orders.get id).map .salesOrder
  | .invoice id => (docs.sales.invoices.get id).map .invoice
  | .purchaseOrder id => (docs.purchasing.orders.get id).map .purchaseOrder
  | .supplierBill id => (docs.purchasing.bills.get id).map .supplierBill

/-- The tables with a row as it was read. -/
def Documents.see (docs : Documents) : ReadRow → Documents
  | .salesOrder order =>
      let orders := (docs.sales.orders.replace order.id order).getD docs.sales.orders
      docs.withSales { docs.sales with orders := orders }
  | .invoice invoice =>
      let invoices := (docs.sales.invoices.replace invoice.id invoice).getD docs.sales.invoices
      docs.withSales { docs.sales with invoices := invoices }
  | .purchaseOrder order =>
      let orders := (docs.purchasing.orders.replace order.id order).getD docs.purchasing.orders
      docs.withPurchasing { docs.purchasing with orders := orders }
  | .supplierBill bill =>
      let bills := (docs.purchasing.bills.replace bill.id bill).getD docs.purchasing.bills
      docs.withPurchasing { docs.purchasing with bills := bills }

/-- The tables as a request sees them that has read some rows. -/
def Documents.seeAll (docs : Documents) (seen : List ReadRow) : Documents := seen.foldl see docs

/-- The rows that a request writes, in the order in which it locks them. -/
def Op.targets : Op → List DocumentRow
  | .confirmSalesOrder id | .cancelSalesOrder id | .fulfil id _ => [.salesOrder id]
  | .createInvoice payload => [.salesOrder payload.salesOrderId]
  | .issueInvoice id _ => [.invoice id]
  | .recordCustomerPayment payload _ =>
      (sortedAllocations payload.allocations).map fun item => .invoice item.targetId
  | .issueCreditNote payload => [.invoice payload.invoiceId]
  | .confirmPurchaseOrder id | .cancelPurchaseOrder id | .receive id _ => [.purchaseOrder id]
  | .createBill payload => [.purchaseOrder payload.purchaseOrderId]
  | .issueBill id => [.supplierBill id]
  | .recordSupplierPayment payload _ =>
      (sortedAllocations payload.allocations).map fun item => .supplierBill item.targetId
  | _ => []

/-- A replay locks nothing. -/
def Op.lockPlan (docs : Documents) (op : Op) : List DocumentRow :=
  if op.replays docs then [] else op.targets

theorem Documents.row_of_read {docs : Documents} {row : DocumentRow} {r : ReadRow}
    (h : docs.read row = some r) : r.row = row := by
  cases row with
  | salesOrder id =>
      obtain ⟨order, hget, rfl⟩ := Option.map_eq_some_iff.mp h
      exact congrArg DocumentRow.salesOrder (Table.get_mem hget).2
  | invoice id =>
      obtain ⟨invoice, hget, rfl⟩ := Option.map_eq_some_iff.mp h
      exact congrArg DocumentRow.invoice (Table.get_mem hget).2
  | purchaseOrder id =>
      obtain ⟨order, hget, rfl⟩ := Option.map_eq_some_iff.mp h
      exact congrArg DocumentRow.purchaseOrder (Table.get_mem hget).2
  | supplierBill id =>
      obtain ⟨bill, hget, rfl⟩ := Option.map_eq_some_iff.mp h
      exact congrArg DocumentRow.supplierBill (Table.get_mem hget).2

/-- Seeing a row that is still there changes nothing. -/
theorem Documents.see_eq {docs : Documents} {r : ReadRow} (h : docs.read r.row = some r) :
    docs.see r = docs := by
  cases r with
  | salesOrder order =>
      obtain ⟨_, hget, heq⟩ := Option.map_eq_some_iff.mp h
      cases heq
      simp only [see, Table.replace_self hget]
      rfl
  | invoice invoice =>
      obtain ⟨_, hget, heq⟩ := Option.map_eq_some_iff.mp h
      cases heq
      simp only [see, Table.replace_self hget]
      rfl
  | purchaseOrder order =>
      obtain ⟨_, hget, heq⟩ := Option.map_eq_some_iff.mp h
      cases heq
      simp only [see, Table.replace_self hget]
      rfl
  | supplierBill bill =>
      obtain ⟨_, hget, heq⟩ := Option.map_eq_some_iff.mp h
      cases heq
      simp only [see, Table.replace_self hget]
      rfl

theorem Documents.seeAll_eq {docs : Documents} {seen : List ReadRow}
    (h : ∀ r ∈ seen, docs.read r.row = some r) : docs.seeAll seen = docs := by
  induction seen with
  | nil => rfl
  | cons r seen ih =>
      rw [seeAll, List.foldl_cons, see_eq (h r List.mem_cons_self)]
      exact ih fun r' hr' => h r' (List.mem_cons_of_mem _ hr')

end Nexora.Tenant
