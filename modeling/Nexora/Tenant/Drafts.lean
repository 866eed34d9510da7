import Nexora.Tenant.Operations

/-!
# What a document asks the books to take

A service that posts does so at its end: its checks, its stock and its own rows come first.
`Draft` is where it stands then, with the entries and the register rows that it has built, and
`Op.body_eq` says that each of these requests is its draft and then `TenantDb.book`.
-/

namespace Nexora.Tenant

open Nexora Nexora.Catalog Nexora.Sales Nexora.Purchasing Nexora.Pos Foundations
open Nexora.Accounting (money)
open Nexora.Accounting.PostingRules (customerPayment supplierPayment)
open Nexora.Vat (VatTransaction)

/-- A document before its entries are posted: the tables so far, and what is left to book. -/
structure Draft where
  tables : TenantDb
  entries : List Entry
  rows : List VatTransaction

def Draft.book (request : Request) (draft : Draft) : Except Err TenantDb :=
  draft.tables.book request draft.entries draft.rows

/-- A request that was made before builds nothing. -/
def Draft.replayed (db : TenantDb) : Draft := ⟨db, [], []⟩

theorem Draft.book_replayed (request : Request) (db : TenantDb) :
    (Draft.replayed db).book request = .ok db := rfl

/-- `fulfil` before `_post_fulfillment`. -/
def fulfilDraft (request : Request) (db : TenantDb) (orderId : Uuid)
    (lines : Option (List RequestedLine)) : Except Err Draft := do
  let order ← Sales.findOrder request db orderId
  requireStatus SalesOrderStatus.value order.status [.confirmed, .partiallyFulfilled]
    "Fulfillment"
  let items ← order.requested lines
  Sales.requireRequested items "NOTHING_TO_FULFIL" "This order is already fulfilled."
  let state ← order.lines.foldlM (fulfilLine order.warehouseId request.documentId items)
    ⟨db.inventory, 0, [], []⟩
  let db := { db with inventory := state.inventory }
  let db ← Sales.saveOrder db
    { order with status := fulfilledStatus state.lines, lines := state.lines }
  let (number, db) := db.allocate request .fulfillment
  let fulfillments ← orRaise (.integrity "pk_fulfillments")
    (db.sales.fulfillments.insert
      ⟨request.documentId, number, order.id, order.warehouseId, state.shipped⟩)
  .ok ⟨{ db with sales := { db.sales with fulfillments := fulfillments } },
    fulfillmentEntries request number state.cost, []⟩

theorem fulfil_eq (request : Request) (db : TenantDb) (orderId : Uuid)
    (lines : Option (List RequestedLine)) :
    fulfil request db orderId lines = fulfilDraft request db orderId lines >>= Draft.book request := by
  simp only [fulfil, fulfilDraft, bind_assoc]
  rfl

/-- `issue_invoice` before `_post_invoice`. -/
def issueInvoiceDraft (request : Request) (db : TenantDb) (invoiceId : Uuid)
    (claim : Except Err (Option Uuid)) : Except Err Draft := do
  let stored ← claim
  match stored.bind db.sales.invoices.get with
  | some existing => do
      request.env.context.requireBranch existing.branchId
      .ok (.replayed db)
  | none => do
      let invoice ← findInvoice request db invoiceId
      requireStatus InvoiceStatus.value invoice.status [.draft] "Issuing"
      let (number, db) := db.allocate request .invoice
      let db ← saveInvoice db { invoice with status := .issued, invoiceNumber := some number }
      let rows ← invoice.taxableEvent.recordLines request.vatId (invoice.lines.map (·.taxable))
      .ok ⟨db, invoice.entries number, rows⟩

theorem issueInvoice_eq (request : Request) (db : TenantDb) (invoiceId : Uuid)
    (claim : Except Err (Option Uuid)) :
    issueInvoice request db invoiceId claim =
      issueInvoiceDraft request db invoiceId claim >>= Draft.book request := by
  simp only [issueInvoice, issueInvoiceDraft, bind_assoc]
  refine bind_congr fun stored => ?_
  cases stored.bind db.sales.invoices.get with
  | some existing =>
      simp only [bind_assoc]
      rfl
  | none =>
      simp only [bind_assoc]
      rfl

/-- `record_payment` of a customer before `_post_payment`. -/
def customerPaymentDraft (request : Request) (db : TenantDb) (payload : PaymentCreate)
    (claim : Except Err (Option Uuid)) : Except Err Draft := do
  request.env.context.requireBranch payload.branchId
  let stored ← claim
  match stored.bind db.sales.payments.get with
  | some _ => .ok (.replayed db)
  | none => do
      requireRow "fk_payments_customer_id" (db.parties.customer payload.customerId)
      let (number, db) := db.allocate request .salesPayment
      let payment ← newPayment request.documentId number (.customer payload.customerId)
        payload.branchId payload.method payload.amount payload.amount_positive
        payload.paymentDate payload.allocations
      let db ← (sortedAllocations payload.allocations).foldlM (payInvoice request payload) db
      let payments ← orRaise (.integrity "pk_payments") (db.sales.payments.insert payment)
      .ok ⟨{ db with sales := { db.sales with payments := payments } },
        payment.entries "Customer payment " "CUSTOMER_PAYMENT"
          (customerPayment (money payload.amount) (payload.method = .cash)), []⟩

theorem customerPayment_eq (request : Request) (db : TenantDb) (payload : PaymentCreate)
    (claim : Except Err (Option Uuid)) :
    Sales.recordPayment request db payload claim =
      customerPaymentDraft request db payload claim >>= Draft.book request := by
  simp only [Sales.recordPayment, customerPaymentDraft, bind_assoc]
  refine bind_congr fun _ => bind_congr fun stored => ?_
  cases stored.bind db.sales.payments.get with
  | some payment => rfl
  | none =>
      simp only [bind_assoc]
      rfl

/-- `receive` before `_post_goods_receipt`. -/
def receiveDraft (request : Request) (db : TenantDb) (orderId : Uuid)
    (lines : Option (List ReceiptLineInput)) : Except Err Draft := do
  let order ← Purchasing.findOrder request db orderId
  requireStatus PurchaseOrderStatus.value order.status [.confirmed, .partiallyReceived]
    "Receiving"
  let items ← order.requested lines
  Purchasing.requireRequested items
  let state ← order.lines.foldlM (receiveLine order.warehouseId request.documentId items)
    ⟨db.inventory, 0, [], []⟩
  let db := { db with inventory := state.inventory }
  let db ← Purchasing.saveOrder db
    { order with status := receivedStatus state.lines, lines := state.lines }
  let (number, db) := db.allocate request .goodsReceipt
  let receipts ← orRaise (.integrity "pk_goods_receipts")
    (db.purchasing.receipts.insert
      ⟨request.documentId, number, order.id, order.warehouseId, state.received⟩)
  .ok ⟨{ db with purchasing := { db.purchasing with receipts := receipts } },
    receiptEntries request number state.cost, []⟩

theorem receive_eq (request : Request) (db : TenantDb) (orderId : Uuid)
    (lines : Option (List ReceiptLineInput)) :
    receive request db orderId lines =
      receiveDraft request db orderId lines >>= Draft.book request := by
  simp only [receive, receiveDraft, bind_assoc]
  rfl

/-- `issue_bill` before `_post_bill`. -/
def issueBillDraft (request : Request) (db : TenantDb) (billId : Uuid) : Except Err Draft := do
  let bill ← findBill request db billId
  requireStatus InvoiceStatus.value bill.status [.draft] "Issuing"
  let (number, db) := db.allocate request .supplierBill
  let db ← saveBill db { bill with status := .issued, billNumber := some number }
  let rows ← bill.taxableEvent.recordLines request.vatId (bill.lines.map (·.taxable))
  .ok ⟨db, bill.entries number, rows⟩

theorem issueBill_eq (request : Request) (db : TenantDb) (billId : Uuid) :
    issueBill request db billId = issueBillDraft request db billId >>= Draft.book request := by
  simp only [issueBill, issueBillDraft, bind_assoc]
  rfl

/-- `record_payment` of a supplier before `_post_payment`. -/
def supplierPaymentDraft (request : Request) (db : TenantDb) (payload : SupplierPaymentCreate)
    (claim : Except Err (Option Uuid)) : Except Err Draft := do
  request.env.context.requireBranch payload.branchId
  let stored ← claim
  match stored.bind db.sales.payments.get with
  | some _ => .ok (.replayed db)
  | none => do
      requireRow "fk_payments_supplier_id" (db.parties.supplier payload.supplierId)
      let (number, db) := db.allocate request .purchasePayment
      let payment ← newPayment request.documentId number (.supplier payload.supplierId)
        payload.branchId payload.method payload.amount payload.amount_positive
        payload.paymentDate payload.allocations
      let db ← (sortedAllocations payload.allocations).foldlM (payBill request payload) db
      let payments ← orRaise (.integrity "pk_payments") (db.sales.payments.insert payment)
      .ok ⟨{ db with sales := { db.sales with payments := payments } },
        payment.entries "Supplier payment " "SUPPLIER_PAYMENT"
          (supplierPayment (money payload.amount) (payload.method = .cash)), []⟩

theorem supplierPayment_eq (request : Request) (db : TenantDb) (payload : SupplierPaymentCreate)
    (claim : Except Err (Option Uuid)) :
    Purchasing.recordPayment request db payload claim =
      supplierPaymentDraft request db payload claim >>= Draft.book request := by
  simp only [Purchasing.recordPayment, supplierPaymentDraft, bind_assoc]
  refine bind_congr fun _ => bind_congr fun stored => ?_
  cases stored.bind db.sales.payments.get with
  | some payment => rfl
  | none =>
      simp only [bind_assoc]
      rfl

/-- `checkout` before `_post_sale`. -/
def checkoutDraft (request : Request) (db : TenantDb) (payload : CheckoutCreate)
    (claim : Except Err (Option Uuid)) : Except Err Draft := do
  let stored ← claim
  match stored.bind db.pos.sales.get with
  | some existing => do
      request.env.context.requireBranch existing.branchId
      .ok (.replayed db)
  | none => do
      let (session, terminal) ← requireSession request db payload.sessionId
      requireCustomer db payload.customerId
      let sale ← (tillOf request db).checkout payload.lines payload.payments
      storeCostAmount sale.costAmount
      let inventory ← (payload.lines.insertionSort fun a b => a.productId ≤ b.productId).foldlM
        (sellStock terminal.warehouseId request.documentId) db.inventory
      let db := { db with inventory := inventory }
      let (number, db) := db.allocate request .posSale
      let row : SaleRow :=
        { id := request.documentId
          saleNumber := number
          sessionId := session.id
          terminalId := terminal.id
          branchId := terminal.branchId
          warehouseId := terminal.warehouseId
          customerId := payload.customerId
          cashierMembershipId := request.env.context.membershipId
          occurredOn := request.env.today
          sale := sale
          payments := payload.payments }
      let sales ← orRaise (.integrity "pk_sales") (db.pos.sales.insert row)
      let rows ← row.taxableEvent.recordLines request.vatId (sale.lines.map (·.taxable))
      .ok ⟨{ db with pos := { db.pos with sales := sales } }, row.entries, rows⟩

theorem checkout_eq (request : Request) (db : TenantDb) (payload : CheckoutCreate)
    (claim : Except Err (Option Uuid)) :
    checkout request db payload claim =
      checkoutDraft request db payload claim >>= Draft.book request := by
  simp only [checkout, checkoutDraft, bind_assoc]
  refine bind_congr fun stored => ?_
  cases stored.bind db.pos.sales.get with
  | some existing =>
      simp only [bind_assoc]
      rfl
  | none =>
      simp only [bind_assoc]
      rfl

/-- `refund` before `_post_refund`. -/
def refundDraft (request : Request) (db : TenantDb) (payload : RefundCreate)
    (claim : Except Err (Option Uuid)) : Except Err Draft := do
  let stored ← claim
  match stored.bind db.pos.returns.get with
  | some _ => .ok (.replayed db)
  | none => do
      let (session, terminal) ← requireSession request db payload.sessionId
      let row ← orRaise .notFound (db.pos.sales.get payload.saleId)
      request.env.context.requireBranch row.branchId
      requireSaleBranch row terminal
      let items := payload.sorted row.sale.lines
      requireDistinct (payload.lines.map (·.lineId)) "A sale line may appear only once."
      requireLines row.sale.lines (payload.lines.map refundLineOf)
      let state ← (items.map refundLineOf).foldlM
        (refundItem db.inventory.product nothingElsewhere) ⟨row.sale.lines, 0, ⟨0, 0, 0, []⟩⟩
      let sale ← row.sale.storeRefund state
      storeMoney "amount" state.total
      let inventory ← items.foldlM
        (returnStock row.warehouseId request.documentId row.sale.lines) db.inventory
      let db := { db with inventory := inventory }
      let (number, db) := db.allocate request .posReturn
      let saleReturn : SaleReturn :=
        { id := request.documentId
          returnNumber := number
          saleId := row.id
          sessionId := session.id
          processedByMembershipId := request.env.context.membershipId
          amount := state.total
          occurredOn := request.env.today
          lines := items.map fun item => (item.lineId, item.quantity) }
      let returns ← orRaise (.integrity "pk_sale_returns") (db.pos.returns.insert saleReturn)
      let sales ← orRaise (.integrity "pk_sales")
        (db.pos.sales.replace row.id { row with sale := sale })
      let rows ← saleReturn.taxableEvent.recordLines request.vatId state.booking.rateLines
      .ok ⟨{ db with pos := { db.pos with sales := sales, returns := returns } },
        saleReturn.entries state.booking, rows⟩

theorem refund_eq (request : Request) (db : TenantDb) (payload : RefundCreate)
    (claim : Except Err (Option Uuid)) :
    Pos.refund request db payload claim =
      refundDraft request db payload claim >>= Draft.book request := by
  simp only [Pos.refund, refundDraft, bind_assoc]
  refine bind_congr fun stored => ?_
  cases stored.bind db.pos.returns.get with
  | some existing => rfl
  | none =>
      simp only [bind_assoc]
      rfl

/-! ## Requests -/

/-- The draft of a request for a document that posts. -/
def Op.draft (request : Request) (db : TenantDb) : Op → Option (Except Err Draft)
  | .fulfil id lines => some (fulfilDraft request db id lines)
  | .issueInvoice id claim => some (issueInvoiceDraft request db id claim)
  | .recordCustomerPayment payload claim => some (customerPaymentDraft request db payload claim)
  | .receive id lines => some (receiveDraft request db id lines)
  | .issueBill id => some (issueBillDraft request db id)
  | .recordSupplierPayment payload claim => some (supplierPaymentDraft request db payload claim)
  | .checkout payload claim => some (checkoutDraft request db payload claim)
  | .refund payload claim => some (refundDraft request db payload claim)
  | _ => none

/-- The draft of a request whose own checks pass. -/
def Op.drafted (request : Request) (db : TenantDb) (op : Op) : Option Draft :=
  match op.draft request db with
  | some (.ok draft) => some draft
  | _ => none

theorem Op.drafted_eq_some {request : Request} {db : TenantDb} {op : Op} {draft : Draft} :
    op.drafted request db = some draft ↔ op.draft request db = some (.ok draft) := by
  unfold Op.drafted
  split
  next other h => simp [h]
  next hnone =>
    refine iff_of_false nofun fun h => hnone draft h

theorem Op.body_eq {request : Request} {db : TenantDb} {op : Op} {draft : Except Err Draft}
    (h : op.draft request db = some draft) :
    op.body request db = draft >>= Draft.book request := by
  cases op with
  | fulfil id lines =>
      cases h
      exact fulfil_eq request db id lines
  | issueInvoice id claim =>
      cases h
      exact issueInvoice_eq request db id claim
  | recordCustomerPayment payload claim =>
      cases h
      exact customerPayment_eq request db payload claim
  | receive id lines =>
      cases h
      exact receive_eq request db id lines
  | issueBill id =>
      cases h
      exact issueBill_eq request db id
  | recordSupplierPayment payload claim =>
      cases h
      exact supplierPayment_eq request db payload claim
  | checkout payload claim =>
      cases h
      exact checkout_eq request db payload claim
  | refund payload claim =>
      cases h
      exact refund_eq request db payload claim
  | _ => cases h

end Nexora.Tenant
