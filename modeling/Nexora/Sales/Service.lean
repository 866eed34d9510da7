import Nexora.Tenant.Database

/-!
# The sales service

`SalesService` of `app/modules/sales/service.py`: quotations, orders, fulfilments, invoices,
payments of customers and credit notes.

Each function takes the tables of the tenant and returns them, or raises.  A row is stored
where it is written, as in the inventory, so a request with several faults may report
another of them than the code does.
-/

namespace Nexora.Sales

open Nexora Nexora.Catalog Nexora.Tenant Foundations
open Nexora.Accounting (Money Date PostingLine money)
open Nexora.Accounting.PostingRules (cogsRecognition creditSale customerPayment salesReturn)
open Nexora.Inventory (InventoryDb DocumentKind)
open Nexora.Vat (TaxableEvent)

/-! ## Lines of new documents -/

/-- A line of a new quotation or order, once its product is found. -/
def priceLine (db : TenantDb) (line : LineInput) : Except Err PricedLine := do
  let _ ← orRaise .notFound (db.inventory.anyProduct line.productId)
  line.price

/-- Lines in the order of their products. -/
def sortedLines (lines : List PricedLine) : List PricedLine :=
  lines.insertionSort fun a b => a.productId ≤ b.productId

/-- A line of a new order. -/
def PricedLine.toOrderLine (line : PricedLine) (id : Uuid) : SalesOrderLine :=
  { line with
    id := id
    fulfilledQuantity := 0
    invoicedQuantity := 0
    fulfilled_within_ordered := ⟨le_rfl, line.quantity_pos.le⟩
    invoiced_within_ordered := ⟨le_rfl, line.quantity_pos.le⟩ }

/-- The lines of a new order, under their primary key. -/
def newOrderLines (request : Request) (lines : List PricedLine) :
    Except Err (List SalesOrderLine) :=
  let lines := (sortedLines lines).zipIdx.map fun row => row.1.toOrderLine (request.lineId row.2)
  if (lines.map SalesOrderLine.id).Nodup then .ok lines
  else .error (.integrity "pk_sales_order_lines")

/-! ## Quotations -/

/-- `QuotationCreate`. -/
structure QuotationCreate where
  customerId : Uuid
  branchId : Uuid
  lines : List LineInput

/-- `create_quotation`. -/
def createQuotation (request : Request) (db : TenantDb) (payload : QuotationCreate) :
    Except Err TenantDb := do
  request.env.context.requireBranch payload.branchId
  Pos.requireDistinct (payload.lines.map (·.productId))
    "A product may appear only once per quotation."
  requireRow "fk_quotations_customer_id" (db.parties.customer payload.customerId)
  let lines ← payload.lines.mapM (priceLine db)
  let amounts ← Amounts.total (lines.map (·.amounts))
  let (number, db) := db.allocate request .quotation
  let quotation : Quotation :=
    { id := request.documentId
      quotationNumber := number
      customerId := payload.customerId
      branchId := payload.branchId
      status := .draft
      amounts := amounts
      lines := sortedLines lines
      convertedOrderId := none }
  let quotations ← orRaise (.integrity "pk_quotations") (db.sales.quotations.insert quotation)
  .ok { db with sales := { db.sales with quotations := quotations } }

/-- `legal` of `set_quotation_status`.  A quotation is never set back to a draft. -/
def QuotationStatus.legal : QuotationStatus → List QuotationStatus
  | .draft => []
  | .sent => [.draft]
  | .accepted => [.sent]
  | .rejected => [.sent]
  | .expired => [.draft, .sent]

/-- `set_quotation_status`. -/
def setQuotationStatus (request : Request) (db : TenantDb) (quotationId : Uuid)
    (status : QuotationStatus) : Except Err TenantDb := do
  let quotation ← orRaise .notFound (db.sales.quotations.get quotationId)
  request.env.context.requireBranch quotation.branchId
  requireStatus QuotationStatus.value quotation.status status.legal s!"Marking {status.value}"
  let quotations ← orRaise (.integrity "pk_quotations")
    (db.sales.quotations.replace quotation.id { quotation with status := status })
  .ok { db with sales := { db.sales with quotations := quotations } }

/-- `QuotationConvert`. -/
structure QuotationConvert where
  warehouseId : Uuid
  orderDate : Date

def requireNotConverted (quotation : Quotation) : Except Err Unit :=
  if quotation.convertedOrderId.isNone then .ok ()
  else .error (.conflict "ALREADY_CONVERTED" "This quotation has already become an order.")

/-- `convert_quotation`. -/
def convertQuotation (request : Request) (db : TenantDb) (quotationId : Uuid)
    (payload : QuotationConvert) : Except Err TenantDb := do
  let quotation ← orRaise .notFound (db.sales.quotations.get quotationId)
  request.env.context.requireBranch quotation.branchId
  requireWarehouse request.env.context db quotation.branchId payload.warehouseId
  requireStatus QuotationStatus.value quotation.status [.accepted] "Conversion"
  requireNotConverted quotation
  let lines ← newOrderLines request quotation.lines
  let (number, db) := db.allocate request .salesOrder
  let order : SalesOrder :=
    { id := request.documentId
      orderNumber := number
      customerId := quotation.customerId
      branchId := quotation.branchId
      warehouseId := payload.warehouseId
      quotationId := some quotation.id
      status := .draft
      orderDate := payload.orderDate
      amounts := quotation.amounts
      lines := lines }
  let orders ← orRaise (.integrity "pk_sales_orders") (db.sales.orders.insert order)
  let quotations ← orRaise (.integrity "pk_quotations")
    (db.sales.quotations.replace quotation.id
      { quotation with convertedOrderId := some order.id })
  .ok { db with sales := { db.sales with orders := orders, quotations := quotations } }

/-! ## Orders -/

/-- `SalesOrderCreate`. -/
structure SalesOrderCreate where
  customerId : Uuid
  branchId : Uuid
  warehouseId : Uuid
  orderDate : Date
  lines : List LineInput

/-- `create_order`. -/
def createOrder (request : Request) (db : TenantDb) (payload : SalesOrderCreate) :
    Except Err TenantDb := do
  requireWarehouse request.env.context db payload.branchId payload.warehouseId
  Pos.requireDistinct (payload.lines.map (·.productId))
    "A product may appear only once per order."
  requireRow "fk_sales_orders_customer_id" (db.parties.customer payload.customerId)
  let priced ← payload.lines.mapM (priceLine db)
  let lines ← newOrderLines request priced
  let amounts ← Amounts.total (priced.map (·.amounts))
  let (number, db) := db.allocate request .salesOrder
  let order : SalesOrder :=
    { id := request.documentId
      orderNumber := number
      customerId := payload.customerId
      branchId := payload.branchId
      warehouseId := payload.warehouseId
      quotationId := none
      status := .draft
      orderDate := payload.orderDate
      amounts := amounts
      lines := lines }
  let orders ← orRaise (.integrity "pk_sales_orders") (db.sales.orders.insert order)
  .ok { db with sales := { db.sales with orders := orders } }

/-- The order of a request, on a branch of the caller. -/
def findOrder (request : Request) (db : TenantDb) (orderId : Uuid) : Except Err SalesOrder := do
  let order ← orRaise .notFound (db.sales.orders.get orderId)
  request.env.context.requireBranch order.branchId
  .ok order

/-- The row of an order is written back. -/
def saveOrder (db : TenantDb) (order : SalesOrder) : Except Err TenantDb := do
  let orders ← orRaise (.integrity "pk_sales_orders") (db.sales.orders.replace order.id order)
  .ok { db with sales := { db.sales with orders := orders } }

/-- `confirm_order`. -/
def confirmOrder (request : Request) (db : TenantDb) (orderId : Uuid) : Except Err TenantDb := do
  let order ← findOrder request db orderId
  requireStatus SalesOrderStatus.value order.status [.draft] "Confirmation"
  saveOrder db { order with status := .confirmed }

def requireUnfulfilled (order : SalesOrder) : Except Err Unit :=
  if order.lines.any fun line => 0 < line.fulfilledQuantity then
    .error (.conflict "ORDER_PARTIALLY_FULFILLED"
      "A partially fulfilled order cannot be cancelled; issue a credit note.")
  else .ok ()

/-- `cancel_order`. -/
def cancelOrder (request : Request) (db : TenantDb) (orderId : Uuid) : Except Err TenantDb := do
  let order ← findOrder request db orderId
  requireStatus SalesOrderStatus.value order.status [.draft, .confirmed, .partiallyFulfilled]
    "Cancellation"
  requireUnfulfilled order
  saveOrder db { order with status := .cancelled }

/-! ## Fulfilment -/

/-- What is still to ship of a line. -/
def SalesOrderLine.outstanding (line : SalesOrderLine) : Option RequestedLine :=
  if h : line.fulfilledQuantity < line.quantity then
    some
      { lineId := line.id
        quantity := line.quantity - line.fulfilledQuantity
        quantity_pos := Int.sub_pos.mpr h
        quantity_lt := (Int.sub_le_self _ line.fulfilled_within_ordered.1).trans_lt
          line.quantity_lt }
  else none

/-- `requested`: what the payload asks for, or everything outstanding. -/
def SalesOrder.requested (order : SalesOrder) :
    Option (List RequestedLine) → Except Err (List RequestedLine)
  | none => .ok (order.lines.filterMap SalesOrderLine.outstanding)
  | some items =>
      if items.all fun item => item.lineId ∈ order.lines.map SalesOrderLine.id then .ok items
      else .error .notFound

def requireRequested (items : List RequestedLine) (code message : String) : Except Err Unit :=
  if items.isEmpty then .error (.conflict code message) else .ok ()

/-- `requested[line.id]`.  The last item for a line counts. -/
def requestedFor (items : List RequestedLine) (lineId : Uuid) : Option RequestedLine :=
  items.reverse.find? (·.lineId = lineId)

/-- `line.fulfilled_quantity += quantity`. -/
def SalesOrderLine.fulfil (line : SalesOrderLine) (item : RequestedLine)
    (h : item.quantity ≤ line.quantity - line.fulfilledQuantity) : SalesOrderLine :=
  { line with
    fulfilledQuantity := line.fulfilledQuantity + item.quantity
    fulfilled_within_ordered :=
      ⟨add_nonneg line.fulfilled_within_ordered.1 item.quantity_pos.le, by
        rw [add_comm]
        exact le_sub_iff_add_le.mp h⟩ }

/-- Where the loop of `fulfil` stands. -/
structure FulfilState where
  inventory : InventoryDb
  cost : ℚ
  lines : List SalesOrderLine
  shipped : List FulfillmentLine

/-- One pass of the loop of `fulfil`.  Lines that are not requested stay as they are. -/
def fulfilLine (warehouseId fulfillmentId : Uuid) (items : List RequestedLine)
    (state : FulfilState) (line : SalesOrderLine) : Except Err FulfilState :=
  match requestedFor items line.id with
  | none => .ok { state with lines := state.lines ++ [line] }
  | some item =>
      if h : item.quantity ≤ line.quantity - line.fulfilledQuantity then do
        let product ← orRaise .notFound (state.inventory.anyProduct line.productId)
        let inventory ← postStock .fulfillment warehouseId fulfillmentId state.inventory product
          item none
        .ok
          { inventory := inventory
            cost :=
              if product.isStockTracked then addCost state.cost item.quantity product.costPrice
              else state.cost
            lines := state.lines ++ [line.fulfil item h]
            shipped := state.shipped ++
              [⟨line.id, line.productId, item.quantity, item.quantity_pos⟩] }
      else .error (.conflict "OVER_FULFILMENT"
        "Cannot fulfil more than the outstanding ordered quantity.")

/-- The status of an order after a fulfilment. -/
def fulfilledStatus (lines : List SalesOrderLine) : SalesOrderStatus :=
  if lines.all fun line => line.quantity ≤ line.fulfilledQuantity then .fulfilled
  else .partiallyFulfilled

/-- `_post_fulfillment`. -/
def fulfillmentEntries (request : Request) (number : String) (cost : ℚ) : List Entry :=
  if cost ≤ 0 then []
  else
    [{ entryDate := request.env.today
       description := "Fulfillment " ++ number
       sourceType := "fulfillment"
       sourceId := request.documentId
       eventType := "FULFILLMENT_COGS"
       lines := cogsRecognition cost }]

/-- `fulfil`. -/
def fulfil (request : Request) (db : TenantDb) (orderId : Uuid)
    (lines : Option (List RequestedLine)) : Except Err TenantDb := do
  let order ← findOrder request db orderId
  requireStatus SalesOrderStatus.value order.status [.confirmed, .partiallyFulfilled]
    "Fulfillment"
  let items ← order.requested lines
  requireRequested items "NOTHING_TO_FULFIL" "This order is already fulfilled."
  let state ← order.lines.foldlM (fulfilLine order.warehouseId request.documentId items)
    ⟨db.inventory, 0, [], []⟩
  let db := { db with inventory := state.inventory }
  let db ← saveOrder db
    { order with status := fulfilledStatus state.lines, lines := state.lines }
  let (number, db) := db.allocate request .fulfillment
  let fulfillments ← orRaise (.integrity "pk_fulfillments")
    (db.sales.fulfillments.insert
      ⟨request.documentId, number, order.id, order.warehouseId, state.shipped⟩)
  let db := { db with sales := { db.sales with fulfillments := fulfillments } }
  db.book request (fulfillmentEntries request number state.cost) []

/-! ## Invoices -/

/-- `InvoiceCreate`. -/
structure InvoiceCreate where
  salesOrderId : Uuid
  issueDate : Date
  dueDate : Option Date
  invoiceFulfilledOnly : Bool

/-- `ceiling - line.invoiced_quantity`. -/
def SalesOrderLine.toInvoice (line : SalesOrderLine) (fulfilledOnly : Bool) : Quantity :=
  (if fulfilledOnly then line.fulfilledQuantity else line.quantity) - line.invoicedQuantity

theorem SalesOrderLine.toInvoice_le (line : SalesOrderLine) (fulfilledOnly : Bool) :
    line.toInvoice fulfilledOnly ≤ line.quantity - line.invoicedQuantity := by
  cases fulfilledOnly with
  | false => exact le_rfl
  | true => exact sub_le_sub_right line.fulfilled_within_ordered.2 _

/-- The part of a line that goes on the invoice. -/
def SalesOrderLine.invoicePart (line : SalesOrderLine) (fulfilledOnly : Bool)
    (h : 0 < line.toInvoice fulfilledOnly) : LineInput :=
  { line.toLineInput with
    quantity := line.toInvoice fulfilledOnly
    quantity_pos := h
    quantity_lt := (line.toInvoice_le fulfilledOnly).trans_lt
      ((Int.sub_le_self _ line.invoiced_within_ordered.1).trans_lt line.quantity_lt) }

/-- `line.invoiced_quantity += quantity`. -/
def SalesOrderLine.invoice (line : SalesOrderLine) (fulfilledOnly : Bool)
    (h : 0 < line.toInvoice fulfilledOnly) : SalesOrderLine :=
  { line with
    invoicedQuantity := line.invoicedQuantity + line.toInvoice fulfilledOnly
    invoiced_within_ordered :=
      ⟨add_nonneg line.invoiced_within_ordered.1 h.le, by
        rw [add_comm]
        exact le_sub_iff_add_le.mp (line.toInvoice_le fulfilledOnly)⟩ }

/-- Where the loop of `create_invoice` stands. -/
structure InvoiceState where
  lines : List SalesOrderLine
  invoiced : List InvoiceLine

/-- One pass of the loop of `create_invoice`. -/
def invoiceLine (request : Request) (fulfilledOnly : Bool) (state : InvoiceState)
    (row : SalesOrderLine × Nat) : Except Err InvoiceState :=
  if h : 0 < row.1.toInvoice fulfilledOnly then do
    let priced ← (row.1.invoicePart fulfilledOnly h).price
    let line : InvoiceLine :=
      { priced with
        id := request.lineId row.2
        salesOrderLineId := row.1.id
        creditedQuantity := 0
        credited_within_invoiced := ⟨le_rfl, priced.quantity_pos.le⟩ }
    .ok ⟨state.lines ++ [row.1.invoice fulfilledOnly h], state.invoiced ++ [line]⟩
  else .ok { state with lines := state.lines ++ [row.1] }

def requireInvoiced (lines : List InvoiceLine) : Except Err Unit :=
  if lines.isEmpty then
    .error (.conflict "NOTHING_TO_INVOICE"
      "There is nothing outstanding to invoice on this order.")
  else .ok ()

/-- The draft with its lines and totals. -/
def draftInvoice (id : Uuid) (order : SalesOrder) (payload : InvoiceCreate)
    (lines : List InvoiceLine) : Except Err Invoice :=
  if hunique : (lines.map InvoiceLine.id).Nodup then
    match htotals : Amounts.total (lines.map (·.amounts)) with
    | .error e => .error e
    | .ok amounts =>
        .ok
          { id := id
            invoiceNumber := none
            customerId := order.customerId
            branchId := order.branchId
            salesOrderId := order.id
            status := .draft
            issueDate := payload.issueDate
            dueDate := payload.dueDate
            amounts := amounts
            paidAmount := 0
            lines := lines
            paid_within_total := amounts.nothing_paid
            unique_lines := hunique
            totals_eq := htotals }
  else .error (.integrity "pk_invoice_lines")

/-- `create_invoice`. -/
def createInvoice (request : Request) (db : TenantDb) (payload : InvoiceCreate) :
    Except Err TenantDb := do
  let order ← findOrder request db payload.salesOrderId
  requireStatus SalesOrderStatus.value order.status [.confirmed, .partiallyFulfilled, .fulfilled]
    "Invoicing"
  let state ← order.lines.zipIdx.foldlM (invoiceLine request payload.invoiceFulfilledOnly) ⟨[], []⟩
  requireInvoiced state.invoiced
  let invoice ← draftInvoice request.documentId order payload state.invoiced
  let db ← saveOrder db { order with lines := state.lines }
  let invoices ← orRaise (.integrity "pk_invoices") (db.sales.invoices.insert invoice)
  .ok { db with sales := { db.sales with invoices := invoices } }

/-- The invoice of a request, on a branch of the caller. -/
def findInvoice (request : Request) (db : TenantDb) (invoiceId : Uuid) : Except Err Invoice := do
  let invoice ← orRaise .notFound (db.sales.invoices.get invoiceId)
  request.env.context.requireBranch invoice.branchId
  .ok invoice

/-- The row of an invoice is written back. -/
def saveInvoice (db : TenantDb) (invoice : Invoice) : Except Err TenantDb := do
  let invoices ← orRaise (.integrity "pk_invoices")
    (db.sales.invoices.replace invoice.id invoice)
  .ok { db with sales := { db.sales with invoices := invoices } }

/-- `_post_invoice`. -/
def Invoice.entries (invoice : Invoice) (number : String) : List Entry :=
  if invoice.amounts.totalAmount ≤ 0 then []
  else
    [{ entryDate := invoice.issueDate
       description := "Invoice " ++ number
       sourceType := "invoice"
       sourceId := invoice.id
       eventType := "INVOICE_ISSUED"
       lines := creditSale (money invoice.amounts.netAmount)
         (money invoice.amounts.taxAmount) }]

/-- `_record_vat_for_invoice`. -/
def Invoice.taxableEvent (invoice : Invoice) : TaxableEvent :=
  { direction := .output
    occurredOn := invoice.issueDate
    sourceType := "invoice"
    sourceId := invoice.id
    isReversal := false }

/-- `issue_invoice`.  `claim` is the answer of the idempotency service: the document of a
request that was made before, if there is one. -/
def issueInvoice (request : Request) (db : TenantDb) (invoiceId : Uuid)
    (claim : Except Err (Option Uuid)) : Except Err TenantDb := do
  let stored ← claim
  match stored.bind db.sales.invoices.get with
  | some existing => do
      request.env.context.requireBranch existing.branchId
      .ok db
  | none => do
      let invoice ← findInvoice request db invoiceId
      requireStatus InvoiceStatus.value invoice.status [.draft] "Issuing"
      let (number, db) := db.allocate request .invoice
      let db ← saveInvoice db { invoice with status := .issued, invoiceNumber := some number }
      let rows ← invoice.taxableEvent.recordLines request.vatId
        (invoice.lines.map (·.taxable))
      db.book request (invoice.entries number) rows

/-! ## Payments -/

/-- `PaymentCreate`, with the bounds of its schema. -/
structure PaymentCreate where
  customerId : Uuid
  branchId : Uuid
  method : PaymentMethod
  amount : Money
  paymentDate : Date
  allocations : List PaymentAllocation
  amount_positive : 0 < amount
  amount_lt : amount < 10 ^ 18

/-- The sum of the allocations. -/
def allocated (allocations : List PaymentAllocation) : Money :=
  (allocations.map PaymentAllocation.amount).sum

theorem allocated_nonneg (allocations : List PaymentAllocation) : 0 ≤ allocated allocations :=
  List.sum_nonneg (by simpa using fun a _ => a.amount_positive.le)

/-- A payment with its allocations, under the unique constraint of the allocations. -/
def newPayment (id : Uuid) (number : String) (counterparty : Counterparty) (branchId : Uuid)
    (method : PaymentMethod) (amount : Money) (amount_positive : 0 < amount) (paymentDate : Date)
    (allocations : List PaymentAllocation) : Except Err Payment :=
  if hwithin : allocated allocations ≤ amount then
    if hunique : (allocations.map PaymentAllocation.targetId).Nodup then
      .ok
        { id := id
          paymentNumber := number
          counterparty := counterparty
          branchId := branchId
          method := method
          amount := amount
          allocatedAmount := allocated allocations
          paymentDate := paymentDate
          allocations := allocations
          amount_positive := amount_positive
          allocated_within_amount := ⟨allocated_nonneg allocations, hwithin⟩
          unique_targets := hunique }
    else .error (.integrity "uq_payment_allocations")
  else .error (.domainValidation "OVER_ALLOCATION" "Allocations exceed the payment amount.")

/-- `invoice.paid_amount += item.amount`, with the status that follows. -/
def Invoice.pay (invoice : Invoice) (item : PaymentAllocation) : Except Err Invoice :=
  if h : item.amount ≤ invoice.amounts.totalAmount - invoice.paidAmount then
    .ok { invoice with
      paidAmount := invoice.paidAmount + item.amount
      status :=
        if invoice.amounts.totalAmount ≤ invoice.paidAmount + item.amount then .paid
        else .partiallyPaid
      paid_within_total :=
        ⟨add_nonneg invoice.paid_within_total.1 item.amount_positive.le, by
          rw [add_comm]
          exact le_sub_iff_add_le.mp h⟩ }
  else .error (.conflict "OVER_ALLOCATION"
    "Allocation exceeds the invoice's outstanding balance.")

def requireSameParty (same : Bool) (message : String) : Except Err Unit :=
  if same then .ok () else .error (.domainValidation "ALLOCATION_TARGET_MISMATCH" message)

/-- One pass of the loop of `record_payment`. -/
def payInvoice (request : Request) (payload : PaymentCreate) (db : TenantDb)
    (item : PaymentAllocation) : Except Err TenantDb := do
  let invoice ← findInvoice request db item.targetId
  requireSameParty (invoice.customerId = payload.customerId ∧ invoice.branchId = payload.branchId)
    "Payment allocations must match the payment customer and branch."
  requireStatus InvoiceStatus.value invoice.status [.issued, .partiallyPaid] "Allocation"
  let paid ← invoice.pay item
  saveInvoice db paid

/-- The allocations in the order in which their documents are locked. -/
def sortedAllocations (allocations : List PaymentAllocation) : List PaymentAllocation :=
  allocations.insertionSort fun a b => a.targetId ≤ b.targetId

/-- `_post_payment`.  The amount of a payment is positive. -/
def Payment.entries (payment : Payment) (description eventType : String)
    (lines : List PostingLine) : List Entry :=
  [{ entryDate := payment.paymentDate
     description := description ++ payment.paymentNumber
     sourceType := "payment"
     sourceId := payment.id
     eventType := eventType
     lines := lines }]

/-- `record_payment`.  A key is optional, and without one the claim finds nothing. -/
def recordPayment (request : Request) (db : TenantDb) (payload : PaymentCreate)
    (claim : Except Err (Option Uuid)) : Except Err TenantDb := do
  request.env.context.requireBranch payload.branchId
  let stored ← claim
  match stored.bind db.sales.payments.get with
  | some _ => .ok db
  | none => do
      requireRow "fk_payments_customer_id" (db.parties.customer payload.customerId)
      let (number, db) := db.allocate request .salesPayment
      let payment ← newPayment request.documentId number (.customer payload.customerId)
        payload.branchId payload.method payload.amount payload.amount_positive
        payload.paymentDate payload.allocations
      let db ← (sortedAllocations payload.allocations).foldlM (payInvoice request payload) db
      let payments ← orRaise (.integrity "pk_payments") (db.sales.payments.insert payment)
      let db := { db with sales := { db.sales with payments := payments } }
      db.book request
        (payment.entries "Customer payment " "CUSTOMER_PAYMENT"
          (customerPayment (money payload.amount) (payload.method = .cash))) []

/-! ## Credit notes -/

/-- `CreditNoteCreate`. -/
structure CreditNoteCreate where
  invoiceId : Uuid
  issueDate : Date
  restock : Bool
  warehouseId : Option Uuid
  lines : List RequestedLine

def requireRestockWarehouse (payload : CreditNoteCreate) : Except Err Unit :=
  if payload.restock ∧ payload.warehouseId.isNone then
    .error (.domainValidation "WAREHOUSE_REQUIRED" "A restocking credit note needs a warehouse.")
  else .ok ()

/-- `payload.restock and payload.warehouse_id is not None`. -/
def CreditNoteCreate.restocks (payload : CreditNoteCreate) : Option Uuid :=
  if payload.restock then payload.warehouseId else none

/-- `line.credited_quantity += item.quantity`. -/
def InvoiceLine.credit (line : InvoiceLine) (item : RequestedLine)
    (h : item.quantity ≤ line.quantity - line.creditedQuantity) : InvoiceLine :=
  { line with
    creditedQuantity := line.creditedQuantity + item.quantity
    credited_within_invoiced :=
      ⟨add_nonneg line.credited_within_invoiced.1 item.quantity_pos.le, by
        rw [add_comm]
        exact le_sub_iff_add_le.mp h⟩ }

/-- The invoice with one line put in the place of the line with its identifier. -/
def Invoice.setLine (invoice : Invoice) (new : InvoiceLine)
    (hamounts : ∀ line ∈ invoice.lines, line.id = new.id → new.amounts = line.amounts) : Invoice :=
  { invoice with
    lines := invoice.lines.map fun line => if line.id = new.id then new else line
    unique_lines := by
      have hids : (invoice.lines.map fun line => if line.id = new.id then new else line).map
          InvoiceLine.id = invoice.lines.map InvoiceLine.id := by
        rw [List.map_map]
        refine List.map_congr_left fun line _ => ?_
        by_cases hid : line.id = new.id
        · simp [hid]
        · simp [hid]
      rw [hids]
      exact invoice.unique_lines
    totals_eq := by
      have hsame : (invoice.lines.map fun line => if line.id = new.id then new else line).map
          (·.amounts) = invoice.lines.map (·.amounts) := by
        rw [List.map_map]
        refine List.map_congr_left fun line hline => ?_
        by_cases hid : line.id = new.id
        · simp [hid, hamounts line hline hid]
        · simp [hid]
      rw [hsame]
      exact invoice.totals_eq }

/-- The line of an invoice with an identifier. -/
def Invoice.line (invoice : Invoice) (lineId : Uuid) :
    Option { line : InvoiceLine // line ∈ invoice.lines } :=
  invoice.lines.attach.find? (·.1.id = lineId)

theorem Invoice.amounts_of_id (invoice : Invoice) {line : InvoiceLine} (hline : line ∈ invoice.lines)
    {item : RequestedLine} (h : item.quantity ≤ line.quantity - line.creditedQuantity) :
    ∀ other ∈ invoice.lines, other.id = (line.credit item h).id →
      (line.credit item h).amounts = other.amounts := by
  intro other hother hid
  have hsame := List.inj_on_of_nodup_map invoice.unique_lines hother hline hid
  rw [hsame]
  rfl

/-- The credited part of a line. -/
def InvoiceLine.creditPart (line : InvoiceLine) (item : RequestedLine) : LineInput :=
  { line.toLineInput with
    quantity := item.quantity
    quantity_pos := item.quantity_pos
    quantity_lt := item.quantity_lt }

/-- Where the loop of `issue_credit_note` stands. -/
structure CreditState where
  invoice : Invoice
  inventory : InventoryDb
  cost : ℚ
  lines : List CreditNoteLine

/-- The stock of a credited line comes back at the current cost. -/
def restockLine (noteId : Uuid) (restocks : Option Uuid) (state : CreditState)
    (productId : Uuid) (item : RequestedLine) : Except Err (InventoryDb × ℚ) :=
  match restocks with
  | none => .ok (state.inventory, state.cost)
  | some warehouseId => do
      let product ← orRaise .notFound (state.inventory.anyProduct productId)
      let inventory ← postStock .creditNote warehouseId noteId state.inventory product item none
      .ok (inventory,
        if product.isStockTracked then addCost state.cost item.quantity product.costPrice
        else state.cost)

/-- One pass of the loop of `issue_credit_note`. -/
def creditLine (request : Request) (restocks : Option Uuid) (state : CreditState)
    (row : RequestedLine × Nat) : Except Err CreditState := do
  let line ← orRaise .notFound (state.invoice.line row.1.lineId)
  if h : row.1.quantity ≤ line.1.quantity - line.1.creditedQuantity then
    let priced ← (line.1.creditPart row.1).price
    let (inventory, cost) ← restockLine request.documentId restocks state line.1.productId row.1
    .ok
      { invoice := state.invoice.setLine (line.1.credit row.1 h)
          (state.invoice.amounts_of_id line.2 h)
        inventory := inventory
        cost := cost
        lines := state.lines ++
          [{ priced with id := request.lineId row.2, invoiceLineId := line.1.id }] }
  else .error (.conflict "OVER_CREDIT" "Cannot credit more than the invoiced quantity.")

/-- The note with its lines and totals. -/
def newCreditNote (id : Uuid) (number : String) (payload : CreditNoteCreate) (invoice : Invoice)
    (lines : List CreditNoteLine) : Except Err CreditNote :=
  match htotals : Amounts.total (lines.map (·.amounts)) with
  | .error e => .error e
  | .ok amounts =>
      .ok
        { id := id
          creditNoteNumber := number
          invoiceId := invoice.id
          customerId := invoice.customerId
          branchId := invoice.branchId
          issueDate := payload.issueDate
          restock := payload.restock
          warehouseId := payload.warehouseId
          amounts := amounts
          lines := lines
          totals_eq := htotals }

/-- `_post_credit_note`: the revenue and the cost. -/
def CreditNote.entries (note : CreditNote) (cost : ℚ) : List Entry :=
  let (revenueLines, costLines) := salesReturn (money note.amounts.netAmount)
    (money note.amounts.taxAmount) cost
  (if 0 < note.amounts.totalAmount then
    [{ entryDate := note.issueDate
       description := "Credit note " ++ note.creditNoteNumber
       sourceType := "credit_note"
       sourceId := note.id
       eventType := "CREDIT_NOTE_REVENUE"
       lines := revenueLines }]
  else []) ++
  costLines.toList.map fun lines =>
    { entryDate := note.issueDate
      description := "Credit note COGS reversal " ++ note.creditNoteNumber
      sourceType := "credit_note"
      sourceId := note.id
      eventType := "CREDIT_NOTE_COGS"
      lines := lines }

/-- `_record_vat_for_credit_note`. -/
def CreditNote.taxableEvent (note : CreditNote) : TaxableEvent :=
  { direction := .output
    occurredOn := note.issueDate
    sourceType := "credit_note"
    sourceId := note.id
    isReversal := true }

/-- The warehouse of a credit note, where there is one. -/
def requireNoteWarehouse (request : Request) (db : TenantDb) (branchId : Uuid) :
    Option Uuid → Except Err Unit
  | none => .ok ()
  | some warehouseId => requireWarehouse request.env.context db branchId warehouseId

/-- The items in the order in which their lines are locked. -/
def sortedItems (items : List RequestedLine) : List RequestedLine :=
  items.insertionSort fun a b => a.lineId ≤ b.lineId

/-- `issue_credit_note`. -/
def issueCreditNote (request : Request) (db : TenantDb) (payload : CreditNoteCreate) :
    Except Err TenantDb := do
  let invoice ← findInvoice request db payload.invoiceId
  requireStatus InvoiceStatus.value invoice.status [.issued, .partiallyPaid, .paid] "Crediting"
  requireRestockWarehouse payload
  requireNoteWarehouse request db invoice.branchId payload.warehouseId
  let state ← (sortedItems payload.lines).zipIdx.foldlM (creditLine request payload.restocks)
    ⟨invoice, db.inventory, 0, []⟩
  let db := { db with inventory := state.inventory }
  let db ← saveInvoice db state.invoice
  let (number, db) := db.allocate request .creditNote
  let note ← newCreditNote request.documentId number payload invoice state.lines
  let creditNotes ← orRaise (.integrity "pk_credit_notes") (db.sales.creditNotes.insert note)
  let rows ← note.taxableEvent.recordLines request.vatId (note.lines.map (·.taxable))
  let db := { db with sales := { db.sales with creditNotes := creditNotes } }
  db.book request (note.entries state.cost) rows

end Nexora.Sales
