import Nexora.Sales.Service

/-!
# The purchasing service

`PurchasingService` of `app/modules/purchasing/service.py`: orders, goods receipts, supplier
bills and payments to suppliers.  A receipt is the one document that carries a cost into the
stock, and it need not be the cost on the order.
-/

namespace Nexora.Purchasing

open Nexora Nexora.Catalog Nexora.Sales Nexora.Tenant Foundations
open Nexora.Accounting (Money Date PostingLine money)
open Nexora.Accounting.PostingRules (goodsReceipt supplierBill supplierPayment)
open Nexora.Inventory (InventoryDb DocumentKind)
open Nexora.Vat (TaxableEvent)

/-! ## Orders -/

/-- A line of a new order, once its product is found. -/
def priceLine (db : TenantDb) (line : PurchaseLineInput) : Except Err CostedLine := do
  let _ ← orRaise .notFound (db.inventory.anyProduct line.productId)
  line.price

/-- A line of a new order. -/
def CostedLine.toOrderLine (line : CostedLine) (id : Uuid) : PurchaseOrderLine :=
  { line with
    id := id
    receivedQuantity := 0
    billedQuantity := 0
    received_within_ordered := ⟨le_rfl, line.quantity_pos.le⟩
    billed_within_ordered := ⟨le_rfl, line.quantity_pos.le⟩ }

/-- The lines of a new order, in the order of their products and under their primary key. -/
def newOrderLines (request : Request) (lines : List CostedLine) :
    Except Err (List PurchaseOrderLine) :=
  let lines := (lines.insertionSort fun a b => a.productId ≤ b.productId).zipIdx.map fun row =>
    row.1.toOrderLine (request.lineId row.2)
  if (lines.map PurchaseOrderLine.id).Nodup then .ok lines
  else .error (.integrity "pk_purchase_order_lines")

/-- `PurchaseOrderCreate`. -/
structure PurchaseOrderCreate where
  supplierId : Uuid
  branchId : Uuid
  warehouseId : Uuid
  orderDate : Date
  lines : List PurchaseLineInput

/-- `create_order`. -/
def createOrder (request : Request) (db : TenantDb) (payload : PurchaseOrderCreate) :
    Except Err TenantDb := do
  requireWarehouse request.env.context db payload.branchId payload.warehouseId
  Pos.requireDistinct (payload.lines.map (·.productId))
    "A product may appear only once per order."
  requireRow "fk_purchase_orders_supplier_id" (db.parties.supplier payload.supplierId)
  let priced ← payload.lines.mapM (priceLine db)
  let lines ← newOrderLines request priced
  let amounts ← Amounts.total (priced.map (·.amounts))
  let (number, db) := db.allocate request .purchaseOrder
  let order : PurchaseOrder :=
    { id := request.documentId
      orderNumber := number
      supplierId := payload.supplierId
      branchId := payload.branchId
      warehouseId := payload.warehouseId
      status := .draft
      orderDate := payload.orderDate
      amounts := amounts
      lines := lines }
  let orders ← orRaise (.integrity "pk_purchase_orders") (db.purchasing.orders.insert order)
  .ok { db with purchasing := { db.purchasing with orders := orders } }

/-- The order of a request, on a branch of the caller. -/
def findOrder (request : Request) (db : TenantDb) (orderId : Uuid) :
    Except Err PurchaseOrder := do
  let order ← orRaise .notFound (db.purchasing.orders.get orderId)
  request.env.context.requireBranch order.branchId
  .ok order

/-- The row of an order is written back. -/
def saveOrder (db : TenantDb) (order : PurchaseOrder) : Except Err TenantDb := do
  let orders ← orRaise (.integrity "pk_purchase_orders")
    (db.purchasing.orders.replace order.id order)
  .ok { db with purchasing := { db.purchasing with orders := orders } }

/-- `confirm_order`. -/
def confirmOrder (request : Request) (db : TenantDb) (orderId : Uuid) : Except Err TenantDb := do
  let order ← findOrder request db orderId
  requireStatus PurchaseOrderStatus.value order.status [.draft] "Confirmation"
  saveOrder db { order with status := .confirmed }

def requireUnreceived (order : PurchaseOrder) : Except Err Unit :=
  if order.lines.any fun line => 0 < line.receivedQuantity then
    .error (.conflict "ORDER_PARTIALLY_RECEIVED"
      "A partially received order cannot be cancelled; adjust stock instead.")
  else .ok ()

/-- `cancel_order`. -/
def cancelOrder (request : Request) (db : TenantDb) (orderId : Uuid) : Except Err TenantDb := do
  let order ← findOrder request db orderId
  requireStatus PurchaseOrderStatus.value order.status [.draft, .confirmed, .partiallyReceived]
    "Cancellation"
  requireUnreceived order
  saveOrder db { order with status := .cancelled }

/-! ## Goods receipts -/

/-- `ReceiptLineInput`: a quantity, and a cost in place of the one on the order. -/
structure ReceiptLineInput extends RequestedLine where
  unitCost : Option UnitCost
  unitCost_range : ∀ cost ∈ unitCost, 0 ≤ cost ∧ cost < 10 ^ 18

/-- What is still to receive of a line, at the cost on the order. -/
def PurchaseOrderLine.outstanding (line : PurchaseOrderLine) : Option ReceiptLineInput :=
  if h : line.receivedQuantity < line.quantity then
    some
      { lineId := line.id
        quantity := line.quantity - line.receivedQuantity
        quantity_pos := Int.sub_pos.mpr h
        quantity_lt := (Int.sub_le_self _ line.received_within_ordered.1).trans_lt
          line.quantity_lt
        unitCost := none
        unitCost_range := nofun }
  else none

/-- `requested`: what the payload names, or everything outstanding. -/
def PurchaseOrder.requested (order : PurchaseOrder) :
    Option (List ReceiptLineInput) → Except Err (List ReceiptLineInput)
  | none => .ok (order.lines.filterMap PurchaseOrderLine.outstanding)
  | some items =>
      if items.all fun item => item.lineId ∈ order.lines.map PurchaseOrderLine.id then .ok items
      else .error .notFound

def requireRequested (items : List ReceiptLineInput) : Except Err Unit :=
  if items.isEmpty then
    .error (.conflict "NOTHING_TO_RECEIVE" "This order is already received.")
  else .ok ()

/-- `requested[line.id]`.  The last item for a line counts. -/
def requestedFor (items : List ReceiptLineInput) (lineId : Uuid) : Option ReceiptLineInput :=
  items.reverse.find? (·.lineId = lineId)

/-- `override if override is not None else line.unit_cost`. -/
def ReceiptLineInput.costOf (item : ReceiptLineInput) (line : PurchaseOrderLine) : UnitCost :=
  item.unitCost.getD line.unitCost

theorem ReceiptLineInput.costOf_nonneg (item : ReceiptLineInput) (line : PurchaseOrderLine) :
    0 ≤ item.costOf line := by
  cases h : item.unitCost with
  | none => simpa [costOf, h] using line.unitCost_range.1
  | some cost => simpa [costOf, h] using (item.unitCost_range cost h).1

/-- `line.received_quantity += quantity`. -/
def PurchaseOrderLine.receive (line : PurchaseOrderLine) (item : ReceiptLineInput)
    (h : item.quantity ≤ line.quantity - line.receivedQuantity) : PurchaseOrderLine :=
  { line with
    receivedQuantity := line.receivedQuantity + item.quantity
    received_within_ordered :=
      ⟨add_nonneg line.received_within_ordered.1 item.quantity_pos.le, by
        rw [add_comm]
        exact le_sub_iff_add_le.mp h⟩ }

/-- Where the loop of `receive` stands. -/
structure ReceiveState where
  inventory : InventoryDb
  cost : ℚ
  lines : List PurchaseOrderLine
  received : List GoodsReceiptLine

/-- One pass of the loop of `receive`.  Lines that are not requested stay as they are. -/
def receiveLine (warehouseId receiptId : Uuid) (items : List ReceiptLineInput)
    (state : ReceiveState) (line : PurchaseOrderLine) : Except Err ReceiveState :=
  match requestedFor items line.id with
  | none => .ok { state with lines := state.lines ++ [line] }
  | some item =>
      if h : item.quantity ≤ line.quantity - line.receivedQuantity then do
        let product ← orRaise .notFound (state.inventory.anyProduct line.productId)
        let inventory ← postStock .goodsReceipt warehouseId receiptId state.inventory product
          item.toRequestedLine (some (item.costOf line))
        .ok
          { inventory := inventory
            cost :=
              if product.isStockTracked then addCost state.cost item.quantity (item.costOf line)
              else state.cost
            lines := state.lines ++ [line.receive item h]
            received := state.received ++
              [⟨line.id, line.productId, item.quantity, item.costOf line, item.quantity_pos,
                item.costOf_nonneg line⟩] }
      else .error (.conflict "OVER_RECEIPT" "Cannot receive more than the outstanding quantity.")

/-- The status of an order after a receipt. -/
def receivedStatus (lines : List PurchaseOrderLine) : PurchaseOrderStatus :=
  if lines.all fun line => line.quantity ≤ line.receivedQuantity then .received
  else .partiallyReceived

/-- `_post_goods_receipt`, where there is a cost. -/
def receiptEntries (request : Request) (number : String) (cost : ℚ) : List Entry :=
  if 0 < cost then
    [{ entryDate := request.env.today
       description := "Goods receipt " ++ number
       sourceType := "goods_receipt"
       sourceId := request.documentId
       eventType := "GOODS_RECEIPT"
       lines := goodsReceipt cost }]
  else []

/-- `receive`. -/
def receive (request : Request) (db : TenantDb) (orderId : Uuid)
    (lines : Option (List ReceiptLineInput)) : Except Err TenantDb := do
  let order ← findOrder request db orderId
  requireStatus PurchaseOrderStatus.value order.status [.confirmed, .partiallyReceived]
    "Receiving"
  let items ← order.requested lines
  requireRequested items
  let state ← order.lines.foldlM (receiveLine order.warehouseId request.documentId items)
    ⟨db.inventory, 0, [], []⟩
  let db := { db with inventory := state.inventory }
  let db ← saveOrder db { order with status := receivedStatus state.lines, lines := state.lines }
  let (number, db) := db.allocate request .goodsReceipt
  let receipts ← orRaise (.integrity "pk_goods_receipts")
    (db.purchasing.receipts.insert
      ⟨request.documentId, number, order.id, order.warehouseId, state.received⟩)
  let db := { db with purchasing := { db.purchasing with receipts := receipts } }
  db.book request (receiptEntries request number state.cost) []

/-! ## Bills -/

/-- `SupplierBillCreate`. -/
structure SupplierBillCreate where
  purchaseOrderId : Uuid
  issueDate : Date
  dueDate : Option Date
  billReceivedOnly : Bool

/-- `ceiling - line.billed_quantity`. -/
def PurchaseOrderLine.toBill (line : PurchaseOrderLine) (receivedOnly : Bool) : Quantity :=
  (if receivedOnly then line.receivedQuantity else line.quantity) - line.billedQuantity

theorem PurchaseOrderLine.toBill_le (line : PurchaseOrderLine) (receivedOnly : Bool) :
    line.toBill receivedOnly ≤ line.quantity - line.billedQuantity := by
  cases receivedOnly with
  | false => exact le_rfl
  | true => exact sub_le_sub_right line.received_within_ordered.2 _

/-- The part of a line that goes on the bill. -/
def PurchaseOrderLine.billPart (line : PurchaseOrderLine) (receivedOnly : Bool)
    (h : 0 < line.toBill receivedOnly) : PurchaseLineInput :=
  { line.toPurchaseLineInput with
    quantity := line.toBill receivedOnly
    quantity_pos := h
    quantity_lt := (line.toBill_le receivedOnly).trans_lt
      ((Int.sub_le_self _ line.billed_within_ordered.1).trans_lt line.quantity_lt) }

/-- `line.billed_quantity += quantity`. -/
def PurchaseOrderLine.bill (line : PurchaseOrderLine) (receivedOnly : Bool)
    (h : 0 < line.toBill receivedOnly) : PurchaseOrderLine :=
  { line with
    billedQuantity := line.billedQuantity + line.toBill receivedOnly
    billed_within_ordered :=
      ⟨add_nonneg line.billed_within_ordered.1 h.le, by
        rw [add_comm]
        exact le_sub_iff_add_le.mp (line.toBill_le receivedOnly)⟩ }

/-- Where the loop of `create_bill` stands. -/
structure BillState where
  lines : List PurchaseOrderLine
  billed : List SupplierBillLine

/-- One pass of the loop of `create_bill`. -/
def billLine (receivedOnly : Bool) (state : BillState) (line : PurchaseOrderLine) :
    Except Err BillState :=
  if h : 0 < line.toBill receivedOnly then do
    let priced ← (line.billPart receivedOnly h).price
    .ok ⟨state.lines ++ [line.bill receivedOnly h], state.billed ++ [⟨priced, line.id⟩]⟩
  else .ok { state with lines := state.lines ++ [line] }

def requireBilled (lines : List SupplierBillLine) : Except Err Unit :=
  if lines.isEmpty then
    .error (.conflict "NOTHING_TO_BILL" "There is nothing outstanding to bill on this order.")
  else .ok ()

/-- The draft with its lines and totals. -/
def draftBill (id : Uuid) (order : PurchaseOrder) (payload : SupplierBillCreate)
    (lines : List SupplierBillLine) : Except Err SupplierBill :=
  match htotals : Amounts.total (lines.map (·.amounts)) with
  | .error e => .error e
  | .ok amounts =>
      .ok
        { id := id
          billNumber := none
          supplierId := order.supplierId
          branchId := order.branchId
          purchaseOrderId := order.id
          status := .draft
          issueDate := payload.issueDate
          dueDate := payload.dueDate
          amounts := amounts
          paidAmount := 0
          lines := lines
          paid_within_total := amounts.nothing_paid
          totals_eq := htotals }

/-- `create_bill`. -/
def createBill (request : Request) (db : TenantDb) (payload : SupplierBillCreate) :
    Except Err TenantDb := do
  let order ← findOrder request db payload.purchaseOrderId
  requireStatus PurchaseOrderStatus.value order.status [.confirmed, .partiallyReceived, .received]
    "Billing"
  let state ← order.lines.foldlM (billLine payload.billReceivedOnly) ⟨[], []⟩
  requireBilled state.billed
  let bill ← draftBill request.documentId order payload state.billed
  let db ← saveOrder db { order with lines := state.lines }
  let bills ← orRaise (.integrity "pk_supplier_bills") (db.purchasing.bills.insert bill)
  .ok { db with purchasing := { db.purchasing with bills := bills } }

/-- The bill of a request, on a branch of the caller. -/
def findBill (request : Request) (db : TenantDb) (billId : Uuid) : Except Err SupplierBill := do
  let bill ← orRaise .notFound (db.purchasing.bills.get billId)
  request.env.context.requireBranch bill.branchId
  .ok bill

/-- The row of a bill is written back. -/
def saveBill (db : TenantDb) (bill : SupplierBill) : Except Err TenantDb := do
  let bills ← orRaise (.integrity "pk_supplier_bills") (db.purchasing.bills.replace bill.id bill)
  .ok { db with purchasing := { db.purchasing with bills := bills } }

/-- `_post_bill`.  A bill is posted whatever it amounts to. -/
def SupplierBill.entries (bill : SupplierBill) (number : String) : List Entry :=
  [{ entryDate := bill.issueDate
     description := "Supplier bill " ++ number
     sourceType := "supplier_bill"
     sourceId := bill.id
     eventType := "SUPPLIER_BILL_ISSUED"
     lines := supplierBill (money bill.amounts.netAmount) (money bill.amounts.taxAmount) }]

/-- `_record_vat_for_bill`. -/
def SupplierBill.taxableEvent (bill : SupplierBill) : TaxableEvent :=
  { direction := .input
    occurredOn := bill.issueDate
    sourceType := "supplier_bill"
    sourceId := bill.id
    isReversal := false }

/-- `issue_bill`. -/
def issueBill (request : Request) (db : TenantDb) (billId : Uuid) : Except Err TenantDb := do
  let bill ← findBill request db billId
  requireStatus InvoiceStatus.value bill.status [.draft] "Issuing"
  let (number, db) := db.allocate request .supplierBill
  let db ← saveBill db { bill with status := .issued, billNumber := some number }
  let rows ← bill.taxableEvent.recordLines request.vatId (bill.lines.map (·.taxable))
  db.book request (bill.entries number) rows

/-! ## Payments -/

/-- `SupplierPaymentCreate`, with the bounds of its schema. -/
structure SupplierPaymentCreate where
  supplierId : Uuid
  branchId : Uuid
  method : PaymentMethod
  amount : Money
  paymentDate : Date
  allocations : List PaymentAllocation
  amount_positive : 0 < amount
  amount_lt : amount < 10 ^ 18

/-- `bill.paid_amount += item.amount`, with the status that follows. -/
def SupplierBill.pay (bill : SupplierBill) (item : PaymentAllocation) : Except Err SupplierBill :=
  if h : item.amount ≤ bill.amounts.totalAmount - bill.paidAmount then
    .ok { bill with
      paidAmount := bill.paidAmount + item.amount
      status :=
        if bill.amounts.totalAmount ≤ bill.paidAmount + item.amount then .paid else .partiallyPaid
      paid_within_total :=
        ⟨add_nonneg bill.paid_within_total.1 item.amount_positive.le, by
          rw [add_comm]
          exact le_sub_iff_add_le.mp h⟩ }
  else .error (.conflict "OVER_ALLOCATION" "Allocation exceeds the bill's outstanding balance.")

/-- One pass of the loop of `record_payment`. -/
def payBill (request : Request) (payload : SupplierPaymentCreate) (db : TenantDb)
    (item : PaymentAllocation) : Except Err TenantDb := do
  let bill ← findBill request db item.targetId
  requireSameParty (bill.supplierId = payload.supplierId ∧ bill.branchId = payload.branchId)
    "Payment allocations must match the payment supplier and branch."
  requireStatus InvoiceStatus.value bill.status [.issued, .partiallyPaid] "Allocation"
  let paid ← bill.pay item
  saveBill db paid

/-- `record_payment`. -/
def recordPayment (request : Request) (db : TenantDb) (payload : SupplierPaymentCreate)
    (claim : Except Err (Option Uuid)) : Except Err TenantDb := do
  request.env.context.requireBranch payload.branchId
  let stored ← claim
  match stored.bind db.sales.payments.get with
  | some _ => .ok db
  | none => do
      requireRow "fk_payments_supplier_id" (db.parties.supplier payload.supplierId)
      let (number, db) := db.allocate request .purchasePayment
      let payment ← newPayment request.documentId number (.supplier payload.supplierId)
        payload.branchId payload.method payload.amount payload.amount_positive
        payload.paymentDate payload.allocations
      let db ← (sortedAllocations payload.allocations).foldlM (payBill request payload) db
      let payments ← orRaise (.integrity "pk_payments") (db.sales.payments.insert payment)
      let db := { db with sales := { db.sales with payments := payments } }
      db.book request
        (payment.entries "Supplier payment " "SUPPLIER_PAYMENT"
          (supplierPayment (money payload.amount) (payload.method = .cash))) []

end Nexora.Purchasing
