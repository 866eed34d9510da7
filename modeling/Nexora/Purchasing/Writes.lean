import Nexora.Purchasing.Service
import Nexora.Sales.Writes

/-!
# What the purchasing service writes

One theorem for each request that goes through, as for sales.
-/

namespace Nexora.Purchasing

open Nexora Nexora.Catalog Nexora.Sales Nexora.Tenant Foundations
open Nexora.Accounting (Money)
open Nexora.Accounting.PostingRules (supplierPayment)

variable {request : Request} {db db' : TenantDb}

/-! ## Orders -/

theorem findOrder_eq_ok {orderId : Uuid} {order : PurchaseOrder}
    (h : findOrder request db orderId = .ok order) :
    db.purchasing.orders.get orderId = some order := by
  obtain ⟨order', hget, h⟩ := bind_eq_ok.mp h
  obtain ⟨_, -, h⟩ := bind_eq_ok.mp h
  cases h
  exact orRaise_eq_ok.mp hget

theorem saveOrder_eq_ok {order : PurchaseOrder} (h : saveOrder db order = .ok db') :
    ∃ orders, db.purchasing.orders.replace order.id order = some orders ∧
      db' = { db with purchasing := { db.purchasing with orders := orders } } := by
  obtain ⟨orders, hreplace, h⟩ := bind_eq_ok.mp h
  cases h
  exact ⟨orders, orRaise_eq_ok.mp hreplace, rfl⟩

/-- An order in the tables has lines of which nothing is received or billed. -/
theorem newOrderLines_eq_ok {priced : List CostedLine} {lines : List PurchaseOrderLine}
    (h : newOrderLines request priced = .ok lines) :
    (lines.map PurchaseOrderLine.id).Nodup ∧
      ∀ line ∈ lines, line.receivedQuantity = 0 ∧ line.billedQuantity = 0 := by
  simp only [newOrderLines] at h
  split at h
  next hnodup =>
    cases h
    refine ⟨hnodup, fun line hline => ?_⟩
    obtain ⟨row, -, rfl⟩ := List.mem_map.mp hline
    exact ⟨rfl, rfl⟩
  next => cases h

theorem createOrder_eq_ok {payload : PurchaseOrderCreate}
    (h : createOrder request db payload = .ok db') :
    ∃ order orders, db.purchasing.orders.insert order = some orders ∧
      (order.lines.map PurchaseOrderLine.id).Nodup ∧
      (∀ line ∈ order.lines, line.receivedQuantity = 0 ∧ line.billedQuantity = 0) ∧
      db.ledger.SameCodes db'.ledger ∧
      db' = { db with
        ledger := db'.ledger
        purchasing := { db.purchasing with orders := orders } } := by
  obtain ⟨_, -, h⟩ := bind_eq_ok.mp h
  obtain ⟨_, -, h⟩ := bind_eq_ok.mp h
  obtain ⟨_, -, h⟩ := bind_eq_ok.mp h
  obtain ⟨priced, -, h⟩ := bind_eq_ok.mp h
  obtain ⟨lines, hlines, h⟩ := bind_eq_ok.mp h
  obtain ⟨amounts, -, h⟩ := bind_eq_ok.mp h
  obtain ⟨orders, hinsert, h⟩ := bind_eq_ok.mp h
  cases h
  obtain ⟨hnodup, hnew⟩ := newOrderLines_eq_ok hlines
  exact ⟨_, orders, orRaise_eq_ok.mp hinsert, hnodup, hnew,
    Numbering.allocate_sameCodes _ _ _, rfl⟩

/-- Only the status of an order changed. -/
def ChangesStatus (db db' : TenantDb) : Prop :=
  ∃ orderId order status orders, db.purchasing.orders.get orderId = some order ∧
    db.purchasing.orders.replace order.id { order with status := status } = some orders ∧
    db' = { db with purchasing := { db.purchasing with orders := orders } }

theorem confirmOrder_eq_ok {orderId : Uuid} (h : confirmOrder request db orderId = .ok db') :
    ChangesStatus db db' := by
  obtain ⟨order, hfind, h⟩ := bind_eq_ok.mp h
  obtain ⟨_, -, h⟩ := bind_eq_ok.mp h
  obtain ⟨orders, hreplace, hdb'⟩ := saveOrder_eq_ok h
  exact ⟨orderId, order, _, orders, findOrder_eq_ok hfind, hreplace, hdb'⟩

theorem cancelOrder_eq_ok {orderId : Uuid} (h : cancelOrder request db orderId = .ok db') :
    ChangesStatus db db' := by
  obtain ⟨order, hfind, h⟩ := bind_eq_ok.mp h
  obtain ⟨_, -, h⟩ := bind_eq_ok.mp h
  obtain ⟨_, -, h⟩ := bind_eq_ok.mp h
  obtain ⟨orders, hreplace, hdb'⟩ := saveOrder_eq_ok h
  exact ⟨orderId, order, _, orders, findOrder_eq_ok hfind, hreplace, hdb'⟩

/-! ## Goods receipts -/

theorem receive_eq_ok {orderId : Uuid} {lines : Option (List ReceiptLineInput)}
    (hdb : db.ledger.Linked) (h : receive request db orderId lines = .ok db') :
    ∃ order items state number orders receipts,
      db.purchasing.orders.get orderId = some order ∧ order.requested lines = .ok items ∧
      order.lines.foldlM (receiveLine order.warehouseId request.documentId items)
        ⟨db.inventory, 0, [], []⟩ = .ok state ∧
      db.purchasing.orders.replace order.id
        { order with status := receivedStatus state.lines, lines := state.lines } = some orders ∧
      db.purchasing.receipts.insert
        ⟨request.documentId, number, order.id, order.warehouseId, state.received⟩ =
          some receipts ∧
      Books db (receiptEntries request number state.cost) [] db' ∧
      db' = { db with
        inventory := state.inventory
        ledger := db'.ledger
        register := db'.register
        purchasing := { db.purchasing with orders := orders, receipts := receipts } } := by
  obtain ⟨order, hfind, h⟩ := bind_eq_ok.mp h
  obtain ⟨_, -, h⟩ := bind_eq_ok.mp h
  obtain ⟨items, hitems, h⟩ := bind_eq_ok.mp h
  obtain ⟨_, -, h⟩ := bind_eq_ok.mp h
  obtain ⟨state, hloop, h⟩ := bind_eq_ok.mp h
  obtain ⟨db₁, hsave, h⟩ := bind_eq_ok.mp h
  obtain ⟨orders, hreplace, rfl⟩ := saveOrder_eq_ok hsave
  obtain ⟨receipts, hinsert, h⟩ := bind_eq_ok.mp h
  obtain ⟨hbooks, hdb'⟩ := TenantDb.book_eq_ok hdb h (Numbering.allocate_sameCodes _ _ _) rfl
  exact ⟨order, items, state, _, orders, receipts, findOrder_eq_ok hfind, hitems, hloop, hreplace,
    orRaise_eq_ok.mp hinsert, hbooks, hdb'⟩

/-- The cost of a receipt that was posted fits its column. -/
theorem receipt_fits {number : String} {cost : ℚ}
    (h : Books db (receiptEntries request number cost) [] db') (hpos : 0 < cost) :
    |roundHalfUp (cost * 10 ^ 4)| < 10 ^ 18 := by
  have hfits := h.fits _ (by
    simp only [receiptEntries, hpos, if_true]
    exact List.mem_singleton_self _) _ List.mem_cons_self
  exact hfits.1

/-! ## Bills -/

theorem draftBill_eq_ok {id : Uuid} {order : PurchaseOrder} {payload : SupplierBillCreate}
    {lines : List SupplierBillLine} {bill : SupplierBill}
    (h : draftBill id order payload lines = .ok bill) :
    bill.id = id ∧ bill.purchaseOrderId = order.id ∧ bill.status = .draft ∧ bill.lines = lines := by
  unfold draftBill at h
  split at h
  next => cases h
  next =>
    cases h
    exact ⟨rfl, rfl, rfl, rfl⟩

theorem createBill_eq_ok {payload : SupplierBillCreate}
    (h : createBill request db payload = .ok db') :
    ∃ order state bill orders bills,
      db.purchasing.orders.get payload.purchaseOrderId = some order ∧
      order.lines.foldlM (billLine payload.billReceivedOnly) ⟨[], []⟩ = .ok state ∧
      bill.id = request.documentId ∧ bill.purchaseOrderId = order.id ∧ bill.status = .draft ∧
      bill.lines = state.billed ∧
      db.purchasing.orders.replace order.id { order with lines := state.lines } = some orders ∧
      db.purchasing.bills.insert bill = some bills ∧
      db' = { db with
        purchasing := { db.purchasing with orders := orders, bills := bills } } := by
  obtain ⟨order, hfind, h⟩ := bind_eq_ok.mp h
  obtain ⟨_, -, h⟩ := bind_eq_ok.mp h
  obtain ⟨state, hloop, h⟩ := bind_eq_ok.mp h
  obtain ⟨_, -, h⟩ := bind_eq_ok.mp h
  obtain ⟨bill, hdraft, h⟩ := bind_eq_ok.mp h
  obtain ⟨db₁, hsave, h⟩ := bind_eq_ok.mp h
  obtain ⟨orders, hreplace, rfl⟩ := saveOrder_eq_ok hsave
  obtain ⟨bills, hinsert, h⟩ := bind_eq_ok.mp h
  cases h
  obtain ⟨hid, horder, hstatus, hlines⟩ := draftBill_eq_ok hdraft
  exact ⟨order, state, bill, orders, bills, findOrder_eq_ok hfind, hloop, hid, horder, hstatus,
    hlines, hreplace, orRaise_eq_ok.mp hinsert, rfl⟩

theorem findBill_eq_ok {billId : Uuid} {bill : SupplierBill}
    (h : findBill request db billId = .ok bill) : db.purchasing.bills.get billId = some bill := by
  obtain ⟨bill', hget, h⟩ := bind_eq_ok.mp h
  obtain ⟨_, -, h⟩ := bind_eq_ok.mp h
  cases h
  exact orRaise_eq_ok.mp hget

theorem saveBill_eq_ok {bill : SupplierBill} (h : saveBill db bill = .ok db') :
    ∃ bills, db.purchasing.bills.replace bill.id bill = some bills ∧
      db' = { db with purchasing := { db.purchasing with bills := bills } } := by
  obtain ⟨bills, hreplace, h⟩ := bind_eq_ok.mp h
  cases h
  exact ⟨bills, orRaise_eq_ok.mp hreplace, rfl⟩

theorem issueBill_eq_ok {billId : Uuid} (hdb : db.ledger.Linked)
    (h : issueBill request db billId = .ok db') :
    ∃ bill number bills rows,
      db.purchasing.bills.get billId = some bill ∧ bill.status = .draft ∧
      db.purchasing.bills.replace bill.id
        { bill with status := .issued, billNumber := some number } = some bills ∧
      bill.taxableEvent.recordLines request.vatId (bill.lines.map (·.taxable)) = .ok rows ∧
      Books db (bill.entries number) rows db' ∧
      db' = { db with
        ledger := db'.ledger
        register := db'.register
        purchasing := { db.purchasing with bills := bills } } := by
  obtain ⟨bill, hfind, h⟩ := bind_eq_ok.mp h
  obtain ⟨_, hstatus, h⟩ := bind_eq_ok.mp h
  obtain ⟨db₁, hsave, h⟩ := bind_eq_ok.mp h
  obtain ⟨bills, hreplace, rfl⟩ := saveBill_eq_ok hsave
  obtain ⟨rows, hrows, h⟩ := bind_eq_ok.mp h
  obtain ⟨hbooks, hdb'⟩ := TenantDb.book_eq_ok hdb h (Numbering.allocate_sameCodes _ _ _) rfl
  exact ⟨bill, _, bills, rows, findBill_eq_ok hfind,
    List.mem_singleton.mp (requireStatus_eq_ok hstatus), hreplace, hrows, hbooks, hdb'⟩

/-- The sum of the issued bills. -/
def PurchasingDb.billed (db : PurchasingDb) : Money :=
  (db.bills.rows.map fun bill => issuedTotal bill.status bill.amounts).sum

/-- A change of a bill moves the sum by its own total. -/
theorem billed_replace {purchasing : PurchasingDb} {bills : Table SupplierBill.id} {id : Uuid}
    {old new : SupplierBill} (hget : purchasing.bills.get id = some old)
    (hreplace : purchasing.bills.replace id new = some bills) :
    ({ purchasing with bills := bills } : PurchasingDb).billed =
      purchasing.billed - issuedTotal old.status old.amounts +
        issuedTotal new.status new.amounts :=
  Table.sum_replace hget hreplace fun bill => issuedTotal bill.status bill.amounts

/-! ## Payments -/

/-- What the ledger knows of a bill: its order, its amounts and whether it is issued. -/
def SupplierBill.face (bill : SupplierBill) : Uuid × Uuid × Amounts × Bool :=
  (bill.id, bill.purchaseOrderId, bill.amounts, bill.status.isIssued)

theorem SupplierBill.pay_eq_ok {bill paid : SupplierBill} {item : PaymentAllocation}
    (hissued : bill.status.isIssued) (h : bill.pay item = .ok paid) : paid.face = bill.face := by
  unfold pay at h
  split at h
  next =>
    cases h
    simp only [face, hissued]
    split
    · rfl
    · rfl
  next => cases h

/-- A row that is replaced by one with the same image leaves the images as they were. -/
theorem map_replace {bills bills' : Table SupplierBill.id} {id : Uuid} {old new : SupplierBill}
    (hget : bills.get id = some old) (hreplace : bills.replace id new = some bills')
    (hface : new.face = old.face) :
    bills'.rows.map SupplierBill.face = bills.rows.map SupplierBill.face := by
  obtain ⟨before, after, hold, hnew⟩ := Table.replace_eq_some hget hreplace
  simp [hold, hnew, hface]

/-- A payment of a bill changes nothing that the ledger knows of it. -/
theorem payBill_eq_ok {payload : SupplierPaymentCreate} {item : PaymentAllocation}
    (h : payBill request payload db item = .ok db') :
    ∃ bills, db' = { db with purchasing := { db.purchasing with bills := bills } } ∧
      bills.rows.map SupplierBill.face = db.purchasing.bills.rows.map SupplierBill.face := by
  obtain ⟨bill, hfind, h⟩ := bind_eq_ok.mp h
  obtain ⟨_, -, h⟩ := bind_eq_ok.mp h
  obtain ⟨_, hstatus, h⟩ := bind_eq_ok.mp h
  obtain ⟨paid, hpay, h⟩ := bind_eq_ok.mp h
  obtain ⟨bills, hreplace, rfl⟩ := saveBill_eq_ok h
  have hissued : bill.status.isIssued := by
    have hmem := requireStatus_eq_ok hstatus
    simp only [List.mem_cons, List.not_mem_nil, or_false] at hmem
    rcases hmem with hissued | hissued
    · simp [InvoiceStatus.isIssued, hissued]
    · simp [InvoiceStatus.isIssued, hissued]
  have hface := SupplierBill.pay_eq_ok hissued hpay
  have hid : paid.id = bill.id := congrArg Prod.fst hface
  have hget := Table.get_self (findBill_eq_ok hfind)
  rw [← hid] at hget
  exact ⟨bills, rfl, map_replace hget hreplace hface⟩

/-- A payment is recorded, or its key shows that it was. -/
theorem recordPayment_eq_ok {payload : SupplierPaymentCreate} {claim : Except Err (Option Uuid)}
    (hdb : db.ledger.Linked) (h : recordPayment request db payload claim = .ok db') :
    db' = db ∨ ∃ payment bills payments,
      payment.counterparty = .supplier payload.supplierId ∧ payment.amount = payload.amount ∧
      bills.rows.map SupplierBill.face = db.purchasing.bills.rows.map SupplierBill.face ∧
      db.sales.payments.insert payment = some payments ∧
      Books db (payment.entries "Supplier payment " "SUPPLIER_PAYMENT"
        (supplierPayment (Accounting.money payload.amount) (payload.method = .cash))) [] db' ∧
      db' = { db with
        ledger := db'.ledger
        register := db'.register
        sales := { db.sales with payments := payments }
        purchasing := { db.purchasing with bills := bills } } := by
  obtain ⟨_, -, h⟩ := bind_eq_ok.mp h
  obtain ⟨stored, -, h⟩ := bind_eq_ok.mp h
  split at h
  next =>
    cases h
    exact .inl rfl
  next =>
    obtain ⟨_, -, h⟩ := bind_eq_ok.mp h
    obtain ⟨payment, hpayment, h⟩ := bind_eq_ok.mp h
    obtain ⟨db₁, hloop, h⟩ := bind_eq_ok.mp h
    obtain ⟨payments, hinsert, h⟩ := bind_eq_ok.mp h
    obtain ⟨bills, rfl, hfaces⟩ := foldlM_invariant
      (I := fun db₁ : TenantDb => ∃ bills,
        db₁ = { (db.allocate request .purchasePayment).2 with
          purchasing := { db.purchasing with bills := bills } } ∧
        bills.rows.map SupplierBill.face = db.purchasing.bills.rows.map SupplierBill.face)
      (fun item _ db₁ db₂ hdb₁ hpass => by
        obtain ⟨_, rfl, hsame⟩ := hdb₁
        obtain ⟨bills, rfl, hpay⟩ := payBill_eq_ok hpass
        exact ⟨bills, rfl, hpay.trans hsame⟩)
      hloop ⟨db.purchasing.bills, rfl, rfl⟩
    obtain ⟨hcounterparty, hamount⟩ := newPayment_eq_ok hpayment
    obtain ⟨hbooks, hdb'⟩ := TenantDb.book_eq_ok hdb h (Numbering.allocate_sameCodes _ _ _) rfl
    exact .inr ⟨payment, bills, payments, hcounterparty, hamount, hfaces,
      orRaise_eq_ok.mp hinsert, hbooks, hdb'⟩

/-- The sum of the issued bills is read off their faces. -/
theorem billed_eq (purchasing : PurchasingDb) :
    purchasing.billed = ((purchasing.bills.rows.map SupplierBill.face).map fun face =>
      if face.2.2.2 then face.2.2.1.totalAmount else 0).sum := by
  rw [List.map_map]
  rfl

end Nexora.Purchasing
