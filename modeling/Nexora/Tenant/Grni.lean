import Nexora.Tenant.StockValue

/-!
# Goods received, not invoiced

A goods receipt credits the account `GRNI` with the cost of what was received, and the bill
for the same order debits it.  Once an order is received and billed in full, the two should
cancel.

They are computed differently.  A receipt leaves out products that do not track stock, may
replace the cost of the order, and rounds its lines together.  A bill counts every line at
the cost of the order, and rounds each line on its own.  `grni_clears_iff` says that this is
all that keeps the account from clearing.
-/

namespace Nexora.Tenant

open Nexora Nexora.Catalog Nexora.Sales Nexora.Purchasing Nexora.Pos Foundations
open Nexora.Accounting
open Nexora.Inventory (InventoryDb Movement DocumentKind decimal)
open Nexora.Vat (VatTransaction)

/-! ## Postings of an order -/

/-- One source of entries. -/
def sourceIs (sourceType : String) (sourceId : Uuid) (type : String) (id : Uuid) : Bool :=
  type = sourceType ∧ id = sourceId

/-- Debits minus credits of one source on an account. -/
def netFrom (ledger : LedgerDb) (sourceType : String) (sourceId : Uuid) (code : String) : Money :=
  (ledger.postings (sourceIs sourceType sourceId) code).sum

/-- The receipts of an order. -/
def receiptsOf (db : TenantDb) (orderId : Uuid) : List GoodsReceipt :=
  db.purchasing.receipts.rows.filter (·.purchaseOrderId = orderId)

/-- The bills of an order. -/
def billsOf (db : TenantDb) (orderId : Uuid) : List SupplierBill :=
  db.purchasing.bills.rows.filter (·.purchaseOrderId = orderId)

/-- Debits minus credits on `GRNI` of all receipts and bills of an order. -/
def TenantDb.orderGrni (db : TenantDb) (orderId : Uuid) : Money :=
  ((receiptsOf db orderId).map fun r => netFrom db.ledger "goods_receipt" r.id "GRNI").sum +
    ((billsOf db orderId).map fun b => netFrom db.ledger "supplier_bill" b.id "GRNI").sum

/-- Every line of the order is received and billed in full, and its bills are issued. -/
def TenantDb.Completed (db : TenantDb) (orderId : Uuid) : Prop :=
  ∃ order ∈ db.purchasing.orders.get orderId,
    (∀ line ∈ order.lines,
      line.receivedQuantity = line.quantity ∧ line.billedQuantity = line.quantity) ∧
    ∀ bill ∈ billsOf db orderId, bill.status.isIssued

instance (db : TenantDb) (orderId : Uuid) : Decidable (db.Completed orderId) :=
  inferInstanceAs (Decidable (∃ order ∈ db.purchasing.orders.get orderId, _))

/-! ## What the requests amount to -/

/-- What a receipt counts of a line: quantity times cost, where the product tracks stock. -/
def PurchaseOrderLine.receivedValue (inventory : InventoryDb) (items : List ReceiptLineInput)
    (line : PurchaseOrderLine) : ℚ :=
  match requestedFor items line.id with
  | none => 0
  | some item =>
      if inventory.tracks line.productId then decimal item.quantity * (item.costOf line / 10 ^ 6)
      else 0

/-- What a receipt amounts to: its lines, rounded together. -/
def PurchaseOrder.receivedAmount (inventory : InventoryDb) (lines : Option (List ReceiptLineInput))
    (order : PurchaseOrder) : Money :=
  match order.requested lines with
  | .ok items =>
      roundHalfUp ((order.lines.map (PurchaseOrderLine.receivedValue inventory items)).sum * 10 ^ 4)
  | .error _ => 0

/-- What a bill counts of a line: quantity times the cost of the order, rounded. -/
def PurchaseOrderLine.billedAmount (receivedOnly : Bool) (line : PurchaseOrderLine) : Money :=
  if 0 < line.toBill receivedOnly then
    roundHalfUp (decimal (line.toBill receivedOnly) * (line.unitCost / 10 ^ 6) * 10 ^ 4)
  else 0

/-- What a request receives of an order. -/
def Op.receivedAmount (orderId : Uuid) (db : TenantDb) : Op → Money
  | .receive id lines =>
      if id = orderId then
        ((db.purchasing.orders.get id).map
          (PurchaseOrder.receivedAmount db.inventory lines)).getD 0
      else 0
  | _ => 0

/-- What a request bills of an order. -/
def Op.billedAmount (orderId : Uuid) (db : TenantDb) : Op → Money
  | .createBill payload =>
      if payload.purchaseOrderId = orderId then
        ((db.purchasing.orders.get orderId).map fun order =>
          (order.lines.map (PurchaseOrderLine.billedAmount payload.billReceivedOnly)).sum).getD 0
      else 0
  | _ => 0

/-- The amount of a request that goes through. -/
def TenantDb.amountOf (db : TenantDb) (amount : TenantDb → Op → Money) (call : Call) : Money :=
  if db.commits call then amount db call.op else 0

/-- The sum of an amount over the requests of a run that go through. -/
def TenantDb.sumOver (amount : TenantDb → Op → Money) : TenantDb → List Call → Money
  | _, [] => 0
  | db, call :: calls => db.amountOf amount call + sumOver amount (db.step call) calls

/-- The lines of the request are priced alike on the receipt and on the bill: the product
tracks stock, the cost is that of the order, and quantity times cost has four decimals. -/
def Op.Exact (orderId : Uuid) (db : TenantDb) : Op → Prop
  | .receive id lines => id = orderId → ∀ order ∈ db.purchasing.orders.get id,
      ∀ items, order.requested lines = .ok items → ∀ line ∈ order.lines,
        ∀ item ∈ requestedFor items line.id, db.inventory.tracks line.productId ∧
          item.costOf line = line.unitCost ∧ 10 ^ 8 ∣ item.quantity * line.unitCost
  | .createBill payload => payload.purchaseOrderId = orderId →
      ∀ order ∈ db.purchasing.orders.get orderId, ∀ line ∈ order.lines,
        10 ^ 8 ∣ line.toBill payload.billReceivedOnly * line.unitCost
  | _ => True

/-- A condition on the requests of a run that go through. -/
def TenantDb.AllOver (P : TenantDb → Op → Prop) : TenantDb → List Call → Prop
  | _, [] => True
  | db, call :: calls => (db.commits call → P db call.op) ∧ AllOver P (db.step call) calls

/-! ## The loops -/

/-- The cost of a receipt.  Receiving a line may change the cost of its product, but not
whether it tracks stock. -/
theorem receiveLines_accumulates {warehouseId receiptId : Uuid} {items : List ReceiptLineInput}
    {inventory : InventoryDb} {lines : List PurchaseOrderLine} {state state' : ReceiveState}
    {value : ℚ} (hvalue : Accumulates 12 state.cost value)
    (htracks : state.inventory.tracks = inventory.tracks)
    (h : lines.foldlM (receiveLine warehouseId receiptId items) state = .ok state') :
    Accumulates 12 state'.cost
      (value + (lines.map (PurchaseOrderLine.receivedValue inventory items)).sum) := by
  induction lines generalizing state value with
  | nil =>
      cases h
      simpa using hvalue
  | cons line lines ih =>
      rw [List.foldlM_cons] at h
      obtain ⟨state₁, hpass, h⟩ := bind_eq_ok.mp h
      rw [List.map_cons, List.sum_cons, ← add_assoc]
      simp only [receiveLine] at hpass
      split at hpass
      next hnone =>
        cases hpass
        have hzero : PurchaseOrderLine.receivedValue inventory items line = 0 := by
          simp [PurchaseOrderLine.receivedValue, hnone]
        rw [hzero, add_zero]
        refine ih ?_ ?_ h
        · exact hvalue
        · exact htracks
      next item hitem =>
        split at hpass
        next hle =>
          obtain ⟨product, hproduct, hpass⟩ := bind_eq_ok.mp hpass
          obtain ⟨inventory', hpost, hpass⟩ := bind_eq_ok.mp hpass
          cases hpass
          have htracked : product.isStockTracked = inventory.tracks line.productId := by
            rw [← htracks]
            simp [InventoryDb.tracks, orRaise_eq_ok.mp hproduct]
          refine ih ?_ ?_ h
          · simp only [PurchaseOrderLine.receivedValue, hitem, htracked]
            split
            · exact addCost_accumulates hvalue item.quantity_pos.le (item.costOf_nonneg line)
            · simpa using hvalue
          · rcases Inventory.postMovementForDocument_adds hpost with
              ⟨-, rfl⟩ | ⟨-, -, _, hadds, -⟩
            · exact htracks
            · exact hadds.tracks.trans htracks
        next => cases hpass

/-- A line is priced at its quantity times its cost, rounded. -/
theorem CostedLine.netAmount_eq (line : CostedLine) :
    line.amounts.netAmount =
      roundHalfUp (decimal line.quantity * (line.unitCost / 10 ^ 6) * 10 ^ 4) := by
  obtain ⟨net, hnet, h⟩ := bind_eq_ok.mp line.amounts_eq
  obtain ⟨tax, htax, h⟩ := bind_eq_ok.mp h
  have hround : line.amounts.netAmount = net := by
    cases h
    rfl
  have hone : toContext (1 - ((0 : Rate) : ℚ) / 10 ^ 6) = 1 := by
    have := toContext_of_digits (x := 1) (n := 1) (k := 0) (by norm_num) (by norm_num)
    simpa using this
  have hacc := addCost_accumulates (Accumulates.zero 12) line.quantity_pos.le
    line.unitCost_range.1
  have hcost : addCost 0 line.quantity line.unitCost =
      toContext (line.gross * toContext (1 - ((0 : Rate) : ℚ) / 10 ^ 6)) := by
    rw [hone, mul_one, addCost, zero_add]
    rfl
  rw [hcost, zero_add] at hacc
  rw [hround, roundMoney_eq_ok hnet, amountsOf_accumulated hacc fun _ => ?_]
  rw [← roundMoney_eq_ok hnet, ← hround, abs_of_nonneg line.amounts.netAmount_nonneg]
  linarith [line.amounts.total_lt, line.amounts.taxAmount_nonneg]

theorem PurchaseLineInput.price_eq_ok {line : PurchaseLineInput} {priced : CostedLine}
    (h : line.price = .ok priced) : priced.toPurchaseLineInput = line := by
  unfold PurchaseLineInput.price at h
  split at h
  next => cases h
  next =>
    cases h
    rfl

/-- The lines of a bill. -/
theorem billLines_netAmount {receivedOnly : Bool} {lines : List PurchaseOrderLine}
    {state state' : BillState}
    (h : lines.foldlM (billLine receivedOnly) state = .ok state') :
    (state'.billed.map fun line => line.amounts.netAmount).sum =
      (state.billed.map fun line => line.amounts.netAmount).sum +
        (lines.map (PurchaseOrderLine.billedAmount receivedOnly)).sum := by
  induction lines generalizing state with
  | nil =>
      cases h
      simp
  | cons line lines ih =>
      rw [List.foldlM_cons] at h
      obtain ⟨state₁, hpass, h⟩ := bind_eq_ok.mp h
      rw [ih h, List.map_cons, List.sum_cons, ← add_assoc]
      congr 1
      simp only [billLine] at hpass
      split at hpass
      next hpos =>
        obtain ⟨priced, hprice, hpass⟩ := bind_eq_ok.mp hpass
        cases hpass
        have hnet := CostedLine.netAmount_eq priced
        rw [PurchaseLineInput.price_eq_ok hprice] at hnet
        simp [PurchaseOrderLine.billedAmount, hpos, hnet, PurchaseOrderLine.billPart]
      next hpos =>
        cases hpass
        simp [PurchaseOrderLine.billedAmount, hpos]

/-! ## Postings by source -/

variable {request : Request} {db db' : TenantDb}

@[simp] theorem entryPostings_nil (p : String → Uuid → Bool) (code : String) :
    entryPostings p code [] = [] := rfl

@[simp] theorem entryPostings_cons (p : String → Uuid → Bool) (code : String) (e : Entry)
    (entries : List Entry) :
    entryPostings p code (e :: entries) =
      (if p e.sourceType e.sourceId then linePostings code e.lines else []) ++
        entryPostings p code entries := rfl

/-- Entries that post nothing on an account post nothing on it from any source. -/
theorem entryPostings_eq_nil {code : String} {entries : List Entry}
    (h : ∀ e ∈ entries, linePostings code e.lines = []) (p : String → Uuid → Bool) :
    entryPostings p code entries = [] := by
  induction entries with
  | nil => rfl
  | cons e entries ih =>
      rw [entryPostings_cons, h e List.mem_cons_self, ih fun e he => h e (List.mem_cons_of_mem _ he)]
      simp

theorem Books.netFrom {entries : List Entry} {rows : List VatTransaction}
    (h : Books db entries rows db') (sourceType : String) (sourceId : Uuid) (code : String) :
    netFrom db'.ledger sourceType sourceId code = netFrom db.ledger sourceType sourceId code +
      (entryPostings (sourceIs sourceType sourceId) code entries).sum := by
  simp [Tenant.netFrom, h.postings]

/-- What a receipt posts. -/
theorem postings_goodsReceipt (number : String) {cost : ℚ} (hcost : 0 ≤ cost) (sourceType : String)
    (sourceId : Uuid) :
    (entryPostings (sourceIs sourceType sourceId) "GRNI" (receiptEntries request number cost)).sum =
      if sourceType = "goods_receipt" ∧ sourceId = request.documentId then
        -roundHalfUp (cost * 10 ^ 4)
      else 0 := by
  rcases hcost.eq_or_lt with rfl | hpos
  · simp [receiptEntries]
  · by_cases hsource : sourceType = "goods_receipt" ∧ sourceId = request.documentId
    · simp [receiptEntries, hpos, hsource, sourceIs, PostingRules.goodsReceipt]
    · have hsource' : ¬("goods_receipt" = sourceType ∧ request.documentId = sourceId) := by
        rintro ⟨rfl, rfl⟩
        exact hsource ⟨rfl, rfl⟩
      simp [receiptEntries, hpos, hsource, hsource', sourceIs]

/-- What a bill posts. -/
theorem postings_supplierBill (bill : SupplierBill) (number : String) (sourceType : String)
    (sourceId : Uuid) :
    (entryPostings (sourceIs sourceType sourceId) "GRNI" (bill.entries number)).sum =
      if sourceType = "supplier_bill" ∧ sourceId = bill.id then bill.amounts.netAmount else 0 := by
  by_cases hsource : sourceType = "supplier_bill" ∧ sourceId = bill.id
  · simp [SupplierBill.entries, hsource, sourceIs, PostingRules.supplierBill]
  · have hsource' : ¬("supplier_bill" = sourceType ∧ bill.id = sourceId) := by
      rintro ⟨rfl, rfl⟩
      exact hsource ⟨rfl, rfl⟩
    simp [SupplierBill.entries, hsource, hsource', sourceIs]

/-! ## Requests that leave the account alone -/

/-- What the ledger knows of the bills. -/
def billFaces (db : TenantDb) : List (Uuid × Uuid × Amounts × Bool) :=
  db.purchasing.bills.rows.map SupplierBill.face

/-- What is received and billed of lines, at their own costs and with twelve decimals. -/
def linesProgress (lines : List PurchaseOrderLine) : Int × Int :=
  ((lines.map fun line => line.receivedQuantity * line.unitCost).sum,
    (lines.map fun line => line.billedQuantity * line.unitCost).sum)

theorem linesProgress_append (lines lines' : List PurchaseOrderLine) :
    linesProgress (lines ++ lines') = linesProgress lines + linesProgress lines' := by
  simp [linesProgress]

theorem linesProgress_cons (line : PurchaseOrderLine) (lines : List PurchaseOrderLine) :
    linesProgress (line :: lines) = linesProgress [line] + linesProgress lines := by
  simp [linesProgress]

/-- What is received and billed of an order. -/
def TenantDb.progress (db : TenantDb) (orderId : Uuid) : Int × Int :=
  ((db.purchasing.orders.get orderId).map fun order => linesProgress order.lines).getD 0

/-- The request wrote no receipt, paid bills at most, received and billed nothing, and posted
nothing on `GRNI`. -/
structure KeepsGrni (db db' : TenantDb) : Prop where
  linked : db'.ledger.Linked
  receipts : db'.purchasing.receipts = db.purchasing.receipts
  faces : billFaces db' = billFaces db
  progress : db'.progress = db.progress
  netFrom : ∀ sourceType sourceId,
    netFrom db'.ledger sourceType sourceId "GRNI" = netFrom db.ledger sourceType sourceId "GRNI"

theorem KeepsGrni.of_books {entries : List Entry} {rows : List VatTransaction}
    (h : Books db entries rows db')
    (hreceipts : db'.purchasing.receipts = db.purchasing.receipts)
    (horders : db'.purchasing.orders = db.purchasing.orders)
    (hfaces : billFaces db' = billFaces db)
    (hentries : ∀ e ∈ entries, linePostings "GRNI" e.lines = []) : KeepsGrni db db' where
  linked := h.linked
  receipts := hreceipts
  faces := hfaces
  progress := by
    funext orderId
    rw [TenantDb.progress, horders, TenantDb.progress]
  netFrom sourceType sourceId := by
    simp [h.netFrom, entryPostings_eq_nil hentries]

theorem KeepsGrni.of_same (hdb : db.ledger.Linked) (hledger : db.ledger.SameCodes db'.ledger)
    (hreceipts : db'.purchasing.receipts = db.purchasing.receipts)
    (hbills : db'.purchasing.bills = db.purchasing.bills) (hprogress : db'.progress = db.progress) :
    KeepsGrni db db' where
  linked := hledger.linked hdb
  receipts := hreceipts
  faces := by rw [billFaces, hbills, billFaces]
  progress := hprogress
  netFrom sourceType sourceId := by simp [Tenant.netFrom, hledger.postings hdb]

theorem KeepsGrni.outside (hdb : db.ledger.Linked) (hledger : db.ledger.SameCodes db'.ledger)
    (hpurchasing : db'.purchasing = db.purchasing) : KeepsGrni db db' := by
  refine .of_same hdb hledger (by rw [hpurchasing]) (by rw [hpurchasing]) ?_
  funext orderId
  rw [TenantDb.progress, hpurchasing, TenantDb.progress]

theorem KeepsGrni.refl (hdb : db.ledger.Linked) : KeepsGrni db db := .outside hdb (.refl _) rfl

theorem KeepsGrni.changesOrders (hdb : db.ledger.Linked) (h : ChangesOrders db db') :
    KeepsGrni db db' := by
  obtain ⟨quotations, orders, htables⟩ := h.tables
  exact .outside hdb h.ledger (by rw [htables])

theorem KeepsGrni.changesSessions (hdb : db.ledger.Linked) (h : ChangesSessions db db') :
    KeepsGrni db db' := by
  obtain ⟨sessions, htables⟩ := h.tables
  exact .outside hdb h.ledger (by rw [htables])

/-- A new order is neither received nor billed. -/
theorem KeepsGrni.createOrder (hdb : db.ledger.Linked) {payload : PurchaseOrderCreate}
    (hok : Purchasing.createOrder request db payload = .ok db') : KeepsGrni db db' := by
  obtain ⟨order, orders, hinsert, -, hnew, hledger, htables⟩ := Purchasing.createOrder_eq_ok hok
  refine .of_same hdb hledger (by rw [htables]) (by rw [htables]) ?_
  have hzero : linesProgress order.lines = 0 := by
    have hreceived : (order.lines.map fun line => line.receivedQuantity * line.unitCost).sum = 0 :=
      List.sum_eq_zero (by simpa using fun line hline => .inl (hnew line hline).1)
    have hbilled : (order.lines.map fun line => line.billedQuantity * line.unitCost).sum = 0 :=
      List.sum_eq_zero (by simpa using fun line hline => .inl (hnew line hline).2)
    rw [linesProgress, hreceived, hbilled]
    rfl
  have hnone := (Table.insert_eq_some hinsert).2
  funext orderId
  have hget : db'.purchasing.orders.get orderId = _ :=
    (by rw [htables] : db'.purchasing.orders.get orderId = orders.get orderId).trans
      (Table.get_insert hinsert orderId)
  rw [TenantDb.progress, TenantDb.progress, hget]
  split
  next heq => simp [heq, hnone, hzero]
  next => rfl

theorem KeepsGrni.changesStatus (hdb : db.ledger.Linked) (h : ChangesStatus db db') :
    KeepsGrni db db' := by
  obtain ⟨orderId, order, status, orders, hget, hreplace, rfl⟩ := h
  refine .of_same hdb (.refl _) rfl rfl ?_
  have hself := Table.get_self hget
  funext orderId'
  have hget' := Table.get_replace hself (by rfl) hreplace orderId'
  rw [TenantDb.progress, TenantDb.progress, hget']
  split
  next heq =>
    rw [heq, hself]
    rfl
  next => rfl

theorem grni_fulfillment (number : String) (cost : ℚ) :
    ∀ e ∈ fulfillmentEntries request number cost, linePostings "GRNI" e.lines = [] := by
  simp only [fulfillmentEntries]
  split
  · exact List.forall_mem_nil _
  · simp [PostingRules.cogsRecognition]

theorem grni_invoice (invoice : Invoice) (number : String) :
    ∀ e ∈ invoice.entries number, linePostings "GRNI" e.lines = [] := by
  simp only [Invoice.entries]
  split
  · exact List.forall_mem_nil _
  · simp [PostingRules.creditSale]

theorem grni_creditNote (note : CreditNote) (cost : ℚ) :
    ∀ e ∈ note.entries cost, linePostings "GRNI" e.lines = [] := by
  intro e he
  simp only [CreditNote.entries] at he
  rcases List.mem_append.mp he with he | he
  · split at he
    · rw [List.mem_singleton.mp he]
      simp [PostingRules.salesReturn]
    · cases he
  · obtain ⟨lines, hlines, rfl⟩ := List.mem_map.mp he
    simp only [PostingRules.salesReturn, Option.mem_toList,
      Option.ite_none_left_eq_some, Option.some.injEq] at hlines
    simp [← hlines.2]

theorem grni_sale (row : SaleRow) : ∀ e ∈ row.entries, linePostings "GRNI" e.lines = [] := by
  intro e he
  simp only [SaleRow.entries] at he
  rcases List.mem_cons.mp he with rfl | he
  · simp [PostingRules.cashSale]
  · split at he
    · rw [List.mem_singleton.mp he]
      simp [PostingRules.cashSale]
    · cases he

theorem grni_refund (row : SaleReturn) (booking : Booking) :
    ∀ e ∈ row.entries booking, linePostings "GRNI" e.lines = [] := by
  intro e he
  simp only [SaleReturn.entries] at he
  rcases List.mem_append.mp he with he | he
  · split at he
    · rw [List.mem_singleton.mp he]
      simp [PostingRules.posRefund]
    · cases he
  · obtain ⟨lines, hlines, rfl⟩ := List.mem_map.mp he
    simp only [PostingRules.posRefund, Option.mem_toList,
      Option.ite_none_right_eq_some, Option.some.injEq] at hlines
    simp [← hlines.2]

theorem tenderAccount_ne_grni (cash : Bool) : PostingRules.tenderAccount cash ≠ "GRNI" := by
  cases cash with
  | false => decide
  | true => decide

theorem grni_payment (payment : Payment) (description eventType : String)
    {lines : List PostingLine} (hlines : linePostings "GRNI" lines = []) :
    ∀ e ∈ payment.entries description eventType lines, linePostings "GRNI" e.lines = [] := by
  simpa [Payment.entries] using hlines

/-! ## The invariant -/

/-- The receipts of the order have posted what was received, and the bills of the order come
to what was billed.  Every bill has posted its net amount once it was issued. -/
structure Grni (orderId : Uuid) (received billed : Money) (db : TenantDb) : Prop where
  linked : db.ledger.Linked
  receipts : ((receiptsOf db orderId).map fun r =>
    netFrom db.ledger "goods_receipt" r.id "GRNI").sum = -received
  bills : (((billFaces db).filter (·.2.1 = orderId)).map (·.2.2.1.netAmount)).sum = billed
  unreceived : ∀ id, db.purchasing.receipts.get id = none →
    netFrom db.ledger "goods_receipt" id "GRNI" = 0
  issued : ∀ face ∈ billFaces db, netFrom db.ledger "supplier_bill" face.1 "GRNI" =
    if face.2.2.2 then face.2.2.1.netAmount else 0
  unbilled : ∀ id, id ∉ (billFaces db).map Prod.fst →
    netFrom db.ledger "supplier_bill" id "GRNI" = 0

variable {orderId : Uuid} {received billed : Money}

theorem Grni.keeps (h : Grni orderId received billed db) (hkeeps : KeepsGrni db db') :
    Grni orderId received billed db' := by
  have hreceipts : receiptsOf db' orderId = receiptsOf db orderId := by
    rw [receiptsOf, hkeeps.receipts]
    rfl
  refine ⟨hkeeps.linked, ?_, ?_, ?_, ?_, ?_⟩
  · simpa only [hreceipts, hkeeps.netFrom] using h.receipts
  · rw [hkeeps.faces]
    exact h.bills
  · simpa only [hkeeps.receipts, hkeeps.netFrom] using h.unreceived
  · simpa only [hkeeps.faces, hkeeps.netFrom] using h.issued
  · simpa only [hkeeps.faces, hkeeps.netFrom] using h.unbilled

/-- A receipt. -/
theorem Grni.receive (h : Grni orderId received billed db) {id : Uuid}
    {lines : Option (List ReceiptLineInput)}
    (hok : Purchasing.receive request db id lines = .ok db') :
    Grni orderId (received + (Op.receive id lines).receivedAmount orderId db) billed db' := by
  obtain ⟨order, items, state, number, orders, receipts, hget, hitems, hloop, -, hinsert, hbooks,
    htables⟩ := receive_eq_ok h.linked hok
  have hid : order.id = id := (Table.get_mem hget).2
  have hacc := receiveLines_accumulates (Accumulates.zero 12) rfl hloop
  rw [zero_add] at hacc
  have hcost := amountsOf_accumulated hacc (receipt_fits hbooks)
  have hposts := fun sourceType sourceId => hbooks.netFrom sourceType sourceId "GRNI"
  simp only [postings_goodsReceipt number hacc.acc_nonneg] at hposts
  obtain ⟨hrows, hnew⟩ := Table.insert_eq_some hinsert
  have hrows' : db'.purchasing.receipts.rows = db.purchasing.receipts.rows ++
      [⟨request.documentId, number, order.id, order.warehouseId, state.received⟩] := by
    rw [htables]
    exact hrows
  have hfaces : billFaces db' = billFaces db := by rw [billFaces, htables]; rfl
  -- The receipts that were there keep their postings.
  have hold : ∀ r ∈ db.purchasing.receipts.rows, netFrom db'.ledger "goods_receipt" r.id "GRNI" =
      netFrom db.ledger "goods_receipt" r.id "GRNI" := by
    intro r hr
    have hne : r.id ≠ request.documentId := Table.get_eq_none.mp hnew r hr
    simp [hposts, hne]
  have hbills : ∀ id, netFrom db'.ledger "supplier_bill" id "GRNI" =
      netFrom db.ledger "supplier_bill" id "GRNI" := by
    intro id
    simp [hposts]
  refine ⟨hbooks.linked, ?_, ?_, ?_, ?_, ?_⟩
  · have hsum : ((receiptsOf db orderId).map fun r =>
        netFrom db'.ledger "goods_receipt" r.id "GRNI").sum = -received := by
      rw [← h.receipts]
      congr 1
      exact List.map_congr_left fun r hr => hold r (List.mem_filter.mp hr).1
    have hamount : netFrom db'.ledger "goods_receipt" request.documentId "GRNI" =
        -PurchaseOrder.receivedAmount db.inventory lines order := by
      simp [hposts, h.unreceived _ hnew, PurchaseOrder.receivedAmount, hitems, hcost]
    rw [receiptsOf, hrows', List.filter_append, List.map_append, List.sum_append]
    show ((receiptsOf db orderId).map _).sum + _ = _
    rw [hsum]
    by_cases horder : id = orderId
    · subst horder
      simp only [hid, List.filter_cons_of_pos, decide_true, List.filter_nil, List.map_singleton,
        List.sum_singleton, hamount, Op.receivedAmount, if_true, hget, Option.map_some,
        Option.getD_some]
      ring
    · simp [Op.receivedAmount, horder, hid]
  · rw [hfaces]
    exact h.bills
  · intro id hnone
    have hnone' := Table.get_eq_none.mp hnone
    rw [hrows'] at hnone'
    have hne : id ≠ request.documentId := fun heq =>
      hnone' _ (List.mem_append_right _ (List.mem_singleton_self _)) heq.symm
    have hnone₀ : db.purchasing.receipts.get id = none :=
      Table.get_eq_none.mpr fun r hr => hnone' r (by simp [hr])
    simp [hposts, hne, h.unreceived id hnone₀]
  · simpa only [hfaces, hbills] using h.issued
  · simpa only [hfaces, hbills] using h.unbilled

/-- A draft of a bill. -/
theorem Grni.createBill (h : Grni orderId received billed db) {payload : SupplierBillCreate}
    (hok : Purchasing.createBill request db payload = .ok db') :
    Grni orderId received (billed + (Op.createBill payload).billedAmount orderId db) db' := by
  obtain ⟨order, state, bill, orders, bills, hget, hloop, -, horderId, hstatus, hlines, -, hinsert,
    htables⟩ := createBill_eq_ok hok
  have hid : order.id = payload.purchaseOrderId := (Table.get_mem hget).2
  have hledger : db'.ledger = db.ledger := by rw [htables]
  have hreceipts : db'.purchasing.receipts = db.purchasing.receipts := by rw [htables]
  obtain ⟨hrows, hnew⟩ := Table.insert_eq_some hinsert
  have hfaces : billFaces db' = billFaces db ++ [bill.face] := by
    rw [billFaces, htables, hrows, List.map_append]
    rfl
  have hface : bill.face = (bill.id, order.id, bill.amounts, false) := by
    simp [SupplierBill.face, horderId, hstatus, InvoiceStatus.isIssued]
  have hamount : bill.amounts.netAmount =
      (order.lines.map (PurchaseOrderLine.billedAmount payload.billReceivedOnly)).sum := by
    have hnet := billLines_netAmount hloop
    rw [(Amounts.total_eq_ok bill.totals_eq).1, hlines, List.map_map]
    rw [List.map_nil, List.sum_nil, zero_add] at hnet
    exact hnet
  have hunbilled : netFrom db.ledger "supplier_bill" bill.id "GRNI" = 0 := by
    refine h.unbilled _ fun hmem => ?_
    simp only [billFaces, List.map_map, List.mem_map, Function.comp_apply] at hmem
    obtain ⟨bill', hbill', heq⟩ := hmem
    exact Table.get_eq_none.mp hnew bill' hbill' heq
  refine ⟨?_, ?_, ?_, ?_, ?_, ?_⟩
  · rw [hledger]
    exact h.linked
  · rw [receiptsOf, hreceipts, hledger]
    exact h.receipts
  · rw [hfaces, List.filter_append, List.map_append, List.sum_append, h.bills, hface, hid]
    by_cases horder : payload.purchaseOrderId = orderId
    · subst horder
      simp [Op.billedAmount, hget, hamount]
    · simp [Op.billedAmount, horder]
  · rw [hreceipts, hledger]
    exact h.unreceived
  · rw [hfaces, hledger]
    intro face hmem
    rcases List.mem_append.mp hmem with hmem | hmem
    · exact h.issued face hmem
    · rw [List.mem_singleton.mp hmem, hface]
      simpa using hunbilled
  · rw [hfaces, hledger]
    intro id hnot
    refine h.unbilled id fun hmem => hnot ?_
    rw [List.map_append]
    exact List.mem_append_left _ hmem

/-- The issue of a bill. -/
theorem Grni.issueBill (h : Grni orderId received billed db) {billId : Uuid}
    (hok : Purchasing.issueBill request db billId = .ok db') :
    Grni orderId received billed db' := by
  obtain ⟨bill, number, bills, rows, hget, hdraft, hreplace, -, hbooks, htables⟩ :=
    issueBill_eq_ok h.linked hok
  have hget := Table.get_self hget
  have hmem : bill ∈ db.purchasing.bills.rows := (Table.get_mem hget).1
  have hreceipts : db'.purchasing.receipts = db.purchasing.receipts := by rw [htables]
  have hbills : db'.purchasing.bills = bills := by rw [htables]
  have hposts := fun sourceType sourceId => hbooks.netFrom sourceType sourceId "GRNI"
  simp only [postings_supplierBill] at hposts
  have hreceived : ∀ id, netFrom db'.ledger "goods_receipt" id "GRNI" =
      netFrom db.ledger "goods_receipt" id "GRNI" := by
    intro id
    simp [hposts]
  -- Everything but the flag of the bill is as before.
  obtain ⟨before, after, hold, hnew⟩ := Table.replace_eq_some hget hreplace
  have hsums : (((billFaces db').filter (·.2.1 = orderId)).map (·.2.2.1.netAmount)).sum =
      (((billFaces db).filter (·.2.1 = orderId)).map (·.2.2.1.netAmount)).sum := by
    simp only [billFaces, hbills, hold, hnew, Table.sum_filter, List.map_append, List.map_cons]
    rfl
  have hids : (billFaces db').map Prod.fst = (billFaces db).map Prod.fst := by
    simp only [billFaces, hbills, hold, hnew, List.map_append, List.map_cons]
    rfl
  refine ⟨hbooks.linked, ?_, hsums.trans h.bills, ?_, ?_, ?_⟩
  · simpa only [receiptsOf, hreceipts, hreceived] using h.receipts
  · simpa only [hreceipts, hreceived] using h.unreceived
  · rw [billFaces, hbills]
    intro face hface
    obtain ⟨bill', hbill', rfl⟩ := List.mem_map.mp hface
    rcases (Table.mem_replace hget hreplace).mp hbill' with ⟨hbill', hne⟩ | rfl
    · have hne : bill'.id ≠ bill.id := hne
      have hissued := h.issued _ (List.mem_map_of_mem hbill')
      simpa [hposts, SupplierBill.face, hne] using hissued
    · have hissued := h.issued _ (List.mem_map_of_mem hmem)
      simp only [SupplierBill.face, hdraft] at hissued
      simp [hposts, SupplierBill.face, hissued, InvoiceStatus.isIssued]
  · rw [hids]
    intro id hnot
    have hne : id ≠ bill.id := by
      rintro rfl
      exact hnot (List.mem_map_of_mem (List.mem_map_of_mem hmem))
    simp [hposts, hne, h.unbilled id hnot]

/-- Requests outside purchasing, and those that only change the status of an order. -/
def Op.keepsGrni : Op → Bool
  | .receive .. | .createBill .. | .issueBill .. => false
  | _ => true

theorem Op.keeps_grni {op : Op} (hdb : db.ledger.Linked) (hkeeps : op.keepsGrni)
    (hok : op.body request db = .ok db') : KeepsGrni db db' := by
  cases op with
  | createQuotation payload => exact .changesOrders hdb (createQuotation_eq_ok hok)
  | setQuotationStatus id status => exact .changesOrders hdb (setQuotationStatus_eq_ok hok)
  | convertQuotation id payload => exact .changesOrders hdb (convertQuotation_eq_ok hok)
  | createSalesOrder payload => exact .changesOrders hdb (Sales.createOrder_eq_ok hok)
  | confirmSalesOrder id => exact .changesOrders hdb (Sales.confirmOrder_eq_ok hok)
  | cancelSalesOrder id => exact .changesOrders hdb (Sales.cancelOrder_eq_ok hok)
  | fulfil id lines =>
      obtain ⟨_, _, _, _, _, _, -, -, -, hbooks, htables⟩ := fulfil_eq_ok hdb hok
      exact .of_books hbooks (by rw [htables]) (by rw [htables]) (by rw [htables]; rfl) (grni_fulfillment _ _)
  | createInvoice payload =>
      obtain ⟨_, _, _, -, -, rfl⟩ := createInvoice_eq_ok hok
      exact .outside hdb (.refl _) rfl
  | issueInvoice id claim =>
      obtain rfl | ⟨_, _, _, _, -, -, -, -, hbooks, htables⟩ := issueInvoice_eq_ok hdb hok
      · exact .refl hdb
      · exact .of_books hbooks (by rw [htables]) (by rw [htables]) (by rw [htables]; rfl) (grni_invoice _ _)
  | recordCustomerPayment payload claim =>
      obtain rfl | ⟨_, _, _, -, -, -, -, hbooks, htables⟩ := Sales.recordPayment_eq_ok hdb hok
      · exact .refl hdb
      · exact .of_books hbooks (by rw [htables]) (by rw [htables]) (by rw [htables]; rfl)
          (grni_payment _ _ _ (by simp [PostingRules.customerPayment, tenderAccount_ne_grni]))
  | issueCreditNote payload =>
      obtain ⟨_, _, _, _, _, _, -, -, -, -, -, -, hbooks, htables⟩ := issueCreditNote_eq_ok hdb hok
      exact .of_books hbooks (by rw [htables]) (by rw [htables]) (by rw [htables]; rfl) (grni_creditNote _ _)
  | createPurchaseOrder payload => exact .createOrder hdb hok
  | confirmPurchaseOrder id => exact .changesStatus hdb (Purchasing.confirmOrder_eq_ok hok)
  | cancelPurchaseOrder id => exact .changesStatus hdb (Purchasing.cancelOrder_eq_ok hok)
  | receive id lines => cases hkeeps
  | createBill payload => cases hkeeps
  | issueBill id => cases hkeeps
  | recordSupplierPayment payload claim =>
      obtain rfl | ⟨_, _, _, -, -, hfaces, -, hbooks, htables⟩ :=
        Purchasing.recordPayment_eq_ok hdb hok
      · exact .refl hdb
      · exact .of_books hbooks (by rw [htables]) (by rw [htables]) (by rw [htables]; exact hfaces)
          (grni_payment _ _ _ (by simp [PostingRules.supplierPayment, tenderAccount_ne_grni]))
  | openSession payload => exact .changesSessions hdb (openSession_eq_ok hok)
  | closeSession id countedCash => exact .changesSessions hdb (closeSession_eq_ok hok)
  | checkout payload claim =>
      obtain ⟨-, rfl⟩ | ⟨-, _, _, _, _, -, -, -, -, -, -, hbooks, htables⟩ := checkout_eq_ok hdb hok
      · exact .refl hdb
      · exact .of_books hbooks (by rw [htables]) (by rw [htables]) (by rw [htables]; rfl) (grni_sale _)
  | refund payload claim =>
      obtain ⟨-, rfl⟩ | ⟨-, _, _, _, _, _, _, _, _, -, -, -, -, -, -, -, -, hbooks, htables⟩ :=
        refund_eq_ok hdb hok
      · exact .refl hdb
      · exact .of_books hbooks (by rw [htables]) (by rw [htables]) (by rw [htables]; rfl) (grni_refund _ _)
  | inventory op own =>
      obtain ⟨result, -, rfl⟩ := map_eq_ok.mp hok
      exact .outside hdb (.refl _) rfl
  | ledger op own =>
      obtain ⟨ledger, hrequest, rfl⟩ := map_eq_ok.mp hok
      exact .outside hdb (LedgerOp.sameCodes own hrequest) rfl
  | configure configuration =>
      cases hok
      exact .outside hdb (.refl _) rfl

/-- One request, with what it receives and bills of the order. -/
theorem Grni.step (h : Grni orderId received billed db) {op : Op}
    (hok : op.body request db = .ok db') :
    Grni orderId (received + op.receivedAmount orderId db) (billed + op.billedAmount orderId db)
      db' := by
  cases op with
  | receive id lines => simpa [Op.billedAmount] using h.receive hok
  | createBill payload => simpa [Op.receivedAmount] using h.createBill hok
  | issueBill id => simpa [Op.receivedAmount, Op.billedAmount] using h.issueBill hok
  | _ =>
      simpa [Op.receivedAmount, Op.billedAmount] using h.keeps (Op.keeps_grni h.linked rfl hok)

/-- One request of a run.  One that raises receives and bills nothing. -/
theorem Grni.call (h : Grni orderId received billed db) (call : Call) :
    Grni orderId (received + db.amountOf (Op.receivedAmount orderId) call)
      (billed + db.amountOf (Op.billedAmount orderId) call) (db.step call) := by
  rcases db.step_cases call with ⟨hfails, hstep⟩ | ⟨db', hok, hcommits, hstep⟩
  · simpa [TenantDb.amountOf, hfails, hstep] using h
  · simpa [TenantDb.amountOf, hcommits, hstep] using h.step hok

/-- A run, with what its requests receive and bill of the order. -/
theorem Grni.run (h : Grni orderId received billed db) (calls : List Call) :
    Grni orderId (received + db.sumOver (Op.receivedAmount orderId) calls)
      (billed + db.sumOver (Op.billedAmount orderId) calls) (db.run calls) := by
  induction calls generalizing db received billed with
  | nil => simpa [TenantDb.sumOver, TenantDb.run] using h
  | cons call calls ih =>
      rw [TenantDb.sumOver, TenantDb.sumOver, ← add_assoc, ← add_assoc]
      exact ih (h.call call)

theorem Grni.start (configuration : Configuration) (orderId : Uuid) :
    Grni orderId 0 0 (.start configuration) := by
  have hledger : ∀ sourceType sourceId,
      netFrom (TenantDb.start configuration).ledger sourceType sourceId "GRNI" = 0 := by
    intro sourceType sourceId
    rfl
  refine ⟨LedgerDb.linked_empty, ?_, ?_, ?_, ?_, ?_⟩
  · rfl
  · rfl
  · exact fun id _ => hledger _ id
  · intro face hface
    rw [show billFaces (TenantDb.start configuration) = [] from rfl] at hface
    cases hface
  · exact fun id _ => hledger _ id

/-- The account shows what was billed less what was received. -/
theorem Grni.orderGrni_eq (h : Grni orderId received billed db) (hdb : db.Completed orderId) :
    db.orderGrni orderId = billed - received := by
  obtain ⟨order, -, -, hissued⟩ := hdb
  have hbills : ((billsOf db orderId).map fun b =>
      netFrom db.ledger "supplier_bill" b.id "GRNI").sum = billed := by
    rw [← h.bills, billFaces, List.filter_map, List.map_map]
    congr 1
    refine List.map_congr_left fun bill hbill => ?_
    have hposted := h.issued _ (List.mem_map_of_mem (List.mem_filter.mp hbill).1)
    simp only [SupplierBill.face, hissued bill hbill, if_true] at hposted
    exact hposted
  rw [TenantDb.orderGrni, h.receipts, hbills]
  ring

/-! ## Exact requests -/

/-- The lines of a receipt advance by what the receipt amounts to. -/
theorem receiveLines_progress {warehouseId receiptId : Uuid} {items : List ReceiptLineInput}
    {inventory : InventoryDb} {lines : List PurchaseOrderLine} {state state' : ReceiveState}
    (hexact : ∀ line ∈ lines, ∀ item ∈ requestedFor items line.id,
      inventory.tracks line.productId ∧ item.costOf line = line.unitCost ∧
        10 ^ 8 ∣ item.quantity * line.unitCost)
    (h : lines.foldlM (receiveLine warehouseId receiptId items) state = .ok state') :
    ∃ n : Int, linesProgress state'.lines = linesProgress state.lines + linesProgress lines +
        (10 ^ 8 * n, 0) ∧
      (lines.map (PurchaseOrderLine.receivedValue inventory items)).sum * 10 ^ 4 = n := by
  induction lines generalizing state with
  | nil =>
      cases h
      exact ⟨0, by simp [linesProgress], by simp⟩
  | cons line lines ih =>
      rw [List.foldlM_cons] at h
      obtain ⟨state₁, hpass, h⟩ := bind_eq_ok.mp h
      obtain ⟨n, hn, hvalue⟩ := ih (fun line hline => hexact line (List.mem_cons_of_mem _ hline)) h
      simp only [receiveLine] at hpass
      split at hpass
      next hnone =>
        cases hpass
        refine ⟨n, ?_, ?_⟩
        · rw [hn, linesProgress_append, linesProgress_cons line lines]
          abel
        · simpa [PurchaseOrderLine.receivedValue, hnone] using hvalue
      next item hitem =>
        split at hpass
        next hle =>
          obtain ⟨product, -, hpass⟩ := bind_eq_ok.mp hpass
          obtain ⟨inventory', -, hpass⟩ := bind_eq_ok.mp hpass
          cases hpass
          obtain ⟨htracks, hcost, m, hm⟩ := hexact line List.mem_cons_self item hitem
          refine ⟨m + n, ?_, ?_⟩
          · rw [hn, linesProgress_append, linesProgress_cons line lines]
            simp only [linesProgress, PurchaseOrderLine.receive, List.map_cons, List.map_nil,
              List.sum_cons, List.sum_nil, add_zero, Prod.ext_iff, Prod.fst_add, Prod.snd_add]
            constructor
            · linear_combination hm
            · ring
          · have hm' : (item.quantity : ℚ) * line.unitCost = 10 ^ 8 * m := by exact_mod_cast hm
            simp only [List.map_cons, List.sum_cons, PurchaseOrderLine.receivedValue, hitem,
              htracks, if_true, hcost, add_mul, hvalue, decimal, Int.cast_add]
            linear_combination hm' / 10 ^ 8
        next => cases hpass

/-- The lines of a bill advance by what the bill amounts to. -/
theorem billLines_progress {receivedOnly : Bool} {lines : List PurchaseOrderLine}
    {state state' : BillState}
    (hexact : ∀ line ∈ lines, 10 ^ 8 ∣ line.toBill receivedOnly * line.unitCost)
    (h : lines.foldlM (billLine receivedOnly) state = .ok state') :
    linesProgress state'.lines = linesProgress state.lines + linesProgress lines +
      (0, 10 ^ 8 * (lines.map (PurchaseOrderLine.billedAmount receivedOnly)).sum) := by
  induction lines generalizing state with
  | nil =>
      cases h
      simp [linesProgress]
  | cons line lines ih =>
      rw [List.foldlM_cons] at h
      obtain ⟨state₁, hpass, h⟩ := bind_eq_ok.mp h
      rw [ih (fun line hline => hexact line (List.mem_cons_of_mem _ hline)) h,
        linesProgress_cons line lines, List.map_cons, List.sum_cons]
      simp only [billLine] at hpass
      split at hpass
      next hpos =>
        obtain ⟨priced, -, hpass⟩ := bind_eq_ok.mp hpass
        cases hpass
        obtain ⟨m, hm⟩ := hexact line List.mem_cons_self
        have hm' : decimal (line.toBill receivedOnly) * (line.unitCost / 10 ^ 6) * 10 ^ 4 = m := by
          have hm' : (line.toBill receivedOnly : ℚ) * line.unitCost = 10 ^ 8 * m := by
            exact_mod_cast hm
          rw [decimal]
          linear_combination hm' / 10 ^ 8
        rw [linesProgress_append, PurchaseOrderLine.billedAmount, if_pos hpos, hm',
          roundHalfUp_intCast]
        simp only [linesProgress, PurchaseOrderLine.bill, List.map_cons, List.map_nil,
          List.sum_cons, List.sum_nil, add_zero, Prod.ext_iff, Prod.fst_add, Prod.snd_add]
        constructor
        · ring
        · linear_combination hm
      next hpos =>
        cases hpass
        rw [linesProgress_append, PurchaseOrderLine.billedAmount, if_neg hpos, zero_add]
        abel

/-- The order has advanced by what was received and billed. -/
def AtCost (orderId : Uuid) (received billed : Money) (db : TenantDb) : Prop :=
  db.progress orderId = (10 ^ 8 * received, 10 ^ 8 * billed)

/-- The progress of an order after its row was written. -/
theorem progress_replace {orders : Table PurchaseOrder.id} {id : Uuid} {order new : PurchaseOrder}
    (hget : db.purchasing.orders.get id = some order) (hid : new.id = id)
    (hreplace : db.purchasing.orders.replace id new = some orders)
    (horders : db'.purchasing.orders = orders) (orderId : Uuid) :
    db'.progress orderId =
      if orderId = id then linesProgress new.lines else db.progress orderId := by
  rw [TenantDb.progress, horders, Table.get_replace hget hid hreplace]
  split
  · rfl
  · rfl

theorem AtCost.step (h : AtCost orderId received billed db) {op : Op} (hdb : db.ledger.Linked)
    (hexact : op.Exact orderId db) (hok : op.body request db = .ok db') :
    AtCost orderId (received + op.receivedAmount orderId db) (billed + op.billedAmount orderId db)
      db' := by
  cases op with
  | receive id lines =>
      obtain ⟨order, items, state, _, orders, _, hget, hitems, hloop, hreplace, -, -, htables⟩ :=
        receive_eq_ok hdb hok
      have hid : order.id = id := (Table.get_mem hget).2
      have hprogress := progress_replace (Table.get_self hget) (by rfl) hreplace
        (by rw [htables] : db'.purchasing.orders = orders) orderId
      rw [AtCost, hprogress]
      split
      next horder =>
        have horder : id = orderId := (horder.trans hid).symm
        subst horder
        obtain ⟨n, hn, hvalue⟩ := receiveLines_progress (hexact rfl order hget items hitems) hloop
        have hbefore : linesProgress order.lines = (10 ^ 8 * received, 10 ^ 8 * billed) := by
          rw [← h, TenantDb.progress, hget]
          rfl
        have hamount : (Op.receive id lines).receivedAmount id db = n := by
          simp [Op.receivedAmount, hget, PurchaseOrder.receivedAmount, hitems, hvalue]
        rw [hn, hamount, hbefore]
        simp [linesProgress, Op.billedAmount, mul_add]
      next horder =>
        have hne : id ≠ orderId := fun heq => horder (heq.symm.trans hid.symm)
        simpa [AtCost, Op.receivedAmount, Op.billedAmount, hne] using h
  | createBill payload =>
      obtain ⟨order, state, _, orders, _, hget, hloop, -, -, -, -, hreplace, -, htables⟩ :=
        createBill_eq_ok hok
      have hid : order.id = payload.purchaseOrderId := (Table.get_mem hget).2
      have hprogress := progress_replace (Table.get_self hget) (by rfl) hreplace
        (by rw [htables] : db'.purchasing.orders = orders) orderId
      rw [AtCost, hprogress]
      split
      next horder =>
        have horder : payload.purchaseOrderId = orderId := (horder.trans hid).symm
        subst horder
        have hn := billLines_progress (hexact rfl order hget) hloop
        have hbefore : linesProgress order.lines = (10 ^ 8 * received, 10 ^ 8 * billed) := by
          rw [← h, TenantDb.progress, hget]
          rfl
        rw [hn, hbefore]
        simp [linesProgress, Op.receivedAmount, Op.billedAmount, hget, mul_add]
      next horder =>
        have hne : payload.purchaseOrderId ≠ orderId := fun heq => horder (heq.symm.trans hid.symm)
        simpa [AtCost, Op.receivedAmount, Op.billedAmount, hne] using h
  | issueBill id =>
      obtain ⟨_, _, _, _, -, -, -, -, -, htables⟩ := issueBill_eq_ok hdb hok
      have hprogress : db'.progress orderId = db.progress orderId := by
        rw [TenantDb.progress, htables]
        rfl
      simpa [AtCost, hprogress, Op.receivedAmount, Op.billedAmount] using h
  | _ =>
      have hkeeps := Op.keeps_grni hdb rfl hok
      simpa [AtCost, hkeeps.progress, Op.receivedAmount, Op.billedAmount] using h

theorem AtCost.run (h : AtCost orderId received billed db)
    (hgrni : Grni orderId received billed db) {calls : List Call}
    (hexact : db.AllOver (Op.Exact orderId) calls) :
    AtCost orderId (received + db.sumOver (Op.receivedAmount orderId) calls)
      (billed + db.sumOver (Op.billedAmount orderId) calls) (db.run calls) := by
  induction calls generalizing db received billed with
  | nil => simpa [TenantDb.sumOver, TenantDb.run] using h
  | cons call calls ih =>
      obtain ⟨hcall, hcalls⟩ := hexact
      rw [TenantDb.sumOver, TenantDb.sumOver, ← add_assoc, ← add_assoc]
      refine ih ?_ ?_ hcalls
      · rcases db.step_cases call with ⟨hfails, hstep⟩ | ⟨db', hok, hcommits, hstep⟩
        · simpa [TenantDb.amountOf, hfails, hstep] using h
        · simpa [TenantDb.amountOf, hcommits, hstep] using h.step hgrni.linked (hcall hcommits) hok
      · exact hgrni.call call

/-- An order that is received and billed in full was received and billed alike. -/
theorem AtCost.received_eq_billed (h : AtCost orderId received billed db)
    (hdone : db.Completed orderId) : received = billed := by
  obtain ⟨order, hget, hlines, -⟩ := hdone
  have hsame : (linesProgress order.lines).1 = (linesProgress order.lines).2 := by
    simp only [linesProgress]
    congr 1
    refine List.map_congr_left fun line hline => ?_
    rw [(hlines line hline).1, (hlines line hline).2]
  have hprogress : linesProgress order.lines = (10 ^ 8 * received, 10 ^ 8 * billed) := by
    rw [← h, TenantDb.progress, hget]
    rfl
  rw [hprogress] at hsame
  simpa using hsame

/-- In every run and for every order that ends up received and billed in full, `GRNI` is
clear of the order exactly when its receipts and its bills amount to the same.  Receipts
count what tracks stock at the cost it was received at, rounded for each receipt, and bills
count every line at the cost of the order, rounded for each line.  So it is clear whenever
everything tracks stock, no receipt replaces the cost, and no amount needs rounding. -/
theorem grni_clears_iff (configuration : Configuration) (calls : List Call) (orderId : Uuid)
    (hdone : ((TenantDb.start configuration).run calls).Completed orderId) :
    (((TenantDb.start configuration).run calls).orderGrni orderId = 0 ↔
      (TenantDb.start configuration).sumOver (Op.receivedAmount orderId) calls =
        (TenantDb.start configuration).sumOver (Op.billedAmount orderId) calls) ∧
    ((TenantDb.start configuration).AllOver (Op.Exact orderId) calls →
      ((TenantDb.start configuration).run calls).orderGrni orderId = 0) := by
  have hstart := Grni.start configuration orderId
  have hgrni := hstart.run calls
  rw [zero_add, zero_add] at hgrni
  have hnet := hgrni.orderGrni_eq hdone
  constructor
  · rw [hnet, sub_eq_zero, eq_comm]
  · intro hexact
    have hcost : AtCost orderId 0 0 (.start configuration) := rfl
    have hcosts := hcost.run hstart hexact
    rw [zero_add, zero_add] at hcosts
    rw [hnet, hcosts.received_eq_billed hdone, sub_self]

/-- An order of one piece of a product at `2`, received and billed in full. -/
def cornerOrder (productId : Uuid) : List Call :=
  [⟨cornerRequest 1, .createPurchaseOrder
    { supplierId := 1
      branchId := 4
      warehouseId := 1
      orderDate := ⟨2026, 1, 15⟩
      lines := [⟨productId, 1000000, 2000000, 150000, Sample.onePiece_pos, Sample.onePiece_lt, by decide,
        Sample.fifteenPercent⟩] }⟩,
   ⟨cornerRequest 2, .confirmPurchaseOrder 1⟩,
   ⟨cornerRequest 3, .receive 1 none⟩,
   ⟨cornerRequest 4, .createBill ⟨1, ⟨2026, 1, 15⟩, none, true⟩⟩,
   ⟨cornerRequest 5, .issueBill 4⟩]

/-- Goods clear the account. -/
theorem grni_clears_goods :
    ((TenantDb.start corner).run (cornerOrder 7)).Completed 1 ∧
      ((TenantDb.start corner).run (cornerOrder 7)).orderGrni 1 = 0 := by
  have hdone : ((TenantDb.start corner).run (cornerOrder 7)).Completed 1 := by decide +kernel
  exact ⟨hdone, (grni_clears_iff corner (cornerOrder 7) 1 hdone).1.mpr (by decide +kernel)⟩

/-- A service does not: it is billed, and its receipt posts nothing. -/
theorem grni_left_by_service :
    ((TenantDb.start corner).run (cornerOrder 8)).Completed 1 ∧
      ((TenantDb.start corner).run (cornerOrder 8)).orderGrni 1 = 20000 := by
  constructor
  · decide +kernel
  · decide +kernel

end Nexora.Tenant
