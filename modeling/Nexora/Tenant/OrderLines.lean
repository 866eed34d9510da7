import Nexora.Foundations.OrderBook
import Nexora.Tenant.DocumentRuns

/-!
# Lines of orders

Orders of sales are fulfilled and invoiced in parts, and orders of purchasing are received and
billed in parts.  Each side is an `OrderBook` (`SalesDb.orderBook`, `PurchasingDb.orderBook`), in
which the counters of a line stand beside the lines of the documents that they count.

`Writes.salesOrders` and `Writes.purchaseOrders` say that every request on documents is a step of
both books.  `order_lines_counted` is about every interleaving of such requests.
-/

namespace Nexora.Sales

open Nexora Nexora.Catalog Nexora.Tenant Foundations
open OrderBook (Line Order Book Step foldlM_grows)

/-! ## Sales -/

def SalesOrderStatus.stage : SalesOrderStatus → OrderBook.Status
  | .draft => .draft
  | .confirmed => .confirmed
  | .partiallyFulfilled => .partly
  | .fulfilled => .complete
  | .cancelled => .cancelled

theorem SalesOrderStatus.stage_inj {status status' : SalesOrderStatus} :
    status.stage = status'.stage ↔ status = status' := by
  cases status <;> cases status' <;> decide

def SalesOrderLine.view (line : SalesOrderLine) : Line Uuid :=
  ⟨line.id, line.quantity, line.fulfilledQuantity, line.invoicedQuantity⟩

def SalesOrder.view (order : SalesOrder) : Order Uuid :=
  ⟨order.status.stage, order.lines.map SalesOrderLine.view⟩

/-- The order of a fulfilment, with what its lines say of the lines of the order. -/
def Fulfillment.parts (fulfillment : Fulfillment) : Uuid × List (Uuid × Quantity) :=
  (fulfillment.salesOrderId,
    fulfillment.lines.map fun line => (line.salesOrderLineId, line.quantity))

def Invoice.parts (invoice : Invoice) : Uuid × List (Uuid × Quantity) :=
  (invoice.salesOrderId, invoice.lines.map fun line => (line.salesOrderLineId, line.quantity))

/-- What the fulfilments of an order say of a line. -/
def SalesDb.shippedOf (db : SalesDb) : Uuid → Uuid → Quantity :=
  amountIn (db.fulfillments.rows.map Fulfillment.parts)

/-- What the invoices of an order say of a line. -/
def SalesDb.invoicedOf (db : SalesDb) : Uuid → Uuid → Quantity :=
  amountIn (db.invoices.rows.map Invoice.parts)

def SalesDb.orderBook (db : SalesDb) : Book Uuid :=
  ⟨fun id => (db.orders.get id).map SalesOrder.view, db.shippedOf, db.invoicedOf⟩

/-! ### Fulfilment -/

variable {request : Request}

/-- What is asked for of a line. -/
def takeFulfil (items : List RequestedLine) (line : SalesOrderLine) : Option Quantity :=
  (requestedFor items line.id).map (·.quantity)

theorem takeFulfil_pos {items : List RequestedLine} {line : SalesOrderLine} {amount : Quantity}
    (h : takeFulfil items line = some amount) : 0 < amount := by
  obtain ⟨item, -, rfl⟩ := Option.map_eq_some_iff.mp h
  exact item.quantity_pos

theorem fulfilLine_parts {warehouseId documentId : Uuid} {items : List RequestedLine}
    {state state' : FulfilState} {line : SalesOrderLine}
    (h : fulfilLine warehouseId documentId items state line = .ok state') :
    state'.lines.map SalesOrderLine.view = state.lines.map SalesOrderLine.view ++
        [line.view.fulfil ((takeFulfil items line).getD 0)] ∧
      (state'.shipped.map fun l => (l.salesOrderLineId, l.quantity)) =
        (state.shipped.map fun l => (l.salesOrderLineId, l.quantity)) ++
          ((takeFulfil items line).map (line.view.id, ·)).toList ∧
      line.fulfilledQuantity + (takeFulfil items line).getD 0 ≤ line.quantity := by
  unfold fulfilLine at h
  split at h
  next hnone =>
    cases h
    rw [takeFulfil, hnone]
    refine ⟨?_, ?_, ?_⟩
    · simp [SalesOrderLine.view, Line.fulfil]
    · simp
    · simpa using line.fulfilled_within_ordered.2
  next item hsome =>
    split at h
    next hle =>
      obtain ⟨product, -, h⟩ := bind_eq_ok.mp h
      obtain ⟨inventory, -, h⟩ := bind_eq_ok.mp h
      cases h
      rw [takeFulfil, hsome]
      refine ⟨?_, ?_, ?_⟩
      · simp [SalesOrderLine.view, Line.fulfil, SalesOrderLine.fulfil]
      · simp [SalesOrderLine.view]
      · exact le_sub_iff_add_le'.mp hle
    next => cases h

theorem fulfilledStatus_stage (lines : List SalesOrderLine) :
    (fulfilledStatus lines).stage =
      if ∀ line ∈ lines.map SalesOrderLine.view, line.IsComplete then .complete else .partly := by
  have hiff : (lines.all fun line => line.quantity ≤ line.fulfilledQuantity) = true ↔
      ∀ line ∈ lines.map SalesOrderLine.view, line.IsComplete := by
    simp only [List.all_eq_true, decide_eq_true_eq, List.forall_mem_map]
    exact forall₂_congr fun line _ =>
      ⟨fun h => le_antisymm line.fulfilled_within_ordered.2 h, fun h => ge_of_eq h⟩
  unfold fulfilledStatus
  simp only [hiff, apply_ite SalesOrderStatus.stage]
  rfl

/-- Something is shipped of a line when something is asked for. -/
theorem requested_pos {order : SalesOrder} {lines : Option (List RequestedLine)}
    {items : List RequestedLine} (h : order.requested lines = .ok items) (hne : items ≠ []) :
    ∃ line ∈ order.lines, 0 < (takeFulfil items line).getD 0 := by
  obtain ⟨item, hitem⟩ := List.exists_mem_of_ne_nil _ hne
  obtain ⟨line, hline, hid⟩ : ∃ line ∈ order.lines, line.id = item.lineId := by
    cases lines with
    | none =>
        cases h
        obtain ⟨line, hline, hsome⟩ := List.mem_filterMap.mp hitem
        unfold SalesOrderLine.outstanding at hsome
        split at hsome
        · cases hsome
          exact ⟨line, hline, rfl⟩
        · cases hsome
    | some named =>
        simp only [SalesOrder.requested] at h
        split at h
        next hall =>
          cases h
          exact List.mem_map.mp (of_decide_eq_true (List.all_eq_true.mp hall item hitem))
        next => cases h
  have hsome : (requestedFor items line.id).isSome :=
    List.find?_isSome.mpr ⟨item, List.mem_reverse.mpr hitem, by simp [hid]⟩
  obtain ⟨found, hfound⟩ := Option.isSome_iff_exists.mp hsome
  refine ⟨line, hline, ?_⟩
  rw [takeFulfil, hfound]
  exact found.quantity_pos

/-! ### Invoices -/

/-- What is invoiced of a line. -/
def takeInvoice (fulfilledOnly : Bool) (row : SalesOrderLine × Nat) : Option Quantity :=
  if 0 < row.1.toInvoice fulfilledOnly then some (row.1.toInvoice fulfilledOnly) else none

theorem takeInvoice_nonneg (fulfilledOnly : Bool) (row : SalesOrderLine × Nat) :
    0 ≤ (takeInvoice fulfilledOnly row).getD 0 := by
  unfold takeInvoice
  split
  next hpos => exact hpos.le
  next => exact le_rfl

theorem LineInput.price_quantity {line : LineInput} {priced : PricedLine}
    (h : line.price = .ok priced) : priced.toLineInput = line := by
  unfold LineInput.price at h
  split at h
  next => cases h
  next =>
    cases h
    rfl

theorem invoiceLine_parts {fulfilledOnly : Bool} {state state' : InvoiceState}
    {row : SalesOrderLine × Nat} (h : invoiceLine request fulfilledOnly state row = .ok state') :
    state'.lines.map SalesOrderLine.view = state.lines.map SalesOrderLine.view ++
        [row.1.view.invoice ((takeInvoice fulfilledOnly row).getD 0)] ∧
      (state'.invoiced.map fun l => (l.salesOrderLineId, l.quantity)) =
        (state.invoiced.map fun l => (l.salesOrderLineId, l.quantity)) ++
          ((takeInvoice fulfilledOnly row).map (row.1.view.id, ·)).toList ∧
      row.1.invoicedQuantity + (takeInvoice fulfilledOnly row).getD 0 ≤ row.1.quantity := by
  unfold invoiceLine at h
  split at h
  next hpos =>
    obtain ⟨priced, hpriced, h⟩ := bind_eq_ok.mp h
    cases h
    have hquantity : priced.quantity = row.1.toInvoice fulfilledOnly :=
      congrArg LineInput.quantity (LineInput.price_quantity hpriced)
    rw [takeInvoice, if_pos hpos]
    refine ⟨?_, ?_, ?_⟩
    · simp [SalesOrderLine.view, Line.invoice, SalesOrderLine.invoice]
    · simp [SalesOrderLine.view, hquantity]
    · exact le_sub_iff_add_le'.mp (row.1.toInvoice_le fulfilledOnly)
  next hnot =>
    cases h
    rw [takeInvoice, if_neg hnot]
    refine ⟨?_, ?_, ?_⟩
    · simp [SalesOrderLine.view, Line.invoice]
    · simp
    · simpa using row.1.invoiced_within_ordered.2

/-! ### Orders -/

theorem SalesOrder.view_ids (order : SalesOrder) :
    order.view.lines.map Line.id = order.lines.map fun line => line.view.id := by
  rw [SalesOrder.view, List.map_map]
  rfl

/-- The order after the loop of `fulfil`. -/
theorem fulfil_view {order : SalesOrder} {warehouseId documentId : Uuid}
    {items : List RequestedLine} {inventory : Inventory.InventoryDb} {state : FulfilState}
    (hunique : (order.view.lines.map Line.id).Nodup)
    (h : order.lines.foldlM (fulfilLine warehouseId documentId items) ⟨inventory, 0, [], []⟩ =
      .ok state) :
    ∃ amount, amount = amountFor (state.shipped.map fun l => (l.salesOrderLineId, l.quantity)) ∧
      (∀ line ∈ order.lines, amount line.id = (takeFulfil items line).getD 0 ∧
        line.fulfilledQuantity + amount line.id ≤ line.quantity) ∧
      state.lines.map SalesOrderLine.view = order.view.fulfilLines amount := by
  rw [SalesOrder.view_ids] at hunique
  obtain ⟨hlines, hamount⟩ := foldlM_grows SalesOrderLine.view (takeFulfil items) Line.fulfil
    hunique h rfl rfl fun _ _ _ => fulfilLine_parts
  refine ⟨_, rfl, fun line hline => ?_, hlines⟩
  obtain ⟨heq, hle⟩ := hamount line hline
  exact ⟨heq, heq ▸ hle⟩

/-- The order after the loop of `create_invoice`. -/
theorem invoice_view {order : SalesOrder} {fulfilledOnly : Bool} {state : InvoiceState}
    (hunique : (order.view.lines.map Line.id).Nodup)
    (h : order.lines.zipIdx.foldlM (invoiceLine request fulfilledOnly) ⟨[], []⟩ = .ok state) :
    ∃ amount, amount = amountFor (state.invoiced.map fun l => (l.salesOrderLineId, l.quantity)) ∧
      (∀ line ∈ order.lines,
        0 ≤ amount line.id ∧ line.invoicedQuantity + amount line.id ≤ line.quantity) ∧
      state.lines.map SalesOrderLine.view =
        order.view.lines.map fun line => line.invoice (amount line.id) := by
  have hrows : (order.lines.zipIdx.map fun row => row.1.view) = order.view.lines := by
    have hrows := congrArg (List.map SalesOrderLine.view) (List.zipIdx_map_fst 0 order.lines)
    rw [List.map_map] at hrows
    exact hrows
  have hids : (order.lines.zipIdx.map fun row => row.1.view.id) = order.view.lines.map Line.id := by
    rw [← hrows, List.map_map]
    rfl
  obtain ⟨hlines, hamount⟩ := foldlM_grows (fun row => row.1.view) (takeInvoice fulfilledOnly)
    Line.invoice (hids ▸ hunique) h rfl rfl fun _ _ _ => invoiceLine_parts
  rw [hrows] at hlines
  refine ⟨_, rfl, fun line hline => ?_, hlines⟩
  obtain ⟨row, hrow, rfl⟩ := List.mem_map.mp ((List.zipIdx_map_fst 0 order.lines).symm ▸ hline)
  obtain ⟨heq, hle⟩ := hamount row hrow
  exact ⟨heq ▸ takeInvoice_nonneg fulfilledOnly row, heq ▸ hle⟩

/-- The counters of the lines are the sums over the documents of the order, and its status says
how far it got. -/
structure SalesOrder.Counted (db : SalesDb) (order : SalesOrder) : Prop where
  shipped : ∀ line ∈ order.lines, 0 ≤ line.fulfilledQuantity ∧
    line.fulfilledQuantity ≤ line.quantity ∧ line.fulfilledQuantity = db.shippedOf order.id line.id
  invoiced : ∀ line ∈ order.lines, 0 ≤ line.invoicedQuantity ∧
    line.invoicedQuantity ≤ line.quantity ∧ line.invoicedQuantity = db.invoicedOf order.id line.id
  fulfilled : order.status = .fulfilled ↔
    ∀ line ∈ order.lines, line.fulfilledQuantity = line.quantity
  partiallyFulfilled : order.status = .partiallyFulfilled ↔
    (∃ line ∈ order.lines, 0 < line.fulfilledQuantity) ∧
      ¬∀ line ∈ order.lines, line.fulfilledQuantity = line.quantity
  cancelled : order.status = .cancelled → ∀ line ∈ order.lines, line.fulfilledQuantity = 0

theorem SalesDb.counted {db : SalesDb} (h : db.orderBook.Kept) {order : SalesOrder}
    (horder : order ∈ db.orders.rows) : order.Counted db := by
  have hkept := h.orders order.id order.view
    (congrArg (Option.map SalesOrder.view) (Table.get_eq_some.mpr ⟨horder, rfl⟩))
  have hline : ∀ line ∈ order.lines, line.view.Kept db.orderBook order.id := fun line hline =>
    hkept.lines _ (List.mem_map_of_mem hline)
  have hall : (∀ line ∈ order.view.lines, line.IsComplete) ↔
      ∀ line ∈ order.lines, line.fulfilledQuantity = line.quantity := List.forall_mem_map
  have hsome : (∃ line ∈ order.view.lines, 0 < line.fulfilled) ↔
      ∃ line ∈ order.lines, 0 < line.fulfilledQuantity := by
    simp [SalesOrder.view, SalesOrderLine.view]
  refine ⟨fun line h => ?_, fun line h => ?_, ?_, ?_, fun hcancelled line h => ?_⟩
  · exact ⟨(hline line h).fulfilled_range.1, (hline line h).fulfilled_range.2,
      (hline line h).fulfilled⟩
  · exact ⟨(hline line h).invoiced_range.1, (hline line h).invoiced_range.2,
      (hline line h).invoiced⟩
  · rw [← hall, ← hkept.staged.complete]
    exact SalesOrderStatus.stage_inj.symm
  · rw [← hall, ← hsome, ← hkept.staged.partly]
    exact SalesOrderStatus.stage_inj.symm
  · have hstage : order.view.status = .cancelled := congrArg SalesOrderStatus.stage hcancelled
    exact hkept.unfulfilled (by rw [hstage]; nofun) (by rw [hstage]; nofun) _
      (List.mem_map_of_mem h)

end Nexora.Sales

namespace Nexora.Purchasing

open Nexora Nexora.Catalog Nexora.Sales Nexora.Tenant Foundations
open OrderBook (Line Order Book Step foldlM_grows)

/-! ## Purchasing -/

def PurchaseOrderStatus.stage : PurchaseOrderStatus → OrderBook.Status
  | .draft => .draft
  | .confirmed => .confirmed
  | .partiallyReceived => .partly
  | .received => .complete
  | .cancelled => .cancelled

theorem PurchaseOrderStatus.stage_inj {status status' : PurchaseOrderStatus} :
    status.stage = status'.stage ↔ status = status' := by
  cases status <;> cases status' <;> decide

def PurchaseOrderLine.view (line : PurchaseOrderLine) : Line Uuid :=
  ⟨line.id, line.quantity, line.receivedQuantity, line.billedQuantity⟩

def PurchaseOrder.view (order : PurchaseOrder) : Order Uuid :=
  ⟨order.status.stage, order.lines.map PurchaseOrderLine.view⟩

/-- The order of a receipt, with what its lines say of the lines of the order. -/
def GoodsReceipt.parts (receipt : GoodsReceipt) : Uuid × List (Uuid × Quantity) :=
  (receipt.purchaseOrderId, receipt.lines.map fun line => (line.purchaseOrderLineId, line.quantity))

def SupplierBill.parts (bill : SupplierBill) : Uuid × List (Uuid × Quantity) :=
  (bill.purchaseOrderId, bill.lines.map fun line => (line.purchaseOrderLineId, line.quantity))

/-- What the receipts of an order say of a line. -/
def PurchasingDb.receivedOf (db : PurchasingDb) : Uuid → Uuid → Quantity :=
  amountIn (db.receipts.rows.map GoodsReceipt.parts)

/-- What the bills of an order say of a line. -/
def PurchasingDb.billedOf (db : PurchasingDb) : Uuid → Uuid → Quantity :=
  amountIn (db.bills.rows.map SupplierBill.parts)

def PurchasingDb.orderBook (db : PurchasingDb) : Book Uuid :=
  ⟨fun id => (db.orders.get id).map PurchaseOrder.view, db.receivedOf, db.billedOf⟩

/-! ### Receipts -/

/-- What is asked for of a line. -/
def takeReceive (items : List ReceiptLineInput) (line : PurchaseOrderLine) : Option Quantity :=
  (requestedFor items line.id).map (·.quantity)

theorem takeReceive_pos {items : List ReceiptLineInput} {line : PurchaseOrderLine}
    {amount : Quantity} (h : takeReceive items line = some amount) : 0 < amount := by
  obtain ⟨item, -, rfl⟩ := Option.map_eq_some_iff.mp h
  exact item.quantity_pos

theorem receiveLine_parts {warehouseId documentId : Uuid} {items : List ReceiptLineInput}
    {state state' : ReceiveState} {line : PurchaseOrderLine}
    (h : receiveLine warehouseId documentId items state line = .ok state') :
    state'.lines.map PurchaseOrderLine.view = state.lines.map PurchaseOrderLine.view ++
        [line.view.fulfil ((takeReceive items line).getD 0)] ∧
      (state'.received.map fun l => (l.purchaseOrderLineId, l.quantity)) =
        (state.received.map fun l => (l.purchaseOrderLineId, l.quantity)) ++
          ((takeReceive items line).map (line.view.id, ·)).toList ∧
      line.receivedQuantity + (takeReceive items line).getD 0 ≤ line.quantity := by
  unfold receiveLine at h
  split at h
  next hnone =>
    cases h
    rw [takeReceive, hnone]
    refine ⟨?_, ?_, ?_⟩
    · simp [PurchaseOrderLine.view, Line.fulfil]
    · simp
    · simpa using line.received_within_ordered.2
  next item hsome =>
    split at h
    next hle =>
      obtain ⟨product, -, h⟩ := bind_eq_ok.mp h
      obtain ⟨inventory, -, h⟩ := bind_eq_ok.mp h
      cases h
      rw [takeReceive, hsome]
      refine ⟨?_, ?_, ?_⟩
      · simp [PurchaseOrderLine.view, Line.fulfil, PurchaseOrderLine.receive]
      · simp [PurchaseOrderLine.view]
      · exact le_sub_iff_add_le'.mp hle
    next => cases h

theorem receivedStatus_stage (lines : List PurchaseOrderLine) :
    (receivedStatus lines).stage =
      if ∀ line ∈ lines.map PurchaseOrderLine.view, line.IsComplete then .complete else .partly := by
  have hiff : (lines.all fun line => line.quantity ≤ line.receivedQuantity) = true ↔
      ∀ line ∈ lines.map PurchaseOrderLine.view, line.IsComplete := by
    simp only [List.all_eq_true, decide_eq_true_eq, List.forall_mem_map]
    exact forall₂_congr fun line _ =>
      ⟨fun h => le_antisymm line.received_within_ordered.2 h, fun h => ge_of_eq h⟩
  unfold receivedStatus
  simp only [hiff, apply_ite PurchaseOrderStatus.stage]
  rfl

/-- Something is received of a line when something is asked for. -/
theorem requested_pos {order : PurchaseOrder} {lines : Option (List ReceiptLineInput)}
    {items : List ReceiptLineInput} (h : order.requested lines = .ok items) (hne : items ≠ []) :
    ∃ line ∈ order.lines, 0 < (takeReceive items line).getD 0 := by
  obtain ⟨item, hitem⟩ := List.exists_mem_of_ne_nil _ hne
  obtain ⟨line, hline, hid⟩ : ∃ line ∈ order.lines, line.id = item.lineId := by
    cases lines with
    | none =>
        cases h
        obtain ⟨line, hline, hsome⟩ := List.mem_filterMap.mp hitem
        unfold PurchaseOrderLine.outstanding at hsome
        split at hsome
        · cases hsome
          exact ⟨line, hline, rfl⟩
        · cases hsome
    | some named =>
        simp only [PurchaseOrder.requested] at h
        split at h
        next hall =>
          cases h
          exact List.mem_map.mp (of_decide_eq_true (List.all_eq_true.mp hall item hitem))
        next => cases h
  have hsome : (requestedFor items line.id).isSome :=
    List.find?_isSome.mpr ⟨item, List.mem_reverse.mpr hitem, by simp [hid]⟩
  obtain ⟨found, hfound⟩ := Option.isSome_iff_exists.mp hsome
  refine ⟨line, hline, ?_⟩
  rw [takeReceive, hfound]
  exact found.quantity_pos

/-! ### Bills -/

/-- What is billed of a line. -/
def takeBill (receivedOnly : Bool) (line : PurchaseOrderLine) : Option Quantity :=
  if 0 < line.toBill receivedOnly then some (line.toBill receivedOnly) else none

theorem takeBill_nonneg (receivedOnly : Bool) (line : PurchaseOrderLine) :
    0 ≤ (takeBill receivedOnly line).getD 0 := by
  unfold takeBill
  split
  next hpos => exact hpos.le
  next => exact le_rfl

theorem PurchaseLineInput.price_quantity {line : PurchaseLineInput} {priced : CostedLine}
    (h : line.price = .ok priced) : priced.toPurchaseLineInput = line := by
  unfold PurchaseLineInput.price at h
  split at h
  next => cases h
  next =>
    cases h
    rfl

theorem billLine_parts {receivedOnly : Bool} {state state' : BillState} {line : PurchaseOrderLine}
    (h : billLine receivedOnly state line = .ok state') :
    state'.lines.map PurchaseOrderLine.view = state.lines.map PurchaseOrderLine.view ++
        [line.view.invoice ((takeBill receivedOnly line).getD 0)] ∧
      (state'.billed.map fun l => (l.purchaseOrderLineId, l.quantity)) =
        (state.billed.map fun l => (l.purchaseOrderLineId, l.quantity)) ++
          ((takeBill receivedOnly line).map (line.view.id, ·)).toList ∧
      line.billedQuantity + (takeBill receivedOnly line).getD 0 ≤ line.quantity := by
  unfold billLine at h
  split at h
  next hpos =>
    obtain ⟨priced, hpriced, h⟩ := bind_eq_ok.mp h
    cases h
    have hquantity : priced.quantity = line.toBill receivedOnly :=
      congrArg PurchaseLineInput.quantity (PurchaseLineInput.price_quantity hpriced)
    rw [takeBill, if_pos hpos]
    refine ⟨?_, ?_, ?_⟩
    · simp [PurchaseOrderLine.view, Line.invoice, PurchaseOrderLine.bill]
    · simp [PurchaseOrderLine.view, hquantity]
    · exact le_sub_iff_add_le'.mp (line.toBill_le receivedOnly)
  next hnot =>
    cases h
    rw [takeBill, if_neg hnot]
    refine ⟨?_, ?_, ?_⟩
    · simp [PurchaseOrderLine.view, Line.invoice]
    · simp
    · simpa using line.billed_within_ordered.2

/-! ### Orders -/

theorem PurchaseOrder.view_ids (order : PurchaseOrder) :
    order.view.lines.map Line.id = order.lines.map fun line => line.view.id := by
  rw [PurchaseOrder.view, List.map_map]
  rfl

/-- The order after the loop of `receive`. -/
theorem receive_view {order : PurchaseOrder} {warehouseId documentId : Uuid}
    {items : List ReceiptLineInput} {inventory : Inventory.InventoryDb} {state : ReceiveState}
    (hunique : (order.view.lines.map Line.id).Nodup)
    (h : order.lines.foldlM (receiveLine warehouseId documentId items) ⟨inventory, 0, [], []⟩ =
      .ok state) :
    ∃ amount,
      amount = amountFor (state.received.map fun l => (l.purchaseOrderLineId, l.quantity)) ∧
      (∀ line ∈ order.lines, amount line.id = (takeReceive items line).getD 0 ∧
        line.receivedQuantity + amount line.id ≤ line.quantity) ∧
      state.lines.map PurchaseOrderLine.view = order.view.fulfilLines amount := by
  rw [PurchaseOrder.view_ids] at hunique
  obtain ⟨hlines, hamount⟩ := foldlM_grows PurchaseOrderLine.view (takeReceive items) Line.fulfil
    hunique h rfl rfl fun _ _ _ => receiveLine_parts
  refine ⟨_, rfl, fun line hline => ?_, hlines⟩
  obtain ⟨heq, hle⟩ := hamount line hline
  exact ⟨heq, heq ▸ hle⟩

/-- The order after the loop of `create_bill`. -/
theorem bill_view {order : PurchaseOrder} {receivedOnly : Bool} {state : BillState}
    (hunique : (order.view.lines.map Line.id).Nodup)
    (h : order.lines.foldlM (billLine receivedOnly) ⟨[], []⟩ = .ok state) :
    ∃ amount,
      amount = amountFor (state.billed.map fun l => (l.purchaseOrderLineId, l.quantity)) ∧
      (∀ line ∈ order.lines,
        0 ≤ amount line.id ∧ line.billedQuantity + amount line.id ≤ line.quantity) ∧
      state.lines.map PurchaseOrderLine.view =
        order.view.lines.map fun line => line.invoice (amount line.id) := by
  rw [PurchaseOrder.view_ids] at hunique
  obtain ⟨hlines, hamount⟩ := foldlM_grows PurchaseOrderLine.view (takeBill receivedOnly)
    Line.invoice hunique h rfl rfl fun _ _ _ => billLine_parts
  refine ⟨_, rfl, fun line hline => ?_, hlines⟩
  obtain ⟨heq, hle⟩ := hamount line hline
  exact ⟨heq ▸ takeBill_nonneg receivedOnly line, heq ▸ hle⟩

/-- The counters of the lines are the sums over the documents of the order, and its status says
how far it got. -/
structure PurchaseOrder.Counted (db : PurchasingDb) (order : PurchaseOrder) : Prop where
  received : ∀ line ∈ order.lines, 0 ≤ line.receivedQuantity ∧
    line.receivedQuantity ≤ line.quantity ∧ line.receivedQuantity = db.receivedOf order.id line.id
  billed : ∀ line ∈ order.lines, 0 ≤ line.billedQuantity ∧
    line.billedQuantity ≤ line.quantity ∧ line.billedQuantity = db.billedOf order.id line.id
  complete : order.status = .received ↔
    ∀ line ∈ order.lines, line.receivedQuantity = line.quantity
  partiallyReceived : order.status = .partiallyReceived ↔
    (∃ line ∈ order.lines, 0 < line.receivedQuantity) ∧
      ¬∀ line ∈ order.lines, line.receivedQuantity = line.quantity
  cancelled : order.status = .cancelled → ∀ line ∈ order.lines, line.receivedQuantity = 0

theorem PurchasingDb.counted {db : PurchasingDb} (h : db.orderBook.Kept) {order : PurchaseOrder}
    (horder : order ∈ db.orders.rows) : order.Counted db := by
  have hkept := h.orders order.id order.view
    (congrArg (Option.map PurchaseOrder.view) (Table.get_eq_some.mpr ⟨horder, rfl⟩))
  have hline : ∀ line ∈ order.lines, line.view.Kept db.orderBook order.id := fun line hline =>
    hkept.lines _ (List.mem_map_of_mem hline)
  have hall : (∀ line ∈ order.view.lines, line.IsComplete) ↔
      ∀ line ∈ order.lines, line.receivedQuantity = line.quantity := List.forall_mem_map
  have hsome : (∃ line ∈ order.view.lines, 0 < line.fulfilled) ↔
      ∃ line ∈ order.lines, 0 < line.receivedQuantity := by
    simp [PurchaseOrder.view, PurchaseOrderLine.view]
  refine ⟨fun line h => ?_, fun line h => ?_, ?_, ?_, fun hcancelled line h => ?_⟩
  · exact ⟨(hline line h).fulfilled_range.1, (hline line h).fulfilled_range.2,
      (hline line h).fulfilled⟩
  · exact ⟨(hline line h).invoiced_range.1, (hline line h).invoiced_range.2,
      (hline line h).invoiced⟩
  · rw [← hall, ← hkept.staged.complete]
    exact PurchaseOrderStatus.stage_inj.symm
  · rw [← hall, ← hsome, ← hkept.staged.partly]
    exact PurchaseOrderStatus.stage_inj.symm
  · have hstage : order.view.status = .cancelled := congrArg PurchaseOrderStatus.stage hcancelled
    exact hkept.unfulfilled (by rw [hstage]; nofun) (by rw [hstage]; nofun) _
      (List.mem_map_of_mem h)

end Nexora.Purchasing

namespace Nexora.Tenant

open Nexora Nexora.Sales Nexora.Purchasing Foundations
open OrderBook (Line Order Book Step Grows)

/-! ## Requests -/

variable {request : Request} {docs docs' : Documents} {op : Op}

theorem invoice_pay_parts (invoice : Invoice) (item : PaymentAllocation) (paid : Invoice)
    (h : invoice.pay item = .ok paid) : paid.parts = invoice.parts := by
  unfold Invoice.pay at h
  split at h
  next =>
    cases h
    rfl
  next => cases h

theorem bill_pay_parts (bill : SupplierBill) (item : PaymentAllocation) (paid : SupplierBill)
    (h : bill.pay item = .ok paid) : paid.parts = bill.parts := by
  unfold SupplierBill.pay at h
  split at h
  next =>
    cases h
    rfl
  next => cases h

/-- A document of an order is added. -/
theorem grows_insert {Doc : Type} {key : Doc → Uuid} (parts : Doc → Uuid × List (Uuid × ℤ))
    {docs docs' : Table key} {new : Doc} (h : docs.insert new = some docs') :
    Grows (amountIn (docs.rows.map parts)) (amountIn (docs'.rows.map parts)) (parts new).1
      (amountFor (parts new).2) := by
  intro owner id
  rw [(Table.insert_eq_some h).1, List.map_append, List.map_singleton]
  exact amountIn_append (parts new).1 (parts new).2 owner id

/-- Documents are written that say the same of the lines of orders. -/
theorem amountIn_same {Doc : Type} {key : Doc → Uuid} {parts : Doc → Uuid × List (Uuid × ℤ)}
    {docs docs' : Table key} (h : ∀ id, (docs'.get id).map parts = (docs.get id).map parts)
    (owner id : Uuid) :
    amountIn (docs'.rows.map parts) owner id = amountIn (docs.rows.map parts) owner id :=
  amountIn_perm (Table.map_perm h) owner id

/-- Every request is a step of the orders of sales. -/
theorem Writes.salesOrders (hkept : docs.sales.orderBook.Kept) (hop : op.isDocument)
    (h : Writes request docs op docs') : Step docs.sales.orderBook docs'.sales.orderBook := by
  have hview : ∀ {id : Uuid} {order : SalesOrder}, docs.sales.orders.get id = some order →
      docs.sales.orderBook.orders order.id = some order.view := fun hget =>
    congrArg (Option.map SalesOrder.view) (Table.get_self hget)
  cases h with
  | @createSalesOrder payload order orders hnew hinsert =>
      refine .create (congrArg (Option.map SalesOrder.view) (Table.insert_eq_some hinsert).2)
        ⟨congrArg SalesOrderStatus.stage hnew.status, fun hnil => ?_, ?_, fun line hline => ?_⟩
        (Table.map_get_insert SalesOrder.view hinsert) (fun _ _ => rfl) fun _ _ => rfl
      · have hlength : payload.lines.length = 0 := by
          rw [← hnew.length, List.map_eq_nil_iff.mp hnil]
          rfl
        rw [Op.isDocument, List.length_eq_zero_iff.mp hlength] at hop
        cases hop
      · rw [SalesOrder.view_ids]
        exact hnew.unique
      · obtain ⟨line, hmem, rfl⟩ := List.mem_map.mp hline
        exact ⟨line.quantity_pos, hnew.lines line hmem⟩
  | confirmSalesOrder hget hdraft hreplace =>
      exact .confirm (hview hget) (congrArg SalesOrderStatus.stage hdraft)
        (Table.map_get_replace SalesOrder.view hget hreplace rfl) (fun _ _ => rfl) fun _ _ => rfl
  | cancelSalesOrder hget hne hzero hreplace =>
      refine .cancel (hview hget) (fun h => hne (SalesOrderStatus.stage_inj.mp h))
        (fun line hline => ?_) (Table.map_get_replace SalesOrder.view hget hreplace rfl)
        (fun _ _ => rfl) fun _ _ => rfl
      obtain ⟨line, hmem, rfl⟩ := List.mem_map.mp hline
      exact hzero line hmem
  | @fulfil id lines order items inventory state orders number fulfillments hget hne hitems hsome
      hloop hreplace hinsert =>
      obtain ⟨amount, hamount, hlines, hview'⟩ :=
        fulfil_view (hkept.orders _ _ (hview hget)).unique hloop
      obtain ⟨line, hline, hpos⟩ := Sales.requested_pos hitems hsome
      have hset := Table.map_get_replace SalesOrder.view hget hreplace rfl
      have horder : ({ order with
          status := fulfilledStatus state.lines, lines := state.lines } : SalesOrder).view =
          order.view.fulfil amount := by
        rw [SalesOrder.view, fulfilledStatus_stage, hview']
        rfl
      rw [horder] at hset
      have hgrows := grows_insert Fulfillment.parts hinsert
      refine .fulfil (hview hget) (fun h => hne (SalesOrderStatus.stage_inj.mp h))
        (fun line' hline' => ?_) ⟨line.view, List.mem_map_of_mem hline, ?_⟩ hset
        (hamount ▸ hgrows) fun _ _ => rfl
      · obtain ⟨line', hmem, rfl⟩ := List.mem_map.mp hline'
        refine ⟨?_, (hlines line' hmem).2⟩
        show 0 ≤ amount line'.id
        rw [(hlines line' hmem).1]
        cases htake : takeFulfil items line' with
        | none => exact le_rfl
        | some quantity => exact (takeFulfil_pos htake).le
      · show 0 < amount line.id
        rw [(hlines line hline).1]
        exact hpos
  | @createInvoice payload order state invoice orders invoices hget hne hloop hdraft hpaid horder
      hlines hreplace hinsert =>
      obtain ⟨amount, hamount, hrange, hview'⟩ :=
        invoice_view (hkept.orders _ _ (hview hget)).unique hloop
      have hset := Table.map_get_replace SalesOrder.view hget hreplace rfl
      have hinvoice : ({ order with lines := state.lines } : SalesOrder).view =
          order.view.invoice amount := by
        rw [SalesOrder.view, hview']
        rfl
      rw [hinvoice] at hset
      have hgrows := grows_insert Invoice.parts hinsert
      rw [Invoice.parts, horder, hlines, ← hamount] at hgrows
      refine .invoice (hview hget) (fun h => hne (SalesOrderStatus.stage_inj.mp h))
        (fun line hline => ?_) hset (fun _ _ => rfl) hgrows
      obtain ⟨line, hmem, rfl⟩ := List.mem_map.mp hline
      exact hrange line hmem
  | issueInvoice hget hdraft hreplace =>
      exact .stay (fun _ => rfl) (fun _ _ => rfl)
        (amountIn_same (Table.map_get_same hget hreplace rfl rfl))
  | recordCustomerPayment _ _ _ hpays _ =>
      exact .stay (fun _ => rfl) (fun _ _ => rfl)
        (amountIn_same (hpays.map_get invoice_pay_parts))
  | issueCreditNote hget hface hreplace =>
      refine .stay (fun _ => rfl) (fun _ _ => rfl) (amountIn_same (Table.map_get_same hget hreplace
        (congrArg Prod.fst hface) ?_))
      have hrest := congrArg (fun face => (face.2.1, face.2.2.2.2.2)) hface
      exact hrest
  | _ => exact .stay (fun _ => rfl) (fun _ _ => rfl) fun _ _ => rfl

/-- Every request is a step of the orders of purchasing. -/
theorem Writes.purchaseOrders (hkept : docs.purchasing.orderBook.Kept) (hop : op.isDocument)
    (h : Writes request docs op docs') :
    Step docs.purchasing.orderBook docs'.purchasing.orderBook := by
  have hview : ∀ {id : Uuid} {order : PurchaseOrder}, docs.purchasing.orders.get id = some order →
      docs.purchasing.orderBook.orders order.id = some order.view := fun hget =>
    congrArg (Option.map PurchaseOrder.view) (Table.get_self hget)
  cases h with
  | @createPurchaseOrder payload order orders hnew hinsert =>
      refine .create (congrArg (Option.map PurchaseOrder.view) (Table.insert_eq_some hinsert).2)
        ⟨congrArg PurchaseOrderStatus.stage hnew.status, fun hnil => ?_, ?_, fun line hline => ?_⟩
        (Table.map_get_insert PurchaseOrder.view hinsert) (fun _ _ => rfl) fun _ _ => rfl
      · have hlength : payload.lines.length = 0 := by
          rw [← hnew.length, List.map_eq_nil_iff.mp hnil]
          rfl
        rw [Op.isDocument, List.length_eq_zero_iff.mp hlength] at hop
        cases hop
      · rw [PurchaseOrder.view_ids]
        exact hnew.unique
      · obtain ⟨line, hmem, rfl⟩ := List.mem_map.mp hline
        exact ⟨line.quantity_pos, hnew.lines line hmem⟩
  | confirmPurchaseOrder hget hdraft hreplace =>
      exact .confirm (hview hget) (congrArg PurchaseOrderStatus.stage hdraft)
        (Table.map_get_replace PurchaseOrder.view hget hreplace rfl) (fun _ _ => rfl) fun _ _ => rfl
  | cancelPurchaseOrder hget hne hzero hreplace =>
      refine .cancel (hview hget) (fun h => hne (PurchaseOrderStatus.stage_inj.mp h))
        (fun line hline => ?_) (Table.map_get_replace PurchaseOrder.view hget hreplace rfl)
        (fun _ _ => rfl) fun _ _ => rfl
      obtain ⟨line, hmem, rfl⟩ := List.mem_map.mp hline
      exact hzero line hmem
  | @receive id lines order items inventory state orders number receipts hget hne hitems hsome
      hloop hreplace hinsert =>
      obtain ⟨amount, hamount, hlines, hview'⟩ :=
        receive_view (hkept.orders _ _ (hview hget)).unique hloop
      obtain ⟨line, hline, hpos⟩ := Purchasing.requested_pos hitems hsome
      have hset := Table.map_get_replace PurchaseOrder.view hget hreplace rfl
      have horder : ({ order with
          status := receivedStatus state.lines, lines := state.lines } : PurchaseOrder).view =
          order.view.fulfil amount := by
        rw [PurchaseOrder.view, receivedStatus_stage, hview']
        rfl
      rw [horder] at hset
      have hgrows := grows_insert GoodsReceipt.parts hinsert
      refine .fulfil (hview hget) (fun h => hne (PurchaseOrderStatus.stage_inj.mp h))
        (fun line' hline' => ?_) ⟨line.view, List.mem_map_of_mem hline, ?_⟩ hset
        (hamount ▸ hgrows) fun _ _ => rfl
      · obtain ⟨line', hmem, rfl⟩ := List.mem_map.mp hline'
        refine ⟨?_, (hlines line' hmem).2⟩
        show 0 ≤ amount line'.id
        rw [(hlines line' hmem).1]
        cases htake : takeReceive items line' with
        | none => exact le_rfl
        | some quantity => exact (takeReceive_pos htake).le
      · show 0 < amount line.id
        rw [(hlines line hline).1]
        exact hpos
  | @createBill payload order state bill orders bills hget hne hloop hdraft hpaid horder hlines
      hreplace hinsert =>
      obtain ⟨amount, hamount, hrange, hview'⟩ :=
        bill_view (hkept.orders _ _ (hview hget)).unique hloop
      have hset := Table.map_get_replace PurchaseOrder.view hget hreplace rfl
      have hbill : ({ order with lines := state.lines } : PurchaseOrder).view =
          order.view.invoice amount := by
        rw [PurchaseOrder.view, hview']
        rfl
      rw [hbill] at hset
      have hgrows := grows_insert SupplierBill.parts hinsert
      rw [SupplierBill.parts, horder, hlines, ← hamount] at hgrows
      refine .invoice (hview hget) (fun h => hne (PurchaseOrderStatus.stage_inj.mp h))
        (fun line hline => ?_) hset (fun _ _ => rfl) hgrows
      obtain ⟨line, hmem, rfl⟩ := List.mem_map.mp hline
      exact hrange line hmem
  | issueBill hget hdraft hreplace =>
      exact .stay (fun _ => rfl) (fun _ _ => rfl)
        (amountIn_same (Table.map_get_same hget hreplace rfl rfl))
  | recordSupplierPayment _ _ _ hpays _ =>
      exact .stay (fun _ => rfl) (fun _ _ => rfl) (amountIn_same (hpays.map_get bill_pay_parts))
  | _ => exact .stay (fun _ => rfl) (fun _ _ => rfl) fun _ _ => rfl

/-! ## Cancelled orders -/

theorem Writes.salesOrder_cancelled {id : Uuid} {order : SalesOrder}
    (h : Writes request docs op docs') (hcancelled : order.status = .cancelled)
    (hget : docs.sales.orders.get id = some order) : docs'.sales.orders.get id = some order := by
  cases h with
  | createSalesOrder _ hinsert =>
      exact Table.get_of_append hget (Table.insert_eq_some hinsert).1
  | confirmSalesOrder hother hdraft hreplace =>
      refine Table.get_replace_of_ne hother hreplace rfl hget fun heq => ?_
      rw [← heq, hcancelled] at hdraft
      cases hdraft
  | cancelSalesOrder hother hne _ hreplace | fulfil hother hne _ _ _ hreplace _
  | createInvoice hother hne _ _ _ _ _ hreplace _ =>
      exact Table.get_replace_of_ne hother hreplace rfl hget fun heq => hne (heq ▸ hcancelled)
  | _ => exact hget

theorem Writes.purchaseOrder_cancelled {id : Uuid} {order : PurchaseOrder}
    (h : Writes request docs op docs') (hcancelled : order.status = .cancelled)
    (hget : docs.purchasing.orders.get id = some order) :
    docs'.purchasing.orders.get id = some order := by
  cases h with
  | createPurchaseOrder _ hinsert =>
      exact Table.get_of_append hget (Table.insert_eq_some hinsert).1
  | confirmPurchaseOrder hother hdraft hreplace =>
      refine Table.get_replace_of_ne hother hreplace rfl hget fun heq => ?_
      rw [← heq, hcancelled] at hdraft
      cases hdraft
  | cancelPurchaseOrder hother hne _ hreplace | receive hother hne _ _ _ hreplace _
  | createBill hother hne _ _ _ _ _ hreplace _ =>
      exact Table.get_replace_of_ne hother hreplace rfl hget fun heq => hne (heq ▸ hcancelled)
  | _ => exact hget

/-! ## Runs -/

/-- Both books are kept. -/
structure Documents.Counted (docs : Documents) : Prop where
  sales : docs.sales.orderBook.Kept
  purchasing : docs.purchasing.orderBook.Kept

theorem Documents.counted_empty : Documents.empty.Counted :=
  ⟨⟨nofun, fun _ _ _ => ⟨rfl, rfl⟩⟩, ⟨nofun, fun _ _ _ => ⟨rfl, rfl⟩⟩⟩

theorem documents_counted :
    documents.Sound (fun _ _ => True) Documents.Counted fun docs phase => phase.Reads docs :=
  documents_sound fun call _ _ h hwrites =>
    ⟨h.sales.step (hwrites.salesOrders h.sales call.isDocument),
      h.purchasing.step (hwrites.purchaseOrders h.purchasing call.isDocument)⟩

/-- What every request keeps of the documents, they have at every later time. -/
theorem documents_later {I : Documents → Prop} {s s' : Interleaved Documents DocumentPhase}
    (hs : documents.Reaches (Protocol.init .empty) s) (hlater : documents.Reaches s s')
    (hI : ∀ (call : DocumentCall) (docs docs' : Documents), I docs →
      Writes call.request docs call.op docs' → I docs') (h : I s.committed) : I s'.committed := by
  have hinv := documents_counted.runs hs (.init Documents.counted_empty)
  exact ((documents_sound hI).runs hlater ⟨h, hinv.opened, hinv.exclusive⟩).committed

/-- In every interleaving of requests on documents from an empty tenant on: the counters of the
lines of orders are the sums over the documents of the order, and stay between zero and the ordered
quantity; the status of an order says how far it got; and a cancelled order has nothing shipped or
received and never changes again. -/
theorem order_lines_counted {s : Interleaved Documents DocumentPhase}
    (h : documents.Reaches (Protocol.init .empty) s) :
    (∀ order ∈ s.committed.sales.orders.rows, order.Counted s.committed.sales) ∧
    (∀ order ∈ s.committed.purchasing.orders.rows, order.Counted s.committed.purchasing) ∧
    ∀ s' : Interleaved Documents DocumentPhase, documents.Reaches s s' →
      (∀ order ∈ s.committed.sales.orders.rows, order.status = .cancelled →
        order ∈ s'.committed.sales.orders.rows) ∧
      ∀ order ∈ s.committed.purchasing.orders.rows, order.status = .cancelled →
        order ∈ s'.committed.purchasing.orders.rows := by
  have hs := (documents_counted.runs h (.init Documents.counted_empty)).committed
  refine ⟨fun order horder => SalesDb.counted hs.sales horder,
    fun order horder => PurchasingDb.counted hs.purchasing horder, fun s' hlater => ⟨?_, ?_⟩⟩
  · intro order horder hcancelled
    have hget := documents_later (I := fun docs => docs.sales.orders.get order.id = some order) h
      hlater (fun _ _ _ hget hwrites => hwrites.salesOrder_cancelled hcancelled hget)
      (Table.get_eq_some.mpr ⟨horder, rfl⟩)
    exact (Table.get_mem hget).1
  · intro order horder hcancelled
    have hget := documents_later (I := fun docs => docs.purchasing.orders.get order.id = some order)
      h hlater (fun _ _ _ hget hwrites => hwrites.purchaseOrder_cancelled hcancelled hget)
      (Table.get_eq_some.mpr ⟨horder, rfl⟩)
    exact (Table.get_mem hget).1

/-- One of the two hours of order `1` is fulfilled while both are invoiced, and order `3` is
cancelled. -/
def serviceFulfilment : List (TxAction DocumentCall TenantDb) :=
  DocumentCall.alone 1 (serviceOrder 1) 0 ++
  DocumentCall.alone 2 (confirmation 2 1) 1 ++
  DocumentCall.alone 3 (serviceOrder 3) 0 ++
  DocumentCall.alone 4 (cancellation 4 3) 1 ++
  [.begin 5 ⟨cornerRequest 5, .fulfil 1 (some [⟨1000, 1000000, Sample.onePiece_pos, Sample.onePiece_lt⟩]), rfl⟩,
   .begin 6 (invoicing 6 1),
   .run 5 (.start corner), .run 5 (.start corner), .finish 5,
   .run 6 (.start corner), .run 6 (.start corner), .finish 6]

/-- The cancelled order cannot be confirmed later. -/
theorem order_lines_counted_service : ∃ s s' : Interleaved Documents DocumentPhase,
    documents.Reaches (Protocol.init .empty) s ∧ documents.Reaches s s' ∧
      (s.committed.sales.orders.rows.map fun order =>
        (order.id, order.status,
          order.lines.map fun line => (line.fulfilledQuantity, line.invoicedQuantity))) =
        [(1, .partiallyFulfilled, [(1000000, 2000000)]), (3, .cancelled, [(0, 0)])] ∧
      (∀ order ∈ s.committed.sales.orders.rows, order.Counted s.committed.sales) ∧
      ∀ order ∈ s.committed.sales.orders.rows, order.status = .cancelled →
        order ∈ s'.committed.sales.orders.rows := by
  have hsome : (serviceFulfilment.foldlM documents.step (Protocol.init .empty)).isSome := by
    decide +kernel
  obtain ⟨s, hs⟩ := Option.isSome_iff_exists.mp hsome
  have hfacts : (serviceFulfilment.foldlM documents.step (Protocol.init .empty)).all fun s =>
      (s.committed.sales.orders.rows.map fun order =>
        (order.id, order.status,
          order.lines.map fun line => (line.fulfilledQuantity, line.invoicedQuantity))) =
        [(1, .partiallyFulfilled, [(1000000, 2000000)]), (3, .cancelled, [(0, 0)])] ∧
      ((DocumentCall.alone 7 (confirmation 7 3) 1).foldlM documents.step
        s).isSome := by
    decide +kernel
  rw [hs, Option.all_some, decide_eq_true_eq] at hfacts
  obtain ⟨s', hs'⟩ := Option.isSome_iff_exists.mp hfacts.2
  have hreaches := Protocol.Reaches.of_foldlM serviceFulfilment hs
  have hlater := Protocol.Reaches.of_foldlM _ hs'
  obtain ⟨hcounted, -, hcancelled⟩ := order_lines_counted hreaches
  exact ⟨s, s', hreaches, hlater, hfacts.1, hcounted, (hcancelled s' hlater).1⟩

end Nexora.Tenant
