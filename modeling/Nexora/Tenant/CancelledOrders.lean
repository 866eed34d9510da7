import Nexora.Tenant.OrderLines

/-!
# Cancelled orders

Invoicing may run ahead of fulfilment, and a draft is issued whenever its user likes.  To cancel an
order it is enough that nothing of it is fulfilled, so an order can be cancelled of which everything
is invoiced, and the draft is issued later (`cancelled_unbilled_broken`).

When every cancellation finds nothing invoiced, a cancelled order has no invoice at all
(`cancelled_unbilled`).  What carries this is that an order with an invoice, draft or issued, has a
line of which something is invoiced (`Backed`).  Purchasing and its bills are the same.
-/

namespace Nexora.Tenant

open Nexora Nexora.Catalog Nexora.Sales Nexora.Purchasing Foundations

/-! ## Documents and their orders -/

section Backed

variable {Doc O : Type} {docKey : Doc → Uuid} {key : O → Uuid} {owner : Doc → Uuid}
  {billed cancelled : O → Prop} {docs docs' : Table docKey} {orders orders' : Table key}

/-- Every document belongs to an order of which something is billed, and nothing is billed of a
cancelled order. -/
structure Backed (owner : Doc → Uuid) (billed cancelled : O → Prop) (docs : Table docKey)
    (orders : Table key) : Prop where
  owned : ∀ doc ∈ docs.rows, ∃ order, orders.get (owner doc) = some order ∧ billed order
  cleared : ∀ order ∈ orders.rows, cancelled order → ¬billed order

/-- A cancelled order has no document. -/
theorem Backed.no_document (h : Backed owner billed cancelled docs orders) {order : O}
    (horder : order ∈ orders.rows) (hcancelled : cancelled order) :
    ∀ doc ∈ docs.rows, owner doc ≠ key order := by
  intro doc hdoc howner
  obtain ⟨order', hget, hbilled⟩ := h.owned doc hdoc
  rw [howner, Table.get_eq_some.mpr ⟨horder, rfl⟩] at hget
  cases hget
  exact h.cleared order horder hcancelled hbilled

/-- A new order. -/
theorem Backed.insert_order (h : Backed owner billed cancelled docs orders) {new : O}
    (hnew : ¬cancelled new) (hinsert : orders.insert new = some orders') :
    Backed owner billed cancelled docs orders' := by
  have hrows := (Table.insert_eq_some hinsert).1
  refine ⟨fun doc hdoc => ?_, fun order horder hcancelled => ?_⟩
  · obtain ⟨order, hget, hbilled⟩ := h.owned doc hdoc
    exact ⟨order, Table.get_of_append hget hrows, hbilled⟩
  · rw [hrows, List.mem_append, List.mem_singleton] at horder
    rcases horder with horder | rfl
    · exact h.cleared order horder hcancelled
    · exact absurd hcancelled hnew

/-- An order is written back. -/
theorem Backed.replace_order (h : Backed owner billed cancelled docs orders) {id : Uuid}
    {old new : O} (hget : orders.get id = some old)
    (hreplace : orders.replace (key old) new = some orders') (hkey : key new = key old)
    (hbilled : billed old → billed new) (hcleared : cancelled new → ¬billed new) :
    Backed owner billed cancelled docs orders' := by
  have hold := Table.get_self hget
  refine ⟨fun doc hdoc => ?_, fun order horder hcancelled => ?_⟩
  · obtain ⟨order, hfound, hsome⟩ := h.owned doc hdoc
    rw [Table.get_replace hold hkey hreplace]
    split_ifs with hid
    · rw [hid, hold] at hfound
      cases hfound
      exact ⟨new, rfl, hbilled hsome⟩
    · exact ⟨order, hfound, hsome⟩
  · rcases (Table.mem_replace hold hreplace).mp horder with ⟨horder, -⟩ | rfl
    · exact h.cleared order horder hcancelled
    · exact hcleared hcancelled

/-- A new document of an order of which something is billed. -/
theorem Backed.insert_document (h : Backed owner billed cancelled docs orders) {doc : Doc} {order : O}
    (hget : orders.get (owner doc) = some order) (hbilled : billed order)
    (hinsert : docs.insert doc = some docs') : Backed owner billed cancelled docs' orders := by
  refine ⟨fun doc' hdoc' => ?_, h.cleared⟩
  rw [(Table.insert_eq_some hinsert).1, List.mem_append, List.mem_singleton] at hdoc'
  rcases hdoc' with hdoc' | rfl
  · exact h.owned doc' hdoc'
  · exact ⟨order, hget, hbilled⟩

/-- Documents are written back that belong to the same orders. -/
theorem Backed.same_owners (h : Backed owner billed cancelled docs orders)
    (hsame : ∀ id, (docs'.get id).map owner = (docs.get id).map owner) :
    Backed owner billed cancelled docs' orders := by
  refine ⟨fun doc hdoc => ?_, h.cleared⟩
  have howner := hsame (docKey doc)
  rw [Table.get_eq_some.mpr ⟨hdoc, rfl⟩] at howner
  obtain ⟨old, hget, heq⟩ := Option.map_eq_some_iff.mp howner.symm
  rw [← heq]
  exact h.owned old (Table.get_mem hget).1

end Backed

end Nexora.Tenant

/-! ## Sales -/

namespace Nexora.Sales

open Nexora Nexora.Catalog Nexora.Tenant Foundations

/-- Something is invoiced of the order. -/
def SalesOrder.IsInvoiced (order : SalesOrder) : Prop :=
  ∃ line ∈ order.lines, 0 < line.invoicedQuantity

theorem SalesOrder.IsInvoiced.of_view {order : SalesOrder} (line : OrderBook.Line Uuid)
    (hline : line ∈ order.view.lines) (hpos : 0 < line.invoiced) : order.IsInvoiced := by
  obtain ⟨line, hmem, rfl⟩ := List.mem_map.mp hline
  exact ⟨line, hmem, hpos⟩

/-- A fulfilment leaves what is invoiced. -/
theorem fulfil_invoiced {order : SalesOrder} {status : SalesOrderStatus}
    {warehouseId documentId : Uuid} {items : List RequestedLine}
    {inventory : Inventory.InventoryDb} {state : FulfilState}
    (h : order.lines.foldlM (fulfilLine warehouseId documentId items) ⟨inventory, 0, [], []⟩ =
      .ok state) (hinvoiced : order.IsInvoiced) :
    ({ order with status := status, lines := state.lines } : SalesOrder).IsInvoiced := by
  obtain ⟨hlines, -, -⟩ := OrderBook.foldlM_parts SalesOrderLine.view (takeFulfil items)
    OrderBook.Line.fulfil h fun _ _ _ => fulfilLine_parts
  obtain ⟨line, hline, hpos⟩ := hinvoiced
  refine .of_view (line.view.fulfil ((takeFulfil items line).getD 0)) ?_ hpos
  show _ ∈ state.lines.map SalesOrderLine.view
  rw [hlines]
  exact List.mem_append_right _ (List.mem_map.mpr ⟨line, hline, rfl⟩)

/-- An invoice has something of a line, so something is invoiced of its order then. -/
theorem invoice_invoiced {request : Request} {order : SalesOrder} {fulfilledOnly : Bool}
    {state : InvoiceState}
    (h : order.lines.zipIdx.foldlM (invoiceLine request fulfilledOnly) ⟨[], []⟩ = .ok state)
    (hsome : state.invoiced ≠ []) :
    ({ order with lines := state.lines } : SalesOrder).IsInvoiced := by
  obtain ⟨hlines, hparts, -⟩ := OrderBook.foldlM_parts (fun row => row.1.view)
    (takeInvoice fulfilledOnly) OrderBook.Line.invoice h fun _ _ _ => invoiceLine_parts
  obtain ⟨part, hmem⟩ := List.exists_mem_of_ne_nil _ (mt List.map_eq_nil_iff.mp hsome)
  rw [hparts] at hmem
  obtain ⟨row, hrow, htake⟩ := List.mem_filterMap.mp hmem
  obtain ⟨amount, hamount, -⟩ := Option.map_eq_some_iff.mp htake
  refine .of_view (row.1.view.invoice ((takeInvoice fulfilledOnly row).getD 0)) ?_ ?_
  · show _ ∈ state.lines.map SalesOrderLine.view
    rw [hlines]
    exact List.mem_append_right _ (List.mem_map.mpr ⟨row, hrow, rfl⟩)
  · have hnonneg := row.1.invoiced_within_ordered.1
    have hpos : 0 < amount := by
      unfold takeInvoice at hamount
      split at hamount
      next hpos =>
        cases hamount
        exact hpos
      next => cases hamount
    rw [hamount]
    exact add_pos_of_nonneg_of_pos hnonneg hpos

/-- Invoices belong to orders of which something is invoiced, and nothing is invoiced of a cancelled
order. -/
def SalesDb.Backed (db : SalesDb) : Prop :=
  Tenant.Backed Invoice.salesOrderId SalesOrder.IsInvoiced (fun order => order.status = .cancelled)
    db.invoices db.orders

theorem fulfilledStatus_ne_cancelled (lines : List SalesOrderLine) :
    fulfilledStatus lines ≠ .cancelled := by
  unfold fulfilledStatus
  split
  · nofun
  · nofun

/-- A draft comes with something invoiced of its order. -/
theorem createInvoice_backed {request : Request} {db db' : TenantDb} {payload : InvoiceCreate}
    (hdb : db.sales.Backed) (h : createInvoice request db payload = .ok db') : db'.sales.Backed := by
  obtain ⟨order, hfind, h⟩ := bind_eq_ok.mp h
  obtain ⟨_, hstatus, h⟩ := bind_eq_ok.mp h
  obtain ⟨state, hloop, h⟩ := bind_eq_ok.mp h
  obtain ⟨_, hsome, h⟩ := bind_eq_ok.mp h
  obtain ⟨invoice, hdraft, h⟩ := bind_eq_ok.mp h
  obtain ⟨db₁, hsave, h⟩ := bind_eq_ok.mp h
  obtain ⟨orders, hreplace, rfl⟩ := saveOrder_eq_ok hsave
  obtain ⟨invoices, hinsert, h⟩ := bind_eq_ok.mp h
  cases h
  obtain ⟨hnotEmpty, -⟩ := ite_error_eq_ok.mp hsome
  have hget := findOrder_eq_ok hfind
  have hinvoiced : ({ order with lines := state.lines } : SalesOrder).IsInvoiced :=
    invoice_invoiced hloop (by simpa using hnotEmpty)
  have hcancelled : order.status ≠ .cancelled := not_cancelled hstatus (by decide)
  have horders := hdb.replace_order hget hreplace rfl (fun _ => hinvoiced)
    fun hcancelled' => absurd hcancelled' hcancelled
  have howner := (draftInvoice_fields hdraft).2.2.1
  have hnew : orders.get order.id = some { order with lines := state.lines } :=
    (Table.get_replace (Table.get_self hget) (by rfl) hreplace _).trans (if_pos rfl)
  rw [← howner] at hnew
  exact horders.insert_document hnew hinvoiced (orRaise_eq_ok.mp hinsert)

end Nexora.Sales

/-! ## Purchasing -/

namespace Nexora.Purchasing

open Nexora Nexora.Catalog Nexora.Sales Nexora.Tenant Foundations

/-- Something is billed of the order. -/
def PurchaseOrder.IsBilled (order : PurchaseOrder) : Prop :=
  ∃ line ∈ order.lines, 0 < line.billedQuantity

theorem PurchaseOrder.IsBilled.of_view {order : PurchaseOrder} (line : OrderBook.Line Uuid)
    (hline : line ∈ order.view.lines) (hpos : 0 < line.invoiced) : order.IsBilled := by
  obtain ⟨line, hmem, rfl⟩ := List.mem_map.mp hline
  exact ⟨line, hmem, hpos⟩

/-- A receipt leaves what is billed. -/
theorem receive_billed {order : PurchaseOrder} {status : PurchaseOrderStatus}
    {warehouseId documentId : Uuid} {items : List ReceiptLineInput}
    {inventory : Inventory.InventoryDb} {state : ReceiveState}
    (h : order.lines.foldlM (receiveLine warehouseId documentId items) ⟨inventory, 0, [], []⟩ =
      .ok state) (hbilled : order.IsBilled) :
    ({ order with status := status, lines := state.lines } : PurchaseOrder).IsBilled := by
  obtain ⟨hlines, -, -⟩ := OrderBook.foldlM_parts PurchaseOrderLine.view (takeReceive items)
    OrderBook.Line.fulfil h fun _ _ _ => receiveLine_parts
  obtain ⟨line, hline, hpos⟩ := hbilled
  refine .of_view (line.view.fulfil ((takeReceive items line).getD 0)) ?_ hpos
  show _ ∈ state.lines.map PurchaseOrderLine.view
  rw [hlines]
  exact List.mem_append_right _ (List.mem_map.mpr ⟨line, hline, rfl⟩)

/-- A bill has something of a line, so something is billed of its order then. -/
theorem bill_billed {order : PurchaseOrder} {receivedOnly : Bool} {state : BillState}
    (h : order.lines.foldlM (billLine receivedOnly) ⟨[], []⟩ = .ok state)
    (hsome : state.billed ≠ []) :
    ({ order with lines := state.lines } : PurchaseOrder).IsBilled := by
  obtain ⟨hlines, hparts, -⟩ := OrderBook.foldlM_parts PurchaseOrderLine.view (takeBill receivedOnly)
    OrderBook.Line.invoice h fun _ _ _ => billLine_parts
  obtain ⟨part, hmem⟩ := List.exists_mem_of_ne_nil _ (mt List.map_eq_nil_iff.mp hsome)
  rw [hparts] at hmem
  obtain ⟨line, hline, htake⟩ := List.mem_filterMap.mp hmem
  obtain ⟨amount, hamount, -⟩ := Option.map_eq_some_iff.mp htake
  refine .of_view (line.view.invoice ((takeBill receivedOnly line).getD 0)) ?_ ?_
  · show _ ∈ state.lines.map PurchaseOrderLine.view
    rw [hlines]
    exact List.mem_append_right _ (List.mem_map.mpr ⟨line, hline, rfl⟩)
  · have hnonneg := line.billed_within_ordered.1
    have hpos : 0 < amount := by
      unfold takeBill at hamount
      split at hamount
      next hpos =>
        cases hamount
        exact hpos
      next => cases hamount
    rw [hamount]
    exact add_pos_of_nonneg_of_pos hnonneg hpos

/-- Bills belong to orders of which something is billed, and nothing is billed of a cancelled
order. -/
def PurchasingDb.Backed (db : PurchasingDb) : Prop :=
  Tenant.Backed SupplierBill.purchaseOrderId PurchaseOrder.IsBilled
    (fun order => order.status = .cancelled) db.bills db.orders

theorem receivedStatus_ne_cancelled (lines : List PurchaseOrderLine) :
    receivedStatus lines ≠ .cancelled := by
  unfold receivedStatus
  split
  · nofun
  · nofun

/-- A draft comes with something billed of its order. -/
theorem createBill_backed {request : Request} {db db' : TenantDb} {payload : SupplierBillCreate}
    (hdb : db.purchasing.Backed) (h : createBill request db payload = .ok db') :
    db'.purchasing.Backed := by
  obtain ⟨order, hfind, h⟩ := bind_eq_ok.mp h
  obtain ⟨_, hstatus, h⟩ := bind_eq_ok.mp h
  obtain ⟨state, hloop, h⟩ := bind_eq_ok.mp h
  obtain ⟨_, hsome, h⟩ := bind_eq_ok.mp h
  obtain ⟨bill, hdraft, h⟩ := bind_eq_ok.mp h
  obtain ⟨db₁, hsave, h⟩ := bind_eq_ok.mp h
  obtain ⟨orders, hreplace, rfl⟩ := saveOrder_eq_ok hsave
  obtain ⟨bills, hinsert, h⟩ := bind_eq_ok.mp h
  cases h
  obtain ⟨hnotEmpty, -⟩ := ite_error_eq_ok.mp hsome
  have hget := findOrder_eq_ok hfind
  have hbilled : ({ order with lines := state.lines } : PurchaseOrder).IsBilled :=
    bill_billed hloop (by simpa using hnotEmpty)
  have hcancelled : order.status ≠ .cancelled := not_cancelled hstatus (by decide)
  have horders := hdb.replace_order hget hreplace rfl (fun _ => hbilled)
    fun hcancelled' => absurd hcancelled' hcancelled
  obtain ⟨-, howner, -⟩ := draftBill_eq_ok hdraft
  have hnew : orders.get order.id = some { order with lines := state.lines } :=
    (Table.get_replace (Table.get_self hget) (by rfl) hreplace _).trans (if_pos rfl)
  rw [← howner] at hnew
  exact horders.insert_document hnew hbilled (orRaise_eq_ok.mp hinsert)

end Nexora.Purchasing

/-! ## Requests -/

namespace Nexora.Tenant

open Nexora Nexora.Sales Nexora.Purchasing Foundations

variable {request : Request} {docs docs' : Documents}

/-- Where the request would cancel an order: something of it is fulfilled or received, and the request
is refused, or nothing of it is invoiced or billed. -/
def Op.cancelsUnbilled (docs : Documents) : Op → Bool
  | .cancelSalesOrder id => (docs.sales.orders.get id).all fun order =>
      order.lines.any (0 < ·.fulfilledQuantity) || !order.lines.any (0 < ·.invoicedQuantity)
  | .cancelPurchaseOrder id => (docs.purchasing.orders.get id).all fun order =>
      order.lines.any (0 < ·.receivedQuantity) || !order.lines.any (0 < ·.billedQuantity)
  | _ => true

/-- Both sides. -/
structure Documents.Backed (docs : Documents) : Prop where
  sales : docs.sales.Backed
  purchasing : docs.purchasing.Backed

theorem Writes.backed {around db : TenantDb} {op : Op} (h : docs.Backed)
    (hop : op.cancelsUnbilled docs = true)
    (hbody : op.body request (around.withDocuments docs) = .ok db)
    (hwrites : Writes request docs op db.documents) : db.documents.Backed := by
  generalize hdocs : db.documents = docs' at hwrites
  cases hwrites with
  | createSalesOrder hnew hinsert =>
      refine ⟨h.sales.insert_order (fun hcancelled => ?_) hinsert, h.purchasing⟩
      rw [hnew.status] at hcancelled
      cases hcancelled
  | confirmSalesOrder hget _ hreplace =>
      exact ⟨h.sales.replace_order hget hreplace rfl id (fun hcancelled => by cases hcancelled),
        h.purchasing⟩
  | cancelSalesOrder hget _ hzero hreplace =>
      refine ⟨h.sales.replace_order hget hreplace rfl id fun _ => ?_, h.purchasing⟩
      rintro ⟨line, hline, hpos⟩
      simp only [Op.cancelsUnbilled, hget, Option.all_some, Bool.or_eq_true, List.any_eq_true,
        Bool.not_eq_true', List.any_eq_false, decide_eq_true_eq] at hop
      rcases hop with ⟨shipped, hshipped, hsome⟩ | hnone
      · exact hzero shipped hshipped hsome
      · exact hnone line hline hpos
  | fulfil hget _ _ _ hloop hreplace _ =>
      exact ⟨h.sales.replace_order hget hreplace rfl (fulfil_invoiced hloop)
        fun hcancelled => absurd hcancelled (fulfilledStatus_ne_cancelled _), h.purchasing⟩
  | createInvoice _ _ _ _ _ _ _ _ _ =>
      have hsales : db.sales.Backed := createInvoice_backed h.sales hbody
      exact ⟨congrArg Documents.sales hdocs ▸ hsales, h.purchasing⟩
  | issueInvoice hget _ hreplace =>
      exact ⟨h.sales.same_owners (Table.map_get_same hget hreplace rfl rfl), h.purchasing⟩
  | recordCustomerPayment _ _ _ hpays _ =>
      exact ⟨h.sales.same_owners (hpays.map_get fun invoice item paid hpaid =>
        congrArg Prod.fst (invoice_pay_parts invoice item paid hpaid)), h.purchasing⟩
  | issueCreditNote hget hface hreplace =>
      exact ⟨h.sales.same_owners (Table.map_get_same hget hreplace (congrArg Prod.fst hface)
        (congrArg (fun face => face.2.1) hface)), h.purchasing⟩
  | createPurchaseOrder hnew hinsert =>
      refine ⟨h.sales, h.purchasing.insert_order (fun hcancelled => ?_) hinsert⟩
      rw [hnew.status] at hcancelled
      cases hcancelled
  | confirmPurchaseOrder hget _ hreplace =>
      exact ⟨h.sales, h.purchasing.replace_order hget hreplace rfl id
        fun hcancelled => by cases hcancelled⟩
  | cancelPurchaseOrder hget _ hzero hreplace =>
      refine ⟨h.sales, h.purchasing.replace_order hget hreplace rfl id fun _ => ?_⟩
      rintro ⟨line, hline, hpos⟩
      simp only [Op.cancelsUnbilled, hget, Option.all_some, Bool.or_eq_true, List.any_eq_true,
        Bool.not_eq_true', List.any_eq_false, decide_eq_true_eq] at hop
      rcases hop with ⟨received, hreceived, hsome⟩ | hnone
      · exact hzero received hreceived hsome
      · exact hnone line hline hpos
  | receive hget _ _ _ hloop hreplace _ =>
      exact ⟨h.sales, h.purchasing.replace_order hget hreplace rfl (receive_billed hloop)
        fun hcancelled => absurd hcancelled (receivedStatus_ne_cancelled _)⟩
  | createBill _ _ _ _ _ _ _ _ _ =>
      have hpurchasing : db.purchasing.Backed := createBill_backed h.purchasing hbody
      exact ⟨h.sales, congrArg Documents.purchasing hdocs ▸ hpurchasing⟩
  | issueBill hget _ hreplace =>
      exact ⟨h.sales, h.purchasing.same_owners (Table.map_get_same hget hreplace rfl rfl)⟩
  | recordSupplierPayment _ _ _ hpays _ =>
      exact ⟨h.sales, h.purchasing.same_owners (hpays.map_get fun bill item paid hpaid =>
        congrArg Prod.fst (bill_pay_parts bill item paid hpaid))⟩

/-! ## Runs -/

theorem Documents.backed_empty : Documents.empty.Backed :=
  ⟨⟨List.forall_mem_nil _, List.forall_mem_nil _⟩, ⟨List.forall_mem_nil _, List.forall_mem_nil _⟩⟩

/-- A request that is about to commit cancels no order of which something is billed. -/
def UnbilledPhase (docs : Documents) (phase : DocumentPhase) : Prop :=
  ∀ call ∈ phase.call, call.op.cancelsUnbilled docs = true

instance (docs : Documents) (phase : DocumentPhase) : Decidable (UnbilledPhase docs phase) :=
  inferInstanceAs (Decidable (∀ call ∈ phase.call, _))

theorem documents_backed :
    documents.Sound UnbilledPhase Documents.Backed fun docs phase => phase.Reads docs :=
  documents_sound_under fun call _ _ _ _ h hphase hbody hwrites =>
    Writes.backed h (hphase call rfl) hbody hwrites

/-- In every interleaving of requests on documents from an empty tenant on in which each cancellation
finds nothing invoiced or billed of the order: a cancelled order has no line of which something is
invoiced or billed, and no invoice or bill, draft or issued. -/
theorem cancelled_unbilled {s : Interleaved Documents DocumentPhase}
    (h : documents.Runs UnbilledPhase (Protocol.init .empty) s) :
    (∀ order ∈ s.committed.sales.orders.rows, order.status = .cancelled →
      (∀ line ∈ order.lines, ¬0 < line.invoicedQuantity) ∧
        ∀ invoice ∈ s.committed.sales.invoices.rows, invoice.salesOrderId ≠ order.id) ∧
    ∀ order ∈ s.committed.purchasing.orders.rows, order.status = .cancelled →
      (∀ line ∈ order.lines, ¬0 < line.billedQuantity) ∧
        ∀ bill ∈ s.committed.purchasing.bills.rows, bill.purchaseOrderId ≠ order.id := by
  have hs := (documents_backed.runs h (.init Documents.backed_empty)).committed
  refine ⟨fun order horder hcancelled => ⟨fun line hline hpos => ?_, ?_⟩,
    fun order horder hcancelled => ⟨fun line hline hpos => ?_, ?_⟩⟩
  · exact hs.sales.cleared order horder hcancelled ⟨line, hline, hpos⟩
  · exact hs.sales.no_document horder hcancelled
  · exact hs.purchasing.cleared order horder hcancelled ⟨line, hline, hpos⟩
  · exact hs.purchasing.no_document horder hcancelled

/-- Two hours of the service are ordered and invoiced, and another order is cancelled. -/
def otherCancelled : List (TxAction DocumentCall TenantDb) :=
  DocumentCall.alone 1 (serviceOrder 1) 0 ++
  DocumentCall.alone 2 (confirmation 2 1) 1 ++
  DocumentCall.alone 3 (invoicing 3 1) 1 ++
  DocumentCall.alone 4 (serviceOrder 4) 0 ++
  DocumentCall.alone 5 (cancellation 5 4) 1

/-- The order with the invoice is not the cancelled one. -/
theorem cancelled_unbilled_other : ∃ s : Interleaved Documents DocumentPhase,
    documents.Runs UnbilledPhase (Protocol.init .empty) s ∧
      (s.committed.sales.orders.rows.map fun order => (order.id, order.status)) =
        [(1, .confirmed), (4, .cancelled)] ∧
      (s.committed.sales.invoices.rows.map Invoice.salesOrderId) = [1] ∧
      ∀ order ∈ s.committed.sales.orders.rows, order.status = .cancelled →
        (∀ line ∈ order.lines, ¬0 < line.invoicedQuantity) ∧
          ∀ invoice ∈ s.committed.sales.invoices.rows, invoice.salesOrderId ≠ order.id := by
  have hfacts : (otherCancelled.foldlM (documents.guarded UnbilledPhase)
      (Protocol.init .empty)).any fun s =>
        (s.committed.sales.orders.rows.map fun order => (order.id, order.status)) =
          [(1, .confirmed), (4, .cancelled)] ∧
        (s.committed.sales.invoices.rows.map Invoice.salesOrderId) = [1] := by
    decide +kernel
  obtain ⟨s, hruns, horders, hinvoices⟩ := Protocol.Runs.exists_of_any otherCancelled hfacts
  exact ⟨s, hruns, horders, hinvoices, (cancelled_unbilled hruns).1⟩

/-- The invoiced order itself is cancelled. -/
def invoicedCancelled : List (TxAction DocumentCall TenantDb) :=
  DocumentCall.alone 1 (serviceOrder 1) 0 ++
  DocumentCall.alone 2 (confirmation 2 1) 1 ++
  DocumentCall.alone 3 (invoicing 3 1) 1 ++
  DocumentCall.alone 4 (cancellation 4 1) 1

/-- Both hours of a cancelled order are invoiced, and the invoice is issued after that. -/
theorem cancelled_unbilled_broken : ∃ s s' : Interleaved Documents DocumentPhase,
    documents.Reaches (Protocol.init .empty) s ∧ documents.Reaches s s' ∧
      (s.committed.sales.orders.rows.map fun order =>
        (order.id, order.status, order.lines.map SalesOrderLine.invoicedQuantity)) =
        [(1, .cancelled, [2000000])] ∧
      (s.committed.sales.invoices.rows.map fun invoice =>
        (invoice.id, invoice.salesOrderId, invoice.status)) = [(3, 1, .draft)] ∧
      (s'.committed.sales.orders.rows.map fun order => (order.id, order.status)) =
        [(1, .cancelled)] ∧
      (s'.committed.sales.invoices.rows.map fun invoice =>
        (invoice.id, invoice.salesOrderId, invoice.status)) = [(3, 1, .issued)] := by
  have hfacts : (invoicedCancelled.foldlM documents.step (Protocol.init .empty)).any fun s =>
      ((s.committed.sales.orders.rows.map fun order =>
        (order.id, order.status, order.lines.map SalesOrderLine.invoicedQuantity)) =
        [(1, .cancelled, [2000000])] ∧
      (s.committed.sales.invoices.rows.map fun invoice =>
        (invoice.id, invoice.salesOrderId, invoice.status)) = [(3, 1, .draft)]) ∧
      ((DocumentCall.alone 5 ⟨cornerRequest 5, .issueInvoice 3 (.ok none), rfl⟩ 1).foldlM
        documents.step s).any fun s' =>
        (s'.committed.sales.orders.rows.map fun order => (order.id, order.status)) =
          [(1, .cancelled)] ∧
        (s'.committed.sales.invoices.rows.map fun invoice =>
          (invoice.id, invoice.salesOrderId, invoice.status)) = [(3, 1, .issued)] := by
    decide +kernel
  obtain ⟨s, hreaches, hcancelled, hissued⟩ :=
    Protocol.Reaches.exists_of_any invoicedCancelled hfacts
  obtain ⟨s', hlater, hstatus, hinvoices⟩ := Protocol.Reaches.exists_of_any _ hissued
  exact ⟨s, s', hreaches, hlater, hcancelled.1, hcancelled.2, hstatus, hinvoices⟩

end Nexora.Tenant
