import Nexora.Inventory.Scopes
import Nexora.Tenant.Documents

/-!
# Writes of a restricted caller

What a request may change when its caller is restricted to some branches (`Confined`).

Every document is loaded through a branch check, and so are the warehouses that a payload names.
Five requests move stock in a warehouse that comes from a stored row instead
(`Op.uncheckedWarehouse`): a release asks for no branch, and the warehouse of an order, a
terminal or a sale may have been given to another branch since.  They decide (`confined_iff`).
Held carts and terminals are no rows of any of this.
-/

namespace Nexora.Tenant

open Nexora Nexora.Catalog Nexora.Sales Nexora.Purchasing Nexora.Pos Foundations
open Nexora.Accounting (Money)
open Nexora.Inventory (InventoryDb DocumentKind StockWithin SameSetting Posted)

/-! ## Rows in scope -/

/-- The terminal belongs to one of the branches. -/
def TenantDb.holdsTerminal (db : TenantDb) (branches : Finset Uuid) (terminalId : Uuid) : Bool :=
  (db.pos.terminals.get terminalId).any (·.branchId ∈ branches)

/-- Orders, invoices, bills, payments, sessions and sales that changed belong to the branches. -/
structure DocumentsWithin (branches : Finset Uuid) (db db' : TenantDb) : Prop where
  salesOrders : Table.ChangesWithin (fun order => order.branchId ∈ branches)
    db.sales.orders db'.sales.orders
  invoices : Table.ChangesWithin (fun invoice => invoice.branchId ∈ branches)
    db.sales.invoices db'.sales.invoices
  payments : Table.ChangesWithin (fun payment => payment.branchId ∈ branches)
    db.sales.payments db'.sales.payments
  purchaseOrders : Table.ChangesWithin (fun order => order.branchId ∈ branches)
    db.purchasing.orders db'.purchasing.orders
  bills : Table.ChangesWithin (fun bill => bill.branchId ∈ branches)
    db.purchasing.bills db'.purchasing.bills
  sessions : Table.ChangesWithin (fun session => db.holdsTerminal branches session.terminalId = true)
    db.pos.sessions db'.pos.sessions
  sales : Table.ChangesWithin (fun row => row.branchId ∈ branches) db.pos.sales db'.pos.sales

/-- Every row that changed belongs to the branches, or to a warehouse of them. -/
structure Confined (branches : Finset Uuid) (db db' : TenantDb) : Prop where
  stock : StockWithin (db.inventory.holds branches ·) db.inventory db'.inventory
  documents : DocumentsWithin branches db db'

theorem DocumentsWithin.refl (branches : Finset Uuid) (db : TenantDb) :
    DocumentsWithin branches db db :=
  ⟨.refl _ _, .refl _ _, .refl _ _, .refl _ _, .refl _ _, .refl _ _, .refl _ _⟩

/-- Nothing but documents of the branches changed. -/
structure PaperWithin (branches : Finset Uuid) (db db' : TenantDb) : Prop where
  inventory : db'.inventory = db.inventory
  documents : DocumentsWithin branches db db'

theorem PaperWithin.confined {branches : Finset Uuid} {db db' : TenantDb}
    (h : PaperWithin branches db db') : Confined branches db db' := by
  refine ⟨?_, h.documents⟩
  rw [h.inventory]
  exact .refl _ _

/-- Stock moved in one warehouse decides, when the documents are within the branches. -/
theorem DocumentsWithin.moves_iff {branches : Finset Uuid} {db db' : TenantDb}
    {warehouseId : Uuid} {moves : Prop} (h : DocumentsWithin branches db db')
    (hposted : Posted warehouseId moves db.inventory db'.inventory) :
    Confined branches db db' ↔ (moves → db.inventory.holds branches warehouseId = true) := by
  rw [← hposted.within_iff (p := (db.inventory.holds branches ·))]
  exact ⟨fun hconfined => hconfined.stock, fun hstock => ⟨hstock, h⟩⟩

/-! ## Warehouses that no request checks -/

/-- The warehouse of a stored row in which the request moves stock without asking for its
branch. -/
def Op.uncheckedWarehouse (db : TenantDb) : Op → Option Uuid
  | .inventory op _ => (op.releases.bind db.inventory.reservations.get).map (·.warehouseId)
  | .fulfil id lines =>
      (db.sales.orders.get id).bind fun order =>
        (order.requested lines).toOption.bind fun items =>
          if ∃ line ∈ order.lines, (Sales.requestedFor items line.id).isSome = true ∧
              db.inventory.tracks line.productId = true
          then some order.warehouseId else none
  | .receive id lines =>
      (db.purchasing.orders.get id).bind fun order =>
        (order.requested lines).toOption.bind fun items =>
          if ∃ line ∈ order.lines, (Purchasing.requestedFor items line.id).isSome = true ∧
              db.inventory.tracks line.productId = true
          then some order.warehouseId else none
  | .checkout payload claim =>
      if replayed claim db.pos.sales.get then none
      else (db.pos.sessions.get payload.sessionId).bind fun session =>
        (db.pos.terminals.get session.terminalId).bind fun terminal =>
          if ∃ line ∈ payload.lines, db.inventory.tracks line.productId = true
          then some terminal.warehouseId else none
  | .refund payload claim =>
      if replayed claim db.pos.returns.get then none
      else (db.pos.sales.get payload.saleId).bind fun row =>
        if ∃ item ∈ payload.lines,
            db.inventory.tracks (productOf row.sale.lines (refundLineOf item)) = true
        then some row.warehouseId else none
  | _ => none

/-- The warehouse that no check covers belongs to the branches, where there is one. -/
def Op.StaysInside (branches : Finset Uuid) (db : TenantDb) (op : Op) : Prop :=
  ∀ warehouseId ∈ op.uncheckedWarehouse db, db.inventory.holds branches warehouseId = true

theorem Op.staysInside_iff {op : Op} {branches : Finset Uuid} {db : TenantDb} {warehouseId : Uuid}
    {moves : Prop} [Decidable moves]
    (h : op.uncheckedWarehouse db = if moves then some warehouseId else none) :
    op.StaysInside branches db ↔ (moves → db.inventory.holds branches warehouseId = true) := by
  unfold StaysInside
  rw [h]
  split_ifs with hmoves
  · simp [hmoves]
  · simp [hmoves]

/-- The requests of a caller.  Expiry, the ledger and other modules are no requests of sales,
purchasing, inventory and the till. -/
def Op.RunsUnder (context : TenantContext) (request : Request) : Op → Prop
  | .inventory op _ => op.RunsUnder context
  | .ledger .. | .configure _ => False
  | _ => request.env.context = context

/-! ## Documents of sales -/

variable {request : Request} {branches : Finset Uuid} {db db' : TenantDb}

theorem createQuotation_within {payload : QuotationCreate}
    (h : Sales.createQuotation request db payload = .ok db') : PaperWithin branches db db' := by
  obtain ⟨_, -, h⟩ := bind_eq_ok.mp h
  obtain ⟨_, -, h⟩ := bind_eq_ok.mp h
  obtain ⟨_, -, h⟩ := bind_eq_ok.mp h
  obtain ⟨lines, -, h⟩ := bind_eq_ok.mp h
  obtain ⟨amounts, -, h⟩ := bind_eq_ok.mp h
  obtain ⟨quotations, -, h⟩ := bind_eq_ok.mp h
  cases h
  exact ⟨rfl, { DocumentsWithin.refl branches db with }⟩

theorem setQuotationStatus_within {quotationId : Uuid} {status : QuotationStatus}
    (h : Sales.setQuotationStatus request db quotationId status = .ok db') :
    PaperWithin branches db db' := by
  obtain ⟨quotation, -, h⟩ := bind_eq_ok.mp h
  obtain ⟨_, -, h⟩ := bind_eq_ok.mp h
  obtain ⟨_, -, h⟩ := bind_eq_ok.mp h
  obtain ⟨quotations, -, h⟩ := bind_eq_ok.mp h
  cases h
  exact ⟨rfl, { DocumentsWithin.refl branches db with }⟩

section Sales

variable (hscope : request.env.context.branchIds = some branches)
include hscope

theorem convertQuotation_within {quotationId : Uuid} {payload : QuotationConvert}
    (h : Sales.convertQuotation request db quotationId payload = .ok db') :
    PaperWithin branches db db' := by
  obtain ⟨quotation, -, h⟩ := bind_eq_ok.mp h
  obtain ⟨_, hbranch, h⟩ := bind_eq_ok.mp h
  obtain ⟨_, -, h⟩ := bind_eq_ok.mp h
  obtain ⟨_, -, h⟩ := bind_eq_ok.mp h
  obtain ⟨_, -, h⟩ := bind_eq_ok.mp h
  obtain ⟨lines, -, h⟩ := bind_eq_ok.mp h
  obtain ⟨orders, hinsert, h⟩ := bind_eq_ok.mp h
  obtain ⟨quotations, -, h⟩ := bind_eq_ok.mp h
  cases h
  exact ⟨rfl, { DocumentsWithin.refl branches db with
    salesOrders := .insert (orRaise_eq_ok.mp hinsert)
      (TenantContext.requireBranch_eq_ok hscope hbranch) }⟩

theorem requireWarehouse_within {branchId warehouseId : Uuid} {u : Unit}
    (h : requireWarehouse request.env.context db branchId warehouseId = .ok u) :
    branchId ∈ branches ∧ db.inventory.holds branches warehouseId = true := by
  obtain ⟨_, hbranch, h⟩ := bind_eq_ok.mp h
  obtain ⟨warehouse, hget, h⟩ := bind_eq_ok.mp h
  have hmem := TenantContext.requireBranch_eq_ok hscope hbranch
  refine ⟨hmem, ?_⟩
  unfold requireWarehouseBranch at h
  split at h
  next hsame =>
    unfold InventoryDb.holds
    rw [orRaise_eq_ok.mp hget, Option.any_some, hsame, Option.any_some]
    exact decide_eq_true hmem
  next => cases h

theorem createSalesOrder_within {payload : SalesOrderCreate}
    (h : Sales.createOrder request db payload = .ok db') : PaperWithin branches db db' := by
  obtain ⟨_, hwarehouse, h⟩ := bind_eq_ok.mp h
  obtain ⟨_, -, h⟩ := bind_eq_ok.mp h
  obtain ⟨_, -, h⟩ := bind_eq_ok.mp h
  obtain ⟨priced, -, h⟩ := bind_eq_ok.mp h
  obtain ⟨lines, -, h⟩ := bind_eq_ok.mp h
  obtain ⟨amounts, -, h⟩ := bind_eq_ok.mp h
  obtain ⟨orders, hinsert, h⟩ := bind_eq_ok.mp h
  cases h
  exact ⟨rfl, { DocumentsWithin.refl branches db with
    salesOrders := .insert (orRaise_eq_ok.mp hinsert)
      (requireWarehouse_within hscope hwarehouse).1 }⟩

theorem findSalesOrder_within {orderId : Uuid} {order : SalesOrder}
    (h : Sales.findOrder request db orderId = .ok order) : order.branchId ∈ branches := by
  obtain ⟨order', -, h⟩ := bind_eq_ok.mp h
  obtain ⟨_, hbranch, h⟩ := bind_eq_ok.mp h
  cases h
  exact TenantContext.requireBranch_eq_ok hscope hbranch

theorem findInvoice_within {invoiceId : Uuid} {invoice : Invoice}
    (h : findInvoice request db invoiceId = .ok invoice) : invoice.branchId ∈ branches := by
  obtain ⟨invoice', -, h⟩ := bind_eq_ok.mp h
  obtain ⟨_, hbranch, h⟩ := bind_eq_ok.mp h
  cases h
  exact TenantContext.requireBranch_eq_ok hscope hbranch

theorem confirmSalesOrder_within {orderId : Uuid}
    (h : Sales.confirmOrder request db orderId = .ok db') : PaperWithin branches db db' := by
  obtain ⟨order, hfind, h⟩ := bind_eq_ok.mp h
  obtain ⟨_, -, h⟩ := bind_eq_ok.mp h
  obtain ⟨orders, hreplace, rfl⟩ := Sales.saveOrder_eq_ok h
  have hbranch := findSalesOrder_within hscope hfind
  exact ⟨rfl, { DocumentsWithin.refl branches db with
    salesOrders := .replace (Sales.findOrder_eq_ok hfind) hreplace rfl hbranch hbranch }⟩

theorem cancelSalesOrder_within {orderId : Uuid}
    (h : Sales.cancelOrder request db orderId = .ok db') : PaperWithin branches db db' := by
  obtain ⟨order, hfind, h⟩ := bind_eq_ok.mp h
  obtain ⟨_, -, h⟩ := bind_eq_ok.mp h
  obtain ⟨_, -, h⟩ := bind_eq_ok.mp h
  obtain ⟨orders, hreplace, rfl⟩ := Sales.saveOrder_eq_ok h
  have hbranch := findSalesOrder_within hscope hfind
  exact ⟨rfl, { DocumentsWithin.refl branches db with
    salesOrders := .replace (Sales.findOrder_eq_ok hfind) hreplace rfl hbranch hbranch }⟩

theorem createInvoice_within {payload : InvoiceCreate}
    (h : Sales.createInvoice request db payload = .ok db') : PaperWithin branches db db' := by
  obtain ⟨order, hfind, h⟩ := bind_eq_ok.mp h
  obtain ⟨_, -, h⟩ := bind_eq_ok.mp h
  obtain ⟨state, -, h⟩ := bind_eq_ok.mp h
  obtain ⟨_, -, h⟩ := bind_eq_ok.mp h
  obtain ⟨invoice, hdraft, h⟩ := bind_eq_ok.mp h
  obtain ⟨db₁, hsave, h⟩ := bind_eq_ok.mp h
  obtain ⟨orders, hreplace, rfl⟩ := Sales.saveOrder_eq_ok hsave
  obtain ⟨invoices, hinsert, h⟩ := bind_eq_ok.mp h
  cases h
  have hbranch := findSalesOrder_within hscope hfind
  have hinvoice : invoice.branchId = order.branchId := by
    unfold draftInvoice at hdraft
    split at hdraft
    next =>
      split at hdraft
      next => cases hdraft
      next =>
        cases hdraft
        rfl
    next => cases hdraft
  exact ⟨rfl, { DocumentsWithin.refl branches db with
    salesOrders := .replace (Sales.findOrder_eq_ok hfind) hreplace rfl hbranch hbranch
    invoices := .insert (orRaise_eq_ok.mp hinsert) (hinvoice ▸ hbranch) }⟩

theorem issueInvoice_within {invoiceId : Uuid} {claim : Except Err (Option Uuid)}
    (h : Sales.issueInvoice request db invoiceId claim = .ok db') : PaperWithin branches db db' := by
  obtain ⟨stored, -, h⟩ := bind_eq_ok.mp h
  split at h
  next =>
    obtain ⟨_, -, h⟩ := bind_eq_ok.mp h
    cases h
    exact ⟨rfl, .refl _ _⟩
  next =>
    obtain ⟨invoice, hfind, h⟩ := bind_eq_ok.mp h
    obtain ⟨_, -, h⟩ := bind_eq_ok.mp h
    obtain ⟨db₁, hsave, h⟩ := bind_eq_ok.mp h
    obtain ⟨invoices, hreplace, rfl⟩ := saveInvoice_eq_ok hsave
    obtain ⟨rows, -, h⟩ := bind_eq_ok.mp h
    obtain ⟨ledger, register, rfl⟩ := TenantDb.book_frame h
    have hbranch := findInvoice_within hscope hfind
    exact ⟨rfl, { DocumentsWithin.refl branches db with
      invoices := .replace (findInvoice_eq_ok hfind) hreplace rfl hbranch hbranch }⟩

theorem payInvoice_within {payload : PaymentCreate} {item : PaymentAllocation}
    (h : payInvoice request payload db item = .ok db') :
    ∃ invoices, db' = { db with sales := { db.sales with invoices := invoices } } ∧
      Table.ChangesWithin (fun invoice => invoice.branchId ∈ branches) db.sales.invoices
        invoices := by
  obtain ⟨invoice, hfind, h⟩ := bind_eq_ok.mp h
  obtain ⟨_, -, h⟩ := bind_eq_ok.mp h
  obtain ⟨_, -, h⟩ := bind_eq_ok.mp h
  obtain ⟨paid, hpay, h⟩ := bind_eq_ok.mp h
  obtain ⟨invoices, hreplace, rfl⟩ := saveInvoice_eq_ok h
  have hbranch := findInvoice_within hscope hfind
  have hid := (Invoice.pay_within hpay).2.1
  have hpaid : paid.branchId = invoice.branchId := by
    unfold Invoice.pay at hpay
    split at hpay
    next =>
      cases hpay
      rfl
    next => cases hpay
  rw [hid] at hreplace
  exact ⟨invoices, rfl,
    .replace (findInvoice_eq_ok hfind) hreplace hid hbranch (hpaid ▸ hbranch)⟩

omit hscope in
theorem newPayment_branch {id : Uuid} {number : String} {counterparty : Counterparty}
    {branchId : Uuid} {method : PaymentMethod} {amount : Money} {hpos : 0 < amount}
    {paymentDate : Accounting.Date} {allocations : List PaymentAllocation} {payment : Payment}
    (h : newPayment id number counterparty branchId method amount hpos paymentDate allocations =
      .ok payment) : payment.branchId = branchId := by
  unfold newPayment at h
  split at h
  next =>
    split at h
    next =>
      cases h
      rfl
    next => cases h
  next => cases h

theorem recordCustomerPayment_within {payload : PaymentCreate} {claim : Except Err (Option Uuid)}
    (h : Sales.recordPayment request db payload claim = .ok db') :
    PaperWithin branches db db' := by
  obtain ⟨_, hbranch, h⟩ := bind_eq_ok.mp h
  obtain ⟨stored, -, h⟩ := bind_eq_ok.mp h
  split at h
  next =>
    cases h
    exact ⟨rfl, .refl _ _⟩
  next =>
    obtain ⟨_, -, h⟩ := bind_eq_ok.mp h
    obtain ⟨payment, hpayment, h⟩ := bind_eq_ok.mp h
    obtain ⟨db₁, hloop, h⟩ := bind_eq_ok.mp h
    obtain ⟨payments, hinsert, h⟩ := bind_eq_ok.mp h
    obtain ⟨ledger, register, rfl⟩ := TenantDb.book_frame h
    obtain ⟨invoices, rfl, hinvoices⟩ := foldlM_invariant
      (I := fun db₁ : TenantDb => ∃ invoices,
        db₁ = { (db.allocate request .salesPayment).2 with
          sales := { db.sales with invoices := invoices } } ∧
        Table.ChangesWithin (fun invoice => invoice.branchId ∈ branches) db.sales.invoices
          invoices)
      (fun item _ db₁ db₂ hdb₁ hpass => by
        obtain ⟨_, rfl, hwithin⟩ := hdb₁
        obtain ⟨invoices, rfl, hpaid⟩ := payInvoice_within hscope hpass
        exact ⟨invoices, rfl, hwithin.trans hpaid⟩)
      hloop ⟨db.sales.invoices, rfl, .refl _ _⟩
    exact ⟨rfl, { DocumentsWithin.refl branches db with
      invoices := hinvoices
      payments := .insert (orRaise_eq_ok.mp hinsert)
        (newPayment_branch hpayment ▸ TenantContext.requireBranch_eq_ok hscope hbranch) }⟩

/-! ## Stock of documents -/

omit hscope in
/-- A line of a document, in a loop that started at `start`. -/
theorem postStock_posted {kind : DocumentKind} {warehouseId documentId productId : Uuid}
    {start inventory inventory' : InventoryDb} {product : Product} {item : RequestedLine}
    {unitCost : Option UnitCost} (hstart : SameSetting start inventory)
    (hproduct : kind.product inventory productId = some product)
    (h : postStock kind warehouseId documentId inventory product item unitCost = .ok inventory') :
    Posted warehouseId (start.tracks productId = true) inventory inventory' := by
  rw [← hstart.tracks, DocumentKind.tracks_eq hproduct]
  exact Inventory.postMovementForDocument_posted h

omit hscope in
theorem fulfilLine_posted {warehouseId fulfillmentId : Uuid} {items : List RequestedLine}
    {start : InventoryDb} {state state' : FulfilState} {line : SalesOrderLine}
    (hstart : SameSetting start state.inventory)
    (h : fulfilLine warehouseId fulfillmentId items state line = .ok state') :
    Posted warehouseId ((Sales.requestedFor items line.id).isSome = true ∧
      start.tracks line.productId = true) state.inventory state'.inventory := by
  unfold fulfilLine at h
  split at h
  next hnone =>
    cases h
    exact .refl _ (by simp [hnone]) _
  next item hitem =>
    split at h
    next =>
      obtain ⟨product, hproduct, h⟩ := bind_eq_ok.mp h
      obtain ⟨inventory, hpost, h⟩ := bind_eq_ok.mp h
      cases h
      exact (postStock_posted hstart (orRaise_eq_ok.mp hproduct) hpost).congr (by simp [hitem])
    next => cases h

/-- The documents of a fulfilment are on the branches, and its stock moves in the warehouse of the
order. -/
theorem fulfil_confined_iff {orderId : Uuid} {lines : Option (List RequestedLine)}
    (h : Sales.fulfil request db orderId lines = .ok db') :
    Confined branches db db' ↔ (Op.fulfil orderId lines).StaysInside branches db := by
  obtain ⟨order, hfind, h⟩ := bind_eq_ok.mp h
  obtain ⟨_, -, h⟩ := bind_eq_ok.mp h
  obtain ⟨items, hitems, h⟩ := bind_eq_ok.mp h
  obtain ⟨_, -, h⟩ := bind_eq_ok.mp h
  obtain ⟨state, hloop, h⟩ := bind_eq_ok.mp h
  obtain ⟨db₁, hsave, h⟩ := bind_eq_ok.mp h
  obtain ⟨orders, hreplace, rfl⟩ := Sales.saveOrder_eq_ok hsave
  obtain ⟨fulfillments, -, h⟩ := bind_eq_ok.mp h
  obtain ⟨ledger, register, rfl⟩ := TenantDb.book_frame h
  have hbranch := findSalesOrder_within hscope hfind
  have hget := Sales.findOrder_eq_ok hfind
  have hposted := Posted.foldlM FulfilState.inventory _
    (fun line state state' hstart hpass => fulfilLine_posted hstart hpass) (.refl db.inventory) hloop
  have hdocuments : DocumentsWithin branches db
      { db with
        inventory := state.inventory
        ledger := ledger
        register := register
        sales := { db.sales with orders := orders, fulfillments := fulfillments } } :=
    { DocumentsWithin.refl branches db with
      salesOrders := .replace hget hreplace rfl hbranch hbranch }
  refine (hdocuments.moves_iff hposted).trans (Op.staysInside_iff ?_).symm
  simp only [Op.uncheckedWarehouse, hget, hitems, Option.bind_some, Except.toOption]

omit hscope in
theorem restockLine_within {p : Uuid → Prop} {noteId : Uuid} {restocks : Option Uuid}
    {state : CreditState} {productId : Uuid} {item : RequestedLine} {inventory : InventoryDb}
    {cost : ℚ} (hp : ∀ warehouseId ∈ restocks, p warehouseId)
    (h : restockLine noteId restocks state productId item = .ok (inventory, cost)) :
    StockWithin p state.inventory inventory := by
  cases restocks with
  | none =>
      cases h
      exact .refl _ _
  | some warehouseId =>
      obtain ⟨product, -, h⟩ := bind_eq_ok.mp h
      obtain ⟨inventory', hpost, h⟩ := bind_eq_ok.mp h
      cases h
      exact (Inventory.postMovementForDocument_posted hpost).within_iff.mpr fun _ =>
        hp warehouseId rfl

theorem issueCreditNote_confined {payload : CreditNoteCreate}
    (h : Sales.issueCreditNote request db payload = .ok db') : Confined branches db db' := by
  obtain ⟨invoice, hfind, h⟩ := bind_eq_ok.mp h
  obtain ⟨_, -, h⟩ := bind_eq_ok.mp h
  obtain ⟨_, -, h⟩ := bind_eq_ok.mp h
  obtain ⟨_, hwarehouse, h⟩ := bind_eq_ok.mp h
  obtain ⟨state, hloop, h⟩ := bind_eq_ok.mp h
  obtain ⟨db₁, hsave, h⟩ := bind_eq_ok.mp h
  obtain ⟨invoices, hreplace, rfl⟩ := saveInvoice_eq_ok hsave
  obtain ⟨note, -, h⟩ := bind_eq_ok.mp h
  obtain ⟨creditNotes, -, h⟩ := bind_eq_ok.mp h
  obtain ⟨rows, -, h⟩ := bind_eq_ok.mp h
  obtain ⟨ledger, register, rfl⟩ := TenantDb.book_frame h
  have hbranch := findInvoice_within hscope hfind
  have hholds : ∀ w ∈ payload.restocks, db.inventory.holds branches w = true := by
    intro w hw
    unfold CreditNoteCreate.restocks at hw
    split at hw
    next =>
      rw [Option.mem_def.mp hw] at hwarehouse
      exact (requireWarehouse_within hscope hwarehouse).2
    next => cases hw
  obtain ⟨hid, hstate, hstock⟩ := foldlM_invariant
    (I := fun state : CreditState => state.invoice.id = invoice.id ∧
      state.invoice.branchId = invoice.branchId ∧
      StockWithin (db.inventory.holds branches ·) db.inventory state.inventory)
    (fun row _ state state' hinv hpass => by
      obtain ⟨line, -, hpass⟩ := bind_eq_ok.mp hpass
      split at hpass
      next =>
        obtain ⟨priced, -, hpass⟩ := bind_eq_ok.mp hpass
        obtain ⟨⟨inventory, cost⟩, hrestock, hpass⟩ := bind_eq_ok.mp hpass
        cases hpass
        exact ⟨hinv.1, hinv.2.1, hinv.2.2.trans (restockLine_within hholds hrestock)⟩
      next => cases hpass)
    hloop ⟨rfl, rfl, .refl _ _⟩
  rw [hid] at hreplace
  exact ⟨hstock, { DocumentsWithin.refl branches db with
    invoices := .replace (findInvoice_eq_ok hfind) hreplace hid hbranch (hstate ▸ hbranch) }⟩

/-! ## Documents of purchasing -/

theorem createPurchaseOrder_within {payload : PurchaseOrderCreate}
    (h : Purchasing.createOrder request db payload = .ok db') : PaperWithin branches db db' := by
  obtain ⟨_, hwarehouse, h⟩ := bind_eq_ok.mp h
  obtain ⟨_, -, h⟩ := bind_eq_ok.mp h
  obtain ⟨_, -, h⟩ := bind_eq_ok.mp h
  obtain ⟨priced, -, h⟩ := bind_eq_ok.mp h
  obtain ⟨lines, -, h⟩ := bind_eq_ok.mp h
  obtain ⟨amounts, -, h⟩ := bind_eq_ok.mp h
  obtain ⟨orders, hinsert, h⟩ := bind_eq_ok.mp h
  cases h
  exact ⟨rfl, { DocumentsWithin.refl branches db with
    purchaseOrders := .insert (orRaise_eq_ok.mp hinsert)
      (requireWarehouse_within hscope hwarehouse).1 }⟩

theorem findPurchaseOrder_within {orderId : Uuid} {order : PurchaseOrder}
    (h : Purchasing.findOrder request db orderId = .ok order) : order.branchId ∈ branches := by
  obtain ⟨order', -, h⟩ := bind_eq_ok.mp h
  obtain ⟨_, hbranch, h⟩ := bind_eq_ok.mp h
  cases h
  exact TenantContext.requireBranch_eq_ok hscope hbranch

theorem findBill_within {billId : Uuid} {bill : SupplierBill}
    (h : findBill request db billId = .ok bill) : bill.branchId ∈ branches := by
  obtain ⟨bill', -, h⟩ := bind_eq_ok.mp h
  obtain ⟨_, hbranch, h⟩ := bind_eq_ok.mp h
  cases h
  exact TenantContext.requireBranch_eq_ok hscope hbranch

theorem confirmPurchaseOrder_within {orderId : Uuid}
    (h : Purchasing.confirmOrder request db orderId = .ok db') : PaperWithin branches db db' := by
  obtain ⟨order, hfind, h⟩ := bind_eq_ok.mp h
  obtain ⟨_, -, h⟩ := bind_eq_ok.mp h
  obtain ⟨orders, hreplace, rfl⟩ := Purchasing.saveOrder_eq_ok h
  have hbranch := findPurchaseOrder_within hscope hfind
  exact ⟨rfl, { DocumentsWithin.refl branches db with
    purchaseOrders := .replace (Purchasing.findOrder_eq_ok hfind) hreplace rfl hbranch hbranch }⟩

theorem cancelPurchaseOrder_within {orderId : Uuid}
    (h : Purchasing.cancelOrder request db orderId = .ok db') : PaperWithin branches db db' := by
  obtain ⟨order, hfind, h⟩ := bind_eq_ok.mp h
  obtain ⟨_, -, h⟩ := bind_eq_ok.mp h
  obtain ⟨_, -, h⟩ := bind_eq_ok.mp h
  obtain ⟨orders, hreplace, rfl⟩ := Purchasing.saveOrder_eq_ok h
  have hbranch := findPurchaseOrder_within hscope hfind
  exact ⟨rfl, { DocumentsWithin.refl branches db with
    purchaseOrders := .replace (Purchasing.findOrder_eq_ok hfind) hreplace rfl hbranch hbranch }⟩

omit hscope in
theorem receiveLine_posted {warehouseId receiptId : Uuid} {items : List ReceiptLineInput}
    {start : InventoryDb} {state state' : ReceiveState} {line : PurchaseOrderLine}
    (hstart : SameSetting start state.inventory)
    (h : receiveLine warehouseId receiptId items state line = .ok state') :
    Posted warehouseId ((Purchasing.requestedFor items line.id).isSome = true ∧
      start.tracks line.productId = true) state.inventory state'.inventory := by
  unfold receiveLine at h
  split at h
  next hnone =>
    cases h
    exact .refl _ (by simp [hnone]) _
  next item hitem =>
    split at h
    next =>
      obtain ⟨product, hproduct, h⟩ := bind_eq_ok.mp h
      obtain ⟨inventory, hpost, h⟩ := bind_eq_ok.mp h
      cases h
      exact (postStock_posted hstart (orRaise_eq_ok.mp hproduct) hpost).congr (by simp [hitem])
    next => cases h

theorem receive_confined_iff {orderId : Uuid} {lines : Option (List ReceiptLineInput)}
    (h : Purchasing.receive request db orderId lines = .ok db') :
    Confined branches db db' ↔ (Op.receive orderId lines).StaysInside branches db := by
  obtain ⟨order, hfind, h⟩ := bind_eq_ok.mp h
  obtain ⟨_, -, h⟩ := bind_eq_ok.mp h
  obtain ⟨items, hitems, h⟩ := bind_eq_ok.mp h
  obtain ⟨_, -, h⟩ := bind_eq_ok.mp h
  obtain ⟨state, hloop, h⟩ := bind_eq_ok.mp h
  obtain ⟨db₁, hsave, h⟩ := bind_eq_ok.mp h
  obtain ⟨orders, hreplace, rfl⟩ := Purchasing.saveOrder_eq_ok hsave
  obtain ⟨receipts, -, h⟩ := bind_eq_ok.mp h
  obtain ⟨ledger, register, rfl⟩ := TenantDb.book_frame h
  have hbranch := findPurchaseOrder_within hscope hfind
  have hget := Purchasing.findOrder_eq_ok hfind
  have hposted := Posted.foldlM ReceiveState.inventory _
    (fun line state state' hstart hpass => receiveLine_posted hstart hpass) (.refl db.inventory)
    hloop
  have hdocuments : DocumentsWithin branches db
      { db with
        inventory := state.inventory
        ledger := ledger
        register := register
        purchasing := { db.purchasing with orders := orders, receipts := receipts } } :=
    { DocumentsWithin.refl branches db with
      purchaseOrders := .replace hget hreplace rfl hbranch hbranch }
  refine (hdocuments.moves_iff hposted).trans (Op.staysInside_iff ?_).symm
  simp only [Op.uncheckedWarehouse, hget, hitems, Option.bind_some, Except.toOption]

theorem createBill_within {payload : SupplierBillCreate}
    (h : Purchasing.createBill request db payload = .ok db') : PaperWithin branches db db' := by
  obtain ⟨order, hfind, h⟩ := bind_eq_ok.mp h
  obtain ⟨_, -, h⟩ := bind_eq_ok.mp h
  obtain ⟨state, -, h⟩ := bind_eq_ok.mp h
  obtain ⟨_, -, h⟩ := bind_eq_ok.mp h
  obtain ⟨bill, hdraft, h⟩ := bind_eq_ok.mp h
  obtain ⟨db₁, hsave, h⟩ := bind_eq_ok.mp h
  obtain ⟨orders, hreplace, rfl⟩ := Purchasing.saveOrder_eq_ok hsave
  obtain ⟨bills, hinsert, h⟩ := bind_eq_ok.mp h
  cases h
  have hbranch := findPurchaseOrder_within hscope hfind
  have hbill : bill.branchId = order.branchId := by
    unfold draftBill at hdraft
    split at hdraft
    next => cases hdraft
    next =>
      cases hdraft
      rfl
  exact ⟨rfl, { DocumentsWithin.refl branches db with
    purchaseOrders := .replace (Purchasing.findOrder_eq_ok hfind) hreplace rfl hbranch hbranch
    bills := .insert (orRaise_eq_ok.mp hinsert) (hbill ▸ hbranch) }⟩

theorem issueBill_within {billId : Uuid} (h : Purchasing.issueBill request db billId = .ok db') :
    PaperWithin branches db db' := by
  obtain ⟨bill, hfind, h⟩ := bind_eq_ok.mp h
  obtain ⟨_, -, h⟩ := bind_eq_ok.mp h
  obtain ⟨db₁, hsave, h⟩ := bind_eq_ok.mp h
  obtain ⟨bills, hreplace, rfl⟩ := saveBill_eq_ok hsave
  obtain ⟨rows, -, h⟩ := bind_eq_ok.mp h
  obtain ⟨ledger, register, rfl⟩ := TenantDb.book_frame h
  have hbranch := findBill_within hscope hfind
  exact ⟨rfl, { DocumentsWithin.refl branches db with
    bills := .replace (findBill_eq_ok hfind) hreplace rfl hbranch hbranch }⟩

theorem payBill_within {payload : SupplierPaymentCreate} {item : PaymentAllocation}
    (h : payBill request payload db item = .ok db') :
    ∃ bills, db' = { db with purchasing := { db.purchasing with bills := bills } } ∧
      Table.ChangesWithin (fun bill => bill.branchId ∈ branches) db.purchasing.bills bills := by
  obtain ⟨bill, hfind, h⟩ := bind_eq_ok.mp h
  obtain ⟨_, -, h⟩ := bind_eq_ok.mp h
  obtain ⟨_, -, h⟩ := bind_eq_ok.mp h
  obtain ⟨paid, hpay, h⟩ := bind_eq_ok.mp h
  obtain ⟨bills, hreplace, rfl⟩ := saveBill_eq_ok h
  have hbranch := findBill_within hscope hfind
  have hid := (SupplierBill.pay_within hpay).2.1
  have hpaid : paid.branchId = bill.branchId := by
    unfold SupplierBill.pay at hpay
    split at hpay
    next =>
      cases hpay
      rfl
    next => cases hpay
  rw [hid] at hreplace
  exact ⟨bills, rfl, .replace (findBill_eq_ok hfind) hreplace hid hbranch (hpaid ▸ hbranch)⟩

theorem recordSupplierPayment_within {payload : SupplierPaymentCreate}
    {claim : Except Err (Option Uuid)}
    (h : Purchasing.recordPayment request db payload claim = .ok db') :
    PaperWithin branches db db' := by
  obtain ⟨_, hbranch, h⟩ := bind_eq_ok.mp h
  obtain ⟨stored, -, h⟩ := bind_eq_ok.mp h
  split at h
  next =>
    cases h
    exact ⟨rfl, .refl _ _⟩
  next =>
    obtain ⟨_, -, h⟩ := bind_eq_ok.mp h
    obtain ⟨payment, hpayment, h⟩ := bind_eq_ok.mp h
    obtain ⟨db₁, hloop, h⟩ := bind_eq_ok.mp h
    obtain ⟨payments, hinsert, h⟩ := bind_eq_ok.mp h
    obtain ⟨ledger, register, rfl⟩ := TenantDb.book_frame h
    obtain ⟨bills, rfl, hbills⟩ := foldlM_invariant
      (I := fun db₁ : TenantDb => ∃ bills,
        db₁ = { (db.allocate request .purchasePayment).2 with
          purchasing := { db.purchasing with bills := bills } } ∧
        Table.ChangesWithin (fun bill => bill.branchId ∈ branches) db.purchasing.bills bills)
      (fun item _ db₁ db₂ hdb₁ hpass => by
        obtain ⟨_, rfl, hwithin⟩ := hdb₁
        obtain ⟨bills, rfl, hpaid⟩ := payBill_within hscope hpass
        exact ⟨bills, rfl, hwithin.trans hpaid⟩)
      hloop ⟨db.purchasing.bills, rfl, .refl _ _⟩
    exact ⟨rfl, { DocumentsWithin.refl branches db with
      bills := hbills
      payments := .insert (orRaise_eq_ok.mp hinsert)
        (newPayment_branch hpayment ▸ TenantContext.requireBranch_eq_ok hscope hbranch) }⟩

/-! ## The till -/

theorem requireTerminal_within {terminalId : Uuid} {terminal : PosTerminal}
    (h : requireTerminal request db terminalId = .ok terminal) :
    db.pos.terminals.get terminalId = some terminal ∧ terminal.branchId ∈ branches := by
  obtain ⟨terminal', hget, h⟩ := bind_eq_ok.mp h
  obtain ⟨_, hbranch, h⟩ := bind_eq_ok.mp h
  cases h
  exact ⟨orRaise_eq_ok.mp hget, TenantContext.requireBranch_eq_ok hscope hbranch⟩

theorem requireSession_within {sessionId : Uuid} {session : PosSession} {terminal : PosTerminal}
    (h : requireSession request db sessionId = .ok (session, terminal)) :
    db.pos.sessions.get sessionId = some session ∧
      db.pos.terminals.get session.terminalId = some terminal ∧ terminal.branchId ∈ branches := by
  obtain ⟨session', hget, h⟩ := bind_eq_ok.mp h
  obtain ⟨terminal', hterminal, h⟩ := bind_eq_ok.mp h
  obtain ⟨_, -, h⟩ := bind_eq_ok.mp h
  obtain ⟨_, -, h⟩ := bind_eq_ok.mp h
  obtain ⟨_, -, h⟩ := bind_eq_ok.mp h
  cases h
  exact ⟨orRaise_eq_ok.mp hget, requireTerminal_within hscope hterminal⟩

theorem openSession_within {payload : SessionOpen}
    (h : Pos.openSession request db payload = .ok db') : PaperWithin branches db db' := by
  obtain ⟨terminal, hterminal, h⟩ := bind_eq_ok.mp h
  obtain ⟨_, -, h⟩ := bind_eq_ok.mp h
  obtain ⟨_, -, h⟩ := bind_eq_ok.mp h
  obtain ⟨sessions, hinsert, h⟩ := bind_eq_ok.mp h
  cases h
  obtain ⟨hget, hbranch⟩ := requireTerminal_within hscope hterminal
  refine ⟨rfl, { DocumentsWithin.refl branches db with
    sessions := .insert (orRaise_eq_ok.mp hinsert) ?_ }⟩
  unfold TenantDb.holdsTerminal
  rw [Table.get_self hget, Option.any_some]
  exact decide_eq_true hbranch

theorem closeSession_within {sessionId : Uuid} {countedCash : Money}
    (h : Pos.closeSession request db sessionId countedCash = .ok db') :
    PaperWithin branches db db' := by
  obtain ⟨⟨session, terminal⟩, hsession, h⟩ := bind_eq_ok.mp h
  obtain ⟨_, -, h⟩ := bind_eq_ok.mp h
  obtain ⟨_, -, h⟩ := bind_eq_ok.mp h
  obtain ⟨_, -, h⟩ := bind_eq_ok.mp h
  obtain ⟨sessions, hreplace, h⟩ := bind_eq_ok.mp h
  cases h
  obtain ⟨hget, hterminal, hbranch⟩ := requireSession_within hscope hsession
  have hholds : db.holdsTerminal branches session.terminalId = true := by
    unfold TenantDb.holdsTerminal
    rw [hterminal, Option.any_some]
    exact decide_eq_true hbranch
  exact ⟨rfl, { DocumentsWithin.refl branches db with
    sessions := .replace hget (orRaise_eq_ok.mp hreplace) rfl hholds hholds }⟩

/-- A sale moves stock in the warehouse of its terminal. -/
theorem checkout_confined_iff {payload : CheckoutCreate} {claim : Except Err (Option Uuid)}
    (h : Pos.checkout request db payload claim = .ok db') :
    Confined branches db db' ↔ (Op.checkout payload claim).StaysInside branches db := by
  obtain ⟨stored, hclaim, h⟩ := bind_eq_ok.mp h
  split at h
  next existing hexisting =>
    obtain ⟨_, -, h⟩ := bind_eq_ok.mp h
    cases h
    have hreplayed : replayed claim db.pos.sales.get = true := by
      simp [replayed, hclaim, hexisting]
    refine iff_of_true (PaperWithin.confined ⟨rfl, .refl _ _⟩) ?_
    simp [Op.StaysInside, Op.uncheckedWarehouse, hreplayed]
  next hexisting =>
    have hreplayed : replayed claim db.pos.sales.get = false := by
      simp [replayed, hclaim, hexisting]
    obtain ⟨⟨session, terminal⟩, hsession, h⟩ := bind_eq_ok.mp h
    obtain ⟨_, -, h⟩ := bind_eq_ok.mp h
    obtain ⟨sale, -, h⟩ := bind_eq_ok.mp h
    obtain ⟨_, -, h⟩ := bind_eq_ok.mp h
    obtain ⟨inventory, hstock, h⟩ := bind_eq_ok.mp h
    obtain ⟨sales, hinsert, h⟩ := bind_eq_ok.mp h
    obtain ⟨rows, -, h⟩ := bind_eq_ok.mp h
    obtain ⟨ledger, register, rfl⟩ := TenantDb.book_frame h
    obtain ⟨hget, hterminal, hbranch⟩ := requireSession_within hscope hsession
    have hposted := Posted.foldlM id
      (fun line : CartLine => db.inventory.tracks line.productId = true)
      (fun line inventory inventory' hstart hpass => by
        obtain ⟨product, hproduct, hpass⟩ := bind_eq_ok.mp hpass
        have hfound : DocumentKind.posSale.product inventory line.productId = some product :=
          orRaise_eq_ok.mp hproduct
        exact postStock_posted hstart hfound hpass)
      (.refl db.inventory) hstock
    have hdocuments : DocumentsWithin branches db
        { db with
          inventory := inventory
          ledger := ledger
          register := register
          pos := { db.pos with sales := sales } } :=
      { DocumentsWithin.refl branches db with
        sales := .insert (orRaise_eq_ok.mp hinsert) hbranch }
    have hmoves := hposted.congr (exists_congr fun line => and_congr_left' (
      (List.perm_insertionSort (fun a b : CartLine => a.productId ≤ b.productId) payload.lines).mem_iff))
    refine (hdocuments.moves_iff hmoves).trans (Op.staysInside_iff ?_).symm
    simp only [Op.uncheckedWarehouse, hreplayed, hget, hterminal, Option.bind_some]
    rfl

/-- A refund moves stock in the warehouse of its sale. -/
theorem refund_confined_iff {payload : RefundCreate} {claim : Except Err (Option Uuid)}
    (h : Pos.refund request db payload claim = .ok db') :
    Confined branches db db' ↔ (Op.refund payload claim).StaysInside branches db := by
  obtain ⟨stored, hclaim, h⟩ := bind_eq_ok.mp h
  split at h
  next existing hexisting =>
    cases h
    have hreplayed : replayed claim db.pos.returns.get = true := by
      simp [replayed, hclaim, hexisting]
    refine iff_of_true (PaperWithin.confined ⟨rfl, .refl _ _⟩) ?_
    simp [Op.StaysInside, Op.uncheckedWarehouse, hreplayed]
  next hexisting =>
    have hreplayed : replayed claim db.pos.returns.get = false := by
      simp [replayed, hclaim, hexisting]
    obtain ⟨⟨session, terminal⟩, -, h⟩ := bind_eq_ok.mp h
    obtain ⟨row, hrow, h⟩ := bind_eq_ok.mp h
    obtain ⟨_, hbranch, h⟩ := bind_eq_ok.mp h
    obtain ⟨_, -, h⟩ := bind_eq_ok.mp h
    obtain ⟨_, -, h⟩ := bind_eq_ok.mp h
    obtain ⟨_, -, h⟩ := bind_eq_ok.mp h
    obtain ⟨state, -, h⟩ := bind_eq_ok.mp h
    obtain ⟨sale, -, h⟩ := bind_eq_ok.mp h
    obtain ⟨_, -, h⟩ := bind_eq_ok.mp h
    obtain ⟨inventory, hstock, h⟩ := bind_eq_ok.mp h
    obtain ⟨returns, -, h⟩ := bind_eq_ok.mp h
    obtain ⟨sales, hreplace, h⟩ := bind_eq_ok.mp h
    obtain ⟨rows, -, h⟩ := bind_eq_ok.mp h
    obtain ⟨ledger, register, rfl⟩ := TenantDb.book_frame h
    have hget := orRaise_eq_ok.mp hrow
    have hmem := TenantContext.requireBranch_eq_ok hscope hbranch
    have hposted := Posted.foldlM id
      (fun item : RequestedLine =>
        db.inventory.tracks (productOf row.sale.lines (refundLineOf item)) = true)
      (fun item inventory inventory' hstart hpass => by
        obtain ⟨product, hproduct, hpass⟩ := bind_eq_ok.mp hpass
        have hfound : DocumentKind.posReturn.product inventory
            (productOf row.sale.lines (refundLineOf item)) = some product :=
          orRaise_eq_ok.mp hproduct
        exact postStock_posted hstart hfound hpass)
      (.refl db.inventory) hstock
    have hdocuments : DocumentsWithin branches db
        { db with
          inventory := inventory
          ledger := ledger
          register := register
          pos := { db.pos with sales := sales, returns := returns } } :=
      { DocumentsWithin.refl branches db with
        sales := .replace hget (orRaise_eq_ok.mp hreplace) rfl hmem hmem }
    have hmoves := hposted.congr (exists_congr fun item => and_congr_left'
      (List.perm_insertionSort _ payload.lines).mem_iff)
    refine (hdocuments.moves_iff hmoves).trans (Op.staysInside_iff ?_).symm
    simp only [Op.uncheckedWarehouse, hreplayed, hget, Option.bind_some]
    rfl

end Sales

/-! ## Requests -/

/-- Under a restricted caller every request that goes through stays within the branches exactly
when the warehouse that no check covers does. -/
theorem confined_iff {op : Op} {context : TenantContext}
    (hscope : context.branchIds = some branches) (hop : op.RunsUnder context request)
    (hok : op.body request db = .ok db') :
    Confined branches db db' ↔ op.StaysInside branches db := by
  have hpaper : ∀ {op : Op}, op.uncheckedWarehouse db = none → PaperWithin branches db db' →
      (Confined branches db db' ↔ op.StaysInside branches db) := by
    intro op hnone hpaper
    refine iff_of_true hpaper.confined ?_
    rw [Op.StaysInside, hnone]
    nofun
  cases op with
  | createQuotation payload => exact hpaper rfl (createQuotation_within hok)
  | setQuotationStatus id status => exact hpaper rfl (setQuotationStatus_within hok)
  | convertQuotation id payload =>
      cases hop
      exact hpaper rfl (convertQuotation_within hscope hok)
  | createSalesOrder payload =>
      cases hop
      exact hpaper rfl (createSalesOrder_within hscope hok)
  | confirmSalesOrder id =>
      cases hop
      exact hpaper rfl (confirmSalesOrder_within hscope hok)
  | cancelSalesOrder id =>
      cases hop
      exact hpaper rfl (cancelSalesOrder_within hscope hok)
  | fulfil id lines =>
      cases hop
      exact fulfil_confined_iff hscope hok
  | createInvoice payload =>
      cases hop
      exact hpaper rfl (createInvoice_within hscope hok)
  | issueInvoice id claim =>
      cases hop
      exact hpaper rfl (issueInvoice_within hscope hok)
  | recordCustomerPayment payload claim =>
      cases hop
      exact hpaper rfl (recordCustomerPayment_within hscope hok)
  | issueCreditNote payload =>
      cases hop
      exact iff_of_true (issueCreditNote_confined hscope hok) nofun
  | createPurchaseOrder payload =>
      cases hop
      exact hpaper rfl (createPurchaseOrder_within hscope hok)
  | confirmPurchaseOrder id =>
      cases hop
      exact hpaper rfl (confirmPurchaseOrder_within hscope hok)
  | cancelPurchaseOrder id =>
      cases hop
      exact hpaper rfl (cancelPurchaseOrder_within hscope hok)
  | receive id lines =>
      cases hop
      exact receive_confined_iff hscope hok
  | createBill payload =>
      cases hop
      exact hpaper rfl (createBill_within hscope hok)
  | issueBill id =>
      cases hop
      exact hpaper rfl (issueBill_within hscope hok)
  | recordSupplierPayment payload claim =>
      cases hop
      exact hpaper rfl (recordSupplierPayment_within hscope hok)
  | openSession payload =>
      cases hop
      exact hpaper rfl (openSession_within hscope hok)
  | closeSession id countedCash =>
      cases hop
      exact hpaper rfl (closeSession_within hscope hok)
  | checkout payload claim =>
      cases hop
      exact checkout_confined_iff hscope hok
  | refund payload claim =>
      cases hop
      exact refund_confined_iff hscope hok
  | inventory op own =>
      obtain ⟨⟨inventory, u⟩, hbody, rfl⟩ := map_eq_ok.mp hok
      have hstock := Inventory.Op.stockWithin_iff hscope hop hbody
      have hdocuments : DocumentsWithin branches db { db with inventory := inventory } :=
        { DocumentsWithin.refl branches db with }
      constructor
      · intro hconfined warehouseId hwarehouse
        obtain ⟨r, hr, rfl⟩ := Option.map_eq_some_iff.mp hwarehouse
        exact hstock.mp hconfined.stock r hr
      · intro hinside
        exact ⟨hstock.mpr fun r hr => hinside _ (Option.map_eq_some_iff.mpr ⟨r, hr, rfl⟩),
          hdocuments⟩
  | ledger op own => cases hop
  | configure configuration => cases hop

/-- The shop with ten pieces in stock, two of them reserved. -/
def reservedCorner : TenantDb :=
  (TenantDb.start corner).run
    [⟨cornerRequest 1, .inventory (.receipt Inventory.shopContext
        ⟨1, 7, 10, some 3, none, none, none, Sample.ten_pos⟩ none) rfl⟩,
      ⟨cornerRequest 2, .inventory (.reserve Inventory.shopContext
        ⟨1, 7, 2, "order", 9, none, Sample.two_pos⟩ 11) rfl⟩]

/-- A caller of another branch than that of the warehouse. -/
def elsewhereContext : TenantContext := ⟨1, 2, 3, ∅, {"inventory.reserve"}, some {9}⟩

/-- A caller of the branch of the warehouse. -/
def hereContext : TenantContext := { elsewhereContext with branchIds := some {4} }

/-- The reservation of another branch is released. -/
theorem release_not_confined :
    ∃ db', (Op.inventory (.release 11) rfl).RunsUnder elsewhereContext (cornerRequest 3) ∧
      (Op.inventory (.release 11) rfl).body (cornerRequest 3) reservedCorner = .ok db' ∧
      ¬Confined {9} reservedCorner db' := by
  have hok : ((Op.inventory (.release 11) rfl).body (cornerRequest 3) reservedCorner).isOk = true := by
    decide +kernel
  cases hbody : (Op.inventory (.release 11) rfl).body (cornerRequest 3) reservedCorner with
  | error e =>
      rw [hbody] at hok
      cases hok
  | ok db' =>
      refine ⟨db', trivial, rfl, fun hconfined => ?_⟩
      obtain ⟨⟨inventory, u⟩, hrelease, rfl⟩ := map_eq_ok.mp hbody
      have hall := (Inventory.release_within_iff hrelease).mp hconfined.stock
      have houtside : ¬(reservedCorner.inventory.reservations.get 11).all (fun r =>
          reservedCorner.inventory.holds {9} r.warehouseId) = true := by
        decide +kernel
      exact houtside ((Option.all_eq_true _ _).mpr hall)

/-- On a branch of the caller it is released within the scope. -/
theorem confined_iff_release :
    ∃ db', (Op.inventory (.release 11) rfl).body (cornerRequest 3) reservedCorner = .ok db' ∧
      Confined {4} reservedCorner db' := by
  have hok : ((Op.inventory (.release 11) rfl).body (cornerRequest 3) reservedCorner).isOk = true := by
    decide +kernel
  cases hbody : (Op.inventory (.release 11) rfl).body (cornerRequest 3) reservedCorner with
  | error e =>
      rw [hbody] at hok
      cases hok
  | ok db' =>
      have hinside : ∀ w ∈ (Op.inventory (.release 11) rfl).uncheckedWarehouse reservedCorner,
          reservedCorner.inventory.holds {4} w = true := by
        decide +kernel
      have hcaller : (Op.inventory (.release 11) rfl).RunsUnder hereContext (cornerRequest 3) := trivial
      exact ⟨db', rfl, (confined_iff rfl hcaller hbody).mpr hinside⟩

end Nexora.Tenant
