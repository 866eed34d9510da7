import Nexora.Accounting.Reports
import Nexora.Pos.Service
import Nexora.Purchasing.Service

/-!
# The requests of a tenant

Every request that writes a document, moves stock or opens the books of a tenant, and the
runs of them.  A request runs in one transaction, so one that raises leaves the tables as
they were.

Manual entries and reversals are no requests of a run here.  What other modules change of
the catalogue, the warehouses, the parties and the terminals comes as `configure`.
-/

namespace Nexora.Inventory

/-- The requests of the inventory itself.  Those of documents come with their documents. -/
def Op.isOwn : Op → Bool
  | .fulfil _ | .issueCreditNote _ | .checkout _ | .refund _ | .receiveGoods _ => false
  | _ => true

end Nexora.Inventory

namespace Nexora.Accounting

/-- The requests of the ledger that post no entry. -/
def LedgerOp.postsNothing : LedgerOp → Bool
  | .operational .. | .postManual .. | .reverse .. => false
  | _ => true

end Nexora.Accounting

namespace Nexora.Tenant

open Nexora Nexora.Catalog Nexora.Sales Nexora.Purchasing Nexora.Pos Foundations
open Nexora.Accounting (LedgerOp LedgerDb Money)
open Nexora.Inventory (ProductRow Warehouse)

/-! ## Requests -/

/-- What the other modules keep for the documents. -/
structure Configuration where
  products : Table ProductRow.id
  warehouses : Uuid → Option Warehouse
  allowNegativeInventory : Bool
  parties : Parties
  terminals : Table PosTerminal.id
  cost_price_nonnegative : ∀ row ∈ products.rows, 0 ≤ row.product.costPrice

/-- The requests, with their payloads.  `claim` is the answer of the idempotency service. -/
inductive Op where
  | createQuotation (payload : QuotationCreate)
  | setQuotationStatus (quotationId : Uuid) (status : QuotationStatus)
  | convertQuotation (quotationId : Uuid) (payload : QuotationConvert)
  | createSalesOrder (payload : SalesOrderCreate)
  | confirmSalesOrder (orderId : Uuid)
  | cancelSalesOrder (orderId : Uuid)
  | fulfil (orderId : Uuid) (lines : Option (List RequestedLine))
  | createInvoice (payload : InvoiceCreate)
  | issueInvoice (invoiceId : Uuid) (claim : Except Err (Option Uuid))
  | recordCustomerPayment (payload : PaymentCreate) (claim : Except Err (Option Uuid))
  | issueCreditNote (payload : CreditNoteCreate)
  | createPurchaseOrder (payload : PurchaseOrderCreate)
  | confirmPurchaseOrder (orderId : Uuid)
  | cancelPurchaseOrder (orderId : Uuid)
  | receive (orderId : Uuid) (lines : Option (List ReceiptLineInput))
  | createBill (payload : SupplierBillCreate)
  | issueBill (billId : Uuid)
  | recordSupplierPayment (payload : SupplierPaymentCreate) (claim : Except Err (Option Uuid))
  | openSession (payload : SessionOpen)
  | closeSession (sessionId : Uuid) (countedCash : Money)
  | checkout (payload : CheckoutCreate) (claim : Except Err (Option Uuid))
  | refund (payload : RefundCreate) (claim : Except Err (Option Uuid))
  | inventory (op : Inventory.Op) (own : op.isOwn)
  | ledger (op : LedgerOp) (own : op.postsNothing)
  | configure (configuration : Configuration)

/-- The tables under another configuration. -/
def TenantDb.configure (db : TenantDb) (configuration : Configuration) : TenantDb :=
  { db with
    inventory := { db.inventory with
      products := configuration.products
      warehouses := configuration.warehouses
      allowNegativeInventory := configuration.allowNegativeInventory }
    parties := configuration.parties
    pos := { db.pos with terminals := configuration.terminals } }

/-- The body of a request. -/
def Op.body (request : Request) (db : TenantDb) : Op → Except Err TenantDb
  | .createQuotation payload => Sales.createQuotation request db payload
  | .setQuotationStatus id status => Sales.setQuotationStatus request db id status
  | .convertQuotation id payload => Sales.convertQuotation request db id payload
  | .createSalesOrder payload => Sales.createOrder request db payload
  | .confirmSalesOrder id => Sales.confirmOrder request db id
  | .cancelSalesOrder id => Sales.cancelOrder request db id
  | .fulfil id lines => Sales.fulfil request db id lines
  | .createInvoice payload => Sales.createInvoice request db payload
  | .issueInvoice id claim => Sales.issueInvoice request db id claim
  | .recordCustomerPayment payload claim => Sales.recordPayment request db payload claim
  | .issueCreditNote payload => Sales.issueCreditNote request db payload
  | .createPurchaseOrder payload => Purchasing.createOrder request db payload
  | .confirmPurchaseOrder id => Purchasing.confirmOrder request db id
  | .cancelPurchaseOrder id => Purchasing.cancelOrder request db id
  | .receive id lines => Purchasing.receive request db id lines
  | .createBill payload => Purchasing.createBill request db payload
  | .issueBill id => Purchasing.issueBill request db id
  | .recordSupplierPayment payload claim => Purchasing.recordPayment request db payload claim
  | .openSession payload => Pos.openSession request db payload
  | .closeSession id countedCash => Pos.closeSession request db id countedCash
  | .checkout payload claim => Pos.checkout request db payload claim
  | .refund payload claim => Pos.refund request db payload claim
  | .inventory op _ =>
      (op.body db.inventory).map fun result => { db with inventory := result.1 }
  | .ledger op _ => (db.ledger.request op).map fun ledger => { db with ledger := ledger }
  | .configure configuration => .ok (db.configure configuration)

/-- A request with its payload. -/
structure Call where
  request : Request
  op : Op

/-- The committed tables after a request. -/
def TenantDb.step (db : TenantDb) (call : Call) : TenantDb :=
  (serviceTransaction db fun db => (call.op.body call.request db).map (·, ())).1

/-- The committed tables after a sequence of requests. -/
def TenantDb.run (db : TenantDb) (calls : List Call) : TenantDb := calls.foldl step db

/-- A new tenant under a configuration: no documents, no entries, no register rows and no
stock. -/
def TenantDb.start (configuration : Configuration) : TenantDb :=
  { inventory :=
      { balances := .empty _
        movements := []
        reservations := .empty _
        transfers := .empty _
        adjustments := .empty _
        products := configuration.products
        warehouses := configuration.warehouses
        allowNegativeInventory := configuration.allowNegativeInventory }
    ledger := .empty
    register := .empty _
    sales := .empty
    purchasing := .empty
    pos := { PosDb.empty with terminals := configuration.terminals }
    parties := configuration.parties }

/-- The request goes through. -/
def TenantDb.commits (db : TenantDb) (call : Call) : Bool :=
  (call.op.body call.request db).isOk

/-- A request either commits what its body returns or changes nothing. -/
theorem TenantDb.step_cases (db : TenantDb) (call : Call) :
    (db.commits call = false ∧ db.step call = db) ∨
      ∃ db', call.op.body call.request db = .ok db' ∧ db.commits call = true ∧
        db.step call = db' := by
  cases h : call.op.body call.request db with
  | error e =>
      refine .inl ⟨?_, ?_⟩
      · simp [commits, h, Except.isOk, Except.toBool]
      · simp [step, serviceTransaction, h, Except.map]
  | ok db' =>
      refine .inr ⟨db', rfl, ?_, ?_⟩
      · simp [commits, h, Except.isOk, Except.toBool]
      · simp [step, serviceTransaction, h, Except.map]

/-- A request that is refused changes nothing. -/
theorem TenantDb.step_of_not_commits {db : TenantDb} {call : Call}
    (h : db.commits call = false) : db.step call = db := by
  rcases db.step_cases call with ⟨-, hsame⟩ | ⟨_, -, hcommits, -⟩
  · exact hsame
  · rw [hcommits] at h
    cases h

theorem TenantDb.body_of_commits {db : TenantDb} {call : Call} (h : db.commits call = true) :
    call.op.body call.request db = .ok (db.step call) := by
  rcases db.step_cases call with ⟨hfails, -⟩ | ⟨db', hok, -, hstep⟩
  · rw [hfails] at h
    cases h
  · rw [hstep]
    exact hok

/-- What every body keeps, every run keeps. -/
theorem TenantDb.run_invariant {I : TenantDb → Prop}
    (hbody : ∀ (db : TenantDb) (call : Call) (db' : TenantDb), I db →
      call.op.body call.request db = .ok db' → I db')
    {db : TenantDb} (calls : List Call) (hdb : I db) : I (db.run calls) := by
  induction calls generalizing db with
  | nil => exact hdb
  | cons call calls ih =>
      refine ih ?_
      rcases db.step_cases call with ⟨-, h⟩ | ⟨db', hok, -, h⟩
      · rw [h]
        exact hdb
      · rw [h]
        exact hbody db call db' hdb hok

/-! ## A small tenant -/

/-- A product that costs `2` and sells at `5`, by the piece and at `15 %`. -/
def cornerProduct (id : Uuid) (isStockTracked : Bool) : ProductRow :=
  { product :=
      { id := id
        costPrice := 2000000
        sellingPrice := 50000
        taxRate := 150000
        isStockTracked := isStockTracked
        precision := 0
        sellingPrice_nonneg := Sample.five_nonneg
        taxRate_range := Sample.fifteenPercent
        precision_le := Sample.whole_units }
    isActive := true }

/-- A shop with one warehouse and one till.  It sells goods, product `7`, and a service,
product `8`. -/
def corner : Configuration where
  products := ⟨[cornerProduct 7 true, cornerProduct 8 false], by decide⟩
  warehouses := fun id => if id = 1 then some ⟨some 4, true⟩ else none
  allowNegativeInventory := false
  parties := ⟨fun _ => true, fun _ => true⟩
  terminals := ⟨[⟨5, 4, 1, true⟩], by decide⟩
  cost_price_nonnegative := by decide

/-- The `n`-th request of the shop. -/
def cornerRequest (n : Nat) : Request where
  env := Accounting.calendarYear
  documentId := n
  lineId := fun i => 1000 * n + i
  entryId := fun i => 100 * n + i
  placeholder := fun i => 100 * n + 50 + i
  entryLineId := fun i j => 1000 * n + 10 * i + j
  vatId := fun i => 1000 * n + i

/-- The books are read, which sets them up. -/
def readBooks : Call := ⟨cornerRequest 0, .ledger (.read Accounting.calendarYear) rfl⟩

end Nexora.Tenant
