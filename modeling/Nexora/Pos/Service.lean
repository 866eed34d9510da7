import Nexora.Tenant.Database

/-!
# The till in its tenant

`checkout`, `refund` and the sessions of `app/modules/pos/service.py`, over the tables of the
tenant.  The figures of a sale and of a refund are those of `Till.checkout` and `refundItem`.
What they leave to other modules is done here: the session and the terminal, the stock, the
journal and the VAT register.

The stock of a document moves after its figures are computed.  Neither depends on the other,
since a product appears once in a sale.
-/

namespace Nexora.Pos

open Nexora Nexora.Catalog Nexora.Sales Nexora.Tenant Foundations
open Nexora.Accounting (Money Date money)
open Nexora.Accounting.PostingRules (cashSale posRefund)
open Nexora.Inventory (InventoryDb DocumentKind)
open Nexora.Vat (TaxableEvent)

/-! ## Sessions -/

def requireTerminal (request : Request) (db : TenantDb) (terminalId : Uuid) :
    Except Err PosTerminal := do
  let terminal ← orRaise .notFound (db.pos.terminals.get terminalId)
  request.env.context.requireBranch terminal.branchId
  .ok terminal

def requireActiveTerminal (terminal : PosTerminal) : Except Err Unit :=
  if terminal.isActive then .ok ()
  else .error (.conflict "TERMINAL_INACTIVE" "POS terminal is inactive.")

def requireOpen (session : PosSession) : Except Err Unit :=
  if session.status = .opened then .ok ()
  else .error (.conflict "SESSION_NOT_OPEN" "POS session is not open.")

def requireOwn (request : Request) (session : PosSession) : Except Err Unit :=
  if session.openedByMembershipId = request.env.context.membershipId then .ok ()
  else .error (.permissionDenied "SESSION_NOT_OWNED" "Cashiers may use only their own session.")

/-- `_open_session`: the session of the caller, with its terminal. -/
def requireSession (request : Request) (db : TenantDb) (sessionId : Uuid) :
    Except Err (PosSession × PosTerminal) := do
  let session ← orRaise .notFound (db.pos.sessions.get sessionId)
  let terminal ← requireTerminal request db session.terminalId
  requireOpen session
  requireOwn request session
  requireActiveTerminal terminal
  .ok (session, terminal)

/-- `SessionOpen`. -/
structure SessionOpen where
  terminalId : Uuid
  openingFloat : Money
  openingFloat_range : 0 ≤ openingFloat ∧ openingFloat < 10 ^ 18

/-- `uq_pos_sessions_open_terminal`. -/
def requireNoOpenSession (db : TenantDb) (terminalId : Uuid) : Except Err Unit :=
  if db.pos.sessions.rows.any fun s => s.terminalId = terminalId ∧ s.status = .opened then
    .error (.conflict "SESSION_ALREADY_OPEN" "Terminal already has an open session.")
  else .ok ()

/-- `open_session`. -/
def openSession (request : Request) (db : TenantDb) (payload : SessionOpen) :
    Except Err TenantDb := do
  let terminal ← requireTerminal request db payload.terminalId
  requireActiveTerminal terminal
  requireNoOpenSession db terminal.id
  let (number, db) := db.allocate request .posSession
  let session : PosSession :=
    { id := request.documentId
      sessionNumber := number
      terminalId := terminal.id
      openedByMembershipId := request.env.context.membershipId
      closedByMembershipId := none
      status := .opened
      openingFloat := payload.openingFloat
      expectedCash := none
      countedCash := none
      cashVariance := none
      openingFloat_nonneg := payload.openingFloat_range.1 }
  let sessions ← orRaise (.integrity "pk_pos_sessions") (db.pos.sessions.insert session)
  .ok { db with pos := { db.pos with sessions := sessions } }

/-- `repository.cash_net`. -/
def PosDb.cashNet (db : PosDb) (sessionId : Uuid) : Money :=
  ((db.sales.rows.filter (·.sessionId = sessionId)).map fun row =>
    ((row.payments.filter (·.tender = .cash)).map fun payment =>
      payment.amount - payment.changeGiven).sum).sum

/-- `close_session`. -/
def closeSession (request : Request) (db : TenantDb) (sessionId : Uuid) (countedCash : Money) :
    Except Err TenantDb := do
  let (session, _) ← requireSession request db sessionId
  let expected := session.openingFloat + db.pos.cashNet sessionId
  storeMoney "expected_cash" expected
  storeMoney "counted_cash" countedCash
  storeMoney "cash_variance" (countedCash - expected)
  let sessions ← orRaise (.integrity "pk_pos_sessions")
    (db.pos.sessions.replace session.id { session with
      status := .closed
      closedByMembershipId := some request.env.context.membershipId
      expectedCash := some expected
      countedCash := some countedCash
      cashVariance := some (countedCash - expected) })
  .ok { db with pos := { db.pos with sessions := sessions } }

/-! ## Checkout -/

/-- `CheckoutCreate`. -/
structure CheckoutCreate where
  sessionId : Uuid
  customerId : Option Uuid
  lines : List CartLine
  payments : List TenderInput

/-- The steps outside are taken below. -/
def nothingElsewhere : Elsewhere := .fine

/-- The till of a request. -/
def tillOf (request : Request) (db : TenantDb) : Till :=
  { product := db.inventory.product
    newId := request.lineId
    elsewhere := nothingElsewhere }

def requireCustomer (db : TenantDb) : Option Uuid → Except Err Unit
  | none => .ok ()
  | some customerId => if db.parties.customer customerId then .ok () else .error .notFound

/-- The quantity of a cart line, for its movement. -/
def CartLine.item (line : CartLine) : RequestedLine :=
  ⟨line.productId, line.quantity, line.quantity_pos, line.quantity_lt⟩

/-- The movement of a cart line. -/
def sellStock (warehouseId saleId : Uuid) (inventory : InventoryDb) (line : CartLine) :
    Except Err InventoryDb := do
  let product ← orRaise .notFound (inventory.product line.productId)
  postStock .posSale warehouseId saleId inventory product line.item none

/-- `cost_amount` in its column. -/
def storeCostAmount (cost : UnitCost) : Except Err Unit :=
  if |cost| < 10 ^ 18 then .ok () else .error (.outOfRange "cost_amount")

/-- `_post_sale`: the revenue, and the cost where there is one. -/
def SaleRow.entries (row : SaleRow) : List Entry :=
  let (revenueLines, costLines) := cashSale (money row.sale.netAmount) (money row.sale.taxAmount)
    (row.sale.costAmount / 10 ^ 6)
  { entryDate := row.occurredOn
    description := "POS sale " ++ row.saleNumber
    sourceType := "pos_sale"
    sourceId := row.id
    eventType := "POS_SALE_REVENUE"
    lines := revenueLines } ::
  if 0 < row.sale.costAmount then
    [{ entryDate := row.occurredOn
       description := "POS sale COGS " ++ row.saleNumber
       sourceType := "pos_sale"
       sourceId := row.id
       eventType := "POS_SALE_COGS"
       lines := costLines }]
  else []

/-- `_record_vat_for_sale`. -/
def SaleRow.taxableEvent (row : SaleRow) : TaxableEvent :=
  { direction := .output
    occurredOn := row.occurredOn
    sourceType := "pos_sale"
    sourceId := row.id
    isReversal := false }

/-- A line as it is taxed: its rate, its net amount and its tax. -/
def SaleLine.taxable (line : SaleLine) : Rate × Money × Money :=
  (line.taxRate, line.netAmount, line.taxAmount)

/-- `checkout`.  `claim` is the answer of the idempotency service. -/
def checkout (request : Request) (db : TenantDb) (payload : CheckoutCreate)
    (claim : Except Err (Option Uuid)) : Except Err TenantDb := do
  let stored ← claim
  match stored.bind db.pos.sales.get with
  | some existing => do
      request.env.context.requireBranch existing.branchId
      .ok db
  | none => do
      let (session, terminal) ← requireSession request db payload.sessionId
      requireCustomer db payload.customerId
      let sale ← (tillOf request db).checkout payload.lines payload.payments
      storeCostAmount sale.costAmount
      let inventory ← (payload.lines.insertionSort fun a b => a.productId ≤ b.productId).foldlM
        (sellStock terminal.warehouseId request.documentId) db.inventory
      let db := { db with inventory := inventory }
      let (number, db) := db.allocate request .posSale
      let row : SaleRow :=
        { id := request.documentId
          saleNumber := number
          sessionId := session.id
          terminalId := terminal.id
          branchId := terminal.branchId
          warehouseId := terminal.warehouseId
          customerId := payload.customerId
          cashierMembershipId := request.env.context.membershipId
          occurredOn := request.env.today
          sale := sale
          payments := payload.payments }
      let sales ← orRaise (.integrity "pk_sales") (db.pos.sales.insert row)
      let rows ← row.taxableEvent.recordLines request.vatId (sale.lines.map (·.taxable))
      let db := { db with pos := { db.pos with sales := sales } }
      db.book request row.entries rows

/-! ## Refunds -/

/-- `RefundCreate`. -/
structure RefundCreate where
  saleId : Uuid
  sessionId : Uuid
  lines : List RequestedLine

def requireSaleBranch (row : SaleRow) (terminal : PosTerminal) : Except Err Unit :=
  if row.branchId = terminal.branchId then .ok ()
  else .error (.permissionDenied "BRANCH_ACCESS_DENIED" "Refund must occur in the sale branch.")

/-- The item of a refund, without the bound of its column. -/
def refundLineOf (item : RequestedLine) : RefundLine :=
  ⟨item.lineId, item.quantity, item.quantity_pos⟩

/-- The items of a refund in the order of their products. -/
def RefundCreate.sorted (payload : RefundCreate) (lines : List SaleLine) : List RequestedLine :=
  payload.lines.insertionSort fun a b =>
    productOf lines (refundLineOf a) ≤ productOf lines (refundLineOf b)

/-- The movement of a refunded line. -/
def returnStock (warehouseId returnId : Uuid) (lines : List SaleLine) (inventory : InventoryDb)
    (item : RequestedLine) : Except Err InventoryDb := do
  let product ← orRaise .notFound (inventory.product (productOf lines (refundLineOf item)))
  postStock .posReturn warehouseId returnId inventory product item none

/-- `_post_refund`: the revenue where there is any, and the cost. -/
def SaleReturn.entries (row : SaleReturn) (booking : Booking) : List Entry :=
  let (revenueLines, costLines) := posRefund (money booking.net) (money booking.tax) booking.cost
    true
  (if 0 < booking.net + booking.tax then
    [{ entryDate := row.occurredOn
       description := "POS refund " ++ row.returnNumber
       sourceType := "pos_return"
       sourceId := row.id
       eventType := "POS_REFUND_REVENUE"
       lines := revenueLines }]
  else []) ++
  costLines.toList.map fun lines =>
    { entryDate := row.occurredOn
      description := "POS refund COGS reversal " ++ row.returnNumber
      sourceType := "pos_return"
      sourceId := row.id
      eventType := "POS_REFUND_COGS"
      lines := lines }

/-- `_record_vat_for_refund`. -/
def SaleReturn.taxableEvent (row : SaleReturn) : TaxableEvent :=
  { direction := .output
    occurredOn := row.occurredOn
    sourceType := "pos_return"
    sourceId := row.id
    isReversal := true }

/-- `refund`. -/
def refund (request : Request) (db : TenantDb) (payload : RefundCreate)
    (claim : Except Err (Option Uuid)) : Except Err TenantDb := do
  let stored ← claim
  match stored.bind db.pos.returns.get with
  | some _ => .ok db
  | none => do
      let (session, terminal) ← requireSession request db payload.sessionId
      let row ← orRaise .notFound (db.pos.sales.get payload.saleId)
      request.env.context.requireBranch row.branchId
      requireSaleBranch row terminal
      let items := payload.sorted row.sale.lines
      requireDistinct (payload.lines.map (·.lineId)) "A sale line may appear only once."
      requireLines row.sale.lines (payload.lines.map refundLineOf)
      let state ← (items.map refundLineOf).foldlM
        (refundItem db.inventory.product nothingElsewhere) ⟨row.sale.lines, 0, ⟨0, 0, 0, []⟩⟩
      let sale ← row.sale.storeRefund state
      storeMoney "amount" state.total
      let inventory ← items.foldlM
        (returnStock row.warehouseId request.documentId row.sale.lines) db.inventory
      let db := { db with inventory := inventory }
      let (number, db) := db.allocate request .posReturn
      let saleReturn : SaleReturn :=
        { id := request.documentId
          returnNumber := number
          saleId := row.id
          sessionId := session.id
          processedByMembershipId := request.env.context.membershipId
          amount := state.total
          occurredOn := request.env.today
          lines := items.map fun item => (item.lineId, item.quantity) }
      let returns ← orRaise (.integrity "pk_sale_returns") (db.pos.returns.insert saleReturn)
      let sales ← orRaise (.integrity "pk_sales")
        (db.pos.sales.replace row.id { row with sale := sale })
      let rows ← saleReturn.taxableEvent.recordLines request.vatId state.booking.rateLines
      let db := { db with pos := { db.pos with sales := sales, returns := returns } }
      db.book request (saleReturn.entries state.booking) rows

end Nexora.Pos
