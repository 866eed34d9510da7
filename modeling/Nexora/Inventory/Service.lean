import Nexora.Inventory.Tables

/-!
# The inventory service

`InventoryService` and `ReservationExpiryService` of
`app/modules/inventory/service.py`, and the movements that sales, the till and
purchasing post through `post_movement_for_document`.

Each function takes the tables and returns them with its result, or raises.  The
session flushes when it commits, and a row the database refuses fails the request
there.  Here a row is stored where it is written.  The same requests fail, and a
request that fails changes nothing, so the two differ only in which fault of a request
with several is reported.
-/

namespace Nexora.Inventory

open Nexora Nexora.Catalog Foundations

/-! ## Payloads -/

/-- `MovementCreate`.  `IssueCreate` is the case without a cost. -/
structure MovementCreate where
  warehouseId : Uuid
  productId : Uuid
  quantity : ℚ
  unitCost : Option ℚ
  referenceType : Option String
  referenceId : Option Uuid
  notes : Option String
  quantity_pos : 0 < quantity

/-- `AdjustmentCreate`. -/
structure AdjustmentCreate where
  adjustmentNumber : String
  warehouseId : Uuid
  productId : Uuid
  quantity : ℚ
  reason : String
  notes : Option String

/-- `ReservationCreate`. -/
structure ReservationCreate where
  warehouseId : Uuid
  productId : Uuid
  quantity : ℚ
  referenceType : String
  referenceId : Uuid
  expiresAt : Option Int
  quantity_pos : 0 < quantity

/-- `TransferLineCreate`. -/
structure TransferLineCreate where
  productId : Uuid
  quantity : ℚ
  quantity_pos : 0 < quantity

/-- `TransferCreate`. -/
structure TransferCreate where
  transferNumber : String
  sourceWarehouseId : Uuid
  destinationWarehouseId : Uuid
  notes : Option String
  lines : List TransferLineCreate

/-! ## Checks -/

def requireStockTracked (product : Product) : Except Err Unit :=
  if product.isStockTracked then .ok ()
  else .error (.conflict "PRODUCT_NOT_STOCK_TRACKED" "Product does not track inventory.")

/-- `_validate_pair`. -/
def validatePair (context : TenantContext) (db : InventoryDb) (warehouseId productId : Uuid) :
    Except Err Product := do
  let warehouse ← orRaise .notFound (db.warehouse warehouseId)
  let product ← orRaise .notFound (db.product productId)
  context.requireNullableBranch warehouse.branchId
  requireStockTracked product
  .ok product

/-- `except IntegrityError`. -/
def onIntegrityError {α : Type} (e : Err) : Except Err α → Except Err α
  | .error (.integrity _) => .error e
  | outcome => outcome

theorem onIntegrityError_eq_ok {α : Type} {e : Err} {outcome : Except Err α} {a : α} :
    onIntegrityError e outcome = .ok a ↔ outcome = .ok a := by
  unfold onIntegrityError
  split
  · simp
  · rfl

/-- Storage in a column `UnitCost`. -/
def storeUnitCost (column : String) (cost : ℚ) : Except Err UnitCost :=
  orRaise (.outOfRange column) (numeric 18 6 cost)

/-! ## Movements -/

/-- The arguments of `_post_movement`. -/
structure MovementRequest where
  warehouseId : Uuid
  product : Product
  movementType : MovementType
  quantity : ℚ
  unitCost : Option ℚ
  referenceType : Option String
  referenceId : Option Uuid
  notes : Option String
  idempotencyKey : Option String

def MovementRequest.pair (request : MovementRequest) : Pair :=
  (request.warehouseId, request.product.id)

/-- `same_request`. -/
def Movement.sameRequest (existing : Movement) (request : MovementRequest) : Bool :=
  existing.warehouseId = request.warehouseId ∧ existing.productId = request.product.id ∧
    existing.movementType = request.movementType ∧ decimal existing.quantity = request.quantity ∧
    existing.unitCost.map (fun cost => (cost : ℚ) / 10 ^ 6) = request.unitCost ∧
    existing.referenceType = request.referenceType ∧ existing.referenceId = request.referenceId

/-- The movement with the key of the request.  An empty key is no key. -/
def MovementRequest.existing (request : MovementRequest) (db : InventoryDb) : Option Movement :=
  (request.idempotencyKey.filter (· ≠ "")).bind fun key =>
    db.movements.find? (·.idempotencyKey = some key)

/-- The moving average after a receipt, and `none` where the cost stays.  Every
operation rounds to the context, and `quantize` raises beyond 28 digits. -/
def MovementRequest.averageCost (request : MovementRequest) (balance : Balance) :
    Except Err (Option UnitCost) :=
  let denominator := toContext (decimal balance.quantityOnHand + request.quantity)
  match request.unitCost with
  | some unitCost =>
      if 0 < request.quantity ∧ request.movementType = .receipt ∧ denominator ≠ 0 then
        let cost := toContext (toContext
          (toContext (decimal balance.quantityOnHand * (request.product.costPrice / 10 ^ 6)) +
            toContext (request.quantity * unitCost)) / denominator)
        if |roundHalfUp (cost * 10 ^ 6)| < 10 ^ 28 then .ok (some (roundHalfUp (cost * 10 ^ 6)))
        else .error (.runtime "decimal.InvalidOperation")
      else .ok none
  | none => .ok none

/-- The new cost in its column, under `cost_price_nonnegative`. -/
def storeCostPrice (db : InventoryDb) (productId : Uuid) : Option UnitCost → Except Err InventoryDb
  | none => .ok db
  | some cost =>
      if 10 ^ 18 ≤ |cost| then .error (.outOfRange "cost_price")
      else if cost < 0 then .error (.integrity "cost_price_nonnegative")
      else .ok (db.setCostPrice productId cost)

/-- The length of the key and its unique index. -/
def requireKey (db : InventoryDb) : Option String → Except Err Unit
  | none => .ok ()
  | some key =>
      if 255 < key.length then .error (.outOfRange "idempotency_key")
      else if db.movements.any (·.idempotencyKey = some key) then
        .error (.integrity "uq_inventory_movements_tenant_idempotency_key")
      else .ok ()

/-- The row of a movement, under `quantity_nonzero`. -/
def MovementRequest.row (request : MovementRequest) (quantity balanceAfter : Quantity)
    (unitCost : Option UnitCost) : Except Err Movement :=
  if h : quantity ≠ 0 then
    .ok
      { warehouseId := request.warehouseId
        productId := request.product.id
        movementType := request.movementType
        quantity := quantity
        unitCost := unitCost
        balanceAfter := balanceAfter
        referenceType := request.referenceType
        referenceId := request.referenceId
        notes := request.notes
        idempotencyKey := request.idempotencyKey
        quantity_nonzero := h }
  else .error (.integrity "quantity_nonzero")

/-- The movement to insert, with `balance` the row before it. -/
def MovementRequest.movement (request : MovementRequest) (db : InventoryDb) (balance : Balance) :
    Except Err Movement := do
  requireKey db request.idempotencyKey
  let quantity ← storeQuantity "quantity" request.quantity
  let unitCost ← request.unitCost.mapM (storeUnitCost "unit_cost")
  let balanceAfter ← storeQuantity "balance_after"
    (toContext (decimal balance.quantityOnHand + request.quantity))
  request.row quantity.1 balanceAfter.1 unitCost

/-- `_post_movement` of a request that was not posted before. -/
def postNew (db : InventoryDb) (request : MovementRequest) :
    Except Err (InventoryDb × Movement) := do
  let balance := db.balance request.pair
  let balance' ← balance.move db.allowNegativeInventory request.quantity
  let cost ← request.averageCost balance
  let movement ← request.movement db balance
  let db ← storeCostPrice db request.product.id cost
  .ok ({ db.setBalance request.pair balance' with movements := db.movements ++ [movement] },
    movement)

/-- `_post_movement`. -/
def postMovement (db : InventoryDb) (request : MovementRequest) :
    Except Err (InventoryDb × Movement) := do
  validateQuantity request.product request.quantity
  match request.existing db with
  | some existing =>
      if existing.sameRequest request then .ok (db, existing)
      else .error (.domainValidation "IDEMPOTENCY_KEY_REUSE"
        "Idempotency key was already used with a different request.")
  | none => postNew db request

/-! ## Receipts, issues and adjustments -/

def idempotencyKeyUsed : Err := .conflict "IDEMPOTENCY_KEY_REUSE" "Idempotency key already used."

/-- The transaction of `receipt` and of `issue`. -/
def postPayload (context : TenantContext) (db : InventoryDb) (payload : MovementCreate)
    (movementType : MovementType) (quantity : ℚ) (unitCost : Option ℚ)
    (idempotencyKey : Option String) : Except Err (InventoryDb × Movement) :=
  onIntegrityError idempotencyKeyUsed do
    let product ← validatePair context db payload.warehouseId payload.productId
    postMovement db
      { warehouseId := payload.warehouseId
        product := product
        movementType := movementType
        quantity := quantity
        unitCost := unitCost
        referenceType := payload.referenceType
        referenceId := payload.referenceId
        notes := payload.notes
        idempotencyKey := idempotencyKey }

/-- `receipt`. -/
def receipt (context : TenantContext) (db : InventoryDb) (payload : MovementCreate)
    (idempotencyKey : Option String) : Except Err (InventoryDb × Movement) := do
  let unitCost ← orRaise (.domainValidation "VALIDATION_ERROR" "Receipts require unit_cost.")
    payload.unitCost
  postPayload context db payload .receipt payload.quantity (some unitCost) idempotencyKey

/-- `issue`. -/
def issue (context : TenantContext) (db : InventoryDb) (payload : MovementCreate)
    (idempotencyKey : Option String) : Except Err (InventoryDb × Movement) :=
  postPayload context db payload .issue (toContext (-payload.quantity)) none idempotencyKey

/-- The row of an adjustment, under `quantity_nonzero`. -/
def AdjustmentCreate.row (payload : AdjustmentCreate) : Except Err Adjustment := do
  let quantity ← storeQuantity "quantity" payload.quantity
  if h : quantity.1 ≠ 0 then
    .ok
      { adjustmentNumber := payload.adjustmentNumber
        warehouseId := payload.warehouseId
        productId := payload.productId
        quantity := quantity.1
        reason := payload.reason
        notes := payload.notes
        quantity_nonzero := h }
  else .error (.integrity "quantity_nonzero")

/-- `adjust`, with the identifier drawn for the adjustment. -/
def adjust (context : TenantContext) (db : InventoryDb) (payload : AdjustmentCreate)
    (adjustmentId : Uuid) (idempotencyKey : Option String) :
    Except Err (InventoryDb × Movement) :=
  onIntegrityError (.conflict "DUPLICATE_RESOURCE"
      "Adjustment number or idempotency key already exists.") do
    let product ← validatePair context db payload.warehouseId payload.productId
    let (db, movement) ← postMovement db
      { warehouseId := payload.warehouseId
        product := product
        movementType := .adjustment
        quantity := payload.quantity
        unitCost := none
        referenceType := some "adjustment"
        referenceId := some adjustmentId
        notes := payload.notes
        idempotencyKey := idempotencyKey }
    let adjustment ← payload.row
    let adjustments ← orRaise (.integrity "uq_stock_adjustments_tenant_id_adjustment_number")
      (db.adjustments.insert adjustment)
    .ok ({ db with adjustments := adjustments }, movement)

/-! ## Reservations -/

/-- The row of a reservation, under `quantity_positive`. -/
def ReservationCreate.row (payload : ReservationCreate) (reservationId : Uuid) :
    Except Err Reservation := do
  let quantity ← storeQuantity "quantity" payload.quantity
  if h : 0 < quantity.1 then
    .ok
      { id := reservationId
        warehouseId := payload.warehouseId
        productId := payload.productId
        quantity := quantity.1
        referenceType := payload.referenceType
        referenceId := payload.referenceId
        status := .active
        expiresAt := payload.expiresAt
        quantity_positive := h
        quantity_lt := storedQuantity_lt quantity }
  else .error (.integrity "quantity_positive")

def duplicateReservation : Err := .integrity "pk_stock_reservations"

/-- `reserve`, with the identifier drawn for the reservation. -/
def reserve (context : TenantContext) (db : InventoryDb) (payload : ReservationCreate)
    (reservationId : Uuid) : Except Err (InventoryDb × Reservation) := do
  let product ← validatePair context db payload.warehouseId payload.productId
  validateQuantity product payload.quantity
  let pair := (payload.warehouseId, payload.productId)
  let balance ← (db.balance pair).reserve db.allowNegativeInventory payload.quantity
  let reservation ← payload.row reservationId
  let reservations ← orRaise duplicateReservation (db.reservations.insert reservation)
  .ok ({ db.setBalance pair balance with reservations := reservations }, reservation)

def requireActive (reservation : Reservation) : Except Err Unit :=
  if reservation.status = .active then .ok ()
  else .error (.conflict "INVALID_STATE_TRANSITION" "Reservation is not active.")

/-- The two writes of a release: the balance, and the status. -/
def releaseReservation (db : InventoryDb) (reservation : Reservation) :
    Except Err InventoryDb := do
  let balance ← (db.balance reservation.pair).release reservation.quantity
  let reservations ← orRaise duplicateReservation
    (db.reservations.replace reservation.id { reservation with status := .released })
  .ok { db.setBalance reservation.pair balance with reservations := reservations }

/-- `release`. -/
def release (db : InventoryDb) (reservationId : Uuid) : Except Err (InventoryDb × Unit) := do
  let reservation ← orRaise .notFound (db.reservations.get reservationId)
  requireActive reservation
  let db ← releaseReservation db reservation
  .ok (db, ())

/-- `reservation.status == ACTIVE and reservation.expires_at <= now`. -/
def Reservation.expired (reservation : Reservation) (now : Int) : Bool :=
  reservation.status = .active ∧ reservation.expiresAt.any (· ≤ now)

/-- `expired_reservations`: the earliest 500, without the rows that other transactions
have locked. -/
def expiredReservations (db : InventoryDb) (now : Int) (locked : List Uuid) : List Reservation :=
  ((db.reservations.rows.filter fun r => r.expired now ∧ r.id ∉ locked).insertionSort
    fun a b => toLex (a.expiresAt.getD 0, a.id) ≤ toLex (b.expiresAt.getD 0, b.id)).take 500

/-- `lock_balance` finds no row to change. -/
def requireBalance (db : InventoryDb) (pair : Pair) : Except Err Unit :=
  if (db.balances.get pair).isSome then .ok () else .error (.runtime "AttributeError")

/-- One pass of the loop of `release_expired`. -/
def releaseExpiredReservation (db : InventoryDb) (reservation : Reservation) :
    Except Err InventoryDb := do
  requireBalance db reservation.pair
  releaseReservation db reservation

/-- `release_expired`: the number of reservations released. -/
def releaseExpired (db : InventoryDb) (now : Int) (locked : List Uuid) :
    Except Err (InventoryDb × Nat) := do
  let reservations := expiredReservations db now locked
  let db ← reservations.foldlM releaseExpiredReservation db
  .ok (db, reservations.length)

/-! ## Transfers -/

/-- The row of a line, under `quantity_positive`. -/
def TransferLineCreate.row (line : TransferLineCreate) : Except Err TransferLine := do
  let quantity ← storeQuantity "quantity" line.quantity
  if h : 0 < quantity.1 then
    .ok
      { productId := line.productId
        quantity := quantity.1
        quantity_positive := h
        quantity_lt := storedQuantity_lt quantity }
  else .error (.integrity "quantity_positive")

/-- The row of a transfer and its lines, under `distinct_warehouses` and the unique
constraint of the lines. -/
def TransferCreate.row (payload : TransferCreate) (transferId : Uuid) (lines : List TransferLine) :
    Except Err Transfer :=
  if h : payload.sourceWarehouseId ≠ payload.destinationWarehouseId then
    if h' : (lines.map TransferLine.productId).Nodup then
      .ok
        { id := transferId
          transferNumber := payload.transferNumber
          sourceWarehouseId := payload.sourceWarehouseId
          destinationWarehouseId := payload.destinationWarehouseId
          status := .draft
          notes := payload.notes
          lines := lines
          distinct_warehouses := h
          unique_products := h' }
    else .error (.integrity "uq_stock_transfer_lines_tenant_id_transfer_id_product_id")
  else .error (.integrity "distinct_warehouses")

def requireDistinctProducts (lines : List TransferLineCreate) : Except Err Unit :=
  if (lines.map TransferLineCreate.productId).Nodup then .ok ()
  else .error (.conflict "DUPLICATE_RESOURCE" "A product may appear only once per transfer.")

def requireTransferNumber (db : InventoryDb) (number : String) : Except Err Unit :=
  if db.transfers.rows.any (·.transferNumber = number) then
    .error (.integrity "uq_stock_transfers_tenant_id_transfer_number")
  else .ok ()

/-- `create_transfer`, with the identifier drawn for the transfer. -/
def createTransfer (context : TenantContext) (db : InventoryDb) (payload : TransferCreate)
    (transferId : Uuid) : Except Err (InventoryDb × Transfer) := do
  requireDistinctProducts payload.lines
  onIntegrityError (.conflict "DUPLICATE_RESOURCE" "Transfer number already exists.") do
    let source ← orRaise .notFound (db.warehouse payload.sourceWarehouseId)
    let destination ← orRaise .notFound (db.warehouse payload.destinationWarehouseId)
    context.requireNullableBranch source.branchId
    context.requireNullableBranch destination.branchId
    payload.lines.forM fun line => do
      let _ ← validatePair context db payload.sourceWarehouseId line.productId
      .ok ()
    let lines ← payload.lines.mapM TransferLineCreate.row
    requireTransferNumber db payload.transferNumber
    let transfer ← payload.row transferId lines
    let transfers ← orRaise (.integrity "pk_stock_transfers") (db.transfers.insert transfer)
    .ok ({ db with transfers := transfers }, transfer)

def requireTransferStatus (transfer : Transfer) (expected : TransferStatus) : Except Err Unit :=
  if transfer.status = expected then .ok ()
  else .error (.conflict "TRANSFER_STATE_INVALID" "Transfer is not in the required state.")

/-- The key of the movement of a line. -/
def lineKey (idempotencyKey : Option String) (movementType : MovementType) (productId : Uuid) :
    Option String :=
  (idempotencyKey.filter (· ≠ "")).map fun key => s!"{key}:{movementType.value}:{productId}"

/-- One pass of the loop of `transition_transfer`. -/
def postTransferLine (context : TenantContext) (transfer : Transfer) (receive : Bool)
    (idempotencyKey : Option String) (db : InventoryDb) (line : TransferLine) :
    Except Err InventoryDb := do
  let warehouseId :=
    if receive then transfer.destinationWarehouseId else transfer.sourceWarehouseId
  let movementType : MovementType := if receive then .transferIn else .transferOut
  let product ← validatePair context db warehouseId line.productId
  let (db, _) ← postMovement db
    { warehouseId := warehouseId
      product := product
      movementType := movementType
      quantity := if receive then decimal line.quantity else toContext (-decimal line.quantity)
      unitCost := if receive then some (product.costPrice / 10 ^ 6) else none
      referenceType := some "transfer"
      referenceId := some transfer.id
      notes := transfer.notes
      idempotencyKey := lineKey idempotencyKey movementType line.productId }
  .ok db

/-- `transition_transfer`.  The lines of one warehouse are sorted by product. -/
def transitionTransfer (context : TenantContext) (db : InventoryDb) (transferId : Uuid)
    (receive : Bool) (idempotencyKey : Option String) : Except Err (InventoryDb × Transfer) := do
  let transfer ← orRaise .notFound (db.transfers.get transferId)
  requireTransferStatus transfer (if receive then .inTransit else .draft)
  let db ← (transfer.lines.insertionSort fun a b => a.productId ≤ b.productId).foldlM
    (postTransferLine context transfer receive idempotencyKey) db
  let moved := { transfer with status := if receive then .completed else .inTransit }
  let transfers ← orRaise (.integrity "pk_stock_transfers") (db.transfers.replace transferId moved)
  .ok ({ db with transfers := transfers }, moved)

/-! ## Documents of other modules -/

/-- A module that posts movements for its documents. -/
structure DocumentKind where
  movementType : MovementType
  /-- Whether the stock leaves. -/
  outward : Bool
  referenceType : String
  /-- Whether the product has to be active. -/
  activeOnly : Bool

/-- `SalesService.fulfil`. -/
def DocumentKind.fulfillment : DocumentKind := ⟨.sale, true, "fulfillment", false⟩

/-- `SalesService.issue_credit_note` with `restock`. -/
def DocumentKind.creditNote : DocumentKind := ⟨.saleReturn, false, "credit_note", false⟩

/-- `PosService.checkout`. -/
def DocumentKind.posSale : DocumentKind := ⟨.sale, true, "pos_sale", true⟩

/-- `PosService.refund`. -/
def DocumentKind.posReturn : DocumentKind := ⟨.saleReturn, false, "pos_return", true⟩

/-- `PurchasingService.receive`. -/
def DocumentKind.goodsReceipt : DocumentKind := ⟨.receipt, false, "goods_receipt", false⟩

/-- A line of a document.  What the module itself checks before it reads the product
and after it, is decided there. -/
structure DocumentLine where
  productId : Uuid
  quantity : Quantity
  /-- The cost of a goods receipt. -/
  unitCost : Option UnitCost
  before : Except Err Unit
  after : Except Err Unit
  quantity_pos : 0 < quantity
  quantity_lt : |quantity| < 10 ^ 20

def DocumentKind.product (kind : DocumentKind) (db : InventoryDb) (productId : Uuid) :
    Option Product :=
  if kind.activeOnly then db.product productId else db.anyProduct productId

/-- `post_movement_for_document`, for products that track stock. -/
def postMovementForDocument (kind : DocumentKind) (warehouseId documentId : Uuid)
    (db : InventoryDb) (product : Product) (line : DocumentLine) : Except Err InventoryDb :=
  if product.isStockTracked then do
    let (db, _) ← postMovement db
      { warehouseId := warehouseId
        product := product
        movementType := kind.movementType
        quantity :=
          if kind.outward then toContext (-decimal line.quantity) else decimal line.quantity
        unitCost := line.unitCost.map fun cost => (cost : ℚ) / 10 ^ 6
        referenceType := some kind.referenceType
        referenceId := some documentId
        notes := none
        idempotencyKey := none }
    .ok db
  else .ok db

/-- One pass of the loop over the lines of a document. -/
def postDocumentLine (kind : DocumentKind) (warehouseId documentId : Uuid) (db : InventoryDb)
    (line : DocumentLine) : Except Err InventoryDb := do
  line.before
  let product ← orRaise .notFound (kind.product db line.productId)
  line.after
  postMovementForDocument kind warehouseId documentId db product line

/-- The inventory side of a document, its lines in the order of the module's loop.
`enter` and `book` are what the module does before and after the loop. -/
def postDocument (kind : DocumentKind) (db : InventoryDb) (warehouseId documentId : Uuid)
    (lines : List DocumentLine) (enter book : Except Err Unit) :
    Except Err (InventoryDb × Unit) := do
  enter
  let db ← lines.foldlM (postDocumentLine kind warehouseId documentId) db
  book
  .ok (db, ())

end Nexora.Inventory
