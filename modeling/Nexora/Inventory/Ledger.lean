import Nexora.Inventory.Writes

/-!
# The ledger

The invariant of the inventory.  What is on hand is the sum of the movements, each
movement records the sum up to itself, and what is reserved is the sum of the active
reservations.  One statement keeps it (`Write.ledgerSound`), so every request does,
and so does every run of requests, with the catalogue, the warehouses and the setting
of the tenant changing in between.
-/

namespace Nexora.Inventory

open Nexora Nexora.Catalog Foundations

/-! ## The invariant -/

/-- Balances, ledger and reservations agree. -/
structure LedgerSound (db : InventoryDb) : Prop where
  onHand : ∀ pair, (db.balance pair).quantityOnHand =
    ((db.ledger pair).map Movement.quantity).sum
  balanceAfter : ∀ pair earlier movement later, db.ledger pair = earlier ++ movement :: later →
    movement.balanceAfter = (earlier.map Movement.quantity).sum + movement.quantity
  reserved : ∀ pair, (db.balance pair).reservedQuantity =
    ((db.activeReservations pair).map Reservation.quantity).sum

/-- The tables before anything was stocked. -/
structure InventoryDb.Empty (db : InventoryDb) : Prop where
  balances : db.balances.rows = []
  movements : db.movements = []
  reservations : db.reservations.rows = []

theorem InventoryDb.Empty.balance {db : InventoryDb} (h : db.Empty) (pair : Pair) :
    db.balance pair = .zero := by
  simp [InventoryDb.balance, Table.get, h.balances]

theorem InventoryDb.Empty.ledgerSound {db : InventoryDb} (h : db.Empty) : LedgerSound db := by
  have hledger : ∀ pair, db.ledger pair = [] := by simp [InventoryDb.ledger, h.movements]
  have hactive : ∀ pair, db.activeReservations pair = [] := by
    simp [InventoryDb.activeReservations, h.reservations]
  refine ⟨fun pair => ?_, fun pair earlier movement later hsplit => ?_, fun pair => ?_⟩
  · rw [h.balance, hledger]
    rfl
  · rw [hledger] at hsplit
    cases earlier <;> cases hsplit
  · rw [h.balance, hactive]
    rfl

/-- The invariant is about the stock only. -/
theorem LedgerSound.of_sameStock {db db' : InventoryDb} (h : LedgerSound db)
    (hbalance : db'.balance = db.balance) (hmovements : db'.movements = db.movements)
    (hreservations : db'.reservations.rows = db.reservations.rows) : LedgerSound db' := by
  have hledger : ∀ pair, db'.ledger pair = db.ledger pair := by
    simp [InventoryDb.ledger, hmovements]
  have hactive : ∀ pair, db'.activeReservations pair = db.activeReservations pair := by
    simp [InventoryDb.activeReservations, hreservations]
  constructor
  · intro pair
    rw [hbalance, hledger]
    exact h.onHand pair
  · intro pair earlier movement later hsplit
    rw [hledger] at hsplit
    exact h.balanceAfter pair earlier movement later hsplit
  · intro pair
    rw [hbalance, hactive]
    exact h.reserved pair

/-! ## One statement -/

section Write

variable {db db' : InventoryDb} {pair : Pair} {balance : Balance}

/-- The rows of the other pairs, and the figure a statement does not change. -/
theorem update_figure {f : Balance → Quantity} {g g' : Pair → Quantity}
    (hbalance : db'.balance = Function.update db.balance pair balance)
    (h : ∀ p, f (db.balance p) = g p) (hother : ∀ p, p ≠ pair → g' p = g p)
    (hpair : f balance = g' pair) (p : Pair) : f (db'.balance p) = g' p := by
  rw [hbalance]
  by_cases hp : p = pair
  · subst hp
    rw [Function.update_self]
    exact hpair
  · rw [Function.update_of_ne hp, hother p hp]
    exact h p

theorem ledger_append {movement : Movement}
    (hmovements : db'.movements = db.movements ++ [movement]) (p : Pair) :
    db'.ledger p = if movement.pair = p then db.ledger p ++ [movement] else db.ledger p := by
  unfold InventoryDb.ledger
  rw [hmovements, List.filter_append]
  split_ifs with hp
  · simp [hp]
  · simp [hp]

theorem LedgerSound.move {movement : Movement} (h : LedgerSound db)
    (hbalance : db'.balance = Function.update db.balance pair balance)
    (hpair : movement.pair = pair) (hafter : movement.balanceAfter = balance.quantityOnHand)
    (honHand : balance.quantityOnHand = (db.balance pair).quantityOnHand + movement.quantity)
    (hreserved : balance.reservedQuantity = (db.balance pair).reservedQuantity)
    (hmovements : db'.movements = db.movements ++ [movement])
    (hreservations : db'.reservations.rows = db.reservations.rows) : LedgerSound db' := by
  subst hpair
  have hledger := ledger_append hmovements
  constructor
  · refine update_figure hbalance h.onHand (fun p hp => ?_) ?_
    · rw [hledger, if_neg hp.symm]
    · rw [hledger, if_pos rfl, honHand, h.onHand, List.map_append, List.sum_append]
      simp
  · intro p earlier movement' later hsplit
    rw [hledger] at hsplit
    split_ifs at hsplit with hp
    · subst hp
      rcases List.eq_nil_or_concat later with rfl | ⟨later', last, rfl⟩
      · obtain ⟨hearlier, hlast⟩ := List.append_inj' hsplit rfl
        cases hlast
        rw [← hearlier, hafter, honHand, h.onHand]
      · rw [List.concat_eq_append, ← List.cons_append, ← List.append_assoc] at hsplit
        obtain ⟨hold, -⟩ := List.append_inj' hsplit rfl
        exact h.balanceAfter _ earlier movement' later' hold
    · exact h.balanceAfter p earlier movement' later hsplit
  · have hactive : ∀ p, db'.activeReservations p = db.activeReservations p := by
      simp [InventoryDb.activeReservations, hreservations]
    refine update_figure hbalance h.reserved (fun p _ => ?_) ?_
    · rw [hactive]
    · rw [hactive, hreserved, h.reserved]

theorem LedgerSound.reservations (h : LedgerSound db)
    (hbalance : db'.balance = Function.update db.balance pair balance)
    (honHand : balance.quantityOnHand = (db.balance pair).quantityOnHand)
    (hmovements : db'.movements = db.movements)
    (hother : ∀ p, p ≠ pair → ((db'.activeReservations p).map Reservation.quantity).sum =
      ((db.activeReservations p).map Reservation.quantity).sum)
    (hpair : balance.reservedQuantity =
      ((db'.activeReservations pair).map Reservation.quantity).sum) : LedgerSound db' := by
  have hledger : ∀ p, db'.ledger p = db.ledger p := by simp [InventoryDb.ledger, hmovements]
  constructor
  · refine update_figure hbalance h.onHand (fun p _ => ?_) ?_
    · rw [hledger]
    · rw [hledger, honHand, h.onHand]
  · intro p earlier movement later hsplit
    rw [hledger] at hsplit
    exact h.balanceAfter p earlier movement later hsplit
  · exact update_figure hbalance h.reserved hother hpair

/-- One statement of a request keeps the invariant. -/
theorem Write.ledgerSound {statement : Statement} (h : Write db pair statement db')
    (hdb : LedgerSound db) : LedgerSound db' := by
  obtain ⟨-, balance, happly, hbalance, hrecords⟩ := h
  obtain ⟨honHand, hreserved⟩ := Statement.apply_eq_ok happly
  cases statement with
  | lock =>
      cases happly
      rw [Function.update_eq_self] at hbalance
      exact hdb.of_sameStock hbalance hrecords.1 hrecords.2
  | move product quantity =>
      obtain ⟨hreservations, movement, hpair, hquantity, hafter, hmovements⟩ := hrecords
      refine hdb.move hbalance hpair hafter ?_ ?_ hmovements hreservations
      · rw [hquantity]
        exact honHand
      · simpa [Statement.reserved] using hreserved
  | reserve product quantity =>
      obtain ⟨hmovements, reservation, hpair, hactive, hquantity, hrows⟩ := hrecords
      subst hpair
      refine hdb.reservations hbalance (by simpa [Statement.onHand] using honHand) hmovements
        (fun p hp => ?_) ?_
      · simp [InventoryDb.activeReservations, hrows, hp.symm]
      · rw [hreserved, hdb.reserved]
        simp [InventoryDb.activeReservations, hrows, hactive, Statement.reserved, hquantity]
  | release reservation =>
      obtain ⟨hmovements, hpair, hactive, l₁, l₂, hrows, hrows'⟩ := hrecords
      subst hpair
      refine hdb.reservations hbalance (by simpa [Statement.onHand] using honHand) hmovements
        (fun p hp => ?_) ?_
      · simp [InventoryDb.activeReservations, hrows, hrows', hp.symm]
      · rw [hreserved, hdb.reserved]
        have hsplit : (((l₁ ++ reservation :: l₂).filter fun r =>
              r.status = .active ∧ r.pair = reservation.pair).map Reservation.quantity).sum =
            (((l₁ ++ { reservation with status := .released } :: l₂).filter fun r =>
              r.status = .active ∧ r.pair = reservation.pair).map Reservation.quantity).sum +
              reservation.quantity := by
          simp [hactive, add_comm, add_left_comm]
        unfold InventoryDb.activeReservations
        rw [hrows, hrows', hsplit]
        exact add_neg_cancel_right _ _

end Write

theorem Writes.ledgerSound {db db' : InventoryDb} {statements : List (Pair × Statement)}
    (h : Writes db statements db') (hdb : LedgerSound db) : LedgerSound db' := by
  induction h with
  | done hsame => exact hdb.of_sameStock hsame.balance hsame.movements hsame.reservations
  | cons hwrite _ ih => exact ih (hwrite.ledgerSound hdb)

/-! ## Requests -/

/-- A document of another module, as the inventory sees it. -/
structure Document where
  warehouseId : Uuid
  documentId : Uuid
  lines : List DocumentLine
  enter : Except Err Unit
  book : Except Err Unit

/-- The requests that reach the inventory, with the identifiers drawn for new rows. -/
inductive Op where
  | receipt (context : TenantContext) (payload : MovementCreate) (idempotencyKey : Option String)
  | issue (context : TenantContext) (payload : MovementCreate) (idempotencyKey : Option String)
  | adjust (context : TenantContext) (payload : AdjustmentCreate) (adjustmentId : Uuid)
      (idempotencyKey : Option String)
  | reserve (context : TenantContext) (payload : ReservationCreate) (reservationId : Uuid)
  | release (reservationId : Uuid)
  | releaseExpired (now : Int) (locked : List Uuid)
  | createTransfer (context : TenantContext) (payload : TransferCreate) (transferId : Uuid)
  | shipTransfer (context : TenantContext) (transferId : Uuid) (idempotencyKey : Option String)
  | receiveTransfer (context : TenantContext) (transferId : Uuid) (idempotencyKey : Option String)
  | fulfil (document : Document)
  | issueCreditNote (document : Document)
  | checkout (document : Document)
  | refund (document : Document)
  | receiveGoods (document : Document)

/-- The tables a request leaves, without its response. -/
def tables {α : Type} (outcome : Except Err (InventoryDb × α)) : Except Err (InventoryDb × Unit) :=
  outcome.map fun result => (result.1, ())

theorem tables_eq_ok {α : Type} {outcome : Except Err (InventoryDb × α)} {db : InventoryDb}
    {u : Unit} (h : tables outcome = .ok (db, u)) : ∃ result, outcome = .ok (db, result) := by
  cases outcome with
  | error e => cases h
  | ok result =>
      cases h
      exact ⟨result.2, rfl⟩

def Document.post (document : Document) (kind : DocumentKind) (db : InventoryDb) :
    Except Err (InventoryDb × Unit) :=
  postDocument kind db document.warehouseId document.documentId document.lines document.enter
    document.book

/-- The rows `lock_inventory_balances` locks for a document. -/
def Document.balances (document : Document) (db : InventoryDb) : List Pair :=
  ((document.lines.map fun line => (document.warehouseId, line.productId)).filter fun pair =>
    (db.balances.get pair).isSome).insertionSort fun a b => toLex a ≤ toLex b

/-- The body of a request. -/
def Op.body (db : InventoryDb) : Op → Except Err (InventoryDb × Unit)
  | .receipt context payload key => tables (Inventory.receipt context db payload key)
  | .issue context payload key => tables (Inventory.issue context db payload key)
  | .adjust context payload id key => tables (Inventory.adjust context db payload id key)
  | .reserve context payload id => tables (Inventory.reserve context db payload id)
  | .release id => Inventory.release db id
  | .releaseExpired now locked => tables (Inventory.releaseExpired db now locked)
  | .createTransfer context payload id => tables (Inventory.createTransfer context db payload id)
  | .shipTransfer context id key => tables (transitionTransfer context db id false key)
  | .receiveTransfer context id key => tables (transitionTransfer context db id true key)
  | .fulfil document => document.post .fulfillment db
  | .issueCreditNote document => document.post .creditNote db
  | .checkout document => document.post .posSale db
  | .refund document => document.post .posReturn db
  | .receiveGoods document => document.post .goodsReceipt db

/-- A request in its transaction. -/
def Op.run (op : Op) (db : InventoryDb) : InventoryDb × Except Err Unit :=
  serviceTransaction db op.body

/-- A request that goes through runs the script of an operation on stock, or leaves the
stock alone. -/
theorem Op.body_writes {op : Op} {db db' : InventoryDb} {u : Unit}
    (h : op.body db = .ok (db', u)) :
    SameStock db db' ∨ ∃ stock : StockOp, Writes db stock.script db' := by
  cases op with
  | receipt context payload key =>
      obtain ⟨movement, h⟩ := tables_eq_ok h
      obtain ⟨posted, hwrites⟩ := receipt_writes h
      exact .inr ⟨.receipt payload.warehouseId posted, hwrites⟩
  | issue context payload key =>
      obtain ⟨movement, h⟩ := tables_eq_ok h
      obtain ⟨posted, hwrites⟩ := issue_writes h
      exact .inr ⟨.issue payload.warehouseId posted, hwrites⟩
  | adjust context payload id key =>
      obtain ⟨movement, h⟩ := tables_eq_ok h
      obtain ⟨posted, hwrites⟩ := adjust_writes h
      exact .inr ⟨.adjust payload.warehouseId posted, hwrites⟩
  | reserve context payload id =>
      obtain ⟨reservation, h⟩ := tables_eq_ok h
      obtain ⟨product, hwrites⟩ := reserve_writes h
      exact .inr ⟨.reserve (payload.warehouseId, payload.productId) product payload.quantity,
        hwrites⟩
  | release id =>
      obtain ⟨reservation, hwrites⟩ := release_writes h
      exact .inr ⟨.release reservation, hwrites⟩
  | releaseExpired now locked =>
      obtain ⟨n, h⟩ := tables_eq_ok h
      exact .inr ⟨.expire (expiredReservations db now locked), releaseExpired_writes h⟩
  | createTransfer context payload id =>
      obtain ⟨transfer, h⟩ := tables_eq_ok h
      exact .inl (createTransfer_sameStock h)
  | shipTransfer context id key =>
      obtain ⟨transfer, h⟩ := tables_eq_ok h
      obtain ⟨warehouseId, posted, hwrites⟩ := shipTransfer_writes h
      exact .inr ⟨.ship warehouseId posted, hwrites⟩
  | receiveTransfer context id key =>
      obtain ⟨transfer, h⟩ := tables_eq_ok h
      obtain ⟨warehouseId, posted, hwrites⟩ := receiveTransfer_writes h
      exact .inr ⟨.receiveTransfer warehouseId posted, hwrites⟩
  | fulfil document =>
      obtain ⟨posted, hwrites⟩ := postDocument_posts h
      exact .inr ⟨.fulfil document.warehouseId posted, hwrites⟩
  | issueCreditNote document =>
      obtain ⟨posted, hwrites⟩ := postDocument_posts h
      exact .inr ⟨.creditNote document.warehouseId posted, hwrites⟩
  | checkout document =>
      obtain ⟨posted, hwrites⟩ := postDocument_posts h
      exact .inr ⟨.checkout document.warehouseId (document.balances db) posted, hwrites.lock _⟩
  | refund document =>
      obtain ⟨posted, hwrites⟩ := postDocument_posts h
      exact .inr ⟨.refund document.warehouseId posted, hwrites⟩
  | receiveGoods document =>
      obtain ⟨posted, hwrites⟩ := postDocument_posts h
      exact .inr ⟨.goodsReceipt document.warehouseId posted, hwrites⟩

theorem Op.body_ledgerSound {op : Op} {db db' : InventoryDb} {u : Unit} (hdb : LedgerSound db)
    (h : op.body db = .ok (db', u)) : LedgerSound db' := by
  rcases Op.body_writes h with hsame | ⟨stock, hwrites⟩
  · exact hdb.of_sameStock hsame.balance hsame.movements hsame.reservations
  · exact hwrites.ledgerSound hdb

/-! ## Runs -/

/-- What happens to a tenant's inventory: a request, or a change of the catalogue, the
warehouses or the setting by another module. -/
inductive Event where
  | request (op : Op)
  | configure (products : Table ProductRow.id) (warehouses : Uuid → Option Warehouse)
      (allowNegativeInventory : Bool)

def Event.apply (db : InventoryDb) : Event → InventoryDb
  | .request op => (op.run db).1
  | .configure products warehouses allowNegativeInventory =>
      { db with
        products := products
        warehouses := warehouses
        allowNegativeInventory := allowNegativeInventory }

/-- The runs of the inventory. -/
def Runs : InventoryDb → InventoryDb → Prop :=
  Run (fun _ _ => True) fun db (event : Event) db' => event.apply db = db'

theorem Event.ledgerSound {event : Event} {db : InventoryDb} (hdb : LedgerSound db) :
    LedgerSound (event.apply db) := by
  cases event with
  | request op =>
      exact serviceTransaction_preserves hdb fun _ _ h => Op.body_ledgerSound hdb h
  | configure products warehouses allowNegativeInventory => exact hdb.of_sameStock rfl rfl rfl

/-- A ledger that agrees with its balances has no drift. -/
theorem LedgerSound.reconcile {db : InventoryDb} (hdb : LedgerSound db) : db.reconcile = [] := by
  unfold InventoryDb.reconcile
  rw [List.map_eq_nil_iff, List.filter_eq_nil_iff]
  intro row hrow
  obtain ⟨⟨pair, balance⟩, hmem, rfl⟩ := List.mem_map.mp hrow
  have hget := Table.get_eq_some.mpr ⟨(List.perm_insertionSort _ _).mem_iff.mp hmem, rfl⟩
  have hbalance : db.balance pair = balance := by
    unfold InventoryDb.balance
    rw [hget]
    rfl
  have honHand := hdb.onHand pair
  rw [hbalance] at honHand
  simp [honHand]

/-- In every run from an empty inventory the balances are the sums of the ledger and of
the active reservations, the ledger carries its prefix sums, reconciliation finds
nothing, and a request that raises changes nothing. -/
theorem ledger_of_run {db db' : InventoryDb} (hempty : db.Empty) (h : Runs db db') :
    (∀ pair, (db'.balance pair).quantityOnHand = ((db'.ledger pair).map Movement.quantity).sum) ∧
    (∀ pair earlier movement later, db'.ledger pair = earlier ++ movement :: later →
      movement.balanceAfter = (earlier.map Movement.quantity).sum + movement.quantity) ∧
    (∀ pair, (db'.balance pair).reservedQuantity =
      ((db'.activeReservations pair).map Reservation.quantity).sum) ∧
    db'.reconcile = [] ∧
    ∀ (op : Op) (e : Err), (op.run db').2 = .error e → (op.run db').1 = db' := by
  have hsound : LedgerSound db' := by
    refine Run.invariant (fun db event db' hdb _ hstep => ?_) h hempty.ledgerSound
    rw [← hstep]
    exact Event.ledgerSound hdb
  exact ⟨hsound.onHand, hsound.balanceAfter, hsound.reserved, hsound.reconcile,
    fun _ _ => serviceTransaction_error⟩

/-- A product counted in units of a thousandth. -/
def shopProduct : Product :=
  { id := 7
    costPrice := 0
    sellingPrice := 0
    taxRate := 0
    isStockTracked := true
    precision := 3
    sellingPrice_nonneg := le_rfl
    taxRate_range := by decide
    precision_le := by decide }

/-- An inventory with one product and one warehouse. -/
def shop : InventoryDb :=
  { balances := .empty _
    movements := []
    reservations := .empty _
    transfers := .empty _
    adjustments := .empty _
    products := (Table.empty _).put ⟨shopProduct, true⟩
    warehouses := fun id => if id = 1 then some ⟨some 4, true⟩ else none
    allowNegativeInventory := false }

def shopContext : TenantContext := ⟨1, 2, 3, ∅, ∅, none⟩

/-- A receipt of 10, a reservation of 2.5 and an issue of 4. -/
def shopDay : InventoryDb :=
  [ Event.request (.receipt shopContext ⟨1, 7, 10, some 3, none, none, none, by norm_num⟩ none),
    .request (.reserve shopContext ⟨1, 7, 5 / 2, "order", 9, none, by norm_num⟩ 11),
    .request (.issue shopContext ⟨1, 7, 4, none, none, none, none, by norm_num⟩ (some "k")) ].foldl
    Event.apply shop

theorem ledger_of_run_shopDay :
    shop.Empty ∧ (shopDay.ledger (1, 7)).map Movement.quantity = [10000000, -4000000] ∧
      (shopDay.balance (1, 7)).quantityOnHand =
        ((shopDay.ledger (1, 7)).map Movement.quantity).sum ∧
      shopDay.reconcile = [] := by
  have hempty : shop.Empty := ⟨rfl, rfl, rfl⟩
  have hrun : Runs shop shopDay := Run.foldl _ shop
  have h := ledger_of_run hempty hrun
  exact ⟨hempty, by decide +kernel, h.1 (1, 7), h.2.2.2.1⟩

end Nexora.Inventory
