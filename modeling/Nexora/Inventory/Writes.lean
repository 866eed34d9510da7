import Nexora.Inventory.Service
import Nexora.Foundations.RowLocks

/-!
# What requests write

Every request of the inventory is a sequence of statements on balance rows.  A
`Statement` is what one locked row is subjected to, and it leaves its trace in the
ledger or among the reservations.  `Writes db statements db'` says that a request
took the tables from `db` to `db'` in this way.

Each service function has one theorem here, which inverts a request that went through
into its statements, written as the `StockOp` it performs.  The invariants of the
inventory then follow from what one statement does, and the same scripts are what
transactions run when they interleave.
-/

namespace Nexora.Inventory

open Nexora Nexora.Catalog Foundations

/-! ## Statements -/

/-- What a service does between the lock of a balance row and its write. -/
inductive Statement where
  /-- The row is locked and left alone. -/
  | lock
  | move (product : Product) (quantity : ℚ)
  | reserve (product : Product) (quantity : ℚ)
  | release (reservation : Reservation)

/-- The row after a statement. -/
def Statement.apply (negativeAllowed : Bool) : Statement → Balance → Except Err Balance
  | .lock, balance => .ok balance
  | .move product quantity, balance => do
      validateQuantity product quantity
      balance.move negativeAllowed quantity
  | .reserve product quantity, balance => do
      validateQuantity product quantity
      balance.reserve negativeAllowed quantity
  | .release reservation, balance => balance.release reservation.quantity

/-- What a statement adds to the stock on hand. -/
def Statement.onHand : Statement → Quantity
  | .move _ quantity => stored quantity
  | _ => 0

/-- What a statement adds to the reserved stock. -/
def Statement.reserved : Statement → Quantity
  | .reserve _ quantity => stored quantity
  | .release reservation => -reservation.quantity
  | _ => 0

/-- A row moves by what its statement says. -/
theorem Statement.apply_eq_ok {negativeAllowed : Bool} {statement : Statement}
    {balance balance' : Balance} (h : statement.apply negativeAllowed balance = .ok balance') :
    balance'.quantityOnHand = balance.quantityOnHand + statement.onHand ∧
      balance'.reservedQuantity = balance.reservedQuantity + statement.reserved := by
  cases statement with
  | lock =>
      cases h
      exact ⟨(add_zero _).symm, (add_zero _).symm⟩
  | move product quantity =>
      obtain ⟨_, hunit, h⟩ := bind_eq_ok.mp h
      obtain ⟨m, hm⟩ := validateQuantity_eq_ok hunit
      obtain ⟨hstored, honHand, hreserved⟩ := Balance.move_eq_ok hm h
      rw [← hstored] at honHand
      exact ⟨honHand, hreserved.trans (add_zero _).symm⟩
  | reserve product quantity =>
      obtain ⟨_, hunit, h⟩ := bind_eq_ok.mp h
      obtain ⟨m, hm⟩ := validateQuantity_eq_ok hunit
      obtain ⟨hstored, honHand, hreserved⟩ := Balance.reserve_eq_ok hm h
      rw [← hstored] at hreserved
      exact ⟨honHand.trans (add_zero _).symm, hreserved⟩
  | release reservation =>
      obtain ⟨honHand, hreserved⟩ := Balance.release_eq_ok reservation.quantity_lt h
      exact ⟨honHand.trans (add_zero _).symm, hreserved⟩

/-- Where stock may not go negative, no statement sells more than there is. -/
theorem Statement.apply_notOversold {statement : Statement} {balance balance' : Balance}
    (hbalance : balance.NotOversold) (h : statement.apply false balance = .ok balance') :
    balance'.NotOversold := by
  cases statement with
  | lock =>
      cases h
      exact hbalance
  | move product quantity =>
      obtain ⟨_, hunit, h⟩ := bind_eq_ok.mp h
      obtain ⟨m, hm⟩ := validateQuantity_eq_ok hunit
      exact Balance.move_notOversold hm hbalance h
  | reserve product quantity =>
      obtain ⟨_, hunit, h⟩ := bind_eq_ok.mp h
      obtain ⟨m, hm⟩ := validateQuantity_eq_ok hunit
      exact Balance.reserve_notOversold hm h
  | release reservation =>
      exact Balance.release_notOversold reservation.quantity_lt reservation.quantity_positive
        hbalance h

/-! ## Operations -/

/-- A line of a document or a transfer that reaches a balance. -/
structure StockLine where
  product : Product
  quantity : Quantity
  quantity_positive : 0 < quantity
  quantity_lt : |quantity| < 10 ^ 20

/-- The operations on stock.  `posted` are the lines that reach a balance: a movement
whose key was posted before does not, nor does a product that is not tracked. -/
inductive StockOp where
  | receipt (warehouseId : Uuid) (posted : Option (Product × ℚ))
  | issue (warehouseId : Uuid) (posted : Option (Product × ℚ))
  | adjust (warehouseId : Uuid) (posted : Option (Product × ℚ))
  | ship (warehouseId : Uuid) (posted : List StockLine)
  | receiveTransfer (warehouseId : Uuid) (posted : List StockLine)
  | reserve (pair : Pair) (product : Product) (quantity : ℚ)
  | release (reservation : Reservation)
  | expire (reservations : List Reservation)
  /-- `locked` are the rows that `lock_inventory_balances` finds. -/
  | checkout (warehouseId : Uuid) (locked : List Pair) (posted : List StockLine)
  | refund (warehouseId : Uuid) (posted : List StockLine)
  | fulfil (warehouseId : Uuid) (posted : List StockLine)
  | creditNote (warehouseId : Uuid) (posted : List StockLine)
  | goodsReceipt (warehouseId : Uuid) (posted : List StockLine)

/-- Lines that take stock out. -/
def outward (warehouseId : Uuid) (posted : List StockLine) : List (Pair × Statement) :=
  posted.map fun line =>
    ((warehouseId, line.product.id), .move line.product (toContext (-decimal line.quantity)))

/-- Lines that bring stock in. -/
def inward (warehouseId : Uuid) (posted : List StockLine) : List (Pair × Statement) :=
  posted.map fun line =>
    ((warehouseId, line.product.id), .move line.product (decimal line.quantity))

/-- The statements of an operation, in order. -/
def StockOp.script : StockOp → List (Pair × Statement)
  | .receipt warehouseId posted | .issue warehouseId posted | .adjust warehouseId posted =>
      posted.toList.map fun line => ((warehouseId, line.1.id), .move line.1 line.2)
  | .ship warehouseId posted | .fulfil warehouseId posted => outward warehouseId posted
  | .receiveTransfer warehouseId posted | .refund warehouseId posted
  | .creditNote warehouseId posted | .goodsReceipt warehouseId posted => inward warehouseId posted
  | .reserve pair product quantity => [(pair, .reserve product quantity)]
  | .release reservation => [(reservation.pair, .release reservation)]
  | .expire reservations => reservations.map fun r => (r.pair, .release r)
  | .checkout warehouseId locked posted =>
      locked.map (fun pair => (pair, .lock)) ++ outward warehouseId posted

/-! ## Traces -/

/-- What a statement leaves in the other tables. -/
def Statement.Records (pair : Pair) (balance : Balance) (db db' : InventoryDb) : Statement → Prop
  | .lock => db'.movements = db.movements ∧ db'.reservations.rows = db.reservations.rows
  | .move _ quantity =>
      db'.reservations.rows = db.reservations.rows ∧
        ∃ movement : Movement, movement.pair = pair ∧ movement.quantity = stored quantity ∧
          movement.balanceAfter = balance.quantityOnHand ∧
          db'.movements = db.movements ++ [movement]
  | .reserve _ quantity =>
      db'.movements = db.movements ∧
        ∃ reservation : Reservation, reservation.pair = pair ∧ reservation.status = .active ∧
          reservation.quantity = stored quantity ∧
          db'.reservations.rows = db.reservations.rows ++ [reservation]
  | .release reservation =>
      db'.movements = db.movements ∧ reservation.pair = pair ∧ reservation.status = .active ∧
        ∃ l₁ l₂, db.reservations.rows = l₁ ++ reservation :: l₂ ∧
          db'.reservations.rows = l₁ ++ { reservation with status := .released } :: l₂

/-- One statement of a request. -/
structure Write (db : InventoryDb) (pair : Pair) (statement : Statement) (db' : InventoryDb) :
    Prop where
  setting : db'.allowNegativeInventory = db.allowNegativeInventory
  change : ∃ balance, statement.apply db.allowNegativeInventory (db.balance pair) = .ok balance ∧
    db'.balance = Function.update db.balance pair balance ∧ statement.Records pair balance db db'

/-- The tables of the stock are the same. -/
structure SameStock (db db' : InventoryDb) : Prop where
  setting : db'.allowNegativeInventory = db.allowNegativeInventory
  balance : db'.balance = db.balance
  movements : db'.movements = db.movements
  reservations : db'.reservations.rows = db.reservations.rows

/-- The statements of a request, one after another. -/
inductive Writes : InventoryDb → List (Pair × Statement) → InventoryDb → Prop
  | done {db db' : InventoryDb} : SameStock db db' → Writes db [] db'
  | cons {db db₁ db' : InventoryDb} {pair : Pair} {statement : Statement}
      {statements : List (Pair × Statement)} : Write db pair statement db₁ →
      Writes db₁ statements db' → Writes db ((pair, statement) :: statements) db'

theorem SameStock.refl (db : InventoryDb) : SameStock db db := ⟨rfl, rfl, rfl, rfl⟩

theorem SameStock.trans {db db₁ db₂ : InventoryDb} (h : SameStock db db₁)
    (h' : SameStock db₁ db₂) : SameStock db db₂ :=
  ⟨h'.setting.trans h.setting, h'.balance.trans h.balance, h'.movements.trans h.movements,
    h'.reservations.trans h.reservations⟩

/-- A statement depends on the stock only. -/
theorem Write.of_sameStock {db db₁ db₂ : InventoryDb} {pair : Pair} {statement : Statement}
    (h : SameStock db db₁) (hwrite : Write db₁ pair statement db₂) :
    Write db pair statement db₂ := by
  obtain ⟨hsetting, balance, happly, hbalance, hrecords⟩ := hwrite
  rw [h.setting, h.balance] at happly
  rw [h.balance] at hbalance
  refine ⟨hsetting.trans h.setting, balance, happly, hbalance, ?_⟩
  cases statement with
  | lock => exact ⟨hrecords.1.trans h.movements, hrecords.2.trans h.reservations⟩
  | move product quantity =>
      obtain ⟨hres, movement, hpair, hq, hafter, hmov⟩ := hrecords
      exact ⟨hres.trans h.reservations, movement, hpair, hq, hafter, h.movements ▸ hmov⟩
  | reserve product quantity =>
      obtain ⟨hmov, reservation, hpair, hactive, hq, hres⟩ := hrecords
      exact ⟨hmov.trans h.movements, reservation, hpair, hactive, hq, h.reservations ▸ hres⟩
  | release reservation =>
      obtain ⟨hmov, hpair, hactive, l₁, l₂, hrows, hrows'⟩ := hrecords
      exact ⟨hmov.trans h.movements, hpair, hactive, l₁, l₂, h.reservations ▸ hrows, hrows'⟩

theorem Writes.of_sameStock {db db₁ db₂ : InventoryDb} {statements : List (Pair × Statement)}
    (h : SameStock db db₁) (hwrites : Writes db₁ statements db₂) : Writes db statements db₂ := by
  cases hwrites with
  | done hsame => exact .done (h.trans hsame)
  | cons hwrite hrest => exact .cons (hwrite.of_sameStock h) hrest

theorem Writes.refl (db : InventoryDb) : Writes db [] db := .done (.refl db)

theorem Writes.single {db db' : InventoryDb} {pair : Pair} {statement : Statement}
    (h : Write db pair statement db') : Writes db [(pair, statement)] db' :=
  .cons h (.refl db')

theorem Writes.append {db db₁ db₂ : InventoryDb} {statements statements' : List (Pair × Statement)}
    (h : Writes db statements db₁) (h' : Writes db₁ statements' db₂) :
    Writes db (statements ++ statements') db₂ := by
  induction h with
  | done hsame => exact h'.of_sameStock hsame
  | cons hwrite _ ih => exact .cons hwrite (ih h')

/-- A request followed by writes to other tables. -/
theorem Writes.then {db db₁ db₂ : InventoryDb} {statements : List (Pair × Statement)}
    (h : Writes db statements db₁) (h' : SameStock db₁ db₂) : Writes db statements db₂ := by
  have happend := h.append (.done h')
  rwa [List.append_nil] at happend

/-- Rows that are only locked stay as they are. -/
theorem Writes.lock {db db' : InventoryDb} {statements : List (Pair × Statement)}
    (pairs : List Pair) (h : Writes db statements db') :
    Writes db (pairs.map (fun pair => (pair, .lock)) ++ statements) db' := by
  induction pairs with
  | nil => exact h
  | cons pair pairs ih =>
      exact .cons ⟨rfl, db.balance pair, rfl, (Function.update_eq_self ..).symm, rfl, rfl⟩ ih

/-- The balances of a request are those its script leaves. -/
theorem Writes.exec {db db' : InventoryDb} {statements : List (Pair × Statement)}
    (h : Writes db statements db') :
    Foundations.exec (Statement.apply db.allowNegativeInventory) statements db.balance =
      .ok db'.balance := by
  induction h with
  | done hsame => rw [hsame.balance]; rfl
  | cons hwrite _ ih =>
      obtain ⟨hsetting, balance, happly, hbalance, -⟩ := hwrite
      rw [hsetting, hbalance] at ih
      exact exec_cons.mpr ⟨balance, happly, ih⟩

/-! ## Movements -/

theorem storeCostPrice_sameStock {db db' : InventoryDb} {productId : Uuid} {cost : Option UnitCost}
    (h : storeCostPrice db productId cost = .ok db') : SameStock db db' := by
  cases cost with
  | none =>
      cases h
      exact .refl db
  | some cost =>
      unfold storeCostPrice at h
      obtain ⟨-, h⟩ := ite_error_eq_ok.mp h
      obtain ⟨-, h⟩ := ite_error_eq_ok.mp h
      cases h
      unfold InventoryDb.setCostPrice
      split
      · exact .refl db
      · exact ⟨rfl, rfl, rfl, rfl⟩

theorem MovementRequest.movement_eq_ok {request : MovementRequest} {db : InventoryDb}
    {balance : Balance} {movement : Movement} (h : request.movement db balance = .ok movement) :
    movement.pair = request.pair ∧ movement.quantity = stored request.quantity ∧
      movement.balanceAfter =
        stored (toContext (decimal balance.quantityOnHand + request.quantity)) := by
  obtain ⟨_, -, h⟩ := bind_eq_ok.mp h
  obtain ⟨quantity, hquantity, h⟩ := bind_eq_ok.mp h
  obtain ⟨unitCost, -, h⟩ := bind_eq_ok.mp h
  obtain ⟨balanceAfter, hafter, h⟩ := bind_eq_ok.mp h
  unfold MovementRequest.row at h
  split at h
  next =>
    cases h
    exact ⟨rfl, storeQuantity_eq_ok hquantity, storeQuantity_eq_ok hafter⟩
  next => cases h

theorem postNew_write {db db' : InventoryDb} {request : MovementRequest} {movement : Movement}
    {u : Unit} (hunit : validateQuantity request.product request.quantity = .ok u)
    (h : postNew db request = .ok (db', movement)) :
    Write db request.pair (.move request.product request.quantity) db' := by
  obtain ⟨balance, hbalance, h⟩ := bind_eq_ok.mp h
  obtain ⟨cost, -, h⟩ := bind_eq_ok.mp h
  obtain ⟨movement', hmovement, h⟩ := bind_eq_ok.mp h
  obtain ⟨db₁, hcost, h⟩ := bind_eq_ok.mp h
  cases h
  have hsame := storeCostPrice_sameStock hcost
  obtain ⟨hpair, hquantity, hafter⟩ := MovementRequest.movement_eq_ok hmovement
  refine ⟨hsame.setting, balance, bind_eq_ok.mpr ⟨u, hunit, hbalance⟩, ?_, hsame.reservations,
    movement, hpair, hquantity, ?_, ?_⟩
  · show (db₁.setBalance request.pair balance).balance = _
    rw [InventoryDb.balance_setBalance, hsame.balance]
  · obtain ⟨_, -, hset⟩ := bind_eq_ok.mp hbalance
    obtain ⟨q, hq, honHand, -⟩ := Balance.setOnHand_eq_ok hset
    rw [hafter, honHand]
    exact (storeQuantity_eq_ok hq).symm
  · show db₁.movements ++ [movement] = _
    rw [hsame.movements]

/-- A movement is posted, or its key shows that it was. -/
theorem postMovement_writes {db db' : InventoryDb} {request : MovementRequest}
    {movement : Movement} (h : postMovement db request = .ok (db', movement)) :
    ∃ posted : Option (Product × ℚ),
      (∀ line ∈ posted, line = (request.product, request.quantity)) ∧
      Writes db (posted.toList.map fun line =>
        ((request.warehouseId, line.1.id), .move line.1 line.2)) db' := by
  obtain ⟨_, hunit, h⟩ := bind_eq_ok.mp h
  split at h
  next existing hexisting =>
    split at h
    next =>
      cases h
      exact ⟨none, nofun, .refl db⟩
    next => cases h
  next =>
    refine ⟨some (request.product, request.quantity), fun line hline => ?_,
      .single (postNew_write hunit h)⟩
    exact (Option.some.inj hline).symm

theorem postPayload_writes {context : TenantContext} {db db' : InventoryDb}
    {payload : MovementCreate} {movementType : MovementType} {quantity : ℚ} {unitCost : Option ℚ}
    {idempotencyKey : Option String} {movement : Movement}
    (h : postPayload context db payload movementType quantity unitCost idempotencyKey =
      .ok (db', movement)) :
    ∃ posted : Option (Product × ℚ), Writes db (posted.toList.map fun line =>
      ((payload.warehouseId, line.1.id), .move line.1 line.2)) db' := by
  obtain ⟨product, -, h⟩ := bind_eq_ok.mp (onIntegrityError_eq_ok.mp h)
  obtain ⟨posted, -, hwrites⟩ := postMovement_writes h
  exact ⟨posted, hwrites⟩

theorem receipt_writes {context : TenantContext} {db db' : InventoryDb} {payload : MovementCreate}
    {idempotencyKey : Option String} {movement : Movement}
    (h : receipt context db payload idempotencyKey = .ok (db', movement)) :
    ∃ posted, Writes db (StockOp.receipt payload.warehouseId posted).script db' := by
  obtain ⟨unitCost, -, h⟩ := bind_eq_ok.mp h
  exact postPayload_writes h

theorem issue_writes {context : TenantContext} {db db' : InventoryDb} {payload : MovementCreate}
    {idempotencyKey : Option String} {movement : Movement}
    (h : issue context db payload idempotencyKey = .ok (db', movement)) :
    ∃ posted, Writes db (StockOp.issue payload.warehouseId posted).script db' :=
  postPayload_writes h

theorem adjust_writes {context : TenantContext} {db db' : InventoryDb} {payload : AdjustmentCreate}
    {adjustmentId : Uuid} {idempotencyKey : Option String} {movement : Movement}
    (h : adjust context db payload adjustmentId idempotencyKey = .ok (db', movement)) :
    ∃ posted, Writes db (StockOp.adjust payload.warehouseId posted).script db' := by
  obtain ⟨product, -, h⟩ := bind_eq_ok.mp (onIntegrityError_eq_ok.mp h)
  obtain ⟨⟨db₁, movement'⟩, hpost, h⟩ := bind_eq_ok.mp h
  obtain ⟨adjustment, -, h⟩ := bind_eq_ok.mp h
  obtain ⟨adjustments, -, h⟩ := bind_eq_ok.mp h
  cases h
  obtain ⟨posted, -, hwrites⟩ := postMovement_writes hpost
  exact ⟨posted, hwrites.then ⟨rfl, rfl, rfl, rfl⟩⟩

/-! ## Reservations -/

theorem reserve_writes {context : TenantContext} {db db' : InventoryDb}
    {payload : ReservationCreate} {reservationId : Uuid} {reservation : Reservation}
    (h : reserve context db payload reservationId = .ok (db', reservation)) :
    ∃ product, Writes db (StockOp.reserve (payload.warehouseId, payload.productId) product
      payload.quantity).script db' := by
  obtain ⟨product, -, h⟩ := bind_eq_ok.mp h
  obtain ⟨_, hunit, h⟩ := bind_eq_ok.mp h
  obtain ⟨balance, hbalance, h⟩ := bind_eq_ok.mp h
  obtain ⟨reservation', hrow, h⟩ := bind_eq_ok.mp h
  obtain ⟨reservations, hinsert, h⟩ := bind_eq_ok.mp h
  cases h
  obtain ⟨quantity, hquantity, hrow⟩ := bind_eq_ok.mp hrow
  have hrows := (Table.insert_eq_some (orRaise_eq_ok.mp hinsert)).1
  refine ⟨product, .single ⟨rfl, balance, bind_eq_ok.mpr ⟨(), hunit, hbalance⟩, ?_, rfl,
    reservation, ?_⟩⟩
  · exact InventoryDb.balance_setBalance db _ balance
  · split at hrow
    next =>
      cases hrow
      exact ⟨rfl, rfl, storeQuantity_eq_ok hquantity, hrows⟩
    next => cases hrow

theorem releaseReservation_write {db db' : InventoryDb} {reservation : Reservation}
    (hget : db.reservations.get reservation.id = some reservation)
    (hactive : reservation.status = .active) (h : releaseReservation db reservation = .ok db') :
    Write db reservation.pair (.release reservation) db' := by
  obtain ⟨balance, hbalance, h⟩ := bind_eq_ok.mp h
  obtain ⟨reservations, hreplace, h⟩ := bind_eq_ok.mp h
  cases h
  exact ⟨rfl, balance, hbalance, InventoryDb.balance_setBalance db _ balance, rfl, rfl, hactive,
    Table.replace_eq_some hget (orRaise_eq_ok.mp hreplace)⟩

theorem release_writes {db db' : InventoryDb} {reservationId : Uuid} {u : Unit}
    (h : release db reservationId = .ok (db', u)) :
    ∃ reservation, Writes db (StockOp.release reservation).script db' := by
  obtain ⟨reservation, hget, h⟩ := bind_eq_ok.mp h
  obtain ⟨_, hactive, h⟩ := bind_eq_ok.mp h
  obtain ⟨db₁, hrelease, h⟩ := bind_eq_ok.mp h
  cases h
  replace hget := orRaise_eq_ok.mp hget
  unfold requireActive at hactive
  split at hactive
  next hstatus =>
    have hid := (Table.get_eq_some.mp hget).2
    rw [← hid] at hget
    exact ⟨reservation, .single (releaseReservation_write hget hstatus hrelease)⟩
  next => cases hactive

/-- A loop of releases.  Each pass leaves the reservations of the passes after it as
they were read. -/
theorem foldlM_releaseExpiredReservation_writes {reservations : List Reservation} :
    ∀ {db db' : InventoryDb}, (reservations.map Reservation.id).Nodup →
      (∀ r ∈ reservations, r ∈ db.reservations.rows ∧ r.status = .active) →
      reservations.foldlM releaseExpiredReservation db = .ok db' →
      Writes db (reservations.map fun r => (r.pair, .release r)) db' := by
  induction reservations with
  | nil =>
      intro db db' _ _ h
      cases h
      exact .refl db
  | cons reservation reservations ih =>
      intro db db' hnodup hmem h
      rw [List.foldlM_cons] at h
      obtain ⟨db₁, hpass, h⟩ := bind_eq_ok.mp h
      obtain ⟨_, -, hpass⟩ := bind_eq_ok.mp hpass
      rw [List.map_cons, List.nodup_cons] at hnodup
      obtain ⟨hrow, hactive⟩ := hmem reservation List.mem_cons_self
      have hwrite := releaseReservation_write (Table.get_eq_some.mpr ⟨hrow, rfl⟩) hactive hpass
      refine .cons hwrite (ih hnodup.2 (fun r hr => ?_) h)
      obtain ⟨hr', hractive⟩ := hmem r (List.mem_cons_of_mem _ hr)
      refine ⟨?_, hractive⟩
      have hne : r ≠ reservation := by
        rintro rfl
        exact hnodup.1 (List.mem_map_of_mem hr)
      obtain ⟨-, _, -, -, -, -, -, l₁, l₂, hrows, hrows'⟩ := hwrite
      rw [hrows, List.mem_append, List.mem_cons] at hr'
      rw [hrows', List.mem_append, List.mem_cons]
      rcases hr' with hr' | hr' | hr'
      · exact .inl hr'
      · exact absurd hr' hne
      · exact .inr (.inr hr')

theorem expiredReservations_nodup (db : InventoryDb) (now : Int) (locked : List Uuid) :
    ((expiredReservations db now locked).map Reservation.id).Nodup := by
  unfold expiredReservations
  refine List.Nodup.sublist ((List.take_sublist _ _).map _) ?_
  rw [((List.perm_insertionSort _ _).map Reservation.id).nodup_iff]
  exact db.reservations.nodup.sublist (List.filter_sublist.map _)

theorem mem_expiredReservations {db : InventoryDb} {now : Int} {locked : List Uuid}
    {r : Reservation} (h : r ∈ expiredReservations db now locked) :
    r ∈ db.reservations.rows ∧ r.status = .active := by
  have hfilter := (List.perm_insertionSort _ _).mem_iff.mp (List.mem_of_mem_take h)
  obtain ⟨hmem, hexpired⟩ := List.mem_filter.mp hfilter
  simp only [Reservation.expired, decide_eq_true_eq] at hexpired
  exact ⟨hmem, hexpired.1.1⟩

theorem releaseExpired_writes {db db' : InventoryDb} {now : Int} {locked : List Uuid} {n : Nat}
    (h : releaseExpired db now locked = .ok (db', n)) :
    Writes db (StockOp.expire (expiredReservations db now locked)).script db' := by
  obtain ⟨db₁, hloop, h⟩ := bind_eq_ok.mp h
  cases h
  exact foldlM_releaseExpiredReservation_writes (expiredReservations_nodup db now locked)
    (fun _ hr => mem_expiredReservations hr) hloop

/-! ## Transfers and documents -/

/-- The tables differ by lines posted in one warehouse, all inward or all outward. -/
def Posts (warehouseId : Uuid) (sign : Quantity → ℚ) (db db' : InventoryDb) : Prop :=
  ∃ posted : List StockLine, Writes db (posted.map fun line =>
    ((warehouseId, line.product.id), .move line.product (sign line.quantity))) db'

theorem Posts.refl {warehouseId : Uuid} {sign : Quantity → ℚ} (db : InventoryDb) :
    Posts warehouseId sign db db := ⟨[], .refl db⟩

theorem Posts.trans {warehouseId : Uuid} {sign : Quantity → ℚ} {db db₁ db₂ : InventoryDb}
    (h : Posts warehouseId sign db db₁) (h' : Posts warehouseId sign db₁ db₂) :
    Posts warehouseId sign db db₂ := by
  obtain ⟨posted, hwrites⟩ := h
  obtain ⟨posted', hwrites'⟩ := h'
  refine ⟨posted ++ posted', ?_⟩
  rw [List.map_append]
  exact hwrites.append hwrites'

theorem postMovement_posts {db db' : InventoryDb} {request : MovementRequest} {movement : Movement}
    (sign : Quantity → ℚ) {quantity : Quantity} (hquantity : request.quantity = sign quantity)
    (hpos : 0 < quantity) (hlt : |quantity| < 10 ^ 20)
    (h : postMovement db request = .ok (db', movement)) :
    Posts request.warehouseId sign db db' := by
  obtain ⟨posted, hposted, hwrites⟩ := postMovement_writes h
  cases posted with
  | none => exact ⟨[], hwrites⟩
  | some line =>
      rw [hposted line rfl, hquantity] at hwrites
      exact ⟨[⟨request.product, quantity, hpos, hlt⟩], hwrites⟩

theorem postTransferLine_posts {context : TenantContext} {transfer : Transfer} {receive : Bool}
    {idempotencyKey : Option String} {db db' : InventoryDb} {line : TransferLine}
    (h : postTransferLine context transfer receive idempotencyKey db line = .ok db') :
    Posts (if receive then transfer.destinationWarehouseId else transfer.sourceWarehouseId)
      (fun q => if receive then decimal q else toContext (-decimal q)) db db' := by
  obtain ⟨product, -, h⟩ := bind_eq_ok.mp h
  obtain ⟨⟨db₁, movement⟩, hpost, h⟩ := bind_eq_ok.mp h
  cases h
  exact postMovement_posts _ rfl line.quantity_positive line.quantity_lt hpost

theorem transitionTransfer_posts {context : TenantContext} {db db' : InventoryDb}
    {transferId : Uuid} {receive : Bool} {idempotencyKey : Option String} {moved : Transfer}
    (h : transitionTransfer context db transferId receive idempotencyKey = .ok (db', moved)) :
    ∃ warehouseId, Posts warehouseId
      (fun q => if receive then decimal q else toContext (-decimal q)) db db' := by
  obtain ⟨transfer, -, h⟩ := bind_eq_ok.mp h
  obtain ⟨_, -, h⟩ := bind_eq_ok.mp h
  obtain ⟨db₁, hloop, h⟩ := bind_eq_ok.mp h
  obtain ⟨transfers, -, h⟩ := bind_eq_ok.mp h
  cases h
  obtain ⟨posted, hwrites⟩ := foldlM_invariant (I := Posts _ _ db)
    (fun _ _ _ _ hdb hpass => hdb.trans (postTransferLine_posts hpass)) hloop (.refl db)
  exact ⟨_, posted, hwrites.then ⟨rfl, rfl, rfl, rfl⟩⟩

theorem shipTransfer_writes {context : TenantContext} {db db' : InventoryDb} {transferId : Uuid}
    {idempotencyKey : Option String} {moved : Transfer}
    (h : transitionTransfer context db transferId false idempotencyKey = .ok (db', moved)) :
    ∃ warehouseId posted, Writes db (StockOp.ship warehouseId posted).script db' :=
  transitionTransfer_posts h

theorem receiveTransfer_writes {context : TenantContext} {db db' : InventoryDb}
    {transferId : Uuid} {idempotencyKey : Option String} {moved : Transfer}
    (h : transitionTransfer context db transferId true idempotencyKey = .ok (db', moved)) :
    ∃ warehouseId posted, Writes db (StockOp.receiveTransfer warehouseId posted).script db' :=
  transitionTransfer_posts h

theorem createTransfer_sameStock {context : TenantContext} {db db' : InventoryDb}
    {payload : TransferCreate} {transferId : Uuid} {transfer : Transfer}
    (h : createTransfer context db payload transferId = .ok (db', transfer)) :
    SameStock db db' := by
  obtain ⟨_, -, h⟩ := bind_eq_ok.mp h
  obtain ⟨source, -, h⟩ := bind_eq_ok.mp (onIntegrityError_eq_ok.mp h)
  obtain ⟨destination, -, h⟩ := bind_eq_ok.mp h
  obtain ⟨_, -, h⟩ := bind_eq_ok.mp h
  obtain ⟨_, -, h⟩ := bind_eq_ok.mp h
  obtain ⟨_, -, h⟩ := bind_eq_ok.mp h
  obtain ⟨lines, -, h⟩ := bind_eq_ok.mp h
  obtain ⟨_, -, h⟩ := bind_eq_ok.mp h
  obtain ⟨row, -, h⟩ := bind_eq_ok.mp h
  obtain ⟨transfers, -, h⟩ := bind_eq_ok.mp h
  cases h
  exact ⟨rfl, rfl, rfl, rfl⟩

/-- The quantity of a movement for a document of the kind. -/
def DocumentKind.sign (kind : DocumentKind) (quantity : Quantity) : ℚ :=
  if kind.outward then toContext (-decimal quantity) else decimal quantity

theorem postDocumentLine_posts {kind : DocumentKind} {warehouseId documentId : Uuid}
    {db db' : InventoryDb} {line : DocumentLine}
    (h : postDocumentLine kind warehouseId documentId db line = .ok db') :
    Posts warehouseId kind.sign db db' := by
  obtain ⟨_, -, h⟩ := bind_eq_ok.mp h
  obtain ⟨product, -, h⟩ := bind_eq_ok.mp h
  obtain ⟨_, -, h⟩ := bind_eq_ok.mp h
  unfold postMovementForDocument at h
  split at h
  next =>
    obtain ⟨⟨db₁, movement⟩, hpost, h⟩ := bind_eq_ok.mp h
    cases h
    exact postMovement_posts kind.sign rfl line.quantity_pos line.quantity_lt hpost
  next =>
    cases h
    exact .refl db

theorem postDocument_posts {kind : DocumentKind} {warehouseId documentId : Uuid}
    {db db' : InventoryDb} {lines : List DocumentLine} {enter book : Except Err Unit} {u : Unit}
    (h : postDocument kind db warehouseId documentId lines enter book = .ok (db', u)) :
    Posts warehouseId kind.sign db db' := by
  obtain ⟨_, -, h⟩ := bind_eq_ok.mp h
  obtain ⟨db₁, hloop, h⟩ := bind_eq_ok.mp h
  obtain ⟨_, -, h⟩ := bind_eq_ok.mp h
  cases h
  exact foldlM_invariant (I := Posts warehouseId kind.sign db)
    (fun _ _ _ _ hdb hpass => hdb.trans (postDocumentLine_posts hpass)) hloop (.refl db)

end Nexora.Inventory
