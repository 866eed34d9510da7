import Nexora.Foundations.LockedReads
import Nexora.Inventory.Transfers

/-!
# Concurrent requests of the stock

A request locks the balances that it changes, `FOR UPDATE`, and a transition of a transfer or a
release first locks the row that it is about.  `stockService` is these requests as `LockedReads`.
The catalogue, the warehouses and the tenant's setting are whatever a request finds them to be,
and so are the rows that `release_expired` finds unlocked.

A request writes no row that it has not locked (`Op.body_touches`), so what the requests keep one
after another, they keep in every interleaving.  In particular a transfer that two requests would
receive at once is received by one of them, since the other finds it completed.
-/

namespace Nexora.Inventory

open Nexora Nexora.Catalog Foundations

/-! ## The system -/

/-- The tables that requests of the stock write. -/
structure StockState where
  balances : Table (Prod.fst : Pair × Balance → Pair)
  movements : List Movement
  reservations : Table Reservation.id
  transfers : Table Transfer.id
  adjustments : Table Adjustment.adjustmentNumber

/-- What a request finds in the tables of other modules. -/
structure Setting where
  products : Table ProductRow.id
  warehouses : Uuid → Option Warehouse
  allowNegativeInventory : Bool

def StockState.empty : StockState := ⟨.empty _, [], .empty _, .empty _, .empty _⟩

def StockState.db (stock : StockState) (setting : Setting) : InventoryDb :=
  { balances := stock.balances
    movements := stock.movements
    reservations := stock.reservations
    transfers := stock.transfers
    adjustments := stock.adjustments
    products := setting.products
    warehouses := setting.warehouses
    allowNegativeInventory := setting.allowNegativeInventory }

def InventoryDb.stock (db : InventoryDb) : StockState :=
  ⟨db.balances, db.movements, db.reservations, db.transfers, db.adjustments⟩

/-- A request, and what it finds around the stock. -/
structure StockRequest where
  op : Op
  setting : Setting
  /-- The reservations that the query of `release_expired` returns. -/
  expired : List Uuid

inductive StockRow where
  | balance (pair : Pair)
  | reservation (id : Uuid)
  | transfer (id : Uuid)
deriving DecidableEq

/-- A row as a request has read it. -/
inductive SeenStock where
  | balance (pair : Pair) (balance : Balance)
  | reservation (reservation : Reservation)
  | transfer (transfer : Transfer)

def SeenStock.row : SeenStock → StockRow
  | .balance pair _ => .balance pair
  | .reservation r => .reservation r.id
  | .transfer t => .transfer t.id

/-- What a request reads.  `ensure_balance` puts in a balance that is not there. -/
def StockState.read (stock : StockState) : StockRow → Option SeenStock
  | .balance pair => some (.balance pair (((stock.balances.get pair).map Prod.snd).getD .zero))
  | .reservation id => (stock.reservations.get id).map .reservation
  | .transfer id => (stock.transfers.get id).map .transfer

@[simp] theorem InventoryDb.stock_read_balance (db : InventoryDb) (pair : Pair) :
    db.stock.read (.balance pair) = some (.balance pair (db.balance pair)) := rfl

/-- The tables with a row as it was read. -/
def StockState.see (stock : StockState) : SeenStock → StockState
  | .balance pair balance =>
      { stock with
        balances := (stock.balances.replace pair (pair, balance)).getD stock.balances }
  | .reservation r =>
      { stock with
        reservations := (stock.reservations.replace r.id r).getD stock.reservations }
  | .transfer t =>
      { stock with transfers := (stock.transfers.replace t.id t).getD stock.transfers }

def StockState.seeAll (stock : StockState) (seen : List SeenStock) : StockState :=
  seen.foldl see stock

/-- The balances of the lines of products that track stock. -/
def Document.stockRows (document : Document) (db : InventoryDb) : List StockRow :=
  (document.lines.filter fun line => db.tracks line.productId).map fun line =>
    .balance (document.warehouseId, line.productId)

/-- The row that a movement locks, unless its key was posted. -/
def keyedRows (db : InventoryDb) (idempotencyKey : Option String) (pair : Pair) : List StockRow :=
  if db.replays idempotencyKey then [] else [.balance pair]

/-- The rows that a request locks when it begins. -/
def StockRequest.plan (db : InventoryDb) (request : StockRequest) : List StockRow :=
  match request.op with
  | .receipt _ payload key | .issue _ payload key =>
      keyedRows db key (payload.warehouseId, payload.productId)
  | .adjust _ payload _ key => keyedRows db key (payload.warehouseId, payload.productId)
  | .reserve _ payload _ => [.balance (payload.warehouseId, payload.productId)]
  | .release id => [.reservation id]
  | .releaseExpired _ _ => request.expired.map .reservation
  | .createTransfer .. => []
  | .shipTransfer _ id _ | .receiveTransfer _ id _ => [.transfer id]
  | .fulfil document | .issueCreditNote document | .checkout document | .refund document
  | .receiveGoods document => document.stockRows db

/-- The rows that it locks after one that it has read. -/
def StockRequest.more (request : StockRequest) : SeenStock → List StockRow
  | .balance _ _ => []
  | .reservation reservation => [.balance reservation.pair]
  | .transfer transfer =>
      match request.op with
      | .shipTransfer .. => transfer.lines.map fun line =>
          .balance (transfer.warehouseId false, line.productId)
      | .receiveTransfer .. => transfer.lines.map fun line =>
          .balance (transfer.warehouseId true, line.productId)
      | _ => []

/-- `release_expired` works on the reservations that its query has returned. -/
def StockRequest.bodyOp (request : StockRequest) (stock : StockState) : Op :=
  match request.op with
  | .releaseExpired now _ => .releaseExpired now
      ((stock.reservations.rows.map Reservation.id).filter (· ∉ request.expired))
  | op => op

/-- What a request makes of the tables as it has read them. -/
def StockState.write (stock : StockState) (request : StockRequest) (seen : List SeenStock) :
    Option StockState :=
  match (request.bodyOp stock).body ((stock.seeAll seen).db request.setting) with
  | .error _ => none
  | .ok (db, _) => some db.stock

def stockService : LockedReads StockState StockRequest StockRow SeenStock Unit Unit where
  plan stock request := request.plan (stock.db request.setting)
  more := StockRequest.more
  read := StockState.read
  row := SeenStock.row
  view _ _ := ()
  write stock request seen _ _ := stock.write request seen

/-! ## What a request does not touch -/

/-- The other rows are as they were. -/
def Touches (rows : StockRow → Prop) (db db' : InventoryDb) : Prop :=
  ∀ row, ¬rows row → ∀ seen, db.stock.read row = some seen → db'.stock.read row = some seen

namespace Touches

variable {rows rows' : StockRow → Prop} {db db₁ db' : InventoryDb} {context : TenantContext}

theorem refl (rows : StockRow → Prop) (db : InventoryDb) : Touches rows db db :=
  fun _ _ _ hread => hread

theorem trans (h : Touches rows db db₁) (h' : Touches rows db₁ db') : Touches rows db db' :=
  fun row hrow seen hread => h' row hrow seen (h row hrow seen hread)

theorem mono (h : Touches rows db db') (hrows : ∀ row, rows row → rows' row) :
    Touches rows' db db' :=
  fun row hrow => h row fun hmem => hrow (hrows row hmem)

/-- Other tables may change. -/
theorem of_same (hbalance : db'.balance = db.balance)
    (hreservations : db'.reservations = db.reservations)
    (htransfers : db'.transfers = db.transfers) (rows : StockRow → Prop) : Touches rows db db' := by
  intro row _ seen hread
  cases row with
  | balance pair =>
      rw [InventoryDb.stock_read_balance] at hread ⊢
      rw [hbalance]
      exact hread
  | reservation id =>
      show (db'.reservations.get id).map SeenStock.reservation = some seen
      rw [hreservations]
      exact hread
  | transfer id =>
      show (db'.transfers.get id).map SeenStock.transfer = some seen
      rw [htransfers]
      exact hread

theorem setBalance (pair : Pair) (balance : Balance) (hrow : rows (.balance pair)) :
    Touches rows db (db.setBalance pair balance) := by
  intro row hother seen hread
  cases row with
  | balance pair' =>
      have hne : pair' ≠ pair := fun heq => hother (heq ▸ hrow)
      rw [InventoryDb.stock_read_balance] at hread ⊢
      rw [InventoryDb.balance_setBalance, Function.update_of_ne hne]
      exact hread
  | reservation id => exact hread
  | transfer id => exact hread

theorem foldlM {Item : Type} {pass : InventoryDb → Item → Except Err InventoryDb}
    {I : InventoryDb → Prop} {items : List Item}
    (hpass : ∀ item ∈ items, ∀ db₁ db₂, I db₁ → pass db₁ item = .ok db₂ →
      I db₂ ∧ Touches rows db₁ db₂)
    (hdb : I db) (h : items.foldlM pass db = .ok db') : Touches rows db db' :=
  (foldlM_invariant (I := fun db₁ => I db₁ ∧ Touches rows db db₁)
    (fun item hitem db₁ db₂ hinv hok => by
      obtain ⟨hnext, htouches⟩ := hpass item hitem db₁ db₂ hinv.1 hok
      exact ⟨hnext, hinv.2.trans htouches⟩) h ⟨hdb, refl rows db⟩).2

theorem postMovement {request : MovementRequest} {movement : Movement}
    (hrow : db.replays request.idempotencyKey = false → rows (.balance request.pair))
    (h : Inventory.postMovement db request = .ok (db', movement)) : Touches rows db db' := by
  rcases postMovement_tables h with ⟨-, rfl⟩ | ⟨hnew, balance, products, rfl⟩
  · exact refl rows db'
  · have hset : Touches rows db (db.setBalance request.pair balance) := setBalance _ _ (hrow hnew)
    exact hset.trans (of_same rfl rfl rfl rows)

theorem postPayload {payload : MovementCreate} {movementType : MovementType} {quantity : ℚ}
    {unitCost : Option ℚ} {key : Option String} {movement : Movement}
    (hrow : db.replays key = false → rows (.balance (payload.warehouseId, payload.productId)))
    (h : Inventory.postPayload context db payload movementType quantity unitCost key =
      .ok (db', movement)) : Touches rows db db' := by
  obtain ⟨product, hpair, h⟩ := bind_eq_ok.mp (onIntegrityError_eq_ok.mp h)
  refine postMovement (fun hnew => ?_) h
  show rows (.balance (payload.warehouseId, product.id))
  rw [validatePair_id hpair]
  exact hrow hnew

theorem adjust {payload : AdjustmentCreate} {adjustmentId : Uuid} {key : Option String}
    {movement : Movement}
    (hrow : db.replays key = false → rows (.balance (payload.warehouseId, payload.productId)))
    (h : Inventory.adjust context db payload adjustmentId key = .ok (db', movement)) :
    Touches rows db db' := by
  obtain ⟨product, hpair, h⟩ := bind_eq_ok.mp (onIntegrityError_eq_ok.mp h)
  obtain ⟨⟨db₁, movement'⟩, hpost, h⟩ := bind_eq_ok.mp h
  obtain ⟨_, -, h⟩ := bind_eq_ok.mp h
  obtain ⟨_, -, h⟩ := bind_eq_ok.mp h
  cases h
  have hposted : Touches rows db db₁ := by
    refine postMovement (fun hnew => ?_) hpost
    show rows (.balance (payload.warehouseId, product.id))
    rw [validatePair_id hpair]
    exact hrow hnew
  exact hposted.trans (of_same rfl rfl rfl rows)

theorem insertReservation {reservation : Reservation} {reservations : Table Reservation.id}
    (hinsert : db.reservations.insert reservation = some reservations) :
    Touches rows db { db with reservations := reservations } := by
  intro row _ seen hread
  cases row with
  | balance pair => exact hread
  | reservation id =>
      obtain ⟨r, hget, rfl⟩ := Option.map_eq_some_iff.mp hread
      have hsome : (db.reservations.get id).isSome := Option.isSome_iff_exists.mpr ⟨r, hget⟩
      exact Option.map_eq_some_iff.mpr ⟨r, (Table.get_insert_of_some hinsert hsome).trans hget, rfl⟩
  | transfer id => exact hread

theorem reserve {payload : ReservationCreate} {reservationId : Uuid} {reservation : Reservation}
    (hrow : rows (.balance (payload.warehouseId, payload.productId)))
    (h : Inventory.reserve context db payload reservationId = .ok (db', reservation)) :
    Touches rows db db' := by
  obtain ⟨_, -, h⟩ := bind_eq_ok.mp h
  obtain ⟨_, -, h⟩ := bind_eq_ok.mp h
  obtain ⟨balance, -, h⟩ := bind_eq_ok.mp h
  obtain ⟨_, -, h⟩ := bind_eq_ok.mp h
  obtain ⟨_, hinsert, h⟩ := bind_eq_ok.mp h
  cases h
  exact (setBalance _ balance hrow).trans (insertReservation (orRaise_eq_ok.mp hinsert))

theorem releaseReservation {reservation : Reservation} (hrow : rows (.reservation reservation.id))
    (hbalance : rows (.balance reservation.pair))
    (h : Inventory.releaseReservation db reservation = .ok db') : Touches rows db db' := by
  obtain ⟨balance, -, h⟩ := bind_eq_ok.mp h
  obtain ⟨reservations, hreplace, h⟩ := bind_eq_ok.mp h
  cases h
  refine (setBalance _ balance hbalance).trans fun row hother seen hread => ?_
  cases row with
  | balance pair => exact hread
  | reservation id =>
      have hne : id ≠ reservation.id := fun heq => hother (heq ▸ hrow)
      show (reservations.get id).map SeenStock.reservation = some seen
      rw [Table.get_replace_other (orRaise_eq_ok.mp hreplace) rfl hne]
      exact hread
  | transfer id => exact hread

theorem releaseExpired {now : Int} {locked : List Uuid} {n : Nat}
    (hrow : ∀ r ∈ expiredReservations db now locked,
      rows (.reservation r.id) ∧ rows (.balance r.pair))
    (h : Inventory.releaseExpired db now locked = .ok (db', n)) : Touches rows db db' := by
  obtain ⟨db₁, hloop, h⟩ := bind_eq_ok.mp h
  cases h
  refine foldlM (I := fun _ => True) (fun r hr db₁ db₂ _ hpass => ⟨trivial, ?_⟩) trivial hloop
  obtain ⟨_, -, hpass⟩ := bind_eq_ok.mp hpass
  exact releaseReservation (hrow r hr).1 (hrow r hr).2 hpass

theorem createTransfer {payload : TransferCreate} {transferId : Uuid} {transfer : Transfer}
    (h : Inventory.createTransfer context db payload transferId = .ok (db', transfer)) :
    Touches rows db db' := by
  obtain ⟨_, -, h⟩ := bind_eq_ok.mp h
  have h := onIntegrityError_eq_ok.mp h
  obtain ⟨_, -, h⟩ := bind_eq_ok.mp h
  obtain ⟨_, -, h⟩ := bind_eq_ok.mp h
  obtain ⟨_, -, h⟩ := bind_eq_ok.mp h
  obtain ⟨_, -, h⟩ := bind_eq_ok.mp h
  obtain ⟨_, -, h⟩ := bind_eq_ok.mp h
  obtain ⟨_, -, h⟩ := bind_eq_ok.mp h
  obtain ⟨_, -, h⟩ := bind_eq_ok.mp h
  obtain ⟨_, -, h⟩ := bind_eq_ok.mp h
  obtain ⟨transfers, hinsert, h⟩ := bind_eq_ok.mp h
  cases h
  intro row _ seen hread
  cases row with
  | balance pair => exact hread
  | reservation id => exact hread
  | transfer id =>
      obtain ⟨t, hget, rfl⟩ := Option.map_eq_some_iff.mp hread
      have hsome : (db.transfers.get id).isSome := Option.isSome_iff_exists.mpr ⟨t, hget⟩
      have hkept := Table.get_insert_of_some (orRaise_eq_ok.mp hinsert) hsome
      exact Option.map_eq_some_iff.mpr ⟨t, hkept.trans hget, rfl⟩

theorem transitionTransfer {transferId : Uuid} {receive : Bool} {key : Option String}
    {transfer moved : Transfer} (hget : db.transfers.get transferId = some transfer)
    (hrow : rows (.transfer transferId))
    (hlines : ∀ line ∈ transfer.lines,
      rows (.balance (transfer.warehouseId receive, line.productId)))
    (h : Inventory.transitionTransfer context db transferId receive key = .ok (db', moved)) :
    Touches rows db db' := by
  obtain ⟨found, hfound, h⟩ := bind_eq_ok.mp h
  obtain ⟨_, -, h⟩ := bind_eq_ok.mp h
  obtain ⟨db₁, hloop, h⟩ := bind_eq_ok.mp h
  obtain ⟨transfers, hreplace, h⟩ := bind_eq_ok.mp h
  cases h
  cases hget.symm.trans (orRaise_eq_ok.mp hfound)
  replace hreplace := orRaise_eq_ok.mp hreplace
  have hposted : Touches rows db db₁ := by
    refine foldlM (I := fun _ => True) (fun line hline db₂ db₃ _ hpass => ⟨trivial, ?_⟩) trivial
      hloop
    obtain ⟨product, hpair, hpass⟩ := bind_eq_ok.mp hpass
    obtain ⟨⟨db₄, movement⟩, hpost, hpass⟩ := bind_eq_ok.mp hpass
    cases hpass
    refine postMovement (fun _ => ?_) hpost
    show rows (.balance (transfer.warehouseId receive, product.id))
    rw [validatePair_id hpair]
    exact hlines line ((List.perm_insertionSort _ _).mem_iff.mp hline)
  refine hposted.trans fun row hother seen hread => ?_
  cases row with
  | balance pair => exact hread
  | reservation id => exact hread
  | transfer id =>
      have hne : id ≠ transferId := fun heq => hother (heq ▸ hrow)
      show (transfers.get id).map SeenStock.transfer = some seen
      rw [Table.get_replace_other hreplace (Table.get_mem hget).2 hne]
      exact hread

theorem document {document : Document} {kind : DocumentKind} {u : Unit}
    (hrow : ∀ row ∈ document.stockRows db, rows row)
    (h : document.post kind db = .ok (db', u)) : Touches rows db db' := by
  obtain ⟨_, -, h⟩ := bind_eq_ok.mp h
  obtain ⟨db₁, hloop, h⟩ := bind_eq_ok.mp h
  obtain ⟨_, -, h⟩ := bind_eq_ok.mp h
  cases h
  refine foldlM (I := fun db₁ => db₁.tracks = db.tracks)
    (fun line hline db₁ db₂ htracks hpass => ?_) rfl hloop
  obtain ⟨_, -, hpass⟩ := bind_eq_ok.mp hpass
  obtain ⟨product, hproduct, hpass⟩ := bind_eq_ok.mp hpass
  obtain ⟨_, -, hpass⟩ := bind_eq_ok.mp hpass
  replace hproduct := orRaise_eq_ok.mp hproduct
  unfold postMovementForDocument at hpass
  split at hpass
  next hstock =>
    obtain ⟨⟨db₃, movement⟩, hpost, hpass⟩ := bind_eq_ok.mp hpass
    cases hpass
    refine ⟨(postMovement_within hpost).2.tracks.trans htracks, postMovement (fun _ => ?_) hpost⟩
    show rows (.balance (document.warehouseId, product.id))
    rw [InventoryDb.anyProduct_id (DocumentKind.anyProduct_eq hproduct)]
    refine hrow _ (List.mem_map_of_mem (List.mem_filter.mpr ⟨hline, ?_⟩))
    rw [← htracks, DocumentKind.tracks_eq hproduct]
    exact hstock
  next =>
    cases hpass
    exact ⟨htracks, refl _ _⟩

end Touches

/-! ## Requests and their rows -/

section Rules

variable {stock stock' : StockState} {request : StockRequest} {db' : InventoryDb} {u : Unit}

/-- What a request writes, when the rows are as it read them. -/
def StockRequest.Writes (stock : StockState) (request : StockRequest) (stock' : StockState) : Prop :=
  ∃ db' u, (request.bodyOp stock).body (stock.db request.setting) = .ok (db', u) ∧
    stock' = db'.stock

theorem StockRequest.locks_plan {row : StockRow}
    (hrow : row ∈ request.plan (stock.db request.setting)) :
    stockService.Locks stock request row := .plan hrow

theorem StockRequest.locks_more {r : SeenStock} {row : StockRow}
    (hlocks : stockService.Locks stock request r.row) (hread : stock.read r.row = some r)
    (hrow : row ∈ request.more r) : stockService.Locks stock request row :=
  .more (r := r) hlocks hread hrow

theorem keyedRows_locks {key : Option String} {pair : Pair}
    (hplan : request.plan (stock.db request.setting) = keyedRows (stock.db request.setting) key pair)
    (hnew : (stock.db request.setting).replays key = false) :
    stockService.Locks stock request (.balance pair) := by
  refine StockRequest.locks_plan ?_
  rw [hplan, keyedRows, hnew]
  exact List.mem_singleton_self _

/-- The reservations that are released are among those that the query has returned. -/
theorem mem_expired {now : Int} {expired : List Uuid} {setting : Setting} {r : Reservation}
    (hr : r ∈ expiredReservations (stock.db setting) now
      ((stock.reservations.rows.map Reservation.id).filter (· ∉ expired))) :
    r.id ∈ expired ∧ stock.reservations.get r.id = some r := by
  have hr := (List.perm_insertionSort _ _).mem_iff.mp (List.mem_of_mem_take hr)
  obtain ⟨hmem, hfound⟩ := List.mem_filter.mp hr
  have hfree := (of_decide_eq_true hfound).2
  refine ⟨by_contra fun hnot => hfree ?_, Table.get_eq_some.mpr ⟨hmem, rfl⟩⟩
  exact List.mem_filter.mpr ⟨List.mem_map_of_mem hmem, decide_eq_true hnot⟩

theorem StockRequest.transition_touches {context : TenantContext} {transferId : Uuid}
    {receive : Bool} {key : Option String} {moved : Transfer}
    (hplan : request.plan (stock.db request.setting) = [.transfer transferId])
    (hmore : ∀ transfer, request.more (.transfer transfer) = transfer.lines.map fun line =>
      .balance (transfer.warehouseId receive, line.productId))
    (h : transitionTransfer context (stock.db request.setting) transferId receive key =
      .ok (db', moved)) :
    Touches (stockService.Locks stock request) (stock.db request.setting) db' := by
  obtain ⟨transfer, hget, -⟩ := bind_eq_ok.mp h
  replace hget := orRaise_eq_ok.mp hget
  obtain rfl := (Table.get_mem hget).2
  have hrow : stockService.Locks stock request (.transfer transfer.id) :=
    locks_plan (by rw [hplan]; exact List.mem_singleton_self _)
  have hread : stock.read (.transfer transfer.id) = some (.transfer transfer) :=
    Option.map_eq_some_iff.mpr ⟨transfer, hget, rfl⟩
  refine .transitionTransfer hget hrow (fun line hline => ?_) h
  refine locks_more (r := .transfer transfer) hrow hread ?_
  rw [hmore]
  exact List.mem_map_of_mem hline

/-- A reservation that is locked leads to its balance. -/
theorem StockRequest.locks_reservation {r : Reservation}
    (hget : stock.reservations.get r.id = some r)
    (hrow : stockService.Locks stock request (.reservation r.id)) :
    stockService.Locks stock request (.balance r.pair) :=
  locks_more (r := .reservation r) hrow (Option.map_eq_some_iff.mpr ⟨r, hget, rfl⟩)
    (List.mem_singleton_self _)

/-- A request writes no row that it does not lock. -/
theorem StockRequest.body_touches
    (h : (request.bodyOp stock).body (stock.db request.setting) = .ok (db', u)) :
    Touches (stockService.Locks stock request) (stock.db request.setting) db' := by
  obtain ⟨op, setting, expired⟩ := request
  cases op with
  | receipt context payload key =>
      obtain ⟨movement, h⟩ := tables_eq_ok h
      obtain ⟨_, -, h⟩ := bind_eq_ok.mp h
      exact .postPayload (keyedRows_locks rfl) h
  | issue context payload key =>
      exact .postPayload (keyedRows_locks rfl) (tables_eq_ok h).choose_spec
  | adjust context payload id key =>
      exact .adjust (keyedRows_locks rfl) (tables_eq_ok h).choose_spec
  | reserve context payload id =>
      exact .reserve (locks_plan (List.mem_singleton_self _)) (tables_eq_ok h).choose_spec
  | release id =>
      obtain ⟨reservation, hget, h⟩ := bind_eq_ok.mp h
      obtain ⟨_, -, h⟩ := bind_eq_ok.mp h
      obtain ⟨db₁, hrelease, h⟩ := bind_eq_ok.mp h
      cases h
      replace hget := orRaise_eq_ok.mp hget
      obtain rfl := (Table.get_mem hget).2
      have hrow : stockService.Locks stock ⟨.release reservation.id, setting, expired⟩
          (.reservation reservation.id) := locks_plan (List.mem_singleton_self _)
      exact .releaseReservation hrow (locks_reservation hget hrow) hrelease
  | releaseExpired now locked =>
      obtain ⟨n, h⟩ := tables_eq_ok h
      refine .releaseExpired (fun r hr => ?_) h
      obtain ⟨hexpired, hget⟩ := mem_expired hr
      have hrow : stockService.Locks stock ⟨.releaseExpired now locked, setting, expired⟩
          (.reservation r.id) := locks_plan (List.mem_map_of_mem hexpired)
      exact ⟨hrow, locks_reservation hget hrow⟩
  | createTransfer context payload id => exact .createTransfer (tables_eq_ok h).choose_spec
  | shipTransfer context id key =>
      exact transition_touches rfl (fun _ => rfl) (tables_eq_ok h).choose_spec
  | receiveTransfer context id key =>
      exact transition_touches rfl (fun _ => rfl) (tables_eq_ok h).choose_spec
  | fulfil document => exact .document (fun _ hrow => .plan hrow) h
  | issueCreditNote document => exact .document (fun _ hrow => .plan hrow) h
  | checkout document => exact .document (fun _ hrow => .plan hrow) h
  | refund document => exact .document (fun _ hrow => .plan hrow) h
  | receiveGoods document => exact .document (fun _ hrow => .plan hrow) h

theorem StockState.row_of_read {row : StockRow} {r : SeenStock} (h : stock.read row = some r) :
    r.row = row := by
  cases row with
  | balance pair =>
      cases h
      rfl
  | reservation id =>
      obtain ⟨reservation, hget, rfl⟩ := Option.map_eq_some_iff.mp h
      exact congrArg StockRow.reservation (Table.get_mem hget).2
  | transfer id =>
      obtain ⟨transfer, hget, rfl⟩ := Option.map_eq_some_iff.mp h
      exact congrArg StockRow.transfer (Table.get_mem hget).2

theorem StockState.see_eq {r : SeenStock} (h : stock.read r.row = some r) : stock.see r = stock := by
  cases r with
  | balance pair balance =>
      obtain ⟨-, heq⟩ := (SeenStock.balance.injEq ..).mp (Option.some.inj h)
      cases hget : stock.balances.get pair with
      | none =>
          simp only [see, Table.replace_of_none hget]
          rfl
      | some row =>
          obtain rfl := (Table.get_mem hget).2
          rw [hget] at heq
          obtain rfl : row.2 = balance := heq
          simp only [see, Table.replace_self hget]
          rfl
  | reservation r =>
      obtain ⟨_, hget, heq⟩ := Option.map_eq_some_iff.mp h
      cases heq
      simp only [see, Table.replace_self hget]
      rfl
  | transfer t =>
      obtain ⟨_, hget, heq⟩ := Option.map_eq_some_iff.mp h
      cases heq
      simp only [see, Table.replace_self hget]
      rfl

theorem StockState.seeAll_eq {seen : List SeenStock} (h : ∀ r ∈ seen, stock.read r.row = some r) :
    stock.seeAll seen = stock := by
  induction seen with
  | nil => rfl
  | cons r seen ih =>
      rw [seeAll, List.foldl_cons, see_eq (h r List.mem_cons_self)]
      exact ih fun r' hr' => h r' (List.mem_cons_of_mem _ hr')

/-- A key that was posted stays so. -/
theorem replays_of_grows {db db' : InventoryDb} (h : db.movements <+: db'.movements)
    {key : Option String} (hreplays : db.replays key = true) : db'.replays key = true := by
  obtain ⟨movement, hfound⟩ := Option.isSome_iff_exists.mp hreplays
  obtain ⟨key', hkey, hfind⟩ := Option.bind_eq_some_iff.mp hfound
  have hfind' := h.find?_eq_some hfind
  exact Option.isSome_iff_exists.mpr ⟨movement, Option.bind_eq_some_iff.mpr ⟨key', hkey, hfind'⟩⟩

theorem keyedRows_of_grows {db db' : InventoryDb} (h : db.movements <+: db'.movements)
    {key : Option String} {pair : Pair} {row : StockRow} (hrow : row ∈ keyedRows db' key pair) :
    row ∈ keyedRows db key pair := by
  unfold keyedRows at hrow ⊢
  cases hreplays : db.replays key with
  | true =>
      rw [replays_of_grows h hreplays] at hrow
      cases hrow
  | false =>
      split at hrow
      · cases hrow
      · exact hrow

theorem stockService_rules : stockService.Rules StockRequest.Writes where
  row_of_read := StockState.row_of_read
  write {stock request seen choice stock'} hseen _ hwrite := by
    refine .inr ?_
    have hall : stock.seeAll seen = stock := StockState.seeAll_eq hseen
    simp only [stockService, StockState.write, hall] at hwrite
    split at hwrite
    next => cases hwrite
    next db' u hbody =>
      cases hwrite
      exact ⟨db', u, hbody, rfl⟩
  frame h hrow hread := by
    obtain ⟨db', u, hbody, rfl⟩ := h
    exact StockRequest.body_touches hbody _ hrow _ hread
  plan {stock request stock' other row} h hrow := by
    obtain ⟨db', u, hbody, rfl⟩ := h
    have hprefix : stock.movements <+: db'.movements := (Keeps.body hbody).movements
    obtain ⟨op, setting, expired⟩ := other
    cases op with
    | receipt | issue | adjust => exact @keyedRows_of_grows (stock.db setting) _ hprefix _ _ _ hrow
    | _ => exact hrow
  view _ _ := rfl

end Rules

/-! ## Every interleaving -/

/-- What holds between the requests of the stock. -/
structure StockSound (db : InventoryDb) : Prop where
  ledger : LedgerSound db
  transferred : Transferred db

theorem StockState.empty_sound (setting : Setting) : StockSound (StockState.empty.db setting) where
  ledger := InventoryDb.Empty.ledgerSound ⟨rfl, rfl, rfl⟩
  transferred := .of_none rfl rfl

theorem StockRequest.Writes.sound {stock stock' : StockState} {request : StockRequest}
    (h : request.Writes stock stock') (hstock : ∀ setting, StockSound (stock.db setting))
    (setting : Setting) : StockSound (stock'.db setting) := by
  obtain ⟨db', u, hbody, rfl⟩ := h
  have hledger := Op.body_ledgerSound (hstock request.setting).ledger hbody
  have htransferred := (hstock request.setting).transferred.step (Op.body_transferStep hbody)
  exact ⟨hledger.of_sameStock rfl rfl rfl,
    ⟨htransferred.posted, htransferred.transfers, htransferred.balance⟩⟩

abbrev StockRun : Type :=
  Interleaved StockState (LockedPhase StockRequest StockRow SeenStock Unit Unit)

theorem StockRun.sound {s : StockRun} (h : stockService.protocol.Reaches (Protocol.init .empty) s)
    (setting : Setting) : StockSound (s.committed.db setting) :=
  ((stockService_rules.sound fun _ _ _ hstock hwrites =>
    StockRequest.Writes.sound hwrites hstock).runs h (.init StockState.empty_sound)).committed
    setting

/-- A request that runs by itself. -/
def StockState.alone (stock : StockState) (request : StockRequest) : Option StockState :=
  stock.write request []

theorem StockRequest.Writes.alone {stock stock' : StockState} {request : StockRequest}
    (h : request.Writes stock stock') : stock.alone request = some stock' := by
  obtain ⟨db', u, hbody, rfl⟩ := h
  simp only [StockState.alone, StockState.write, StockState.seeAll, List.foldl_nil, hbody]

/-- Requests lead to the stock, one after another. -/
def StockState.Serial (stock : StockState) : Prop :=
  ∃ requests : List StockRequest, requests.foldlM StockState.alone .empty = some stock

theorem StockState.Serial.writes {stock stock' : StockState} {request : StockRequest}
    (h : stock.Serial) (hwrites : request.Writes stock stock') : stock'.Serial := by
  obtain ⟨requests, hrequests⟩ := h
  refine ⟨requests ++ [request], ?_⟩
  rw [List.foldlM_append, hrequests]
  show (stock.alone request).bind (fun stock' => [].foldlM StockState.alone stock') = some stock'
  rw [hwrites.alone]
  rfl

/-- Transfers conserve stock.  In every interleaving of requests, with any keys and repetitions,
what the warehouses hold of a product and what is on its way is what the other movements have
moved.  A line has posted one movement out of the source once its transfer was shipped, and one
of the same size into the destination once it was received. -/
theorem transfers_conserve {s : StockRun}
    (h : stockService.protocol.Reaches (Protocol.init .empty) s) (setting : Setting) :
    (∀ productId, (s.committed.db setting).totalOnHand productId +
      (s.committed.db setting).inTransit productId = (s.committed.db setting).moved productId) ∧
    ∀ transfer ∈ s.committed.transfers.rows, transfer.PostedOnce (s.committed.db setting) := by
  have hsound := StockRun.sound h setting
  exact ⟨hsound.transferred.totalOnHand hsound.ledger, hsound.transferred.posted⟩

/-! ## Two clerks at the destination -/

/-- The product of `shop` in two warehouses. -/
def twoWarehouses : Setting :=
  { products := (Table.empty _).put ⟨shopProduct, true⟩
    warehouses := fun id => if id = 1 ∨ id = 2 then some ⟨some 4, true⟩ else none
    allowNegativeInventory := false }

/-- A request of the shop, which finds it as it is. -/
def Op.inShop (op : Op) : StockRequest := ⟨op, twoWarehouses, []⟩

def receiveFour : StockRequest := (Op.receiveTransfer shopContext 30 (some "r")).inShop

/-- Four of ten pieces are sent, and two clerks receive them with one key.  The second has to wait
for the row of the transfer. -/
def receivedTwice : List (TxAction StockRequest Unit) :=
  [.begin 1 (Op.receipt shopContext ⟨1, 7, 10, some 3, none, none, none, Sample.ten_pos⟩ none).inShop,
   .run 1 (), .run 1 (), .finish 1,
   .begin 2 (Op.createTransfer shopContext
     ⟨"T-1", 1, 2, none, [⟨7, 4, Sample.four_pos⟩]⟩ 30).inShop,
   .run 2 (), .finish 2,
   .begin 3 (Op.shipTransfer shopContext 30 none).inShop,
   .run 3 (), .run 3 (), .run 3 (), .finish 3,
   .begin 4 receiveFour, .begin 5 receiveFour,
   .run 4 (), .run 4 (), .run 4 (), .finish 4,
   .run 5 (), .run 5 (), .run 5 (), .finish 5]

theorem receivedTwice_reaches : ∃ s : StockRun,
    stockService.protocol.Reaches (Protocol.init .empty) s ∧
      (s.committed.movements.map fun m => (m.warehouseId, m.quantity)) =
        [(1, 10000000), (1, -4000000), (2, 4000000)] ∧
      s.committed.transfers.rows.map (·.status) = [.completed] :=
  Protocol.Reaches.exists_of_any receivedTwice (by decide +kernel)

theorem transfers_conserve_receivedTwice : ∃ s : StockRun,
    (s.committed.movements.map fun m => (m.warehouseId, m.quantity)) =
        [(1, 10000000), (1, -4000000), (2, 4000000)] ∧
      (s.committed.db twoWarehouses).totalOnHand 7 + (s.committed.db twoWarehouses).inTransit 7 =
        (s.committed.db twoWarehouses).moved 7 := by
  obtain ⟨s, hreaches, hmovements, -⟩ := receivedTwice_reaches
  exact ⟨s, hmovements, (transfers_conserve hreaches twoWarehouses).1 7⟩

end Nexora.Inventory
