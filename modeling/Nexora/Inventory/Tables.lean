import Nexora.Inventory.Balance
import Nexora.Foundations.KeyedTable
import Mathlib.Data.List.Sort
import Mathlib.Data.Prod.Lex

/-!
# The tables of the inventory

`app/modules/inventory/models.py`, for one tenant.  The movements are kept in the
order in which they were applied.  Checks and column bounds are fields of the rows, so
a row the database would refuse cannot be written down.

Of the catalogue and the branches the inventory reads products with their units, and
warehouses.  Identifiers of movements and adjustments, times of creation and the members
who acted are left out: no service reads them back.
-/

namespace Nexora.Inventory

open Nexora Nexora.Catalog Foundations

/-! ## Rows -/

inductive MovementType where
  | receipt
  | issue
  | adjustment
  | transferIn
  | transferOut
  | sale
  | saleReturn
  | purchaseReturn
deriving DecidableEq, Repr

/-- The value of a `MovementType`. -/
def MovementType.value : MovementType → String
  | .receipt => "RECEIPT"
  | .issue => "ISSUE"
  | .adjustment => "ADJUSTMENT"
  | .transferIn => "TRANSFER_IN"
  | .transferOut => "TRANSFER_OUT"
  | .sale => "SALE"
  | .saleReturn => "SALE_RETURN"
  | .purchaseReturn => "PURCHASE_RETURN"

/-- `InventoryMovement`. -/
structure Movement where
  warehouseId : Uuid
  productId : Uuid
  movementType : MovementType
  quantity : Quantity
  unitCost : Option UnitCost
  balanceAfter : Quantity
  referenceType : Option String
  referenceId : Option Uuid
  notes : Option String
  idempotencyKey : Option String
  quantity_nonzero : quantity ≠ 0
deriving DecidableEq

def Movement.pair (movement : Movement) : Pair := (movement.warehouseId, movement.productId)

inductive ReservationStatus where
  | active
  | released
  | consumed
deriving DecidableEq, Repr

/-- `StockReservation`. -/
structure Reservation where
  id : Uuid
  warehouseId : Uuid
  productId : Uuid
  quantity : Quantity
  referenceType : String
  referenceId : Uuid
  status : ReservationStatus
  expiresAt : Option Int
  quantity_positive : 0 < quantity
  quantity_lt : |quantity| < 10 ^ 20

def Reservation.pair (reservation : Reservation) : Pair :=
  (reservation.warehouseId, reservation.productId)

inductive TransferStatus where
  | draft
  | inTransit
  | completed
  | cancelled
deriving DecidableEq, Repr

/-- `StockTransferLine`. -/
structure TransferLine where
  productId : Uuid
  quantity : Quantity
  quantity_positive : 0 < quantity
  quantity_lt : |quantity| < 10 ^ 20

theorem TransferLine.columns_injective :
    Function.Injective fun line : TransferLine => (line.productId, line.quantity) := by
  rintro ⟨⟩ ⟨⟩ h
  cases h
  rfl

instance : DecidableEq TransferLine := TransferLine.columns_injective.decidableEq

/-- `StockTransfer` with its lines. -/
structure Transfer where
  id : Uuid
  transferNumber : String
  sourceWarehouseId : Uuid
  destinationWarehouseId : Uuid
  status : TransferStatus
  notes : Option String
  lines : List TransferLine
  distinct_warehouses : sourceWarehouseId ≠ destinationWarehouseId
  unique_products : (lines.map TransferLine.productId).Nodup
deriving DecidableEq

/-- `StockAdjustment`. -/
structure Adjustment where
  adjustmentNumber : String
  warehouseId : Uuid
  productId : Uuid
  quantity : Quantity
  reason : String
  notes : Option String
  quantity_nonzero : quantity ≠ 0
deriving DecidableEq

/-- `Product`, with its flag. -/
structure ProductRow where
  product : Product
  isActive : Bool

def ProductRow.id (row : ProductRow) : Uuid := row.product.id

/-- `Warehouse`. -/
structure Warehouse where
  branchId : Option Uuid
  isActive : Bool

/-! ## The database -/

/-- The tables a tenant's inventory reads and writes, and the tenant's
`allow_negative_inventory`. -/
structure InventoryDb where
  balances : Table (Prod.fst : Pair × Balance → Pair)
  movements : List Movement
  reservations : Table Reservation.id
  transfers : Table Transfer.id
  adjustments : Table Adjustment.adjustmentNumber
  products : Table ProductRow.id
  warehouses : Uuid → Option Warehouse
  allowNegativeInventory : Bool

namespace InventoryDb

/-- `_balance_for_update`: `ensure_balance` inserts an empty row where there is none,
and `lock_balance` reads the row. -/
def balance (db : InventoryDb) (pair : Pair) : Balance :=
  ((db.balances.get pair).map Prod.snd).getD .zero

/-- The write to a balance row. -/
def setBalance (db : InventoryDb) (pair : Pair) (balance : Balance) : InventoryDb :=
  { db with balances := db.balances.put (pair, balance) }

/-- `repository.warehouse`. -/
def warehouse (db : InventoryDb) (warehouseId : Uuid) : Option Warehouse :=
  (db.warehouses warehouseId).filter (·.isActive)

/-- `repository.product`. -/
def product (db : InventoryDb) (productId : Uuid) : Option Product :=
  ((db.products.get productId).filter (·.isActive)).map ProductRow.product

/-- `session.get(Product, product_id)`, which finds inactive products too. -/
def anyProduct (db : InventoryDb) (productId : Uuid) : Option Product :=
  (db.products.get productId).map ProductRow.product

/-- `product.cost_price = cost`. -/
def setCostPrice (db : InventoryDb) (productId : Uuid) (cost : UnitCost) : InventoryDb :=
  match db.products.get productId with
  | none => db
  | some row =>
      { db with
        products := db.products.put { row with product := { row.product with costPrice := cost } } }

@[simp] theorem balance_setBalance (db : InventoryDb) (pair : Pair) (balance : Balance) :
    (db.setBalance pair balance).balance = Function.update db.balance pair balance := by
  funext pair'
  show (((db.balances.put (pair, balance)).get pair').map Prod.snd).getD .zero = _
  rw [Table.get_put, Function.update_apply]
  split_ifs
  · rfl
  · rfl

/-- The rows of the ledger for a pair. -/
def ledger (db : InventoryDb) (pair : Pair) : List Movement :=
  db.movements.filter (·.pair = pair)

/-- The active reservations of a pair. -/
def activeReservations (db : InventoryDb) (pair : Pair) : List Reservation :=
  db.reservations.rows.filter fun r => r.status = .active ∧ r.pair = pair

/-! ## Reconciliation -/

/-- `ReconciliationDrift`. -/
structure Drift where
  warehouseId : Uuid
  productId : Uuid
  ledgerQuantity : Quantity
  cachedQuantity : Quantity
  difference : Quantity

/-- `repository.reconciliation`: the balance rows in order, each joined with the sum
of its movements. -/
def reconciliation (db : InventoryDb) : List (Pair × Quantity × Quantity) :=
  (db.balances.rows.insertionSort fun a b => toLex a.1 ≤ toLex b.1).map fun row =>
    (row.1, ((db.ledger row.1).map Movement.quantity).sum, row.2.quantityOnHand)

/-- `InventoryService.reconcile`: the rows whose sum differs from the balance. -/
def reconcile (db : InventoryDb) : List Drift :=
  (db.reconciliation.filter fun row => row.2.1 ≠ row.2.2).map fun row =>
    { warehouseId := row.1.1
      productId := row.1.2
      ledgerQuantity := row.2.1
      cachedQuantity := row.2.2
      difference := row.2.1 - row.2.2 }

end InventoryDb

end Nexora.Inventory
