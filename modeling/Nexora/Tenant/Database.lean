import Nexora.Inventory.Ledger
import Nexora.Numbering.Allocator
import Nexora.Pos.Tables
import Nexora.Purchasing.Tables
import Nexora.Vat.Register

/-!
# The database of a tenant

All tables that a document reaches: its own, the stock, the ledger and the VAT register.  A
service writes its document and moves stock first, and then books the document, which posts
its entries and appends its register rows (`TenantDb.book`).

`Books` is what the other modules see of a request: the entries it posted, and the rows it
registered.
-/

namespace Nexora.Tenant

open Nexora Nexora.Catalog Foundations
open Nexora.Accounting
open Nexora.Inventory (InventoryDb Warehouse)
open Nexora.Vat (VatTransaction TaxableEvent RateTotal insertRows)

/-! ## State -/

/-- The customers and suppliers a document may name. -/
structure Parties where
  customer : Uuid → Bool
  supplier : Uuid → Bool

/-- The tables of a tenant. -/
structure TenantDb where
  inventory : InventoryDb
  ledger : LedgerDb
  register : Table VatTransaction.id
  sales : Sales.SalesDb
  purchasing : Purchasing.PurchasingDb
  pos : Pos.PosDb
  parties : Parties

/-- What a request carries besides its payload: the caller and the clock, and the
identifiers it draws. -/
structure Request where
  env : Env
  documentId : Uuid
  lineId : Nat → Uuid
  entryId : Nat → Uuid
  placeholder : Nat → Uuid
  entryLineId : Nat → Nat → Uuid
  vatId : Nat → Uuid

/-! ## Booking -/

/-- A call of `AccountingService.post`, the `index`-th of its request. -/
structure Entry where
  entryDate : Date
  description : String
  sourceType : String
  sourceId : Uuid
  eventType : String
  lines : List PostingLine

def Entry.toPost (entry : Entry) (request : Request) (index : Nat) : PostRequest where
  entryDate := entry.entryDate
  description := entry.description
  sourceType := entry.sourceType
  sourceId := entry.sourceId
  eventType := entry.eventType
  lines := entry.lines
  allowClosed := false
  metadata := "\x7b\x7d"
  accountMap := []
  entryId := request.entryId index
  placeholder := request.placeholder index
  lineId := request.entryLineId index

/-- The calls of `post` of a request. -/
def Request.posts (request : Request) (entries : List Entry) : List PostRequest :=
  entries.zipIdx.map fun row => row.1.toPost request row.2

/-- The entries and the register rows of a document. -/
def TenantDb.book (db : TenantDb) (request : Request) (entries : List Entry)
    (rows : List VatTransaction) : Except Err TenantDb := do
  let ledger ← db.ledger.request (.operational request.env (request.posts entries) (.ok ()))
  let register ← insertRows db.register rows
  .ok { db with ledger := ledger, register := register }

/-- The number of a document. -/
def TenantDb.allocate (db : TenantDb) (request : Request) (series : Numbering.Series) :
    String × TenantDb :=
  let (number, ledger) := Numbering.allocate db.ledger series request.env
  (number, { db with ledger := ledger })

/-! ## Checks of the services -/

/-- `_require_status`. -/
def requireStatus {Status : Type} [DecidableEq Status] (value : Status → String)
    (actual : Status) (allowed : List Status) (what : String) : Except Err Unit :=
  if actual ∈ allowed then .ok ()
  else .error (.conflict "DOCUMENT_STATE_INVALID"
    s!"{what} cannot be performed while the document is {value actual}.")

theorem requireStatus_eq_ok {Status : Type} [DecidableEq Status] {value : Status → String}
    {actual : Status} {allowed : List Status} {what : String} {u : Unit}
    (h : requireStatus value actual allowed what = .ok u) : actual ∈ allowed := by
  unfold requireStatus at h
  split at h
  next hmem => exact hmem
  next => cases h

/-- The branch of a warehouse, in `_require_warehouse`. -/
def requireWarehouseBranch (warehouse : Warehouse) (branchId : Uuid) : Except Err Unit :=
  if warehouse.branchId = some branchId then .ok ()
  else .error (.domainValidation "WAREHOUSE_BRANCH_MISMATCH"
    "Warehouse does not belong to the document branch.")

/-- `_require_warehouse`. -/
def requireWarehouse (context : TenantContext) (db : TenantDb) (branchId warehouseId : Uuid) :
    Except Err Unit := do
  context.requireBranch branchId
  let warehouse ← orRaise .notFound (db.inventory.warehouses warehouseId)
  requireWarehouseBranch warehouse branchId

/-- A foreign key. -/
def requireRow (constraint : String) (present : Bool) : Except Err Unit :=
  if present then .ok () else .error (.integrity constraint)

/-- The idempotency service knows the request, and its document is there. -/
def replayed {Row : Type} (claim : Except Err (Option Uuid)) (find : Uuid → Option Row) : Bool :=
  match claim with
  | .ok stored => (stored.bind find).isSome
  | .error _ => false

/-- A line of a payload that names a line of a document: `FulfillmentLineInput`,
`CreditNoteLineInput` and the like. -/
structure RequestedLine where
  lineId : Uuid
  quantity : Quantity
  quantity_pos : 0 < quantity
  quantity_lt : quantity < 10 ^ 20

theorem RequestedLine.abs_quantity_lt (item : RequestedLine) : |item.quantity| < 10 ^ 20 := by
  rw [abs_of_pos item.quantity_pos]
  exact item.quantity_lt

/-- `post_movement_for_document`, for products that track stock. -/
def postStock (kind : Inventory.DocumentKind) (warehouseId documentId : Uuid)
    (inventory : InventoryDb) (product : Product) (item : RequestedLine)
    (unitCost : Option UnitCost) : Except Err InventoryDb :=
  Inventory.postMovementForDocument kind warehouseId documentId inventory product
    { productId := product.id
      quantity := item.quantity
      unitCost := unitCost
      before := .ok ()
      after := .ok ()
      quantity_pos := item.quantity_pos
      quantity_lt := item.abs_quantity_lt }

/-- `cost += quantity * unit_cost`. -/
def addCost (cost : ℚ) (quantity : Quantity) (unitCost : UnitCost) : ℚ :=
  toContext (cost + toContext (quantity / 10 ^ 6 * (unitCost / 10 ^ 6)))

/-! ## What a request books -/

/-- The amounts that entries post on the account with a code. -/
def entryPostings (p : String → Uuid → Bool) (code : String) (entries : List Entry) :
    List Money :=
  entries.flatMap fun e =>
    if p e.sourceType e.sourceId then
      (e.lines.filter (·.systemCode = code)).map (·.amount)
    else []

/-- The ledger and the register after a request that posted the entries and registered the
rows. -/
structure Books (db : TenantDb) (entries : List Entry) (rows : List VatTransaction)
    (db' : TenantDb) : Prop where
  linked : db'.ledger.Linked
  postings : ∀ p code,
    db'.ledger.postings p code = db.ledger.postings p code ++ entryPostings p code entries
  fits : ∀ e ∈ entries, ∀ line ∈ e.lines, line.Fits
  register : db'.register.rows = db.register.rows ++ rows

theorem postingsOf_posts (request : Request) (entries : List Entry) (p : String → Uuid → Bool)
    (code : String) :
    postingsOf p code (request.posts entries) = entryPostings p code entries := by
  simp only [postingsOf, Request.posts, entryPostings, List.flatMap_map]
  conv_rhs => rw [← List.zipIdx_map_fst 0 entries, List.flatMap_map]
  rfl

/-- A request that books nothing. -/
theorem Books.of_sameCodes {db db' : TenantDb} (hdb : db.ledger.Linked)
    (hledger : db.ledger.SameCodes db'.ledger) (hregister : db'.register = db.register) :
    Books db [] [] db' where
  linked := hledger.linked hdb
  postings p code := by simp [hledger.postings hdb, entryPostings]
  fits := nofun
  register := by simp [hregister]

theorem Books.refl {db : TenantDb} (hdb : db.ledger.Linked) : Books db [] [] db :=
  .of_sameCodes hdb (.refl _) rfl

/-- `book` writes the ledger and the register only. -/
theorem TenantDb.book_frame {db db' : TenantDb} {request : Request} {entries : List Entry}
    {rows : List VatTransaction} (h : db.book request entries rows = .ok db') :
    ∃ ledger register, db' = { db with ledger := ledger, register := register } := by
  obtain ⟨ledger, -, h⟩ := bind_eq_ok.mp h
  obtain ⟨register, -, h⟩ := bind_eq_ok.mp h
  cases h
  exact ⟨ledger, register, rfl⟩

/-- What `book` books, after a request that so far has only taken a number. -/
theorem TenantDb.book_eq_ok {db db₁ db' : TenantDb} {request : Request} {entries : List Entry}
    {rows : List VatTransaction} (hdb : db.ledger.Linked)
    (h : db₁.book request entries rows = .ok db')
    (hledger : db.ledger.SameCodes db₁.ledger) (hregister : db₁.register = db.register) :
    Books db entries rows db' ∧
      db' = { db₁ with ledger := db'.ledger, register := db'.register } := by
  obtain ⟨ledger, hrequest, h⟩ := bind_eq_ok.mp h
  obtain ⟨register, hrows, h⟩ := bind_eq_ok.mp h
  cases h
  have hmap : ∀ r ∈ request.posts entries, r.accountMap = [] := by
    simp only [Request.posts, List.mem_map]
    rintro _ ⟨row, -, rfl⟩
    rfl
  have hbooked := LedgerDb.request_operational (hledger.linked hdb) hmap hrequest
  refine ⟨⟨hbooked.linked, fun p code => ?_, ?_, ?_⟩, rfl⟩
  · rw [hbooked.postings, hledger.postings hdb, postingsOf_posts]
  · intro e he line hline
    obtain ⟨row, hrow, rfl⟩ := List.mem_map.mp ((List.zipIdx_map_fst 0 entries).symm ▸ he)
    exact hbooked.fits _ (List.mem_map_of_mem hrow) line hline
  · rw [Vat.insertRows_eq_ok hrows, hregister]

end Nexora.Tenant
