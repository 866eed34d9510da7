import Nexora.Inventory.Scopes

/-!
# Replays

A receipt, an issue or an adjustment may carry an `Idempotency-Key`.  `_post_movement` looks the
key up among the movements, and where it finds one it compares seven columns of it with the
request (`RequestFace`).  If they agree it returns the movement that is there.

The columns hold what was stored, the request what was asked for, and the two may differ: a
cost is rounded to six decimals when it is stored, and an adjustment refers to itself by an
identifier that is drawn anew.  Such a request does not recognise its own movement
(`StockPayload.Exact`).  In the other direction, notes and digits that are not stored are not
compared, so a request that differs in these alone is taken for the first one.

No request of the inventory changes or removes a movement, a flag of a product or a warehouse
(`Keeps`), so what lies between the two requests does not matter.
-/

namespace Nexora.Inventory

open Nexora Nexora.Catalog Foundations

/-! ## What no request of the inventory changes -/

/-- The row of a product without its cost. -/
def ProductRow.uncosted (row : ProductRow) : ProductRow :=
  { row with product := { row.product with costPrice := 0 } }

/-- Movements stay where they are, and of the catalogue and the branches only costs change. -/
structure Keeps (db db' : InventoryDb) : Prop where
  movements : db.movements <+: db'.movements
  warehouses : db'.warehouses = db.warehouses
  catalog : ∀ productId, (db'.products.get productId).map ProductRow.uncosted =
    (db.products.get productId).map ProductRow.uncosted

namespace Keeps

variable {db db₁ db' : InventoryDb} {context : TenantContext}

theorem refl (db : InventoryDb) : Keeps db db := ⟨List.prefix_rfl, rfl, fun _ => rfl⟩

theorem trans (h : Keeps db db₁) (h' : Keeps db₁ db') : Keeps db db' where
  movements := h.movements.trans h'.movements
  warehouses := h'.warehouses.trans h.warehouses
  catalog productId := (h'.catalog productId).trans (h.catalog productId)

theorem foldlM {Item : Type} {pass : InventoryDb → Item → Except Err InventoryDb}
    (hpass : ∀ item db db', pass db item = .ok db' → Keeps db db') {items : List Item}
    (h : items.foldlM pass db = .ok db') : Keeps db db' :=
  foldlM_invariant (I := fun db' => Keeps db db')
    (fun item _ _ _ hkept hitem => hkept.trans (hpass item _ _ hitem)) h (refl db)

theorem storeCostPrice {productId : Uuid} {cost : Option UnitCost}
    (h : Inventory.storeCostPrice db productId cost = .ok db') : Keeps db db' := by
  cases cost with
  | none =>
      cases h
      exact refl _
  | some cost =>
      simp only [Inventory.storeCostPrice, ite_error_eq_ok] at h
      obtain ⟨-, -, h⟩ := h
      cases h
      unfold InventoryDb.setCostPrice
      split
      next => exact refl _
      next row hrow =>
        refine ⟨List.prefix_rfl, rfl, fun productId' => ?_⟩
        simp only [Table.get_put]
        split
        next heq =>
          have hget : db.products.get productId' = some row := by
            rw [heq]
            exact Table.get_self hrow
          rw [hget]
          rfl
        next => rfl

theorem postMovement {request : MovementRequest} {movement : Movement}
    (h : Inventory.postMovement db request = .ok (db', movement)) : Keeps db db' := by
  obtain ⟨_, -, h⟩ := bind_eq_ok.mp h
  split at h
  next =>
    split at h
    next =>
      cases h
      exact refl _
    next => cases h
  next =>
    obtain ⟨balance, -, h⟩ := bind_eq_ok.mp h
    obtain ⟨cost, -, h⟩ := bind_eq_ok.mp h
    obtain ⟨movement', -, h⟩ := bind_eq_ok.mp h
    obtain ⟨db₁, hcost, h⟩ := bind_eq_ok.mp h
    cases h
    have hkept := storeCostPrice hcost
    exact ⟨hkept.movements.trans (List.prefix_append _ _), hkept.warehouses, hkept.catalog⟩

theorem postPayload {payload : MovementCreate} {movementType : MovementType} {quantity : ℚ}
    {unitCost : Option ℚ} {key : Option String} {movement : Movement}
    (h : Inventory.postPayload context db payload movementType quantity unitCost key =
      .ok (db', movement)) : Keeps db db' := by
  obtain ⟨_, -, h⟩ := bind_eq_ok.mp (onIntegrityError_eq_ok.mp h)
  exact postMovement h

theorem receipt {payload : MovementCreate} {key : Option String} {movement : Movement}
    (h : Inventory.receipt context db payload key = .ok (db', movement)) : Keeps db db' := by
  obtain ⟨_, -, h⟩ := bind_eq_ok.mp h
  exact postPayload h

theorem adjust {payload : AdjustmentCreate} {adjustmentId : Uuid} {key : Option String}
    {movement : Movement}
    (h : Inventory.adjust context db payload adjustmentId key = .ok (db', movement)) :
    Keeps db db' := by
  obtain ⟨_, -, h⟩ := bind_eq_ok.mp (onIntegrityError_eq_ok.mp h)
  obtain ⟨⟨db₁, movement'⟩, hpost, h⟩ := bind_eq_ok.mp h
  obtain ⟨_, -, h⟩ := bind_eq_ok.mp h
  obtain ⟨_, -, h⟩ := bind_eq_ok.mp h
  cases h
  have hkept := postMovement hpost
  exact ⟨hkept.movements, hkept.warehouses, hkept.catalog⟩

theorem reserve {payload : ReservationCreate} {reservationId : Uuid} {reservation : Reservation}
    (h : Inventory.reserve context db payload reservationId = .ok (db', reservation)) :
    Keeps db db' := by
  obtain ⟨_, -, h⟩ := bind_eq_ok.mp h
  obtain ⟨_, -, h⟩ := bind_eq_ok.mp h
  obtain ⟨_, -, h⟩ := bind_eq_ok.mp h
  obtain ⟨_, -, h⟩ := bind_eq_ok.mp h
  obtain ⟨_, -, h⟩ := bind_eq_ok.mp h
  cases h
  exact ⟨List.prefix_rfl, rfl, fun _ => rfl⟩

theorem releaseReservation {reservation : Reservation}
    (h : Inventory.releaseReservation db reservation = .ok db') : Keeps db db' := by
  obtain ⟨_, -, h⟩ := bind_eq_ok.mp h
  obtain ⟨_, -, h⟩ := bind_eq_ok.mp h
  cases h
  exact ⟨List.prefix_rfl, rfl, fun _ => rfl⟩

theorem createTransfer {payload : TransferCreate} {transferId : Uuid} {transfer : Transfer}
    (h : Inventory.createTransfer context db payload transferId = .ok (db', transfer)) :
    Keeps db db' := by
  obtain ⟨_, -, h⟩ := bind_eq_ok.mp h
  have h := onIntegrityError_eq_ok.mp h
  obtain ⟨_, -, h⟩ := bind_eq_ok.mp h
  obtain ⟨_, -, h⟩ := bind_eq_ok.mp h
  obtain ⟨_, -, h⟩ := bind_eq_ok.mp h
  obtain ⟨_, -, h⟩ := bind_eq_ok.mp h
  obtain ⟨_, -, h⟩ := bind_eq_ok.mp h
  obtain ⟨_, -, h⟩ := bind_eq_ok.mp h
  obtain ⟨_, -, h⟩ := bind_eq_ok.mp h
  obtain ⟨_, -, h⟩ := bind_eq_ok.mp h
  obtain ⟨_, -, h⟩ := bind_eq_ok.mp h
  cases h
  exact ⟨List.prefix_rfl, rfl, fun _ => rfl⟩

theorem transitionTransfer {transferId : Uuid} {receive : Bool} {key : Option String}
    {transfer : Transfer}
    (h : Inventory.transitionTransfer context db transferId receive key = .ok (db', transfer)) :
    Keeps db db' := by
  obtain ⟨found, -, h⟩ := bind_eq_ok.mp h
  obtain ⟨_, -, h⟩ := bind_eq_ok.mp h
  obtain ⟨db₁, hloop, h⟩ := bind_eq_ok.mp h
  obtain ⟨transfers, -, h⟩ := bind_eq_ok.mp h
  cases h
  have hkept : Keeps db db₁ := by
    refine foldlM (fun line db₁ db₂ hline => ?_) hloop
    obtain ⟨_, -, hline⟩ := bind_eq_ok.mp hline
    obtain ⟨⟨db₃, movement⟩, hpost, hline⟩ := bind_eq_ok.mp hline
    cases hline
    exact postMovement hpost
  exact ⟨hkept.movements, hkept.warehouses, hkept.catalog⟩

theorem document {document : Document} {kind : DocumentKind} {u : Unit}
    (h : document.post kind db = .ok (db', u)) : Keeps db db' := by
  obtain ⟨_, -, h⟩ := bind_eq_ok.mp h
  obtain ⟨db₁, hloop, h⟩ := bind_eq_ok.mp h
  obtain ⟨_, -, h⟩ := bind_eq_ok.mp h
  cases h
  refine foldlM (fun line db₁ db₂ hline => ?_) hloop
  obtain ⟨_, -, hline⟩ := bind_eq_ok.mp hline
  obtain ⟨product, -, hline⟩ := bind_eq_ok.mp hline
  obtain ⟨_, -, hline⟩ := bind_eq_ok.mp hline
  unfold postMovementForDocument at hline
  split at hline
  next =>
    obtain ⟨⟨db₃, movement⟩, hpost, hline⟩ := bind_eq_ok.mp hline
    cases hline
    exact postMovement hpost
  next =>
    cases hline
    exact refl _

theorem body {op : Op} {u : Unit} (h : op.body db = .ok (db', u)) : Keeps db db' := by
  cases op with
  | receipt context payload key => exact receipt (tables_eq_ok h).choose_spec
  | issue context payload key => exact postPayload (tables_eq_ok h).choose_spec
  | adjust context payload id key => exact adjust (tables_eq_ok h).choose_spec
  | reserve context payload id => exact reserve (tables_eq_ok h).choose_spec
  | release id =>
      obtain ⟨_, -, h⟩ := bind_eq_ok.mp h
      obtain ⟨_, -, h⟩ := bind_eq_ok.mp h
      obtain ⟨_, hrelease, h⟩ := bind_eq_ok.mp h
      cases h
      exact releaseReservation hrelease
  | releaseExpired now locked =>
      obtain ⟨n, h⟩ := tables_eq_ok h
      obtain ⟨db₁, hloop, h⟩ := bind_eq_ok.mp h
      cases h
      refine foldlM (fun reservation _ _ hpass => ?_) hloop
      obtain ⟨_, -, hpass⟩ := bind_eq_ok.mp hpass
      exact releaseReservation hpass
  | createTransfer context payload id => exact createTransfer (tables_eq_ok h).choose_spec
  | shipTransfer context id key => exact transitionTransfer (tables_eq_ok h).choose_spec
  | receiveTransfer context id key => exact transitionTransfer (tables_eq_ok h).choose_spec
  | fulfil document => exact Keeps.document h
  | issueCreditNote document => exact Keeps.document h
  | checkout document => exact Keeps.document h
  | refund document => exact Keeps.document h
  | receiveGoods document => exact Keeps.document h

end Keeps

/-- Requests one after the other, each in its transaction. -/
def InventoryDb.after (db : InventoryDb) (ops : List Op) : InventoryDb :=
  ops.foldl (fun db op => (op.run db).1) db

theorem Keeps.after (db : InventoryDb) (ops : List Op) : Keeps db (db.after ops) := by
  induction ops generalizing db with
  | nil => exact refl db
  | cons op ops ih =>
      have hop : Keeps db (op.run db).1 :=
        serviceTransaction_preserves (refl db) fun _ _ h => Keeps.body h
      exact hop.trans (ih _)

/-- A pair that was accepted is accepted again, for a product with the same unit. -/
theorem Keeps.validatePair {db db' : InventoryDb} (h : Keeps db db') {context : TenantContext}
    {warehouseId productId : Uuid} {product : Product}
    (hpair : validatePair context db warehouseId productId = .ok product) :
    ∃ product', Inventory.validatePair context db' warehouseId productId = .ok product' ∧
      product'.precision = product.precision := by
  obtain ⟨warehouse, hwarehouse, hpair⟩ := bind_eq_ok.mp hpair
  obtain ⟨product₁, hproduct, hpair⟩ := bind_eq_ok.mp hpair
  obtain ⟨_, hbranch, hpair⟩ := bind_eq_ok.mp hpair
  obtain ⟨_, htracked, hpair⟩ := bind_eq_ok.mp hpair
  cases hpair
  obtain ⟨row, hrow, rfl⟩ := Option.map_eq_some_iff.mp (orRaise_eq_ok.mp hproduct)
  obtain ⟨hget, hactive⟩ := Option.filter_eq_some_iff.mp hrow
  have hcatalog := h.catalog productId
  rw [hget, Option.map_some, Option.map_eq_some_iff] at hcatalog
  obtain ⟨row', hget', hsame⟩ := hcatalog
  obtain ⟨hproduct', hactive'⟩ := (ProductRow.mk.injEq ..).mp hsame
  have htracked' := congrArg Product.isStockTracked hproduct'
  have hprecision := congrArg Product.precision hproduct'
  simp only [] at htracked' hprecision hactive'
  refine ⟨row'.product, ?_, hprecision⟩
  have hfound : db'.product productId = some row'.product := by
    simp [InventoryDb.product, hget', Option.filter, hactive', hactive]
  have hwarehouse' : db'.warehouse warehouseId = db.warehouse warehouseId := by
    simp [InventoryDb.warehouse, h.warehouses]
  refine bind_eq_ok.mpr ⟨warehouse, by rw [hwarehouse', hwarehouse], ?_⟩
  refine bind_eq_ok.mpr ⟨row'.product, orRaise_eq_ok.mpr hfound, ?_⟩
  have hstock : requireStockTracked row'.product = requireStockTracked row.product := by
    simp [requireStockTracked, htracked']
  exact bind_eq_ok.mpr ⟨_, hbranch, bind_eq_ok.mpr ⟨_, hstock.trans htracked, rfl⟩⟩

theorem validatePair_id {context : TenantContext} {db : InventoryDb}
    {warehouseId productId : Uuid} {product : Product}
    (h : validatePair context db warehouseId productId = .ok product) : product.id = productId :=
  InventoryDb.anyProduct_id (validatePair_eq_ok h)

/-! ## What `same_request` compares -/

/-- The columns of a movement that a repeated request is compared in. -/
structure RequestFace where
  warehouseId : Uuid
  productId : Uuid
  movementType : MovementType
  quantity : ℚ
  unitCost : Option ℚ
  referenceType : Option String
  referenceId : Option Uuid

/-- The decimal a column `UnitCost` keeps. -/
def keptCost (cost : ℚ) : ℚ := (roundHalfUp (cost * 10 ^ 6) : ℚ) / 10 ^ 6

/-- What the columns keep. -/
def RequestFace.kept (face : RequestFace) : RequestFace :=
  { face with
    quantity := decimal (stored face.quantity)
    unitCost := face.unitCost.map keptCost }

def Movement.face (movement : Movement) : RequestFace :=
  { warehouseId := movement.warehouseId
    productId := movement.productId
    movementType := movement.movementType
    quantity := decimal movement.quantity
    unitCost := movement.unitCost.map fun cost : UnitCost => (cost : ℚ) / 10 ^ 6
    referenceType := movement.referenceType
    referenceId := movement.referenceId }

def MovementRequest.face (request : MovementRequest) : RequestFace :=
  { warehouseId := request.warehouseId
    productId := request.product.id
    movementType := request.movementType
    quantity := request.quantity
    unitCost := request.unitCost
    referenceType := request.referenceType
    referenceId := request.referenceId }

theorem Movement.sameRequest_iff {existing : Movement} {request : MovementRequest} :
    existing.sameRequest request = true ↔ existing.face = request.face := by
  cases hcost : existing.unitCost with
  | none => simp [sameRequest, face, MovementRequest.face, hcost]
  | some cost => simp [sameRequest, face, MovementRequest.face, hcost]

theorem keptCost_column (cost : UnitCost) : keptCost ((cost : ℚ) / 10 ^ 6) = (cost : ℚ) / 10 ^ 6 := by
  have h : (cost : ℚ) / 10 ^ 6 * 10 ^ 6 = cost := by field_simp
  rw [keptCost, h, roundHalfUp_intCast]

/-- A movement is what its columns keep. -/
theorem Movement.face_kept (movement : Movement) : movement.face.kept = movement.face := by
  have hcost : (movement.unitCost.map fun cost : UnitCost => (cost : ℚ) / 10 ^ 6).map keptCost =
      movement.unitCost.map fun cost : UnitCost => (cost : ℚ) / 10 ^ 6 := by
    rw [Option.map_map]
    exact Option.map_congr fun cost _ => keptCost_column cost
  simp [RequestFace.kept, Movement.face, stored_decimal, hcost]

theorem MovementRequest.movement_face {request : MovementRequest} {db : InventoryDb}
    {balance : Balance} {movement : Movement} (h : request.movement db balance = .ok movement) :
    movement.face = request.face.kept ∧ movement.idempotencyKey = request.idempotencyKey := by
  have hcarries := MovementRequest.movement_carries h
  have hcost : movement.unitCost.map (fun cost : UnitCost => (cost : ℚ) / 10 ^ 6) =
      request.unitCost.map keptCost := by
    rw [hcarries.unitCost, Option.map_map]
    rfl
  obtain ⟨_, -, h⟩ := bind_eq_ok.mp h
  obtain ⟨quantity, hquantity, h⟩ := bind_eq_ok.mp h
  obtain ⟨unitCost, -, h⟩ := bind_eq_ok.mp h
  obtain ⟨balanceAfter, -, h⟩ := bind_eq_ok.mp h
  unfold MovementRequest.row at h
  split at h
  next =>
    cases h
    refine ⟨?_, rfl⟩
    simp only [Movement.face, RequestFace.kept, MovementRequest.face, storeQuantity_eq_ok hquantity]
    simpa using hcost
  next => cases h

/-- The movement a posting returns is in the tables under its key, as the columns keep it. -/
theorem postMovement_recorded {db db' : InventoryDb} {request : MovementRequest}
    {movement : Movement} {key : String} (hkey : request.idempotencyKey = some key)
    (h : postMovement db request = .ok (db', movement)) :
    movement ∈ db'.movements ∧ movement.idempotencyKey = some key ∧
      movement.face = request.face.kept ∧
      (key ≠ "" → db'.movements.find? (·.idempotencyKey = some key) = some movement) := by
  obtain ⟨_, -, h⟩ := bind_eq_ok.mp h
  have hfilter : key ≠ "" → (request.idempotencyKey.filter (· ≠ "")) = some key := by
    intro hne
    simp [hkey, hne]
  split at h
  next existing hexisting =>
    split at h
    next hsame =>
      cases h
      obtain ⟨key', hkey', hfind⟩ := Option.bind_eq_some_iff.mp hexisting
      obtain ⟨hkey', hne⟩ := Option.filter_eq_some_iff.mp hkey'
      rw [hkey, Option.some.injEq] at hkey'
      subst hkey'
      have hface := Movement.sameRequest_iff.mp hsame
      refine ⟨List.mem_of_find?_eq_some hfind, by simpa using List.find?_some hfind, ?_,
        fun _ => hfind⟩
      rw [← hface, Movement.face_kept]
    next => cases h
  next hexisting =>
    obtain ⟨balance, -, h⟩ := bind_eq_ok.mp h
    obtain ⟨cost, -, h⟩ := bind_eq_ok.mp h
    obtain ⟨movement', hmovement, h⟩ := bind_eq_ok.mp h
    obtain ⟨db₁, hcost, h⟩ := bind_eq_ok.mp h
    cases h
    obtain ⟨hface, hkeyed⟩ := MovementRequest.movement_face hmovement
    rw [hkey] at hkeyed
    have hmovements := (storeCostPrice_sameStock hcost).movements
    refine ⟨by simp, hkeyed, hface, fun hne => ?_⟩
    have hnone : db.movements.find? (·.idempotencyKey = some key) = none := by
      rw [MovementRequest.existing, hfilter hne] at hexisting
      exact hexisting
    simp [hmovements, List.find?_append, hnone, hkeyed]

theorem postMovement_existing {db : InventoryDb} {request : MovementRequest} {key : String}
    {existing : Movement} {result : InventoryDb × Movement} (hkey : request.idempotencyKey = some key)
    (hne : key ≠ "") (hfind : db.movements.find? (·.idempotencyKey = some key) = some existing) :
    postMovement db request = .ok result ↔
      validateQuantity request.product request.quantity = .ok () ∧
        existing.face = request.face ∧ result = (db, existing) := by
  have hfilter : (some key).filter (· ≠ "") = some key := by simp [hne]
  have hexisting : request.existing db = some existing := by
    rw [MovementRequest.existing, hkey, hfilter]
    exact hfind
  rw [postMovement, bind_eq_ok]
  simp only [hexisting]
  constructor
  · rintro ⟨_, hquantity, h⟩
    split at h
    next hsame =>
      cases h
      exact ⟨hquantity, Movement.sameRequest_iff.mp hsame, rfl⟩
    next => cases h
  · rintro ⟨hquantity, hface, rfl⟩
    exact ⟨_, hquantity, if_pos (Movement.sameRequest_iff.mpr hface)⟩

/-- An empty key is looked up nowhere, and the unique index refuses it the second time. -/
theorem postMovement_emptyKey {db : InventoryDb} {request : MovementRequest}
    (hkey : request.idempotencyKey = some "")
    (hused : ∃ movement ∈ db.movements, movement.idempotencyKey = some "")
    (result : InventoryDb × Movement) : postMovement db request ≠ .ok result := by
  intro h
  obtain ⟨_, -, h⟩ := bind_eq_ok.mp h
  have hexisting : request.existing db = none := by simp [MovementRequest.existing, hkey]
  simp only [hexisting] at h
  obtain ⟨balance, -, h⟩ := bind_eq_ok.mp h
  obtain ⟨cost, -, h⟩ := bind_eq_ok.mp h
  obtain ⟨movement, hmovement, -⟩ := bind_eq_ok.mp h
  obtain ⟨_, hrequire, -⟩ := bind_eq_ok.mp hmovement
  rw [hkey] at hrequire
  simp only [requireKey, ite_error_eq_ok] at hrequire
  exact hrequire.2.1 (List.any_eq_true.mpr (by simpa using hused))

/-! ## Requests with a key -/

/-- The body of a request that may carry a key. -/
inductive StockPayload where
  | receipt (payload : MovementCreate)
  /-- `IssueCreate` has no cost. -/
  | issue (payload : MovementCreate) (costless : payload.unitCost = none)
  | adjust (payload : AdjustmentCreate)

/-- A request and the member who makes it. -/
structure StockCall where
  context : TenantContext
  payload : StockPayload

/-- The request, with the identifier drawn where it is an adjustment. -/
def StockCall.post (call : StockCall) (adjustmentId : Uuid) (key : String) (db : InventoryDb) :
    Except Err (InventoryDb × Movement) :=
  match call.payload with
  | .receipt payload => receipt call.context db payload (some key)
  | .issue payload _ => issue call.context db payload (some key)
  | .adjust payload => adjust call.context db payload adjustmentId (some key)

namespace StockPayload

/-- What a stored movement is compared with. -/
def face (adjustmentId : Uuid) : StockPayload → RequestFace
  | .receipt payload =>
      { warehouseId := payload.warehouseId
        productId := payload.productId
        movementType := .receipt
        quantity := payload.quantity
        unitCost := payload.unitCost
        referenceType := payload.referenceType
        referenceId := payload.referenceId }
  | .issue payload _ =>
      { warehouseId := payload.warehouseId
        productId := payload.productId
        movementType := .issue
        quantity := toContext (-payload.quantity)
        unitCost := none
        referenceType := payload.referenceType
        referenceId := payload.referenceId }
  | .adjust payload =>
      { warehouseId := payload.warehouseId
        productId := payload.productId
        movementType := .adjustment
        quantity := payload.quantity
        unitCost := none
        referenceType := some "adjustment"
        referenceId := some adjustmentId }

/-- `Receipts require unit_cost.` -/
def Complete : StockPayload → Prop
  | .receipt payload => payload.unitCost.isSome
  | _ => True

/-- The columns keep all that is compared.  An issue negates its quantity, which rounds it to
what its unit allows.  An adjustment never refers to the identifier of another. -/
def Exact : StockPayload → Prop
  | .receipt payload => (∃ n, payload.quantity = decimal n) ∧
      ∀ cost ∈ payload.unitCost, ∃ n : UnitCost, cost = (n : ℚ) / 10 ^ 6
  | .issue _ _ => True
  | .adjust _ => False

end StockPayload

/-- The request gets past the checks of its own. -/
structure StockCall.Passes (call : StockCall) (adjustmentId : Uuid) (db : InventoryDb) : Prop where
  complete : call.payload.Complete
  valid : ∃ product, validatePair call.context db (call.payload.face adjustmentId).warehouseId
      (call.payload.face adjustmentId).productId = .ok product ∧
    validateQuantity product (call.payload.face adjustmentId).quantity = .ok ()

theorem Keeps.passes {db db' : InventoryDb} (h : Keeps db db') {call : StockCall}
    {adjustmentId : Uuid} (hpasses : call.Passes adjustmentId db) : call.Passes adjustmentId db' := by
  obtain ⟨hcomplete, product, hpair, hquantity⟩ := hpasses
  obtain ⟨product', hpair', hprecision⟩ := h.validatePair hpair
  refine ⟨hcomplete, product', hpair', ?_⟩
  rw [← hquantity]
  simp [validateQuantity, hprecision]

/-- The identifier an adjustment draws plays no part in its checks. -/
theorem StockCall.Passes.congr {call : StockCall} {id id' : Uuid} {db : InventoryDb}
    (h : call.Passes id db) : call.Passes id' db := by
  obtain ⟨context, payload⟩ := call
  cases payload with
  | receipt payload => exact ⟨h.complete, h.valid⟩
  | issue payload costless => exact ⟨h.complete, h.valid⟩
  | adjust payload => exact ⟨h.complete, h.valid⟩

/-- A request that is accepted passed its checks, and posted what `face` says. -/
theorem StockCall.post_eq_ok {call : StockCall} {adjustmentId : Uuid} {key : String}
    {db db' : InventoryDb} {movement : Movement}
    (h : call.post adjustmentId key db = .ok (db', movement)) :
    call.Passes adjustmentId db ∧ ∃ request db₁, request.idempotencyKey = some key ∧
      request.face = call.payload.face adjustmentId ∧
      postMovement db request = .ok (db₁, movement) ∧ db₁.movements = db'.movements := by
  obtain ⟨context, payload⟩ := call
  cases payload with
  | receipt payload =>
      obtain ⟨unitCost, hcost, h⟩ := bind_eq_ok.mp h
      obtain ⟨product, hpair, h⟩ := bind_eq_ok.mp (onIntegrityError_eq_ok.mp h)
      have hcost := orRaise_eq_ok.mp hcost
      obtain ⟨_, hquantity, -⟩ := bind_eq_ok.mp h
      refine ⟨⟨by simp [StockPayload.Complete, hcost], product, hpair, hquantity⟩, _, db', rfl, ?_,
        h, rfl⟩
      simp [MovementRequest.face, StockPayload.face, validatePair_id hpair, hcost]
  | issue payload costless =>
      obtain ⟨product, hpair, h⟩ := bind_eq_ok.mp (onIntegrityError_eq_ok.mp h)
      obtain ⟨_, hquantity, -⟩ := bind_eq_ok.mp h
      refine ⟨⟨trivial, product, hpair, hquantity⟩, _, db', rfl, ?_, h, rfl⟩
      simp [MovementRequest.face, StockPayload.face, validatePair_id hpair]
  | adjust payload =>
      obtain ⟨product, hpair, h⟩ := bind_eq_ok.mp (onIntegrityError_eq_ok.mp h)
      obtain ⟨⟨db₁, movement'⟩, hpost, h⟩ := bind_eq_ok.mp h
      obtain ⟨_, -, h⟩ := bind_eq_ok.mp h
      obtain ⟨_, -, h⟩ := bind_eq_ok.mp h
      cases h
      obtain ⟨_, hquantity, -⟩ := bind_eq_ok.mp hpost
      refine ⟨⟨trivial, product, hpair, hquantity⟩, _, db₁, rfl, ?_, hpost, rfl⟩
      simp [MovementRequest.face, StockPayload.face, validatePair_id hpair]

theorem StockCall.post_keeps {call : StockCall} {adjustmentId : Uuid} {key : String}
    {db db' : InventoryDb} {movement : Movement}
    (h : call.post adjustmentId key db = .ok (db', movement)) : Keeps db db' := by
  obtain ⟨context, payload⟩ := call
  cases payload with
  | receipt payload => exact Keeps.receipt h
  | issue payload costless => exact Keeps.postPayload h
  | adjust payload => exact Keeps.adjust h

/-- Where the key has a movement, a request is accepted if and only if it passes its checks and
agrees with that movement.  Then it returns the movement and writes nothing. -/
theorem StockCall.post_existing {call : StockCall} {adjustmentId : Uuid} {key : String}
    {db : InventoryDb} {existing : Movement} {result : InventoryDb × Movement} (hne : key ≠ "")
    (hfind : db.movements.find? (·.idempotencyKey = some key) = some existing)
    (hfresh : existing.referenceId ≠ some adjustmentId) :
    call.post adjustmentId key db = .ok result ↔
      call.Passes adjustmentId db ∧ existing.face = call.payload.face adjustmentId ∧
        result = (db, existing) := by
  obtain ⟨context, payload⟩ := call
  cases payload with
  | receipt payload =>
      constructor
      · intro h
        obtain ⟨hpasses, request, db₁, hkey, hface, hpost, -⟩ := StockCall.post_eq_ok h
        obtain ⟨-, hexisting, -⟩ := (postMovement_existing hkey hne hfind).mp hpost
        obtain ⟨_, -, h⟩ := bind_eq_ok.mp h
        obtain ⟨_, -, h⟩ := bind_eq_ok.mp (onIntegrityError_eq_ok.mp h)
        exact ⟨hpasses, hexisting.trans hface, ((postMovement_existing rfl hne hfind).mp h).2.2⟩
      · rintro ⟨⟨hcomplete, product, hpair, hquantity⟩, hface, rfl⟩
        obtain ⟨unitCost, hcost⟩ := Option.isSome_iff_exists.mp hcomplete
        refine bind_eq_ok.mpr ⟨unitCost, orRaise_eq_ok.mpr hcost, onIntegrityError_eq_ok.mpr ?_⟩
        refine bind_eq_ok.mpr ⟨product, hpair, ?_⟩
        refine (postMovement_existing rfl hne hfind).mpr ⟨hquantity, ?_, rfl⟩
        simp [hface, MovementRequest.face, StockPayload.face, validatePair_id hpair, hcost]
  | issue payload costless =>
      constructor
      · intro h
        obtain ⟨hpasses, request, db₁, hkey, hface, hpost, -⟩ := StockCall.post_eq_ok h
        obtain ⟨-, hexisting, -⟩ := (postMovement_existing hkey hne hfind).mp hpost
        obtain ⟨_, -, h⟩ := bind_eq_ok.mp (onIntegrityError_eq_ok.mp h)
        exact ⟨hpasses, hexisting.trans hface, ((postMovement_existing rfl hne hfind).mp h).2.2⟩
      · rintro ⟨⟨-, product, hpair, hquantity⟩, hface, rfl⟩
        refine onIntegrityError_eq_ok.mpr (bind_eq_ok.mpr ⟨product, hpair, ?_⟩)
        refine (postMovement_existing rfl hne hfind).mpr ⟨hquantity, ?_, rfl⟩
        simp [hface, MovementRequest.face, StockPayload.face, validatePair_id hpair]
  | adjust payload =>
      -- The movement refers to the identifier of another adjustment.
      have hother : existing.face ≠ (StockPayload.adjust payload).face adjustmentId :=
        fun hface => hfresh (congrArg RequestFace.referenceId hface)
      constructor
      · intro h
        obtain ⟨-, request, db₁, hkey, hface, hpost, -⟩ := StockCall.post_eq_ok h
        obtain ⟨-, hexisting, -⟩ := (postMovement_existing hkey hne hfind).mp hpost
        exact absurd (hexisting.trans hface) hother
      · rintro ⟨-, hface, -⟩
        exact absurd hface hother

/-! ## The law of a repeated key -/

/-- The columns keep what a request is compared by if and only if it is `Exact`. -/
theorem StockCall.Passes.kept_eq_iff {call : StockCall} {id id' : Uuid} {db : InventoryDb}
    (h : call.Passes id db) (hfresh : (call.payload.face id).referenceId ≠ some id') :
    (call.payload.face id).kept = call.payload.face id' ↔ call.payload.Exact := by
  obtain ⟨context, payload⟩ := call
  obtain ⟨-, product, -, hquantity⟩ := h
  cases payload with
  | receipt payload =>
      have hcost : payload.unitCost.map keptCost = payload.unitCost ↔
          ∀ cost ∈ payload.unitCost, ∃ n : UnitCost, cost = (n : ℚ) / 10 ^ 6 := by
        cases payload.unitCost with
        | none => simp
        | some cost =>
            simp only [Option.map_some, Option.some.injEq, Option.mem_some_iff, forall_eq']
            constructor
            · exact fun hkept => ⟨_, hkept.symm⟩
            · rintro ⟨n, rfl⟩
              exact keptCost_column n
      have hstored : decimal (stored payload.quantity) = payload.quantity ↔
          ∃ n, payload.quantity = decimal n := by
        constructor
        · exact fun hkept => ⟨_, hkept.symm⟩
        · rintro ⟨n, hn⟩
          rw [hn, stored_decimal]
      simp [StockPayload.face, RequestFace.kept, StockPayload.Exact, hcost, hstored]
  | issue payload costless =>
      obtain ⟨n, hn⟩ := validateQuantity_eq_ok hquantity
      simp only [StockPayload.face, toContext_toContext] at hn
      simp [StockPayload.face, RequestFace.kept, StockPayload.Exact, hn, stored_decimal]
  | adjust payload =>
      have hne : id ≠ id' := fun heq => hfresh (congrArg some heq)
      simp [StockPayload.face, RequestFace.kept, StockPayload.Exact, hne]

/-- The two requests with a key: the same one again returns the movement of the first, another
payload is rejected, and in both cases the tables stay as they are. -/
structure ReplayLaw (first second : StockCall) (adjustmentId : Uuid) (key : String)
    (movement : Movement) (db : InventoryDb) : Prop where
  same : second = first →
    serviceTransaction db (second.post adjustmentId key) = (db, .ok movement)
  other : second.payload ≠ first.payload →
    ∃ e, serviceTransaction db (second.post adjustmentId key) = (db, .error e)

/-- The second request passes its checks and agrees with what the columns keep of the first. -/
def StockCall.TakenFor (second first : StockCall) (adjustmentId firstId : Uuid) (key : String)
    (db : InventoryDb) : Prop :=
  key ≠ "" ∧ second.Passes adjustmentId db ∧
    (first.payload.face firstId).kept = second.payload.face adjustmentId

theorem serviceTransaction_eq_ok {α : Type} {db : InventoryDb}
    {body : InventoryDb → Except Err (InventoryDb × α)} {a : α} :
    serviceTransaction db body = (db, .ok a) ↔ body db = .ok (db, a) := by
  unfold serviceTransaction
  cases hbody : body db with
  | error e => simp
  | ok result => simp [Prod.ext_iff]

theorem serviceTransaction_eq_error {α : Type} {db : InventoryDb}
    {body : InventoryDb → Except Err (InventoryDb × α)} :
    (∃ e, serviceTransaction db body = (db, .error e)) ↔ ∀ result, body db ≠ .ok result := by
  unfold serviceTransaction
  cases hbody : body db with
  | error e => simp
  | ok result => simp

/-- A receipt, an issue or an adjustment with a key was accepted, any requests of the inventory
followed, and the key comes again.  The law holds if and only if the same request is one whose
columns keep what it is compared by, and another is not one that agrees with these columns. -/
theorem replayLaw_iff {first second : StockCall} {firstId adjustmentId : Uuid} {key : String}
    {db₀ db : InventoryDb} {movement : Movement} {ops : List Op}
    (hfirst : first.post firstId key db₀ = .ok (db, movement))
    (hfresh : ∀ m ∈ (db.after ops).movements, m.referenceId ≠ some adjustmentId) :
    ReplayLaw first second adjustmentId key movement (db.after ops) ↔
      (second = first → key ≠ "" ∧ first.payload.Exact) ∧
        (second.payload ≠ first.payload →
          ¬second.TakenFor first adjustmentId firstId key (db.after ops)) := by
  obtain ⟨hpasses, request, db₁, hkey, hface, hpost, hmovements⟩ := StockCall.post_eq_ok hfirst
  obtain ⟨hmem, hkeyed, hkept, hfind⟩ := postMovement_recorded hkey hpost
  rw [hmovements] at hmem hfind
  rw [hface] at hkept
  have hsince := Keeps.after db ops
  have hmem' := hsince.movements.mem hmem
  by_cases hne : key = ""
  · -- The unique index refuses the second movement with an empty key.
    subst hne
    have hrejected : ∀ result, second.post adjustmentId "" (db.after ops) ≠ .ok result := by
      intro result h
      obtain ⟨-, request', _, hkey', -, hpost', -⟩ := StockCall.post_eq_ok h
      exact postMovement_emptyKey hkey' ⟨movement, hmem', hkeyed⟩ _ hpost'
    constructor
    · intro hlaw
      refine ⟨fun hsame => ?_, fun _ htaken => htaken.1 rfl⟩
      exact absurd (serviceTransaction_eq_ok.mp (hlaw.same hsame)) (hrejected _)
    · rintro ⟨hsame, -⟩
      exact ⟨fun heq => absurd rfl (hsame heq).1,
        fun _ => serviceTransaction_eq_error.mpr hrejected⟩
  · have hfind' := hsince.movements.find?_eq_some (hfind hne)
    have hrefer : (first.payload.face firstId).referenceId ≠ some adjustmentId := by
      have hrefer := hfresh movement hmem'
      rwa [show movement.referenceId = _ from congrArg RequestFace.referenceId hkept] at hrefer
    have hpost' : ∀ {call : StockCall} {result}, call.post adjustmentId key (db.after ops) =
        .ok result ↔ call.Passes adjustmentId (db.after ops) ∧
          (first.payload.face firstId).kept = call.payload.face adjustmentId ∧
          result = (db.after ops, movement) := by
      intro call result
      rw [StockCall.post_existing hne hfind' (hfresh movement hmem'), hkept]
    constructor
    · intro hlaw
      refine ⟨fun hsame => ⟨hne, ?_⟩, fun hother htaken => ?_⟩
      · have hagain := hpost'.mp (serviceTransaction_eq_ok.mp (hlaw.same hsame))
        rw [hsame] at hagain
        exact (hpasses.kept_eq_iff hrefer).mp hagain.2.1
      · have hrejected := serviceTransaction_eq_error.mp (hlaw.other hother)
        exact hrejected _ (hpost'.mpr ⟨htaken.2.1, htaken.2.2, rfl⟩)
    · rintro ⟨hsame, hother⟩
      refine ⟨fun heq => ?_, fun hdiffers => ?_⟩
      · subst heq
        have hkeeps := (StockCall.post_keeps hfirst).trans hsince
        exact serviceTransaction_eq_ok.mpr (hpost'.mpr ⟨(hkeeps.passes hpasses).congr,
          (hpasses.kept_eq_iff hrefer).mpr (hsame rfl).2, rfl⟩)
      · refine serviceTransaction_eq_error.mpr fun result h => hother hdiffers ?_
        obtain ⟨hpasses', hagrees, -⟩ := hpost'.mp h
        exact ⟨hne, hpasses', hagrees⟩

/-- Ten pieces at `3`. -/
def tenPieces : StockCall := ⟨shopContext, .receipt ⟨1, 7, 10, some 3, none, none, none, Sample.ten_pos⟩⟩

/-- Five pieces found. -/
def fivePieces : StockCall := ⟨shopContext, .adjust ⟨"A-1", 1, 7, 5, "count", none⟩⟩

/-- Four of the pieces are issued. -/
def issueFour : List Op := [.issue shopContext ⟨1, 7, 4, none, none, none, none, Sample.four_pos⟩ none]

/-- The first request of a key, and the tables when the key comes again. -/
theorem StockCall.post_shop (call : StockCall) (ops : List Op) (P : InventoryDb → Bool)
    (h : (call.post 20 "k" shop).toOption.any (fun result => P (result.1.after ops)) = true) :
    ∃ db movement, call.post 20 "k" shop = .ok (db, movement) ∧ P (db.after ops) = true := by
  cases hpost : call.post 20 "k" shop with
  | error e => simp [hpost, Except.toOption] at h
  | ok result => exact ⟨result.1, result.2, rfl, by simpa [hpost, Except.toOption] using h⟩

/-- The receipt comes again after an issue. -/
theorem replayLaw_iff_tenPieces : ∃ db movement, tenPieces.post 20 "k" shop = .ok (db, movement) ∧
    ReplayLaw tenPieces tenPieces 21 "k" movement (db.after issueFour) := by
  obtain ⟨db, movement, hpost, hfresh⟩ := tenPieces.post_shop issueFour
    (fun db => db.movements.all fun m => m.referenceId ≠ some 21) (by decide +kernel)
  refine ⟨db, movement, hpost, (replayLaw_iff hpost fun m hm => ?_).mpr ⟨fun _ => ⟨by decide, ?_⟩,
    fun hother => absurd rfl hother⟩⟩
  · simpa using List.all_eq_true.mp hfresh m hm
  · refine ⟨⟨10000000, by norm_num [decimal]⟩, ?_⟩
    rintro _ ⟨⟩
    exact ⟨3000000, by norm_num⟩

/-- An adjustment that comes again is taken for another one. -/
theorem not_replayLaw_fivePieces : ∃ db movement,
    fivePieces.post 20 "k" shop = .ok (db, movement) ∧
      ¬ReplayLaw fivePieces fivePieces 21 "k" movement db := by
  obtain ⟨db, movement, hpost, hagain⟩ := fivePieces.post_shop []
    (fun db => !(fivePieces.post 21 "k" db).isOk) (by decide +kernel)
  refine ⟨db, movement, hpost, fun hlaw => ?_⟩
  have hsame := serviceTransaction_eq_ok.mp (hlaw.same rfl)
  simp only [InventoryDb.after, List.foldl_nil] at hagain
  rw [hsame] at hagain
  cases hagain

end Nexora.Inventory
