import Nexora.Inventory.Ledger

/-!
# The movements of a request

What each request adds to `inventory_movements`, with the product, the quantity and the cost
of every row.  Movements are only ever added, and no request gives a product a negative cost
(`Adds`).
-/

namespace Nexora.Inventory

open Nexora Nexora.Catalog Foundations

/-! ## Rows -/

/-- The movements between two warehouses of a tenant. -/
def MovementType.isTransfer : MovementType → Bool
  | .transferIn | .transferOut => true
  | _ => false

/-- The row of a posting has its product, its quantity and its cost. -/
structure Movement.Carries (movement : Movement) (request : MovementRequest) : Prop where
  productId : movement.productId = request.product.id
  movementType : movement.movementType = request.movementType
  quantity : movement.quantity = stored request.quantity
  unitCost : movement.unitCost = request.unitCost.map fun cost => roundHalfUp (cost * 10 ^ 6)

theorem MovementRequest.movement_carries {request : MovementRequest} {db : InventoryDb}
    {balance : Balance} {movement : Movement} (h : request.movement db balance = .ok movement) :
    movement.Carries request := by
  obtain ⟨_, -, h⟩ := bind_eq_ok.mp h
  obtain ⟨quantity, hquantity, h⟩ := bind_eq_ok.mp h
  obtain ⟨unitCost, hcost, h⟩ := bind_eq_ok.mp h
  obtain ⟨balanceAfter, -, h⟩ := bind_eq_ok.mp h
  have hcost' : unitCost = request.unitCost.map fun cost => roundHalfUp (cost * 10 ^ 6) := by
    cases hunit : request.unitCost with
    | none =>
        rw [hunit] at hcost
        cases hcost
        rfl
    | some cost =>
        rw [hunit] at hcost
        obtain ⟨stored, hstored, hcost⟩ := map_eq_ok.mp hcost
        have hnumeric := orRaise_eq_ok.mp hstored
        simp only [numeric, Option.ite_none_right_eq_some, Option.some.injEq] at hnumeric
        rw [← hcost, ← hnumeric.2]
        rfl
  simp only [MovementRequest.row] at h
  split at h
  next =>
    cases h
    exact ⟨rfl, rfl, storeQuantity_eq_ok hquantity, hcost'⟩
  next => cases h

/-- No product has a negative cost. -/
def InventoryDb.Costed (db : InventoryDb) : Prop :=
  ∀ row ∈ db.products.rows, 0 ≤ row.product.costPrice

/-- The cost of a product, and zero where there is none. -/
def InventoryDb.costPrice (db : InventoryDb) (productId : Uuid) : UnitCost :=
  ((db.anyProduct productId).map (·.costPrice)).getD 0

theorem InventoryDb.anyProduct_id {db : InventoryDb} {productId : Uuid} {product : Product}
    (h : db.anyProduct productId = some product) : product.id = productId := by
  obtain ⟨row, hrow, rfl⟩ := Option.map_eq_some_iff.mp h
  exact (Table.get_mem hrow).2

theorem InventoryDb.anyProduct_of_product {db : InventoryDb} {productId : Uuid}
    {product : Product} (h : db.product productId = some product) :
    db.anyProduct productId = some product := by
  obtain ⟨row, hrow, rfl⟩ := Option.map_eq_some_iff.mp h
  rw [anyProduct, (Option.filter_eq_some_iff.mp hrow).1]
  rfl

theorem InventoryDb.Costed.costPrice_nonneg {db : InventoryDb} (h : db.Costed) {productId : Uuid}
    {product : Product} (hproduct : db.anyProduct productId = some product) :
    0 ≤ product.costPrice := by
  obtain ⟨row, hrow, rfl⟩ := Option.map_eq_some_iff.mp hproduct
  exact h row (Table.get_mem hrow).1

theorem storeCostPrice_costed {db db' : InventoryDb} {productId : Uuid} {cost : Option UnitCost}
    (hdb : db.Costed) (h : storeCostPrice db productId cost = .ok db') : db'.Costed := by
  cases cost with
  | none =>
      cases h
      exact hdb
  | some cost =>
      simp only [storeCostPrice, ite_error_eq_ok] at h
      obtain ⟨-, hcost, h⟩ := h
      cases h
      simp only [InventoryDb.setCostPrice]
      split
      · exact hdb
      · intro row hrow
        rcases Table.mem_put.mp hrow with ⟨hrow, -⟩ | rfl
        · exact hdb row hrow
        · exact not_lt.mp hcost

/-- The product tracks stock. -/
def InventoryDb.tracks (db : InventoryDb) (productId : Uuid) : Bool :=
  (db.anyProduct productId).any (·.isStockTracked)

theorem storeCostPrice_tracks {db db' : InventoryDb} {productId : Uuid} {cost : Option UnitCost}
    (h : storeCostPrice db productId cost = .ok db') : db'.tracks = db.tracks := by
  cases cost with
  | none =>
      cases h
      rfl
  | some cost =>
      simp only [storeCostPrice, ite_error_eq_ok] at h
      obtain ⟨-, -, h⟩ := h
      cases h
      simp only [InventoryDb.setCostPrice]
      split
      next => rfl
      next row hrow =>
        funext productId'
        simp only [InventoryDb.tracks, InventoryDb.anyProduct, Table.get_put]
        split
        next heq =>
          have hget : db.products.get productId' = some row := by
            rw [heq]
            exact Table.get_self hrow
          simp [hget]
        next => rfl

/-! ## Postings -/

/-- The tables after movements were added. -/
structure Adds (db : InventoryDb) (movements : List Movement) (db' : InventoryDb) : Prop where
  movements : db'.movements = db.movements ++ movements
  costed : db.Costed → db'.Costed
  tracks : db'.tracks = db.tracks

theorem Adds.of_same {db db' : InventoryDb} (hmovements : db'.movements = db.movements)
    (hproducts : db'.products = db.products) : Adds db [] db' where
  movements := by simp [hmovements]
  costed h := by
    rw [InventoryDb.Costed, hproducts]
    exact h
  tracks := by
    funext productId
    simp [InventoryDb.tracks, InventoryDb.anyProduct, hproducts]

theorem Adds.refl (db : InventoryDb) : Adds db [] db := .of_same rfl rfl

theorem Adds.trans {db db₁ db' : InventoryDb} {movements movements' : List Movement}
    (h : Adds db movements db₁) (h' : Adds db₁ movements' db') :
    Adds db (movements ++ movements') db' where
  movements := by rw [h'.movements, h.movements, List.append_assoc]
  costed hdb := h'.costed (h.costed hdb)
  tracks := h'.tracks.trans h.tracks

/-- The key belongs to a movement that was posted before. -/
def InventoryDb.replays (db : InventoryDb) (idempotencyKey : Option String) : Bool :=
  ((idempotencyKey.filter (· ≠ "")).bind fun key =>
    db.movements.find? (·.idempotencyKey = some key)).isSome

theorem MovementRequest.existing_isSome (request : MovementRequest) (db : InventoryDb) :
    (request.existing db).isSome = db.replays request.idempotencyKey := rfl

/-- A posting adds its row, unless its key shows that it was made before. -/
theorem postMovement_adds {db db' : InventoryDb} {request : MovementRequest} {movement : Movement}
    (h : postMovement db request = .ok (db', movement)) :
    (db.replays request.idempotencyKey = true ∧ db' = db) ∨
      (db.replays request.idempotencyKey = false ∧ Adds db [movement] db' ∧
        movement.Carries request ∧ (request.unitCost = none → db'.products = db.products)) := by
  obtain ⟨_, -, h⟩ := bind_eq_ok.mp h
  rw [← request.existing_isSome]
  split at h
  next existing hexisting =>
    split at h
    next =>
      cases h
      exact .inl ⟨by simp [hexisting], rfl⟩
    next => cases h
  next hexisting =>
    obtain ⟨balance, -, h⟩ := bind_eq_ok.mp h
    obtain ⟨cost, haverage, h⟩ := bind_eq_ok.mp h
    obtain ⟨movement', hmovement, h⟩ := bind_eq_ok.mp h
    obtain ⟨db₁, hstore, h⟩ := bind_eq_ok.mp h
    cases h
    have hsame := storeCostPrice_sameStock hstore
    refine .inr ⟨by simp [hexisting], ⟨?_, fun hdb => ?_, ?_⟩,
      MovementRequest.movement_carries hmovement, fun hnone => ?_⟩
    · show db₁.movements ++ [movement] = _
      rw [hsame.movements]
    · have hcosted : db₁.Costed := storeCostPrice_costed hdb hstore
      exact hcosted
    · have htracks : db₁.tracks = db.tracks := storeCostPrice_tracks hstore
      exact htracks
    · simp only [MovementRequest.averageCost, hnone] at haverage
      cases haverage
      cases hstore
      rfl

/-- A posting without a key is always made. -/
theorem postMovement_adds_of_noKey {db db' : InventoryDb} {request : MovementRequest}
    {movement : Movement} (hkey : request.idempotencyKey = none)
    (h : postMovement db request = .ok (db', movement)) :
    Adds db [movement] db' ∧ movement.Carries request ∧
      (request.unitCost = none → db'.products = db.products) := by
  rcases postMovement_adds h with ⟨hreplays, -⟩ | ⟨-, hposted⟩
  · rw [hkey] at hreplays
    cases hreplays
  · exact hposted

/-! ## Documents -/

theorem stored_outward {n : Quantity} (h : |n| < 10 ^ 20) : stored (toContext (-decimal n)) = -n := by
  have hneg : -decimal n = decimal (-n) := by
    unfold decimal
    push_cast
    ring
  have hlt : |-n| < 10 ^ 28 := by
    rw [abs_neg]
    linarith
  rw [hneg, toContext_decimal hlt, stored_decimal]

/-- The quantity of a document line, with the sign of its movement. -/
def DocumentKind.signed (kind : DocumentKind) (quantity : Quantity) : Quantity :=
  if kind.outward then -quantity else quantity

/-- The row of a line of a document. -/
structure Movement.OfLine (movement : Movement) (kind : DocumentKind) (product : Product)
    (line : DocumentLine) : Prop where
  productId : movement.productId = product.id
  movementType : movement.movementType = kind.movementType
  quantity : movement.quantity = kind.signed line.quantity
  unitCost : movement.unitCost = line.unitCost

/-- A line of a product that tracks stock adds its row, and any other adds nothing. -/
theorem postMovementForDocument_adds {kind : DocumentKind} {warehouseId documentId : Uuid}
    {db db' : InventoryDb} {product : Product} {line : DocumentLine}
    (h : postMovementForDocument kind warehouseId documentId db product line = .ok db') :
    (product.isStockTracked = false ∧ db' = db) ∨
      (product.isStockTracked = true ∧ (line.unitCost = none → db'.products = db.products) ∧
        ∃ movement : Movement, Adds db [movement] db' ∧ movement.OfLine kind product line) := by
  simp only [postMovementForDocument] at h
  split at h
  next htracked =>
    obtain ⟨⟨db₁, movement⟩, hpost, h⟩ := bind_eq_ok.mp h
    cases h
    obtain ⟨hadds, hcarries, hproducts⟩ := postMovement_adds_of_noKey rfl hpost
    refine .inr ⟨htracked, fun hnone => hproducts (by simp [hnone]), movement, hadds,
      hcarries.productId, hcarries.movementType, ?_, ?_⟩
    · rw [hcarries.quantity]
      simp only [DocumentKind.signed]
      split
      · exact stored_outward line.quantity_lt
      · exact stored_decimal _
    · rw [hcarries.unitCost]
      cases line.unitCost with
      | none => rfl
      | some cost =>
          have hcost : (cost : ℚ) / 10 ^ 6 * 10 ^ 6 = cost := by field_simp
          simp [hcost]
  next htracked =>
    cases h
    exact .inl ⟨by simpa using htracked, rfl⟩

/-! ## Requests of the inventory -/

variable {context : TenantContext} {db db' : InventoryDb}

theorem validatePair_eq_ok {warehouseId productId : Uuid} {product : Product}
    (h : validatePair context db warehouseId productId = .ok product) :
    db.anyProduct productId = some product := by
  obtain ⟨_, -, h⟩ := bind_eq_ok.mp h
  obtain ⟨product', hproduct, h⟩ := bind_eq_ok.mp h
  obtain ⟨_, -, h⟩ := bind_eq_ok.mp h
  obtain ⟨_, -, h⟩ := bind_eq_ok.mp h
  cases h
  exact InventoryDb.anyProduct_of_product (orRaise_eq_ok.mp hproduct)

theorem receipt_adds {payload : MovementCreate} {key : Option String} {movement : Movement}
    (h : receipt context db payload key = .ok (db', movement)) :
    (db.replays key = true ∧ db' = db) ∨
      (db.replays key = false ∧ Adds db [movement] db' ∧ movement.movementType = .receipt ∧
        ∃ unitCost, payload.unitCost = some unitCost ∧
          movement.unitCost = some (roundHalfUp (unitCost * 10 ^ 6))) := by
  obtain ⟨unitCost, hunitCost, h⟩ := bind_eq_ok.mp h
  obtain ⟨product, -, h⟩ := bind_eq_ok.mp (onIntegrityError_eq_ok.mp h)
  rcases postMovement_adds h with hreplay | ⟨hreplays, hadds, hcarries, -⟩
  · exact .inl hreplay
  · exact .inr ⟨hreplays, hadds, hcarries.movementType, unitCost, orRaise_eq_ok.mp hunitCost,
      hcarries.unitCost⟩

theorem issue_adds {payload : MovementCreate} {key : Option String} {movement : Movement}
    (h : issue context db payload key = .ok (db', movement)) :
    (db.replays key = true ∧ db' = db) ∨
      (db.replays key = false ∧ Adds db [movement] db' ∧ movement.movementType = .issue ∧
        movement.unitCost = none ∧ movement.productId = payload.productId) := by
  obtain ⟨product, hproduct, h⟩ := bind_eq_ok.mp (onIntegrityError_eq_ok.mp h)
  rcases postMovement_adds h with hreplay | ⟨hreplays, hadds, hcarries, -⟩
  · exact .inl hreplay
  · exact .inr ⟨hreplays, hadds, hcarries.movementType, hcarries.unitCost,
      hcarries.productId.trans (InventoryDb.anyProduct_id (validatePair_eq_ok hproduct))⟩

theorem adjust_adds {payload : AdjustmentCreate} {adjustmentId : Uuid} {key : Option String}
    {movement : Movement} (h : adjust context db payload adjustmentId key = .ok (db', movement)) :
    (db.replays key = true ∧ Adds db [] db') ∨
      (db.replays key = false ∧ Adds db [movement] db' ∧ movement.movementType = .adjustment ∧
        movement.unitCost = none ∧ movement.productId = payload.productId) := by
  obtain ⟨product, hproduct, h⟩ := bind_eq_ok.mp (onIntegrityError_eq_ok.mp h)
  obtain ⟨⟨db₁, movement'⟩, hpost, h⟩ := bind_eq_ok.mp h
  obtain ⟨adjustment, -, h⟩ := bind_eq_ok.mp h
  obtain ⟨adjustments, -, h⟩ := bind_eq_ok.mp h
  cases h
  rcases postMovement_adds hpost with ⟨hreplays, rfl⟩ | ⟨hreplays, hadds, hcarries, -⟩
  · exact .inl ⟨hreplays, .of_same rfl rfl⟩
  · exact .inr ⟨hreplays, ⟨hadds.movements, hadds.costed, hadds.tracks⟩, hcarries.movementType,
      hcarries.unitCost,
      hcarries.productId.trans (InventoryDb.anyProduct_id (validatePair_eq_ok hproduct))⟩

theorem reserve_adds {payload : ReservationCreate} {reservationId : Uuid}
    {reservation : Reservation}
    (h : reserve context db payload reservationId = .ok (db', reservation)) : Adds db [] db' := by
  obtain ⟨_, -, h⟩ := bind_eq_ok.mp h
  obtain ⟨_, -, h⟩ := bind_eq_ok.mp h
  obtain ⟨_, -, h⟩ := bind_eq_ok.mp h
  obtain ⟨_, -, h⟩ := bind_eq_ok.mp h
  obtain ⟨_, -, h⟩ := bind_eq_ok.mp h
  cases h
  exact .of_same rfl rfl

theorem releaseReservation_adds {reservation : Reservation}
    (h : releaseReservation db reservation = .ok db') : Adds db [] db' := by
  obtain ⟨_, -, h⟩ := bind_eq_ok.mp h
  obtain ⟨_, -, h⟩ := bind_eq_ok.mp h
  cases h
  exact .of_same rfl rfl

theorem release_adds {reservationId : Uuid} {u : Unit}
    (h : release db reservationId = .ok (db', u)) : Adds db [] db' := by
  obtain ⟨_, -, h⟩ := bind_eq_ok.mp h
  obtain ⟨_, -, h⟩ := bind_eq_ok.mp h
  obtain ⟨_, hrelease, h⟩ := bind_eq_ok.mp h
  cases h
  exact releaseReservation_adds hrelease

theorem releaseExpired_adds {now : Int} {locked : List Uuid} {n : Nat}
    (h : releaseExpired db now locked = .ok (db', n)) : Adds db [] db' := by
  obtain ⟨db₁, hloop, h⟩ := bind_eq_ok.mp h
  cases h
  refine foldlM_invariant (I := fun db₁ => Adds db [] db₁) (fun reservation _ db₁ db₂ hdb₁ hpass => ?_)
    hloop (.refl db)
  obtain ⟨_, -, hpass⟩ := bind_eq_ok.mp hpass
  exact hdb₁.trans (releaseReservation_adds hpass)

theorem createTransfer_adds {payload : TransferCreate} {transferId : Uuid} {transfer : Transfer}
    (h : createTransfer context db payload transferId = .ok (db', transfer)) : Adds db [] db' := by
  have hsame : db'.movements = db.movements ∧ db'.products = db.products := by
    obtain ⟨_, -, h⟩ := bind_eq_ok.mp h
    have h := onIntegrityError_eq_ok.mp h
    obtain ⟨_, -, h⟩ := bind_eq_ok.mp h
    obtain ⟨_, -, h⟩ := bind_eq_ok.mp h
    obtain ⟨_, -, h⟩ := bind_eq_ok.mp h
    obtain ⟨_, -, h⟩ := bind_eq_ok.mp h
    obtain ⟨_, -, h⟩ := bind_eq_ok.mp h
    obtain ⟨_, -, h⟩ := bind_eq_ok.mp h
    obtain ⟨_, -, h⟩ := bind_eq_ok.mp h
    obtain ⟨_, -, h⟩ := bind_eq_ok.mp h
    obtain ⟨_, -, h⟩ := bind_eq_ok.mp h
    cases h
    exact ⟨rfl, rfl⟩
  exact .of_same hsame.1 hsame.2

/-- Movements between warehouses were added, and no others. -/
def AddsTransfers (db db' : InventoryDb) : Prop :=
  ∃ movements, Adds db movements db' ∧ ∀ m ∈ movements, m.movementType.isTransfer = true

theorem AddsTransfers.of_none (h : Adds db [] db') : AddsTransfers db db' :=
  ⟨[], h, List.forall_mem_nil _⟩

theorem postTransferLine_adds {transfer : Transfer} {receive : Bool} {key : Option String}
    {line : TransferLine} (h : postTransferLine context transfer receive key db line = .ok db') :
    AddsTransfers db db' := by
  obtain ⟨product, -, h⟩ := bind_eq_ok.mp h
  obtain ⟨⟨db₁, movement⟩, hpost, h⟩ := bind_eq_ok.mp h
  cases h
  rcases postMovement_adds hpost with ⟨-, rfl⟩ | ⟨-, hadds, hcarries, -⟩
  · exact .of_none (.refl _)
  · refine ⟨[movement], hadds, fun m hm => ?_⟩
    rw [List.mem_singleton.mp hm, hcarries.movementType]
    cases receive with
    | false => rfl
    | true => rfl

theorem transitionTransfer_adds {transferId : Uuid} {receive : Bool} {key : Option String}
    {transfer : Transfer}
    (h : transitionTransfer context db transferId receive key = .ok (db', transfer)) :
    AddsTransfers db db' := by
  obtain ⟨found, -, h⟩ := bind_eq_ok.mp h
  obtain ⟨_, -, h⟩ := bind_eq_ok.mp h
  obtain ⟨db₁, hloop, h⟩ := bind_eq_ok.mp h
  obtain ⟨transfers, -, h⟩ := bind_eq_ok.mp h
  cases h
  obtain ⟨movements, hadds, htransfers⟩ := foldlM_invariant (I := fun db₁ => AddsTransfers db db₁)
    (fun line _ db₁ db₂ hdb₁ hpass => by
      obtain ⟨movements, hadds, htransfers⟩ := hdb₁
      obtain ⟨movements', hadds', htransfers'⟩ := postTransferLine_adds hpass
      refine ⟨movements ++ movements', hadds.trans hadds', fun m hm => ?_⟩
      rcases List.mem_append.mp hm with hm | hm
      · exact htransfers m hm
      · exact htransfers' m hm)
    hloop (.of_none (.refl db))
  exact ⟨movements, ⟨hadds.movements, hadds.costed, hadds.tracks⟩, htransfers⟩

end Nexora.Inventory
