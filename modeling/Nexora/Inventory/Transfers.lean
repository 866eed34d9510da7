import Nexora.Inventory.Replays
import Nexora.Inventory.Valuation

/-!
# Transfers

A transfer is drafted, shipped and received.  `transition_transfer` posts one movement for each
line, out of the source when it ships and into the destination when it receives, and what lies
between is in transit.

`TransferStep` says what one request makes of the transfers and of the movements between
warehouses.  A line posts no movement when its key belongs to one that asks for the same.  Such a
movement would be of the same transfer, and before a transfer is shipped there is none that goes
out of it, so shipping posts every line (`LegsPosted.exists_posted`), and so does receiving.
-/

namespace Nexora.Inventory

open Nexora Nexora.Catalog Foundations

/-! ## Stock and movements -/

/-- What was moved of a product, without the movements between warehouses. -/
def InventoryDb.moved (db : InventoryDb) (productId : Uuid) : Quantity :=
  ((db.movements.filter fun m => m.productId = productId ∧ m.movementType.isTransfer = false).map
    Movement.quantity).sum

/-- The movements between warehouses, all together. -/
def InventoryDb.transferred (db : InventoryDb) (productId : Uuid) : Quantity :=
  ((db.movements.filter fun m => m.productId = productId ∧ m.movementType.isTransfer = true).map
    Movement.quantity).sum

/-- What a transfer carries of a product. -/
def Transfer.carries (transfer : Transfer) (productId : Uuid) : Quantity :=
  ((transfer.lines.filter (·.productId = productId)).map TransferLine.quantity).sum

/-- What is on its way between warehouses. -/
def InventoryDb.inTransit (db : InventoryDb) (productId : Uuid) : Quantity :=
  ((db.transfers.rows.filter (·.status = .inTransit)).map (·.carries productId)).sum

theorem InventoryDb.moved_add_transferred (db : InventoryDb) (productId : Uuid) :
    db.moved productId + db.transferred productId =
      ((db.movements.filter (·.productId = productId)).map Movement.quantity).sum := by
  simp only [moved, transferred, Table.sum_filter, decide_eq_true_eq]
  rw [← List.sum_map_add]
  refine congrArg List.sum (List.map_congr_left fun m _ => ?_)
  cases m.movementType.isTransfer with
  | false => simp
  | true => simp

/-- Movements of a pair without a balance row cancel out. -/
theorem LedgerSound.sum_without_row {db : InventoryDb} (h : LedgerSound db) (productId : Uuid) :
    ((db.movements.filter fun m => m.productId = productId ∧ db.balances.get m.pair = none).map
      Movement.quantity).sum = 0 := by
  set rest := db.movements.filter fun m => m.productId = productId ∧ db.balances.get m.pair = none
    with hrest
  obtain ⟨pairs, hpairs⟩ : ∃ pairs : Table (id : Pair → Pair),
      pairs.rows = (rest.map Movement.pair).dedup :=
    ⟨⟨(rest.map Movement.pair).dedup, by simpa using List.nodup_dedup _⟩, rfl⟩
  have hgroups := pairs.sum_group (fun _ => true) Movement.pair Movement.quantity rest
  have hall : (rest.filter fun m => (pairs.get m.pair).any fun _ => true) = rest := by
    refine List.filter_eq_self.mpr fun m hm => ?_
    have hmem : m.pair ∈ pairs.rows := by
      rw [hpairs]
      exact List.mem_dedup.mpr (List.mem_map_of_mem hm)
    have hget : pairs.get m.pair = some m.pair := Table.get_eq_some.mpr ⟨hmem, rfl⟩
    rw [hget]
    rfl
  rw [hall] at hgroups
  rw [← hgroups]
  refine List.sum_eq_zero fun x hx => ?_
  obtain ⟨pair, hpair, rfl⟩ := List.mem_map.mp hx
  rw [List.mem_filter, hpairs, List.mem_dedup] at hpair
  obtain ⟨m, hm, rfl⟩ := List.mem_map.mp hpair.1
  obtain ⟨hproduct, hnone⟩ := of_decide_eq_true (List.mem_filter.mp hm).2
  -- All movements of such a pair are left, and its balance is the empty one.
  have hledger : rest.filter (·.pair = m.pair) = db.ledger m.pair := by
    rw [hrest, List.filter_filter]
    refine List.filter_congr fun m' _ => ?_
    by_cases heq : m'.pair = m.pair
    · have hproduct' : m'.productId = productId := (congrArg Prod.snd heq).trans hproduct
      simp [heq, hproduct', hnone]
    · simp [heq]
  have honHand := h.onHand m.pair
  rw [← hledger, InventoryDb.balance, hnone] at honHand
  exact honHand.symm

/-- What all warehouses hold is what was moved. -/
theorem LedgerSound.totalOnHand {db : InventoryDb} (h : LedgerSound db) (productId : Uuid) :
    db.totalOnHand productId = db.moved productId + db.transferred productId := by
  have hrows : (db.productBalances productId).map (·.2.quantityOnHand) =
      (db.productBalances productId).map fun row =>
        ((db.movements.filter (·.pair = row.1)).map Movement.quantity).sum := by
    refine List.map_congr_left fun row hrow => ?_
    have hget := Table.get_eq_some.mpr ⟨(List.mem_filter.mp hrow).1, rfl⟩
    have honHand := h.onHand row.1
    rw [InventoryDb.balance, hget] at honHand
    exact honHand
  have hgroups := db.balances.sum_group (fun row => decide (row.1.2 = productId)) Movement.pair
    Movement.quantity db.movements
  rw [InventoryDb.totalOnHand, hrows, InventoryDb.moved_add_transferred,
    InventoryDb.productBalances, hgroups]
  have hsplit : ∀ m : Movement, (if m.productId = productId then m.quantity else 0) =
      (if (db.balances.get m.pair).any fun row => decide (row.1.2 = productId) then m.quantity
        else 0) +
      if m.productId = productId ∧ db.balances.get m.pair = none then m.quantity else 0 := by
    intro m
    cases hget : db.balances.get m.pair with
    | none => simp
    | some row =>
        have hkey : row.1.2 = m.productId := congrArg Prod.snd (Table.get_mem hget).2
        simp [hkey]
  have hnone := h.sum_without_row productId
  simp only [Table.sum_filter, decide_eq_true_eq] at hnone ⊢
  simp only [hsplit]
  rw [List.sum_map_add, hnone, add_zero]

/-! ## What a line posts -/

/-- The warehouse that the goods leave, or the one that they reach. -/
def Transfer.warehouseId (transfer : Transfer) (receive : Bool) : Uuid :=
  if receive then transfer.destinationWarehouseId else transfer.sourceWarehouseId

def legType (receive : Bool) : MovementType := if receive then .transferIn else .transferOut

/-- What a line adds to the stock of a warehouse. -/
def TransferLine.signed (line : TransferLine) (receive : Bool) : Quantity :=
  if receive then line.quantity else -line.quantity

/-- The movement of a line. -/
structure Movement.IsLeg (movement : Movement) (transfer : Transfer) (receive : Bool)
    (line : TransferLine) : Prop where
  movementType : movement.movementType = legType receive
  warehouseId : movement.warehouseId = transfer.warehouseId receive
  productId : movement.productId = line.productId
  quantity : movement.quantity = line.signed receive
  referenceId : movement.referenceId = some transfer.id

theorem legType_isTransfer (receive : Bool) : (legType receive).isTransfer = true := by
  cases receive with
  | false => rfl
  | true => rfl

/-- A posting returns a movement as the columns keep it, which is a new one or was there. -/
theorem postMovement_face {db db' : InventoryDb} {request : MovementRequest} {movement : Movement}
    (h : postMovement db request = .ok (db', movement)) :
    movement.face = request.face.kept ∧
      (movement ∈ db.movements ∧ db'.movements = db.movements ∨
        db'.movements = db.movements ++ [movement]) := by
  obtain ⟨_, -, h⟩ := bind_eq_ok.mp h
  split at h
  next existing hexisting =>
    split at h
    next hsame =>
      cases h
      obtain ⟨key, -, hfind⟩ := Option.bind_eq_some_iff.mp hexisting
      refine ⟨?_, .inl ⟨List.mem_of_find?_eq_some hfind, rfl⟩⟩
      rw [← Movement.sameRequest_iff.mp hsame, Movement.face_kept]
    next => cases h
  next =>
    obtain ⟨balance, -, h⟩ := bind_eq_ok.mp h
    obtain ⟨cost, -, h⟩ := bind_eq_ok.mp h
    obtain ⟨movement', hmovement, h⟩ := bind_eq_ok.mp h
    obtain ⟨db₁, hcost, h⟩ := bind_eq_ok.mp h
    cases h
    refine ⟨(MovementRequest.movement_face hmovement).1, .inr ?_⟩
    show db₁.movements ++ [movement] = _
    rw [(storeCostPrice_sameStock hcost).movements]

/-- A posting writes the balance and the movement, and a cost, unless its key was there. -/
theorem postMovement_tables {db db' : InventoryDb} {request : MovementRequest}
    {movement : Movement} (h : postMovement db request = .ok (db', movement)) :
    db.replays request.idempotencyKey = true ∧ db' = db ∨
      db.replays request.idempotencyKey = false ∧ ∃ balance products,
        db' = { db.setBalance request.pair balance with
          movements := db.movements ++ [movement], products := products } := by
  obtain ⟨_, -, h⟩ := bind_eq_ok.mp h
  rw [← request.existing_isSome]
  split at h
  next existing hexisting =>
    split at h
    next =>
      cases h
      exact .inl ⟨by rw [hexisting]; rfl, rfl⟩
    next => cases h
  next hexisting =>
    obtain ⟨balance, -, h⟩ := bind_eq_ok.mp h
    obtain ⟨cost, -, h⟩ := bind_eq_ok.mp h
    obtain ⟨movement', -, h⟩ := bind_eq_ok.mp h
    obtain ⟨db₁, hcost, h⟩ := bind_eq_ok.mp h
    cases h
    obtain ⟨products, rfl⟩ := storeCostPrice_eq_ok hcost
    exact .inr ⟨by rw [hexisting]; rfl, balance, products, rfl⟩

theorem postMovement_transfers {db db' : InventoryDb} {request : MovementRequest}
    {movement : Movement} (h : postMovement db request = .ok (db', movement)) :
    db'.transfers = db.transfers := by
  rcases postMovement_tables h with ⟨-, rfl⟩ | ⟨-, balance, products, rfl⟩
  · rfl
  · rfl

theorem postTransferLine_leg {context : TenantContext} {transfer : Transfer} {receive : Bool}
    {key : Option String} {db db' : InventoryDb} {line : TransferLine}
    (h : postTransferLine context transfer receive key db line = .ok db') :
    ∃ movement : Movement, movement.IsLeg transfer receive line ∧
      (movement ∈ db.movements ∧ db'.movements = db.movements ∨
        db'.movements = db.movements ++ [movement]) := by
  obtain ⟨product, hproduct, h⟩ := bind_eq_ok.mp h
  obtain ⟨⟨db₁, movement⟩, hpost, h⟩ := bind_eq_ok.mp h
  cases h
  obtain ⟨hface, hmovements⟩ := postMovement_face hpost
  refine ⟨movement, ⟨congrArg RequestFace.movementType hface,
    congrArg RequestFace.warehouseId hface, ?_, ?_, congrArg RequestFace.referenceId hface⟩,
    hmovements⟩
  · exact (congrArg RequestFace.productId hface).trans (validatePair_id hproduct)
  · have hquantity := congrArg (stored ∘ RequestFace.quantity) hface
    simp only [Function.comp_apply, Movement.face, RequestFace.kept, MovementRequest.face,
      stored_decimal] at hquantity
    rw [hquantity]
    cases receive with
    | false => exact stored_outward line.quantity_lt
    | true => exact stored_decimal _

/-! ## What a transition posts -/

/-- Lines one after another, each with a new movement or one that was there. -/
inductive LegsPosted (transfer : Transfer) (receive : Bool) :
    List TransferLine → List Movement → List Movement → Prop
  | nil {movements : List Movement} : LegsPosted transfer receive [] movements movements
  | cons {line : TransferLine} {lines : List TransferLine}
      {movements movements' movements'' : List Movement} {movement : Movement}
      (hleg : movement.IsLeg transfer receive line)
      (hpost : movement ∈ movements ∧ movements' = movements ∨
        movements' = movements ++ [movement])
      (hrest : LegsPosted transfer receive lines movements' movements'') :
      LegsPosted transfer receive (line :: lines) movements movements''

theorem legsPosted_of_foldlM {context : TenantContext} {transfer : Transfer} {receive : Bool}
    {key : Option String} {lines : List TransferLine} {db db' : InventoryDb}
    (h : lines.foldlM (postTransferLine context transfer receive key) db = .ok db') :
    LegsPosted transfer receive lines db.movements db'.movements := by
  induction lines generalizing db with
  | nil =>
      cases h
      exact .nil
  | cons line lines ih =>
      obtain ⟨db₁, hline, hrest⟩ := bind_eq_ok.mp h
      obtain ⟨movement, hleg, hpost⟩ := postTransferLine_leg hline
      exact .cons hleg hpost (ih hrest)

/-- Where no line was posted before, every line is posted. -/
theorem LegsPosted.exists_posted {transfer : Transfer} {receive : Bool}
    {lines : List TransferLine} {movements movements' : List Movement}
    (h : LegsPosted transfer receive lines movements movements')
    (hunique : (lines.map TransferLine.productId).Nodup)
    (hfresh : ∀ line ∈ lines, ∀ m ∈ movements, ¬m.IsLeg transfer receive line) :
    ∃ posted : List Movement, movements' = movements ++ posted ∧
      List.Forall₂ (fun (m : Movement) line => m.IsLeg transfer receive line) posted lines := by
  induction h with
  | nil => exact ⟨[], (List.append_nil _).symm, .nil⟩
  | @cons line lines movements movements' movements'' movement hleg hpost hrest ih =>
      rw [List.map_cons, List.nodup_cons] at hunique
      obtain rfl : movements' = movements ++ [movement] := by
        rcases hpost with ⟨hmem, -⟩ | hnew
        · exact absurd hleg (hfresh line List.mem_cons_self movement hmem)
        · exact hnew
      obtain ⟨posted, hposted, hlegs⟩ := ih hunique.2 fun line' hline' m hm hleg' => by
        rcases List.mem_append.mp hm with hm | hm
        · exact hfresh line' (List.mem_cons_of_mem _ hline') m hm hleg'
        · -- The movement of another line is of another product.
          obtain rfl := List.mem_singleton.mp hm
          refine hunique.1 ?_
          rw [← hleg.productId, hleg'.productId]
          exact List.mem_map_of_mem hline'
      exact ⟨movement :: posted, by rw [hposted, List.append_assoc, List.singleton_append],
        .cons hleg hlegs⟩

/-! ## What a request makes of the transfers -/

/-- Movements of other kinds were added, and no transfer was changed. -/
structure Apart (db db' : InventoryDb) : Prop where
  movements : ∃ movements, db'.movements = db.movements ++ movements ∧
    ∀ m ∈ movements, m.movementType.isTransfer = false
  transfers : db'.transfers = db.transfers

namespace Apart

variable {db db₁ db' : InventoryDb} {context : TenantContext}

theorem of_same (hmovements : db'.movements = db.movements)
    (htransfers : db'.transfers = db.transfers) : Apart db db' :=
  ⟨⟨[], by rw [hmovements, List.append_nil], List.forall_mem_nil _⟩, htransfers⟩

theorem refl (db : InventoryDb) : Apart db db := of_same rfl rfl

theorem trans (h : Apart db db₁) (h' : Apart db₁ db') : Apart db db' := by
  obtain ⟨movements, hmovements, hothers⟩ := h.movements
  obtain ⟨movements', hmovements', hothers'⟩ := h'.movements
  refine ⟨⟨movements ++ movements', ?_, fun m hm => ?_⟩, h'.transfers.trans h.transfers⟩
  · rw [hmovements', hmovements, List.append_assoc]
  · rcases List.mem_append.mp hm with hm | hm
    · exact hothers m hm
    · exact hothers' m hm

theorem foldlM {Item : Type} {pass : InventoryDb → Item → Except Err InventoryDb}
    (hpass : ∀ item db db', pass db item = .ok db' → Apart db db') {items : List Item}
    (h : items.foldlM pass db = .ok db') : Apart db db' :=
  foldlM_invariant (I := fun db' => Apart db db')
    (fun item _ _ _ hapart hitem => hapart.trans (hpass item _ _ hitem)) h (refl db)

theorem postMovement {request : MovementRequest} {movement : Movement}
    (htype : request.movementType.isTransfer = false)
    (h : Inventory.postMovement db request = .ok (db', movement)) : Apart db db' := by
  have hface := congrArg RequestFace.movementType (postMovement_face h).1
  rcases postMovement_tables h with ⟨-, rfl⟩ | ⟨-, balance, products, rfl⟩
  · exact refl db'
  · refine ⟨⟨[movement], rfl, fun m hm => ?_⟩, rfl⟩
    rw [List.mem_singleton.mp hm, show movement.movementType = _ from hface]
    exact htype

theorem postPayload {payload : MovementCreate} {movementType : MovementType} {quantity : ℚ}
    {unitCost : Option ℚ} {key : Option String} {movement : Movement}
    (htype : movementType.isTransfer = false)
    (h : Inventory.postPayload context db payload movementType quantity unitCost key =
      .ok (db', movement)) : Apart db db' := by
  obtain ⟨_, -, h⟩ := bind_eq_ok.mp (onIntegrityError_eq_ok.mp h)
  exact postMovement htype h

theorem adjust {payload : AdjustmentCreate} {adjustmentId : Uuid} {key : Option String}
    {movement : Movement}
    (h : Inventory.adjust context db payload adjustmentId key = .ok (db', movement)) :
    Apart db db' := by
  obtain ⟨_, -, h⟩ := bind_eq_ok.mp (onIntegrityError_eq_ok.mp h)
  obtain ⟨⟨db₁, movement'⟩, hpost, h⟩ := bind_eq_ok.mp h
  obtain ⟨_, -, h⟩ := bind_eq_ok.mp h
  obtain ⟨_, -, h⟩ := bind_eq_ok.mp h
  cases h
  exact (postMovement rfl hpost).trans (of_same rfl rfl)

theorem reserve {payload : ReservationCreate} {reservationId : Uuid} {reservation : Reservation}
    (h : Inventory.reserve context db payload reservationId = .ok (db', reservation)) :
    Apart db db' := by
  obtain ⟨_, -, h⟩ := bind_eq_ok.mp h
  obtain ⟨_, -, h⟩ := bind_eq_ok.mp h
  obtain ⟨_, -, h⟩ := bind_eq_ok.mp h
  obtain ⟨_, -, h⟩ := bind_eq_ok.mp h
  obtain ⟨_, -, h⟩ := bind_eq_ok.mp h
  cases h
  exact of_same rfl rfl

theorem releaseReservation {reservation : Reservation}
    (h : Inventory.releaseReservation db reservation = .ok db') : Apart db db' := by
  obtain ⟨_, -, h⟩ := bind_eq_ok.mp h
  obtain ⟨_, -, h⟩ := bind_eq_ok.mp h
  cases h
  exact of_same rfl rfl

theorem document {document : Document} {kind : DocumentKind} {u : Unit}
    (htype : kind.movementType.isTransfer = false)
    (h : document.post kind db = .ok (db', u)) : Apart db db' := by
  obtain ⟨_, -, h⟩ := bind_eq_ok.mp h
  obtain ⟨db₁, hloop, h⟩ := bind_eq_ok.mp h
  obtain ⟨_, -, h⟩ := bind_eq_ok.mp h
  cases h
  refine foldlM (fun line db₁ db₂ hline => ?_) hloop
  obtain ⟨_, -, hline⟩ := bind_eq_ok.mp hline
  obtain ⟨product, -, hline⟩ := bind_eq_ok.mp hline
  obtain ⟨_, -, hline⟩ := bind_eq_ok.mp hline
  unfold postMovementForDocument at hline
  split at hline
  next =>
    obtain ⟨⟨db₃, movement⟩, hpost, hline⟩ := bind_eq_ok.mp hline
    cases hline
    exact postMovement htype hpost
  next =>
    cases hline
    exact refl _

end Apart

/-- What one request makes of the transfers and the movements. -/
inductive TransferStep (db db' : InventoryDb) : Prop
  | other (happart : Apart db db') : TransferStep db db'
  | create {transfer : Transfer} (hdraft : transfer.status = .draft)
      (hmovements : db'.movements = db.movements)
      (hinsert : db.transfers.insert transfer = some db'.transfers) : TransferStep db db'
  | move {transfer : Transfer} {lines : List TransferLine} (receive : Bool)
      (hget : db.transfers.get transfer.id = some transfer)
      (hstatus : transfer.status = if receive then .inTransit else .draft)
      (hlines : lines.Perm transfer.lines)
      (hposted : LegsPosted transfer receive lines db.movements db'.movements)
      (hreplace : db.transfers.replace transfer.id
        { transfer with status := if receive then .completed else .inTransit } =
          some db'.transfers) : TransferStep db db'

theorem TransferStep.of_create {context : TenantContext} {db db' : InventoryDb}
    {payload : TransferCreate} {transferId : Uuid} {transfer : Transfer}
    (h : createTransfer context db payload transferId = .ok (db', transfer)) :
    TransferStep db db' := by
  obtain ⟨_, -, h⟩ := bind_eq_ok.mp h
  have h := onIntegrityError_eq_ok.mp h
  obtain ⟨_, -, h⟩ := bind_eq_ok.mp h
  obtain ⟨_, -, h⟩ := bind_eq_ok.mp h
  obtain ⟨_, -, h⟩ := bind_eq_ok.mp h
  obtain ⟨_, -, h⟩ := bind_eq_ok.mp h
  obtain ⟨_, -, h⟩ := bind_eq_ok.mp h
  obtain ⟨_, -, h⟩ := bind_eq_ok.mp h
  obtain ⟨_, -, h⟩ := bind_eq_ok.mp h
  obtain ⟨_, hrow, h⟩ := bind_eq_ok.mp h
  obtain ⟨_, hinsert, h⟩ := bind_eq_ok.mp h
  cases h
  refine .create ?_ rfl (orRaise_eq_ok.mp hinsert)
  unfold TransferCreate.row at hrow
  split at hrow
  next =>
    split at hrow
    next =>
      cases hrow
      rfl
    next => cases hrow
  next => cases hrow

theorem requireTransferStatus_eq_ok {transfer : Transfer} {expected : TransferStatus} {u : Unit}
    (h : requireTransferStatus transfer expected = .ok u) : transfer.status = expected := by
  unfold requireTransferStatus at h
  split at h
  next hstatus => exact hstatus
  next => cases h

theorem TransferStep.of_transition {context : TenantContext} {db db' : InventoryDb}
    {transferId : Uuid} {receive : Bool} {key : Option String} {transfer : Transfer}
    (h : transitionTransfer context db transferId receive key = .ok (db', transfer)) :
    TransferStep db db' := by
  obtain ⟨found, hget, h⟩ := bind_eq_ok.mp h
  obtain ⟨_, hstatus, h⟩ := bind_eq_ok.mp h
  obtain ⟨db₁, hloop, h⟩ := bind_eq_ok.mp h
  obtain ⟨transfers, hreplace, h⟩ := bind_eq_ok.mp h
  cases h
  replace hget := orRaise_eq_ok.mp hget
  replace hreplace := orRaise_eq_ok.mp hreplace
  obtain rfl := (Table.get_mem hget).2
  have htransfers : db₁.transfers = db.transfers :=
    foldlM_invariant (I := fun db₁ => db₁.transfers = db.transfers)
      (fun line _ db₁ db₂ hdb₁ hline => by
        obtain ⟨_, -, hline⟩ := bind_eq_ok.mp hline
        obtain ⟨⟨db₃, movement⟩, hpost, hline⟩ := bind_eq_ok.mp hline
        cases hline
        rw [postMovement_transfers hpost, hdb₁]) hloop rfl
  rw [htransfers] at hreplace
  have hposted := legsPosted_of_foldlM hloop
  refine .move receive hget ?_ (List.perm_insertionSort _ _) hposted hreplace
  exact requireTransferStatus_eq_ok hstatus

theorem Op.body_transferStep {op : Op} {db db' : InventoryDb} {u : Unit}
    (h : op.body db = .ok (db', u)) : TransferStep db db' := by
  cases op with
  | receipt context payload key =>
      obtain ⟨movement, h⟩ := tables_eq_ok h
      obtain ⟨_, -, h⟩ := bind_eq_ok.mp h
      exact .other (.postPayload rfl h)
  | issue context payload key => exact .other (.postPayload rfl (tables_eq_ok h).choose_spec)
  | adjust context payload id key => exact .other (.adjust (tables_eq_ok h).choose_spec)
  | reserve context payload id => exact .other (.reserve (tables_eq_ok h).choose_spec)
  | release id =>
      obtain ⟨_, -, h⟩ := bind_eq_ok.mp h
      obtain ⟨_, -, h⟩ := bind_eq_ok.mp h
      obtain ⟨_, hrelease, h⟩ := bind_eq_ok.mp h
      cases h
      exact .other (.releaseReservation hrelease)
  | releaseExpired now locked =>
      obtain ⟨n, h⟩ := tables_eq_ok h
      obtain ⟨db₁, hloop, h⟩ := bind_eq_ok.mp h
      cases h
      refine .other (.foldlM (fun reservation _ _ hpass => ?_) hloop)
      obtain ⟨_, -, hpass⟩ := bind_eq_ok.mp hpass
      exact .releaseReservation hpass
  | createTransfer context payload id => exact .of_create (tables_eq_ok h).choose_spec
  | shipTransfer context id key => exact .of_transition (tables_eq_ok h).choose_spec
  | receiveTransfer context id key => exact .of_transition (tables_eq_ok h).choose_spec
  | fulfil document => exact .other (.document rfl h)
  | issueCreditNote document => exact .other (.document rfl h)
  | checkout document => exact .other (.document rfl h)
  | refund document => exact .other (.document rfl h)
  | receiveGoods document => exact .other (.document rfl h)

/-! ## What holds between requests -/

/-- The movements of a transfer on one side, of one product. -/
def InventoryDb.legs (db : InventoryDb) (transferId : Uuid) (receive : Bool) (productId : Uuid) :
    List Movement :=
  db.movements.filter fun m => m.movementType = legType receive ∧
    m.referenceId = some transferId ∧ m.productId = productId

/-- The goods have left the source, or have reached the destination. -/
def TransferStatus.reached (status : TransferStatus) (receive : Bool) : Bool :=
  if receive then status = .completed else status = .inTransit ∨ status = .completed

/-- Where a movement was, and what it moved. -/
def Movement.placed (movement : Movement) : Uuid × Quantity :=
  (movement.warehouseId, movement.quantity)

/-- The line has left one movement behind for each side it has been moved on. -/
def Transfer.PostedOnce (transfer : Transfer) (db : InventoryDb) : Prop :=
  ∀ receive, ∀ line ∈ transfer.lines,
    (db.legs transfer.id receive line.productId).map Movement.placed =
      if transfer.status.reached receive then
        [(transfer.warehouseId receive, line.signed receive)] else []

/-- Every line of a transfer was posted once where the transfer has been, and what was sent and
not received is on its way. -/
structure Transferred (db : InventoryDb) : Prop where
  posted : ∀ transfer ∈ db.transfers.rows, transfer.PostedOnce db
  transfers : ∀ m ∈ db.movements, m.movementType.isTransfer = true →
    ∃ transfer ∈ db.transfers.rows, m.referenceId = some transfer.id
  balance : ∀ productId, db.transferred productId + db.inTransit productId = 0

section Steps

variable {db db' : InventoryDb} {transfer : Transfer} {receive : Bool} {lines : List TransferLine}
  {posted : List Movement}

/-- What lines post, of one product. -/
theorem placed_of_legs
    (h : List.Forall₂ (fun (m : Movement) line => m.IsLeg transfer receive line) posted lines)
    (productId : Uuid) : (posted.filter (·.productId = productId)).map Movement.placed =
      (lines.filter (·.productId = productId)).map fun line =>
        (transfer.warehouseId receive, line.signed receive) := by
  induction h with
  | nil => rfl
  | @cons m line posted lines hleg _ ih =>
      have hplaced : m.placed = (transfer.warehouseId receive, line.signed receive) :=
        Prod.ext hleg.warehouseId hleg.quantity
      by_cases hproduct : line.productId = productId
      · rw [List.filter_cons_of_pos (by simp [hleg.productId, hproduct]),
          List.filter_cons_of_pos (by simp [hproduct]), List.map_cons, List.map_cons, hplaced, ih]
      · rw [List.filter_cons_of_neg (by simp [hleg.productId, hproduct]),
          List.filter_cons_of_neg (by simp [hproduct]), ih]

theorem forall_legs
    (h : List.Forall₂ (fun (m : Movement) line => m.IsLeg transfer receive line) posted lines) :
    ∀ m ∈ posted, m.movementType = legType receive ∧ m.referenceId = some transfer.id := by
  induction h with
  | nil => exact List.forall_mem_nil _
  | cons hleg _ ih => exact List.forall_mem_cons.mpr ⟨⟨hleg.movementType, hleg.referenceId⟩, ih⟩

/-- A product has one line. -/
theorem Transfer.filter_line {line : TransferLine} (hlines : lines.Perm transfer.lines)
    (hline : line ∈ transfer.lines) :
    lines.filter (·.productId = line.productId) = [line] := by
  have hnodup : (lines.map TransferLine.productId).Nodup :=
    (hlines.map _).nodup_iff.mpr transfer.unique_products
  obtain ⟨l₁, l₂, rfl⟩ := List.append_of_mem (hlines.mem_iff.mpr hline)
  rw [List.map_append, List.map_cons, List.nodup_append, List.nodup_cons] at hnodup
  obtain ⟨-, ⟨hlater, -⟩, hearlier⟩ := hnodup
  rw [List.filter_append, List.filter_cons_of_pos (by simp)]
  rw [List.filter_eq_nil_iff.mpr fun line' hline' => ?_,
    List.filter_eq_nil_iff.mpr fun line' hline' => ?_, List.nil_append]
  · rw [decide_eq_true_eq]
    exact fun heq => hlater (heq ▸ List.mem_map_of_mem hline')
  · rw [decide_eq_true_eq]
    exact hearlier _ (List.mem_map_of_mem hline') _ List.mem_cons_self

theorem Transfer.sum_signed (hlines : lines.Perm transfer.lines) (receive : Bool)
    (productId : Uuid) : ((lines.filter (·.productId = productId)).map (·.signed receive)).sum =
      if receive then transfer.carries productId else -transfer.carries productId := by
  have hcarries : ((lines.filter (·.productId = productId)).map TransferLine.quantity).sum =
      transfer.carries productId := ((hlines.filter _).map _).sum_eq
  cases receive with
  | false =>
      rw [← hcarries, if_neg Bool.false_ne_true, List.sum_neg, List.map_map]
      rfl
  | true => exact hcarries

theorem InventoryDb.legs_append {movements : List Movement}
    (hmovements : db'.movements = db.movements ++ movements) (transferId : Uuid) (receive : Bool)
    (productId : Uuid) : db'.legs transferId receive productId =
      db.legs transferId receive productId ++ movements.filter fun m =>
        m.movementType = legType receive ∧ m.referenceId = some transferId ∧
          m.productId = productId := by
  rw [legs, hmovements, List.filter_append]
  rfl

theorem InventoryDb.transferred_append {movements : List Movement}
    (hmovements : db'.movements = db.movements ++ movements) (productId : Uuid) :
    db'.transferred productId = db.transferred productId +
      ((movements.filter fun m => m.productId = productId ∧
        m.movementType.isTransfer = true).map Movement.quantity).sum := by
  rw [transferred, hmovements, List.filter_append, List.map_append, List.sum_append]
  rfl

theorem InventoryDb.inTransit_eq (db : InventoryDb) (productId : Uuid) :
    db.inTransit productId = (db.transfers.rows.map fun t =>
      if t.status = .inTransit then t.carries productId else 0).sum := by
  rw [inTransit, Table.sum_filter]
  simp only [decide_eq_true_eq]

/-- A transfer that was not seen has no movements. -/
theorem Transferred.legs_of_absent (h : Transferred db)
    (hnone : db.transfers.get transfer.id = none) (receive : Bool) (productId : Uuid) :
    db.legs transfer.id receive productId = [] := by
  refine List.filter_eq_nil_iff.mpr fun m hm hleg => ?_
  obtain ⟨htype, hreference, -⟩ := of_decide_eq_true hleg
  obtain ⟨other, hother, hid⟩ := h.transfers m hm (by rw [htype, legType_isTransfer])
  rw [hreference, Option.some.injEq] at hid
  exact Table.get_eq_none.mp hnone other hother hid.symm

theorem Transferred.other (h : Transferred db) (happart : Apart db db') : Transferred db' := by
  obtain ⟨⟨movements, hmovements, hothers⟩, htransfers⟩ := happart
  have hlegs : ∀ transferId receive productId, db'.legs transferId receive productId =
      db.legs transferId receive productId := by
    intro transferId receive productId
    rw [InventoryDb.legs_append hmovements, List.filter_eq_nil_iff.mpr fun m hm hleg => ?_,
      List.append_nil]
    have htype := legType_isTransfer receive
    rw [← (of_decide_eq_true hleg).1, hothers m hm] at htype
    cases htype
  refine ⟨fun transfer htransfer receive line hline => ?_, fun m hm htype => ?_,
    fun productId => ?_⟩
  · rw [htransfers] at htransfer
    rw [hlegs]
    exact h.posted transfer htransfer receive line hline
  · rw [hmovements, List.mem_append] at hm
    rw [htransfers]
    rcases hm with hm | hm
    · exact h.transfers m hm htype
    · rw [hothers m hm] at htype
      cases htype
  · have hnone : movements.filter (fun m => m.productId = productId ∧
        m.movementType.isTransfer = true) = [] := by
      refine List.filter_eq_nil_iff.mpr fun m hm htype => ?_
      have htype := (of_decide_eq_true htype).2
      rw [hothers m hm] at htype
      cases htype
    have hinTransit : db'.inTransit productId = db.inTransit productId := by
      rw [InventoryDb.inTransit, InventoryDb.inTransit, htransfers]
    rw [InventoryDb.transferred_append hmovements, hnone, hinTransit, ← h.balance productId]
    simp

theorem Transferred.create (h : Transferred db) (hdraft : transfer.status = .draft)
    (hmovements : db'.movements = db.movements)
    (hinsert : db.transfers.insert transfer = some db'.transfers) : Transferred db' := by
  have hlegs : ∀ transferId receive productId, db'.legs transferId receive productId =
      db.legs transferId receive productId := by
    intro transferId receive productId
    rw [InventoryDb.legs, hmovements]
    rfl
  refine ⟨Table.forall_insert hinsert (fun t ht receive line hline => ?_)
    fun receive line _ => ?_, fun m hm htype => ?_, fun productId => ?_⟩
  · rw [hlegs]
    exact h.posted t ht receive line hline
  · rw [hlegs, h.legs_of_absent (Table.insert_eq_some hinsert).2, hdraft]
    cases receive with
    | false => rfl
    | true => rfl
  · rw [hmovements] at hm
    obtain ⟨t, ht, hid⟩ := h.transfers m hm htype
    exact ⟨t, by rw [(Table.insert_eq_some hinsert).1]; exact List.mem_append_left _ ht, hid⟩
  · have htransferred : db'.transferred productId = db.transferred productId := by
      rw [InventoryDb.transferred, InventoryDb.transferred, hmovements]
    have hnew : transfer.status ≠ .inTransit := by
      rw [hdraft]
      decide
    rw [htransferred, InventoryDb.inTransit_eq, Table.sum_insert hinsert, if_neg hnew, add_zero,
      ← InventoryDb.inTransit_eq]
    exact h.balance productId

theorem Transferred.legs_of_unreached (h : Transferred db)
    (hget : db.transfers.get transfer.id = some transfer)
    (hstatus : transfer.status.reached receive = false) {line : TransferLine}
    (hline : line ∈ transfer.lines) : db.legs transfer.id receive line.productId = [] := by
  have hposted := h.posted transfer (Table.get_mem hget).1 receive line hline
  rwa [hstatus, if_neg Bool.false_ne_true, List.map_eq_nil_iff] at hposted

/-- The movements of other transfers, and of the other side, stay. -/
theorem legs_of_posted (hmovements : db'.movements = db.movements ++ posted)
    (hlegs : List.Forall₂ (fun (m : Movement) line => m.IsLeg transfer receive line) posted lines)
    (transferId : Uuid) (receive' : Bool) (productId : Uuid) :
    db'.legs transferId receive' productId = db.legs transferId receive' productId ++
      if transferId = transfer.id ∧ receive' = receive then
        posted.filter (·.productId = productId) else [] := by
  rw [InventoryDb.legs_append hmovements]
  congr 1
  split
  next hside =>
    obtain ⟨rfl, rfl⟩ := hside
    refine List.filter_congr fun m hm => ?_
    simp [forall_legs hlegs m hm]
  next hside =>
    refine List.filter_eq_nil_iff.mpr fun m hm hleg => hside ?_
    obtain ⟨htype, hreference, -⟩ := of_decide_eq_true hleg
    obtain ⟨htype', hreference'⟩ := forall_legs hlegs m hm
    rw [hreference', Option.some.injEq] at hreference
    rw [htype'] at htype
    refine ⟨hreference.symm, ?_⟩
    revert htype
    cases receive <;> cases receive' <;> decide

theorem TransferStatus.reached_moved {status : TransferStatus} {receive : Bool}
    (hstatus : status = if receive then .inTransit else .draft) (receive' : Bool) :
    TransferStatus.reached (if receive then .completed else .inTransit) receive' =
      (decide (receive' = receive) || status.reached receive') := by
  subst hstatus
  revert receive receive'
  decide

/-- What a transition posts, and what it takes off the way or puts on it, make up for one
another. -/
theorem Transferred.move (h : Transferred db) (receive : Bool)
    (hget : db.transfers.get transfer.id = some transfer)
    (hstatus : transfer.status = if receive then .inTransit else .draft)
    (hlines : lines.Perm transfer.lines)
    (hposted : LegsPosted transfer receive lines db.movements db'.movements)
    (hreplace : db.transfers.replace transfer.id
      { transfer with status := if receive then .completed else .inTransit } =
        some db'.transfers) : Transferred db' := by
  have hunreached : transfer.status.reached receive = false := by
    rw [hstatus]
    cases receive with
    | false => rfl
    | true => rfl
  obtain ⟨posted, hmovements, hlegs⟩ := hposted.exists_posted
    ((hlines.map _).nodup_iff.mpr transfer.unique_products) fun line hline m hm hleg => by
      have hmem : m ∈ db.legs transfer.id receive line.productId :=
        List.mem_filter.mpr ⟨hm, decide_eq_true ⟨hleg.movementType, hleg.referenceId,
          hleg.productId⟩⟩
      rw [h.legs_of_unreached hget hunreached (hlines.mem_iff.mp hline)] at hmem
      cases hmem
  have hkept := legs_of_posted hmovements hlegs
  refine ⟨fun t ht receive' line hline => ?_, fun m hm htype => ?_, fun productId => ?_⟩
  · rcases (Table.mem_replace hget hreplace).mp ht with ⟨ht, hne⟩ | rfl
    · rw [hkept, if_neg fun hside => hne hside.1, List.append_nil]
      exact h.posted t ht receive' line hline
    · show (db'.legs transfer.id receive' line.productId).map Movement.placed =
        if TransferStatus.reached (if receive then .completed else .inTransit) receive' then
          [(transfer.warehouseId receive', line.signed receive')] else []
      rw [hkept, TransferStatus.reached_moved hstatus]
      by_cases hside : receive' = receive
      · subst hside
        rw [if_pos ⟨rfl, rfl⟩, h.legs_of_unreached hget hunreached hline, List.nil_append,
          placed_of_legs hlegs, Transfer.filter_line hlines hline, if_pos (by simp)]
        rfl
      · -- The other side is where it was.
        rw [if_neg fun hboth => hside hboth.2, List.append_nil]
        refine (h.posted transfer (Table.get_mem hget).1 receive' line hline).trans ?_
        rw [decide_eq_false hside, Bool.false_or]
  · rw [hmovements, List.mem_append] at hm
    have hfound : ∀ t ∈ db.transfers.rows, ∃ t' ∈ db'.transfers.rows, t'.id = t.id := by
      intro t ht
      by_cases hid : t.id = transfer.id
      · exact ⟨_, (Table.mem_replace hget hreplace).mpr (.inr rfl), hid.symm⟩
      · exact ⟨t, (Table.mem_replace hget hreplace).mpr (.inl ⟨ht, hid⟩), rfl⟩
    rcases hm with hm | hm
    · obtain ⟨t, ht, hreference⟩ := h.transfers m hm htype
      obtain ⟨t', ht', hid⟩ := hfound t ht
      exact ⟨t', ht', by rw [hreference, hid]⟩
    · obtain ⟨t', ht', hid⟩ := hfound transfer (Table.get_mem hget).1
      exact ⟨t', ht', by rw [(forall_legs hlegs m hm).2, hid]⟩
  · have hfilter : (posted.filter fun m => m.productId = productId ∧
        m.movementType.isTransfer = true) = posted.filter (·.productId = productId) := by
      refine List.filter_congr fun m hm => ?_
      simp [(forall_legs hlegs m hm).1, legType_isTransfer]
    have hplaced := congrArg (List.map Prod.snd) (placed_of_legs hlegs productId)
    rw [List.map_map, List.map_map] at hplaced
    have hsum : ((posted.filter (·.productId = productId)).map Movement.quantity).sum =
        if receive then transfer.carries productId else -transfer.carries productId :=
      (congrArg List.sum hplaced).trans (Transfer.sum_signed hlines receive productId)
    have hbalance := h.balance productId
    rw [InventoryDb.transferred_append hmovements, hfilter, hsum, InventoryDb.inTransit_eq,
      Table.sum_replace hget hreplace, ← InventoryDb.inTransit_eq, hstatus]
    have hcarries : ({ transfer with
        status := if receive then .completed else .inTransit } : Transfer).carries productId =
          transfer.carries productId := rfl
    rw [hcarries]
    cases receive with
    | false =>
        simp only [if_true, reduceCtorEq, if_false]
        linarith
    | true =>
        simp only [if_true, reduceCtorEq, if_false]
        linarith

theorem Transferred.step (h : Transferred db) (hstep : TransferStep db db') : Transferred db' := by
  cases hstep with
  | other happart => exact h.other happart
  | create hdraft hmovements hinsert => exact h.create hdraft hmovements hinsert
  | move receive hget hstatus hlines hposted hreplace =>
      exact h.move receive hget hstatus hlines hposted hreplace

end Steps

theorem Transferred.of_none {db : InventoryDb} (hmovements : db.movements = [])
    (htransfers : db.transfers.rows = []) : Transferred db where
  posted transfer htransfer := by
    rw [htransfers] at htransfer
    cases htransfer
  transfers m hm := by
    rw [hmovements] at hm
    cases hm
  balance productId := by
    rw [InventoryDb.transferred, InventoryDb.inTransit, hmovements, htransfers]
    rfl

/-- What the warehouses hold and what is on its way is what was moved by other requests. -/
theorem Transferred.totalOnHand {db : InventoryDb} (h : Transferred db) (hdb : LedgerSound db)
    (productId : Uuid) :
    db.totalOnHand productId + db.inTransit productId = db.moved productId := by
  rw [hdb.totalOnHand, add_assoc, h.balance, add_zero]

end Nexora.Inventory
