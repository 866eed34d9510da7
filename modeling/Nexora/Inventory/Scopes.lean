import Nexora.Foundations.Scopes
import Nexora.Inventory.Ledger
import Nexora.Inventory.Movements

/-!
# Stock in scope

In which warehouses a request of the inventory changes balances, movements and reservations
(`StockWithin`).  For the lines of a document this is one warehouse, and they do move stock there
as soon as the product of one of them is tracked (`Posted`).
-/

namespace Nexora.Inventory

open Nexora Nexora.Catalog Foundations

/-! ## Stock -/

/-- Balances, movements and reservations that changed are of warehouses with `p`. -/
structure StockWithin (p : Uuid → Prop) (db db' : InventoryDb) : Prop where
  balances : Table.ChangesWithin (fun row => p row.1.1) db.balances db'.balances
  movements : AppendsWithin (fun m => p m.warehouseId) db.movements db'.movements
  reservations : Table.ChangesWithin (fun r => p r.warehouseId) db.reservations db'.reservations

namespace StockWithin

variable {p q : Uuid → Prop} {db db' db'' : InventoryDb}

theorem refl (p : Uuid → Prop) (db : InventoryDb) : StockWithin p db db :=
  ⟨.refl _ _, .refl _ _, .refl _ _⟩

theorem trans (h : StockWithin p db db') (h' : StockWithin p db' db'') : StockWithin p db db'' :=
  ⟨h.balances.trans h'.balances, h.movements.trans h'.movements,
    h.reservations.trans h'.reservations⟩

theorem mono (hpq : ∀ w, p w → q w) (h : StockWithin p db db') : StockWithin q db db' :=
  ⟨h.balances.mono fun row => hpq row.1.1, h.movements.mono fun m => hpq m.warehouseId,
    h.reservations.mono fun r => hpq r.warehouseId⟩

/-- Stock that changed in one warehouse. -/
theorem at_warehouse {warehouseId : Uuid} (hp : p warehouseId)
    (h : StockWithin (· = warehouseId) db db') : StockWithin p db db' := by
  refine h.mono fun w hw => ?_
  obtain rfl : w = warehouseId := hw
  exact hp

end StockWithin

/-- The row of a balance that is written is that of its pair. -/
theorem changesWithin_setBalance {p : Uuid → Prop} (db : InventoryDb) (pair : Pair)
    (balance : Balance) (hp : p pair.1) :
    Table.ChangesWithin (fun row : Pair × Balance => p row.1.1) db.balances
      (db.setBalance pair balance).balances := by
  refine .put (fun old hget => ?_) hp
  have hkey : old.1 = pair := (Table.get_mem hget).2
  rw [hkey]
  exact hp

/-! ## The catalogue -/

/-- The catalogue and the warehouses are the same, up to costs. -/
structure SameSetting (db db' : InventoryDb) : Prop where
  warehouses : db'.warehouses = db.warehouses
  tracks : db'.tracks = db.tracks

namespace SameSetting

variable {db db' db'' : InventoryDb}

theorem refl (db : InventoryDb) : SameSetting db db := ⟨rfl, rfl⟩

theorem trans (h : SameSetting db db') (h' : SameSetting db' db'') : SameSetting db db'' :=
  ⟨h'.warehouses.trans h.warehouses, h'.tracks.trans h.tracks⟩

end SameSetting

theorem DocumentKind.anyProduct_eq {kind : DocumentKind} {db : InventoryDb} {productId : Uuid}
    {product : Product} (h : kind.product db productId = some product) :
    db.anyProduct productId = some product := by
  unfold DocumentKind.product at h
  split at h
  next => exact InventoryDb.anyProduct_of_product h
  next => exact h

theorem DocumentKind.tracks_eq {kind : DocumentKind} {db : InventoryDb} {productId : Uuid}
    {product : Product} (h : kind.product db productId = some product) :
    db.tracks productId = product.isStockTracked := by
  rw [InventoryDb.tracks, anyProduct_eq h]
  rfl

/-- A new cost touches the catalogue only. -/
theorem storeCostPrice_eq_ok {db db' : InventoryDb} {productId : Uuid} {cost : Option UnitCost}
    (h : storeCostPrice db productId cost = .ok db') :
    ∃ products, db' = { db with products := products } := by
  cases cost with
  | none =>
      cases h
      exact ⟨db.products, rfl⟩
  | some cost =>
      unfold storeCostPrice at h
      obtain ⟨-, h⟩ := ite_error_eq_ok.mp h
      obtain ⟨-, h⟩ := ite_error_eq_ok.mp h
      cases h
      unfold InventoryDb.setCostPrice
      split
      · exact ⟨db.products, rfl⟩
      · exact ⟨_, rfl⟩

/-! ## Movements -/

theorem postNew_within {db db' : InventoryDb} {request : MovementRequest} {movement : Movement}
    (h : postNew db request = .ok (db', movement)) :
    StockWithin (· = request.warehouseId) db db' ∧ SameSetting db db' ∧
      db'.movements = db.movements ++ [movement] := by
  obtain ⟨balance, -, h⟩ := bind_eq_ok.mp h
  obtain ⟨cost, -, h⟩ := bind_eq_ok.mp h
  obtain ⟨movement', hmovement, h⟩ := bind_eq_ok.mp h
  obtain ⟨db₁, hcost, h⟩ := bind_eq_ok.mp h
  cases h
  have htracks := storeCostPrice_tracks hcost
  obtain ⟨products, rfl⟩ := storeCostPrice_eq_ok hcost
  have hwarehouse : movement.warehouseId = request.warehouseId :=
    congrArg Prod.fst (MovementRequest.movement_eq_ok hmovement).1
  exact ⟨⟨changesWithin_setBalance (p := (· = request.warehouseId)) db _ balance rfl,
      .single hwarehouse, .refl _ _⟩,
    ⟨rfl, htracks⟩, rfl⟩

theorem postMovement_within {db db' : InventoryDb} {request : MovementRequest}
    {movement : Movement} (h : postMovement db request = .ok (db', movement)) :
    StockWithin (· = request.warehouseId) db db' ∧ SameSetting db db' := by
  obtain ⟨_, -, h⟩ := bind_eq_ok.mp h
  split at h
  next =>
    split at h
    next =>
      cases h
      exact ⟨.refl _ _, .refl _⟩
    next => cases h
  next =>
    obtain ⟨hwithin, hsetting, -⟩ := postNew_within h
    exact ⟨hwithin, hsetting⟩

/-- A movement without a key is always new. -/
theorem postMovement_moved {db db' : InventoryDb} {request : MovementRequest}
    {movement : Movement} (hkey : request.idempotencyKey = none)
    (h : postMovement db request = .ok (db', movement)) :
    db.movements.length < db'.movements.length := by
  obtain ⟨_, -, h⟩ := bind_eq_ok.mp h
  have hnew : request.existing db = none := by simp [MovementRequest.existing, hkey]
  rw [hnew] at h
  obtain ⟨-, -, hmovements⟩ := postNew_within h
  rw [hmovements]
  simp

/-! ## Lines of documents -/

/-- Lines that went through in one warehouse.  They moved stock if and only if `moves`. -/
structure Posted (warehouseId : Uuid) (moves : Prop) (db db' : InventoryDb) : Prop where
  within : StockWithin (fun w => w = warehouseId ∧ moves) db db'
  moved : moves → db.movements.length < db'.movements.length
  setting : SameSetting db db'

namespace Posted

variable {warehouseId : Uuid} {moves moves' : Prop} {db db' db'' : InventoryDb}

theorem refl (warehouseId : Uuid) {moves : Prop} (hmoves : ¬moves) (db : InventoryDb) :
    Posted warehouseId moves db db :=
  ⟨.refl _ _, fun h => absurd h hmoves, .refl _⟩

theorem trans (h : Posted warehouseId moves db db') (h' : Posted warehouseId moves' db' db'') :
    Posted warehouseId (moves ∨ moves') db db'' := by
  refine ⟨(h.within.mono fun w hw => ⟨hw.1, .inl hw.2⟩).trans
    (h'.within.mono fun w hw => ⟨hw.1, .inr hw.2⟩), ?_, h.setting.trans h'.setting⟩
  rintro (hmoves | hmoves)
  · exact (h.moved hmoves).trans_le h'.within.movements.length_le
  · exact h.within.movements.length_le.trans_lt (h'.moved hmoves)

theorem congr (hmoves : moves ↔ moves') (h : Posted warehouseId moves db db') :
    Posted warehouseId moves' db db' :=
  propext hmoves ▸ h

/-- A loop over lines moves stock when one of its passes does. -/
theorem foldlM {State Item : Type} (stock : State → InventoryDb)
    {pass : State → Item → Except Err State} (moves : Item → Prop)
    (hpass : ∀ item state state', SameSetting db (stock state) →
      pass state item = .ok state' → Posted warehouseId (moves item) (stock state) (stock state'))
    {items : List Item} {state state' : State} (hstate : SameSetting db (stock state))
    (h : items.foldlM pass state = .ok state') :
    Posted warehouseId (∃ item ∈ items, moves item) (stock state) (stock state') := by
  induction items generalizing state with
  | nil =>
      cases h
      exact .refl _ (by simp) _
  | cons item items ih =>
      rw [List.foldlM_cons] at h
      obtain ⟨state₁, hfirst, h⟩ := bind_eq_ok.mp h
      have hposted := hpass item state state₁ hstate hfirst
      have hrest := ih (hstate.trans hposted.setting) h
      exact (hposted.trans hrest).congr (by simp)

/-- The stock that lines move is within `p` exactly when their warehouse is. -/
theorem within_iff {p : Uuid → Prop} (h : Posted warehouseId moves db db') :
    StockWithin p db db' ↔ (moves → p warehouseId) := by
  constructor
  · intro hwithin hmoves
    obtain ⟨m, hm, hp⟩ := h.within.movements.exists_both hwithin.movements (h.moved hmoves)
    exact hm.1 ▸ hp
  · intro hp
    exact h.within.mono fun w (hw : w = warehouseId ∧ moves) => hw.1 ▸ hp hw.2

end Posted

theorem postMovementForDocument_posted {kind : DocumentKind} {warehouseId documentId : Uuid}
    {db db' : InventoryDb} {product : Product} {line : DocumentLine}
    (h : postMovementForDocument kind warehouseId documentId db product line = .ok db') :
    Posted warehouseId (product.isStockTracked = true) db db' := by
  unfold postMovementForDocument at h
  split at h
  next htracked =>
    obtain ⟨⟨db₁, movement⟩, hpost, h⟩ := bind_eq_ok.mp h
    cases h
    obtain ⟨hwithin, hsetting⟩ := postMovement_within hpost
    exact ⟨hwithin.mono fun w hw => ⟨hw, htracked⟩, fun _ => postMovement_moved rfl hpost, hsetting⟩
  next htracked =>
    cases h
    exact .refl _ htracked _

/-! ## Requests of the inventory -/

/-- The warehouse belongs to one of the branches. -/
def InventoryDb.holds (db : InventoryDb) (branches : Finset Uuid) (warehouseId : Uuid) : Bool :=
  (db.warehouses warehouseId).any fun warehouse => warehouse.branchId.any (· ∈ branches)

theorem SameSetting.holds {db db' : InventoryDb} (h : SameSetting db db')
    (branches : Finset Uuid) (warehouseId : Uuid) :
    db'.holds branches warehouseId = db.holds branches warehouseId := by
  unfold InventoryDb.holds
  rw [h.warehouses]

/-- A request that the caller made.  Reservations expire under no caller, and a release asks for
none. -/
def Op.RunsUnder (context : TenantContext) : Op → Prop
  | .receipt caller _ _ | .issue caller _ _ | .adjust caller _ _ _ | .reserve caller _ _
  | .createTransfer caller _ _ | .shipTransfer caller _ _ | .receiveTransfer caller _ _ =>
      caller = context
  | .release _ => True
  | _ => False

section Restricted

variable {context : TenantContext} {branches : Finset Uuid} {db db' : InventoryDb}

/-- A warehouse that passed `_validate_pair` is on a branch of the caller. -/
theorem validatePair_holds {warehouseId productId : Uuid} {product : Product}
    (hscope : context.branchIds = some branches)
    (h : validatePair context db warehouseId productId = .ok product) :
    db.holds branches warehouseId = true := by
  obtain ⟨warehouse, hwarehouse, h⟩ := bind_eq_ok.mp h
  obtain ⟨_, -, h⟩ := bind_eq_ok.mp h
  obtain ⟨_, hbranch, -⟩ := bind_eq_ok.mp h
  have hget := (Option.filter_eq_some_iff.mp (orRaise_eq_ok.mp hwarehouse)).1
  unfold InventoryDb.holds
  rw [hget]
  exact TenantContext.requireNullableBranch_eq_ok hscope hbranch

theorem postPayload_within {payload : MovementCreate} {movementType : MovementType} {quantity : ℚ}
    {unitCost : Option ℚ} {idempotencyKey : Option String} {movement : Movement}
    (hscope : context.branchIds = some branches)
    (h : postPayload context db payload movementType quantity unitCost idempotencyKey =
      .ok (db', movement)) : StockWithin (db.holds branches ·) db db' := by
  obtain ⟨product, hpair, h⟩ := bind_eq_ok.mp (onIntegrityError_eq_ok.mp h)
  exact (postMovement_within h).1.at_warehouse (validatePair_holds hscope hpair)

theorem adjust_within {payload : AdjustmentCreate} {adjustmentId : Uuid}
    {idempotencyKey : Option String} {movement : Movement}
    (hscope : context.branchIds = some branches)
    (h : adjust context db payload adjustmentId idempotencyKey = .ok (db', movement)) :
    StockWithin (db.holds branches ·) db db' := by
  obtain ⟨product, hpair, h⟩ := bind_eq_ok.mp (onIntegrityError_eq_ok.mp h)
  obtain ⟨⟨db₁, movement'⟩, hpost, h⟩ := bind_eq_ok.mp h
  obtain ⟨adjustment, -, h⟩ := bind_eq_ok.mp h
  obtain ⟨adjustments, -, h⟩ := bind_eq_ok.mp h
  cases h
  have hwithin : StockWithin (db.holds branches ·) db db₁ :=
    (postMovement_within hpost).1.at_warehouse (validatePair_holds hscope hpair)
  exact ⟨hwithin.balances, hwithin.movements, hwithin.reservations⟩

theorem reserve_within {payload : ReservationCreate} {reservationId : Uuid}
    {reservation : Reservation} (hscope : context.branchIds = some branches)
    (h : reserve context db payload reservationId = .ok (db', reservation)) :
    StockWithin (db.holds branches ·) db db' := by
  obtain ⟨product, hpair, h⟩ := bind_eq_ok.mp h
  obtain ⟨_, -, h⟩ := bind_eq_ok.mp h
  obtain ⟨balance, -, h⟩ := bind_eq_ok.mp h
  obtain ⟨reservation', hrow, h⟩ := bind_eq_ok.mp h
  obtain ⟨reservations, hinsert, h⟩ := bind_eq_ok.mp h
  cases h
  have hholds := validatePair_holds hscope hpair
  have hwarehouse : reservation.warehouseId = payload.warehouseId := by
    obtain ⟨quantity, -, hrow⟩ := bind_eq_ok.mp hrow
    split at hrow
    next =>
      cases hrow
      rfl
    next => cases hrow
  refine ⟨changesWithin_setBalance (p := (db.holds branches ·)) db _ balance hholds, .refl _ _,
    .insert (orRaise_eq_ok.mp hinsert) ?_⟩
  rw [hwarehouse]
  exact hholds

/-- The lines of a transfer move stock in a warehouse of the caller. -/
theorem transitionTransfer_within {transferId : Uuid} {receive : Bool}
    {idempotencyKey : Option String} {moved : Transfer}
    (hscope : context.branchIds = some branches)
    (h : transitionTransfer context db transferId receive idempotencyKey = .ok (db', moved)) :
    StockWithin (db.holds branches ·) db db' := by
  obtain ⟨transfer, -, h⟩ := bind_eq_ok.mp h
  obtain ⟨_, -, h⟩ := bind_eq_ok.mp h
  obtain ⟨db₁, hloop, h⟩ := bind_eq_ok.mp h
  obtain ⟨transfers, -, h⟩ := bind_eq_ok.mp h
  cases h
  obtain ⟨hwithin, -⟩ := foldlM_invariant
    (I := fun db₁ => StockWithin (db.holds branches ·) db db₁ ∧ SameSetting db db₁)
    (fun line _ db₁ db₂ hdb₁ hpass => by
      obtain ⟨product, hpair, hpass⟩ := bind_eq_ok.mp hpass
      obtain ⟨⟨db₃, movement⟩, hpost, hpass⟩ := bind_eq_ok.mp hpass
      cases hpass
      obtain ⟨hwithin, hsetting⟩ := postMovement_within hpost
      have hholds := validatePair_holds hscope hpair
      rw [hdb₁.2.holds] at hholds
      exact ⟨hdb₁.1.trans (hwithin.at_warehouse hholds), hdb₁.2.trans hsetting⟩)
    hloop ⟨.refl _ _, .refl _⟩
  exact ⟨hwithin.balances, hwithin.movements, hwithin.reservations⟩

theorem createTransfer_within {p : Uuid → Prop} {payload : TransferCreate} {transferId : Uuid}
    {transfer : Transfer} (h : createTransfer context db payload transferId = .ok (db', transfer)) :
    StockWithin p db db' := by
  obtain ⟨_, -, h⟩ := bind_eq_ok.mp h
  obtain ⟨source, -, h⟩ := bind_eq_ok.mp (onIntegrityError_eq_ok.mp h)
  obtain ⟨destination, -, h⟩ := bind_eq_ok.mp h
  obtain ⟨_, -, h⟩ := bind_eq_ok.mp h
  obtain ⟨_, -, h⟩ := bind_eq_ok.mp h
  obtain ⟨_, -, h⟩ := bind_eq_ok.mp h
  obtain ⟨lines, -, h⟩ := bind_eq_ok.mp h
  obtain ⟨_, -, h⟩ := bind_eq_ok.mp h
  obtain ⟨row, -, h⟩ := bind_eq_ok.mp h
  obtain ⟨transfers, -, h⟩ := bind_eq_ok.mp h
  cases h
  exact ⟨.refl _ _, .refl _ _, .refl _ _⟩

/-- A release changes its reservation, wherever that is. -/
theorem release_within_iff {p : Uuid → Prop} {reservationId : Uuid} {u : Unit}
    (h : release db reservationId = .ok (db', u)) :
    StockWithin p db db' ↔
      ∀ r, db.reservations.get reservationId = some r → p r.warehouseId := by
  obtain ⟨reservation, hget, h⟩ := bind_eq_ok.mp h
  obtain ⟨_, hactive, h⟩ := bind_eq_ok.mp h
  obtain ⟨db₁, hrelease, h⟩ := bind_eq_ok.mp h
  cases h
  obtain ⟨balance, -, hrelease⟩ := bind_eq_ok.mp hrelease
  obtain ⟨reservations, hreplace, hrelease⟩ := bind_eq_ok.mp hrelease
  cases hrelease
  replace hget := orRaise_eq_ok.mp hget
  replace hreplace := orRaise_eq_ok.mp hreplace
  constructor
  · intro hwithin r hr
    obtain rfl := Option.some.inj (hget.symm.trans hr)
    refine hwithin.reservations.of_replace hget hreplace rfl fun heq => ?_
    have hstatus := congrArg Reservation.status heq
    unfold requireActive at hactive
    split at hactive
    next hcurrent =>
      rw [hcurrent] at hstatus
      cases hstatus
    next => cases hactive
  · intro hp
    have hwarehouse := hp reservation hget
    exact ⟨changesWithin_setBalance db reservation.pair balance hwarehouse, .refl _ _,
      .replace hget hreplace rfl hwarehouse hwarehouse⟩

end Restricted

/-- The reservation that a request releases. -/
def Op.releases : Op → Option Uuid
  | .release reservationId => some reservationId
  | _ => none

/-- Under a restricted caller only a release can leave the caller's warehouses. -/
theorem Op.stockWithin_iff {op : Op} {context : TenantContext} {branches : Finset Uuid}
    {db db' : InventoryDb} {u : Unit} (hscope : context.branchIds = some branches)
    (hop : op.RunsUnder context) (h : op.body db = .ok (db', u)) :
    StockWithin (db.holds branches ·) db db' ↔
      ∀ r, op.releases.bind db.reservations.get = some r →
        db.holds branches r.warehouseId = true := by
  cases op with
  | receipt caller payload key =>
      obtain rfl : caller = context := hop
      obtain ⟨movement, h⟩ := tables_eq_ok h
      obtain ⟨unitCost, -, h⟩ := bind_eq_ok.mp h
      exact iff_of_true (postPayload_within hscope h) nofun
  | issue caller payload key =>
      obtain rfl : caller = context := hop
      obtain ⟨movement, h⟩ := tables_eq_ok h
      exact iff_of_true (postPayload_within hscope h) nofun
  | adjust caller payload id key =>
      obtain rfl : caller = context := hop
      obtain ⟨movement, h⟩ := tables_eq_ok h
      exact iff_of_true (adjust_within hscope h) nofun
  | reserve caller payload id =>
      obtain rfl : caller = context := hop
      obtain ⟨reservation, h⟩ := tables_eq_ok h
      exact iff_of_true (reserve_within hscope h) nofun
  | release id => exact release_within_iff h
  | createTransfer caller payload id =>
      obtain ⟨transfer, h⟩ := tables_eq_ok h
      exact iff_of_true (createTransfer_within h) nofun
  | shipTransfer caller id key =>
      obtain rfl : caller = context := hop
      obtain ⟨moved, h⟩ := tables_eq_ok h
      exact iff_of_true (transitionTransfer_within hscope h) nofun
  | receiveTransfer caller id key =>
      obtain rfl : caller = context := hop
      obtain ⟨moved, h⟩ := tables_eq_ok h
      exact iff_of_true (transitionTransfer_within hscope h) nofun
  | releaseExpired now locked => cases hop
  | fulfil document => cases hop
  | issueCreditNote document => cases hop
  | checkout document => cases hop
  | refund document => cases hop
  | receiveGoods document => cases hop

end Nexora.Inventory
