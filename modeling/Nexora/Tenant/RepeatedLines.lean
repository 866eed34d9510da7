import Nexora.Inventory.Movements
import Nexora.Tenant.OrderLines

/-!
# Lines named more than once

`fulfil` and `receive` read the requested lines into a dictionary by line, so of the items that name
a line the last one counts, and the others are neither refused nor added.

A request that goes through raises every line, its rows and its stock by the last amounts
(`fulfil_raises`, `receive_raises`).  These are what was requested exactly when no line is named
twice (`repeated_lines`).
-/

namespace Nexora.Tenant

open Nexora Nexora.Catalog Nexora.Sales Nexora.Purchasing Foundations
open Nexora.Inventory (InventoryDb Adds)
open OrderBook (Line Order Book)

/-! ## What a document raises -/

/-- The movements that bring these amounts of the lines in (`1`) or out (`-1`): one for each line
with an amount whose product tracks stock. -/
def stockOf (tracks : Uuid → Bool) (sign : Int) (lines : List (Uuid × Uuid))
    (amount : Uuid → Quantity) : List (Uuid × Quantity) :=
  lines.filterMap fun line =>
    if tracks line.2 = true ∧ amount line.1 ≠ 0 then some (line.2, sign * amount line.1) else none

/-- The lines of an order, with their products, are raised by these amounts: their counters, their
rows in the documents and their stock. -/
structure Raised (book book' : Book Uuid) (inventory inventory' : InventoryDb) (sign : Int)
    (orderId : Uuid) (lines : List (Uuid × Uuid)) (amount : Uuid → Quantity) : Prop where
  counters : ∃ order order', book.orders orderId = some order ∧
    book'.orders orderId = some order' ∧ order'.lines = order.fulfilLines amount
  rows : ∀ id, book'.fulfilled orderId id = book.fulfilled orderId id + amount id
  stock : ∃ movements, inventory'.movements = inventory.movements ++ movements ∧
    (movements.map fun movement => (movement.productId, movement.quantity)) =
      stockOf inventory.tracks sign lines amount

/-- An order is raised by one amount of each line. -/
theorem Raised.unique {book book' : Book Uuid} {inventory inventory' : InventoryDb} {sign : Int}
    {orderId : Uuid} {lines : List (Uuid × Uuid)} {amount amount' : Uuid → Quantity}
    (h : Raised book book' inventory inventory' sign orderId lines amount)
    (h' : Raised book book' inventory inventory' sign orderId lines amount') (id : Uuid) :
    amount id = amount' id := by
  have hrows := h.rows id
  rw [h'.rows id] at hrows
  exact (Int.add_left_cancel hrows).symm

/-! ## The stock of a loop -/

/-- What a loop over the lines of an order moves. -/
theorem foldlM_stock {S L : Type} {pass : S → L → Except Err S} (inventoryOf : S → InventoryDb)
    (face : L → Option (Uuid × Quantity)) {tracks : Uuid → Bool} {lines : List L} {s s' : S}
    (hpass : ∀ s line s', (inventoryOf s).tracks = tracks → pass s line = .ok s' →
      ∃ movements, Adds (inventoryOf s) movements (inventoryOf s') ∧
        (movements.map fun movement => (movement.productId, movement.quantity)) =
          (face line).toList)
    (htracks : (inventoryOf s).tracks = tracks) (h : lines.foldlM pass s = .ok s') :
    ∃ movements, Adds (inventoryOf s) movements (inventoryOf s') ∧
      (movements.map fun movement => (movement.productId, movement.quantity)) =
        lines.filterMap face := by
  induction lines generalizing s with
  | nil =>
      cases h
      exact ⟨[], .refl _, rfl⟩
  | cons line lines ih =>
      rw [List.foldlM_cons] at h
      obtain ⟨s₁, hs₁, h⟩ := bind_eq_ok.mp h
      obtain ⟨first, hfirst, hface⟩ := hpass s line s₁ htracks hs₁
      obtain ⟨rest, hrest, hfaces⟩ := ih (hfirst.tracks.trans htracks) h
      refine ⟨first ++ rest, hfirst.trans hrest, ?_⟩
      rw [List.map_append, hface, hfaces]
      cases hline : face line with
      | none => rw [List.filterMap_cons_none hline]; rfl
      | some part => rw [List.filterMap_cons_some hline]; rfl

/-- The movement of one line of a document. -/
theorem postStock_face {kind : Inventory.DocumentKind} {warehouseId documentId productId : Uuid}
    {inventory inventory' : InventoryDb} {product : Product} {item : RequestedLine}
    {unitCost : Option UnitCost} (hproduct : inventory.anyProduct productId = some product)
    (h : postStock kind warehouseId documentId inventory product item unitCost = .ok inventory') :
    ∃ movements, Adds inventory movements inventory' ∧
      (movements.map fun movement => (movement.productId, movement.quantity)) =
        (if inventory.tracks productId = true ∧ item.quantity ≠ 0 then
          some (productId, kind.signed item.quantity) else none).toList := by
  have htracks : inventory.tracks productId = product.isStockTracked := by
    simp [InventoryDb.tracks, hproduct]
  have hid := InventoryDb.anyProduct_id hproduct
  rcases Inventory.postMovementForDocument_adds h with ⟨hno, rfl⟩ | ⟨hyes, -, m, hadds, hline⟩
  · refine ⟨[], .refl _, ?_⟩
    rw [if_neg (by simp [htracks, hno])]
    rfl
  · refine ⟨[m], hadds, ?_⟩
    rw [if_pos ⟨htracks.trans hyes, item.quantity_pos.ne'⟩, List.map_singleton, hline.productId,
      hline.quantity, hid]
    rfl

/-! ## The lines of a loop -/

/-- An order is raised by the last amounts that are asked for, when a loop over its lines grows each
line by the last amount of it, and adds as much to the rows. -/
theorem Raised.of_loop {book book' : Book Uuid} {inventory inventory' : InventoryDb} {sign : Int}
    {orderId : Uuid} {products : List (Uuid × Uuid)} {L : Type} {view : L → Line Uuid}
    {take : L → Option Quantity} {lines : List L} {asked parts : List (Uuid × Quantity)}
    {order order' : Order Uuid} (hget : book.orders orderId = some order)
    (hget' : book'.orders orderId = some order') (hview : order.lines = lines.map view)
    (hunique : (lines.map fun line => (view line).id).Nodup)
    (hasked : ∀ part ∈ asked, part.1 ∈ lines.map fun line => (view line).id)
    (htake : ∀ line, (take line).getD 0 = lastFor asked (view line).id)
    (hlines : order'.lines = lines.map fun line => (view line).fulfil ((take line).getD 0))
    (hparts : parts = lines.filterMap fun line => (take line).map ((view line).id, ·))
    (hgrows : ∀ id, book'.fulfilled orderId id = book.fulfilled orderId id + amountFor parts id)
    (hstock : ∃ movements, Adds inventory movements inventory' ∧
      (movements.map fun movement => (movement.productId, movement.quantity)) =
        stockOf inventory.tracks sign products (lastFor asked)) :
    Raised book book' inventory inventory' sign orderId products (lastFor asked) := by
  refine ⟨⟨order, order', hget, hget', ?_⟩, fun id => ?_, ?_⟩
  · rw [hlines, Order.fulfilLines, hview, List.map_map]
    refine List.map_congr_left fun line _ => ?_
    rw [htake]
    rfl
  · rw [hgrows, hparts]
    congr 1
    by_cases hid : id ∈ lines.map fun line => (view line).id
    · obtain ⟨line, hline, rfl⟩ := List.mem_map.mp hid
      rw [amountFor_filterMap hunique hline, htake]
    · have hnot : id ∉ asked.map (·.1) := by
        intro hmem
        obtain ⟨part, hpart, rfl⟩ := List.mem_map.mp hmem
        exact hid (hasked part hpart)
      rw [amountFor_filterMap_eq_zero hid, lastFor_eq_zero hnot]
  · obtain ⟨movements, hadds, hfaces⟩ := hstock
    exact ⟨movements, hadds.movements, hfaces⟩

/-- An order is raised by what was asked for exactly when no line was named twice. -/
theorem Raised.amountFor_iff {book book' : Book Uuid} {inventory inventory' : InventoryDb}
    {sign : Int} {orderId : Uuid} {products : List (Uuid × Uuid)} {asked : List (Uuid × Quantity)}
    (hpos : ∀ part ∈ asked, 0 < part.2)
    (h : Raised book book' inventory inventory' sign orderId products (lastFor asked)) :
    Raised book book' inventory inventory' sign orderId products (amountFor asked) ↔
      (asked.map (·.1)).Nodup := by
  rw [← lastFor_eq_amountFor_iff hpos]
  constructor
  · exact fun hsums id _ => h.unique hsums id
  · intro hsame
    have heq : amountFor asked = lastFor asked := by
      funext id
      by_cases hid : id ∈ asked.map (·.1)
      · exact (hsame id hid).symm
      · rw [amountFor_eq_zero hid, lastFor_eq_zero hid]
    rwa [heq]

end Nexora.Tenant

/-! ## Fulfilment -/

namespace Nexora.Sales

open Nexora Nexora.Catalog Nexora.Tenant Foundations
open Nexora.Inventory (InventoryDb Adds)
open OrderBook (Order)

/-- The lines of an order with their products. -/
def SalesOrder.products (order : SalesOrder) : List (Uuid × Uuid) :=
  order.lines.map fun line => (line.id, line.productId)

/-- A requested line with its quantity. -/
def RequestedLine.part (item : RequestedLine) : Uuid × Quantity := (item.lineId, item.quantity)

theorem lastFor_requested (items : List RequestedLine) (line : SalesOrderLine) :
    (takeFulfil items line).getD 0 = lastFor (items.map RequestedLine.part) line.id := by
  unfold takeFulfil requestedFor lastFor
  rw [← List.map_reverse, List.find?_map, Option.map_map]
  rfl

theorem fulfilLine_stock {warehouseId documentId : Uuid} {items : List RequestedLine}
    {tracks : Uuid → Bool} {state state' : FulfilState} {line : SalesOrderLine}
    (htracks : state.inventory.tracks = tracks)
    (h : fulfilLine warehouseId documentId items state line = .ok state') :
    ∃ movements, Adds state.inventory movements state'.inventory ∧
      (movements.map fun movement => (movement.productId, movement.quantity)) =
        (if tracks line.productId = true ∧ lastFor (items.map RequestedLine.part) line.id ≠ 0 then
          some (line.productId, -1 * lastFor (items.map RequestedLine.part) line.id)
        else none).toList := by
  rw [← lastFor_requested, takeFulfil]
  unfold fulfilLine at h
  split at h
  next hnone =>
    cases h
    rw [hnone]
    refine ⟨[], .refl _, ?_⟩
    rw [if_neg fun hboth => hboth.2 rfl]
    rfl
  next item hitem =>
    split at h
    next =>
      obtain ⟨product, hproduct, h⟩ := bind_eq_ok.mp h
      obtain ⟨inventory, hpost, h⟩ := bind_eq_ok.mp h
      cases h
      obtain ⟨movements, hadds, hface⟩ := postStock_face (orRaise_eq_ok.mp hproduct) hpost
      rw [htracks] at hface
      rw [hitem, neg_one_mul]
      exact ⟨movements, hadds, hface⟩
    next => cases h

/-- A fulfilment raises every line by the last amount that is requested of it. -/
theorem fulfil_raises {request : Request} {db db' : TenantDb} {orderId : Uuid}
    {items : List RequestedLine}
    (hunique : ∀ order ∈ db.sales.orders.rows, (order.lines.map SalesOrderLine.id).Nodup)
    (h : fulfil request db orderId (some items) = .ok db') :
    ∃ order, db.sales.orders.get orderId = some order ∧
      Raised db.sales.orderBook db'.sales.orderBook db.inventory db'.inventory (-1) orderId
        order.products (lastFor (items.map RequestedLine.part)) := by
  obtain ⟨order, hfind, h⟩ := bind_eq_ok.mp h
  obtain ⟨_, -, h⟩ := bind_eq_ok.mp h
  obtain ⟨items', hitems, h⟩ := bind_eq_ok.mp h
  obtain ⟨_, -, h⟩ := bind_eq_ok.mp h
  obtain ⟨state, hloop, h⟩ := bind_eq_ok.mp h
  obtain ⟨db₁, hsave, h⟩ := bind_eq_ok.mp h
  obtain ⟨orders, hreplace, rfl⟩ := saveOrder_eq_ok hsave
  obtain ⟨fulfillments, hinsert, h⟩ := bind_eq_ok.mp h
  obtain ⟨ledger, register, rfl⟩ := TenantDb.book_frame h
  have hget := findOrder_eq_ok hfind
  obtain ⟨horder, hid⟩ := Table.get_mem hget
  unfold SalesOrder.requested at hitems
  dsimp only at hitems
  split at hitems
  next hnamed =>
    cases hitems
    have hnames : ∀ item ∈ items, item.lineId ∈ order.lines.map SalesOrderLine.id :=
      fun item hitem => of_decide_eq_true (List.all_eq_true.mp hnamed item hitem)
    have hset := Table.map_get_replace SalesOrder.view hget hreplace rfl orderId
    rw [if_pos hid.symm] at hset
    obtain ⟨hlines, hparts, -⟩ := OrderBook.foldlM_parts SalesOrderLine.view (takeFulfil items)
      OrderBook.Line.fulfil hloop fun _ _ _ => fulfilLine_parts
    refine ⟨order, hget, .of_loop (congrArg (Option.map SalesOrder.view) hget) hset rfl
      (hunique order horder) (List.forall_mem_map.mpr hnames) (lastFor_requested items) hlines hparts
      (fun id => ?_) ?_⟩
    · have hgrows := grows_insert Fulfillment.parts (orRaise_eq_ok.mp hinsert) orderId id
      exact hgrows.trans (congrArg (_ + ·) (if_pos hid.symm))
    · rw [stockOf, SalesOrder.products, List.filterMap_map]
      exact foldlM_stock FulfilState.inventory _
        (fun _ _ _ htracks hpass => fulfilLine_stock htracks hpass) rfl hloop
  next => cases hitems

end Nexora.Sales

/-! ## Goods receipts -/

namespace Nexora.Purchasing

open Nexora Nexora.Catalog Nexora.Sales Nexora.Tenant Foundations
open Nexora.Inventory (InventoryDb Adds)
open OrderBook (Order)

/-- The lines of an order with their products. -/
def PurchaseOrder.products (order : PurchaseOrder) : List (Uuid × Uuid) :=
  order.lines.map fun line => (line.id, line.productId)

/-- A named line with its quantity. -/
def ReceiptLineInput.part (item : ReceiptLineInput) : Uuid × Quantity := (item.lineId, item.quantity)

theorem lastFor_requested (items : List ReceiptLineInput) (line : PurchaseOrderLine) :
    (takeReceive items line).getD 0 = lastFor (items.map ReceiptLineInput.part) line.id := by
  unfold takeReceive requestedFor lastFor
  rw [← List.map_reverse, List.find?_map, Option.map_map]
  rfl

theorem receiveLine_stock {warehouseId documentId : Uuid} {items : List ReceiptLineInput}
    {tracks : Uuid → Bool} {state state' : ReceiveState} {line : PurchaseOrderLine}
    (htracks : state.inventory.tracks = tracks)
    (h : receiveLine warehouseId documentId items state line = .ok state') :
    ∃ movements, Adds state.inventory movements state'.inventory ∧
      (movements.map fun movement => (movement.productId, movement.quantity)) =
        (if tracks line.productId = true ∧ lastFor (items.map ReceiptLineInput.part) line.id ≠ 0 then
          some (line.productId, 1 * lastFor (items.map ReceiptLineInput.part) line.id)
        else none).toList := by
  rw [← lastFor_requested, takeReceive]
  unfold receiveLine at h
  split at h
  next hnone =>
    cases h
    rw [hnone]
    refine ⟨[], .refl _, ?_⟩
    rw [if_neg fun hboth => hboth.2 rfl]
    rfl
  next item hitem =>
    split at h
    next =>
      obtain ⟨product, hproduct, h⟩ := bind_eq_ok.mp h
      obtain ⟨inventory, hpost, h⟩ := bind_eq_ok.mp h
      cases h
      obtain ⟨movements, hadds, hface⟩ := postStock_face (orRaise_eq_ok.mp hproduct) hpost
      rw [htracks] at hface
      rw [hitem, one_mul]
      exact ⟨movements, hadds, hface⟩
    next => cases h

/-- A receipt raises every line by the last amount that is named of it. -/
theorem receive_raises {request : Request} {db db' : TenantDb} {orderId : Uuid}
    {items : List ReceiptLineInput}
    (hunique : ∀ order ∈ db.purchasing.orders.rows, (order.lines.map PurchaseOrderLine.id).Nodup)
    (h : receive request db orderId (some items) = .ok db') :
    ∃ order, db.purchasing.orders.get orderId = some order ∧
      Raised db.purchasing.orderBook db'.purchasing.orderBook db.inventory db'.inventory 1 orderId
        order.products (lastFor (items.map ReceiptLineInput.part)) := by
  obtain ⟨order, hfind, h⟩ := bind_eq_ok.mp h
  obtain ⟨_, -, h⟩ := bind_eq_ok.mp h
  obtain ⟨items', hitems, h⟩ := bind_eq_ok.mp h
  obtain ⟨_, -, h⟩ := bind_eq_ok.mp h
  obtain ⟨state, hloop, h⟩ := bind_eq_ok.mp h
  obtain ⟨db₁, hsave, h⟩ := bind_eq_ok.mp h
  obtain ⟨orders, hreplace, rfl⟩ := saveOrder_eq_ok hsave
  obtain ⟨receipts, hinsert, h⟩ := bind_eq_ok.mp h
  obtain ⟨ledger, register, rfl⟩ := TenantDb.book_frame h
  have hget := findOrder_eq_ok hfind
  obtain ⟨horder, hid⟩ := Table.get_mem hget
  unfold PurchaseOrder.requested at hitems
  dsimp only at hitems
  split at hitems
  next hnamed =>
    cases hitems
    have hnames : ∀ item ∈ items, item.lineId ∈ order.lines.map PurchaseOrderLine.id :=
      fun item hitem => of_decide_eq_true (List.all_eq_true.mp hnamed item hitem)
    have hset := Table.map_get_replace PurchaseOrder.view hget hreplace rfl orderId
    rw [if_pos hid.symm] at hset
    obtain ⟨hlines, hparts, -⟩ := OrderBook.foldlM_parts PurchaseOrderLine.view (takeReceive items)
      OrderBook.Line.fulfil hloop fun _ _ _ => receiveLine_parts
    refine ⟨order, hget, .of_loop (congrArg (Option.map PurchaseOrder.view) hget) hset rfl
      (hunique order horder) (List.forall_mem_map.mpr hnames) (lastFor_requested items) hlines hparts
      (fun id => ?_) ?_⟩
    · have hgrows := grows_insert GoodsReceipt.parts (orRaise_eq_ok.mp hinsert) orderId id
      exact hgrows.trans (congrArg (_ + ·) (if_pos hid.symm))
    · rw [stockOf, PurchaseOrder.products, List.filterMap_map]
      exact foldlM_stock ReceiveState.inventory _
        (fun _ _ _ htracks hpass => receiveLine_stock htracks hpass) rfl hloop
  next => cases hitems

end Nexora.Purchasing

/-! ## Requests -/

namespace Nexora.Tenant

open Nexora Nexora.Catalog Nexora.Sales Nexora.Purchasing Foundations

/-- A fulfilment shipped these amounts of the lines of an order. -/
def TenantDb.Shipped (db db' : TenantDb) (orderId : Uuid) (amount : Uuid → Quantity) : Prop :=
  ∃ order, db.sales.orders.get orderId = some order ∧
    Raised db.sales.orderBook db'.sales.orderBook db.inventory db'.inventory (-1) orderId
      order.products amount

/-- A receipt received these amounts of the lines of an order. -/
def TenantDb.Received (db db' : TenantDb) (orderId : Uuid) (amount : Uuid → Quantity) : Prop :=
  ∃ order, db.purchasing.orders.get orderId = some order ∧
    Raised db.purchasing.orderBook db'.purchasing.orderBook db.inventory db'.inventory 1 orderId
      order.products amount

/-- The lines of an order have different identifiers. -/
structure TenantDb.LinesUnique (db : TenantDb) : Prop where
  sales : ∀ order ∈ db.sales.orders.rows, (order.lines.map SalesOrderLine.id).Nodup
  purchasing : ∀ order ∈ db.purchasing.orders.rows, (order.lines.map PurchaseOrderLine.id).Nodup

/-- For every order and every list of requested lines: a fulfilment or receipt that is refused
changes nothing, and one that goes through raises each line, its rows and its stock by the sum of the
quantities requested for it exactly when no line is named twice. -/
theorem repeated_lines {db : TenantDb} (hdb : db.LinesUnique) (request : Request) (orderId : Uuid) :
    (∀ items : List RequestedLine,
      (db.commits ⟨request, .fulfil orderId (some items)⟩ = false →
        db.step ⟨request, .fulfil orderId (some items)⟩ = db) ∧
      (db.commits ⟨request, .fulfil orderId (some items)⟩ = true →
        (db.Shipped (db.step ⟨request, .fulfil orderId (some items)⟩) orderId
          (amountFor (items.map fun item => (item.lineId, item.quantity))) ↔
            (items.map fun item => item.lineId).Nodup))) ∧
    ∀ items : List ReceiptLineInput,
      (db.commits ⟨request, .receive orderId (some items)⟩ = false →
        db.step ⟨request, .receive orderId (some items)⟩ = db) ∧
      (db.commits ⟨request, .receive orderId (some items)⟩ = true →
        (db.Received (db.step ⟨request, .receive orderId (some items)⟩) orderId
          (amountFor (items.map fun item => (item.lineId, item.quantity))) ↔
            (items.map fun item => item.lineId).Nodup)) := by
  refine ⟨fun items => ⟨TenantDb.step_of_not_commits, fun hcommits => ?_⟩,
    fun items => ⟨TenantDb.step_of_not_commits, fun hcommits => ?_⟩⟩
  · obtain ⟨order, hget, hraised⟩ := fulfil_raises hdb.sales (TenantDb.body_of_commits hcommits)
    have hiff := hraised.amountFor_iff (List.forall_mem_map.mpr fun item _ => item.quantity_pos)
    rw [List.map_map] at hiff
    simp only [TenantDb.Shipped, hget, Option.some.injEq, exists_eq_left']
    exact hiff
  · obtain ⟨order, hget, hraised⟩ := receive_raises hdb.purchasing (TenantDb.body_of_commits hcommits)
    have hiff := hraised.amountFor_iff (List.forall_mem_map.mpr fun item _ => item.quantity_pos)
    rw [List.map_map] at hiff
    simp only [TenantDb.Received, hget, Option.some.injEq, exists_eq_left']
    exact hiff

/-- Two hours of a service are ordered, on line `1000` of order `1`. -/
def serviceOrdered : TenantDb :=
  (TenantDb.start corner).run
    [⟨cornerRequest 1, (serviceOrder 1).op⟩, ⟨cornerRequest 2, .confirmSalesOrder 1⟩]

theorem serviceOrdered_unique : serviceOrdered.LinesUnique :=
  ⟨by decide +kernel, by decide +kernel⟩

/-- One hour of the order. -/
def oneHour : RequestedLine := ⟨1000, 1000000, Sample.onePiece_pos, Sample.onePiece_lt⟩

/-- One hour is shipped where it is requested once. -/
theorem repeated_lines_once :
    serviceOrdered.commits ⟨cornerRequest 3, .fulfil 1 (some [oneHour])⟩ = true ∧
      serviceOrdered.Shipped
        (serviceOrdered.step ⟨cornerRequest 3, .fulfil 1 (some [oneHour])⟩) 1
        (amountFor [(1000, 1000000)]) := by
  have hcommits : serviceOrdered.commits ⟨cornerRequest 3, .fulfil 1 (some [oneHour])⟩ = true := by
    decide +kernel
  have hlines := (repeated_lines serviceOrdered_unique (cornerRequest 3) 1).1 [oneHour]
  exact ⟨hcommits, (hlines.2 hcommits).mpr (by decide)⟩

/-- Two items of one hour ship one hour. -/
theorem repeated_lines_lost :
    serviceOrdered.commits ⟨cornerRequest 3, .fulfil 1 (some [oneHour, oneHour])⟩ = true ∧
      ¬serviceOrdered.Shipped
        (serviceOrdered.step ⟨cornerRequest 3, .fulfil 1 (some [oneHour, oneHour])⟩) 1
        (amountFor [(1000, 1000000), (1000, 1000000)]) := by
  have hcommits : serviceOrdered.commits
      ⟨cornerRequest 3, .fulfil 1 (some [oneHour, oneHour])⟩ = true := by
    decide +kernel
  refine ⟨hcommits, ?_⟩
  rintro ⟨order, hget, hsums⟩
  obtain ⟨order', hget', hraised⟩ :=
    fulfil_raises serviceOrdered_unique.sales (TenantDb.body_of_commits hcommits)
  cases hget.symm.trans hget'
  exact absurd (hraised.unique hsums 1000) (by decide)

end Nexora.Tenant
