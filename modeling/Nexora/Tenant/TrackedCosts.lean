import Nexora.Tenant.FairSales

/-!
# The cost of what tracks stock

A fulfilment recognises the cost of the products that track stock.  The till adds up the cost of all
its lines, and a checkout rounds that to six decimals before it posts it.  A product that tracks no
stock is created without a cost, but one that has been received keeps its cost when the flag is taken
off it (`untracked_cost_posted`).

So the till posts what a fulfilment would as long as the cost of the other lines does not take the sum
over the next tie (`tracked_cost_iff`).
-/

namespace Nexora.Tenant

open Nexora Nexora.Catalog Nexora.Sales Nexora.Pos Foundations
open Nexora.Accounting
open Nexora.Inventory (InventoryDb decimal)

variable {request : Request} {db db' : TenantDb}

/-! ## The two parts of a cost -/

/-- Lines of the products that count, and lines of the others. -/
theorem cartCost_split (inventory : InventoryDb) (counts : Product → Bool) (lines : List CartLine) :
    cartCost inventory (fun _ => true) lines =
      cartCost inventory counts lines + cartCost inventory (fun product => !counts product) lines := by
  rw [cartCost, cartCost, cartCost, ← List.sum_map_add]
  congr 1
  refine List.map_congr_left fun line _ => ?_
  unfold cartLineCost
  split
  next product _ =>
    cases hcounts : counts product with
    | false => simp [hcounts]
    | true => simp [hcounts]
  next => simp

theorem cartCost_nonneg {inventory : InventoryDb} (hcosted : inventory.Costed)
    (counts : Product → Bool) (lines : List CartLine) : 0 ≤ cartCost inventory counts lines := by
  refine List.sum_nonneg fun cost hcost => ?_
  obtain ⟨line, -, rfl⟩ := List.mem_map.mp hcost
  unfold cartLineCost
  split
  next product hproduct =>
    have hprice := hcosted.costPrice_nonneg (Inventory.InventoryDb.anyProduct_of_product hproduct)
    have hprice' : (0 : ℚ) ≤ product.costPrice := by exact_mod_cast hprice
    have hquantity : (0 : ℚ) ≤ line.quantity := by exact_mod_cast line.quantity_pos.le
    split
    · unfold decimal
      positivity
    · exact le_rfl
  next => exact le_rfl

theorem refundCost_split (db : TenantDb) (counts : Product → Bool) (payload : RefundCreate) :
    refundCost db (fun _ => true) payload =
      refundCost db counts payload + refundCost db (fun product => !counts product) payload := by
  unfold refundCost
  split
  next row _ =>
    rw [← List.sum_map_add]
    congr 1
    refine List.map_congr_left fun item _ => ?_
    unfold refundItemCost
    split
    next product _ =>
      cases hcounts : counts product with
      | false => simp [hcounts]
      | true => simp [hcounts]
    next => simp
  next => simp

theorem refundCost_nonneg (hsales : ∀ row ∈ db.pos.sales.rows, SoldOnce row.sale.lines)
    (counts : Product → Bool) (payload : RefundCreate) : 0 ≤ refundCost db counts payload := by
  unfold refundCost
  split
  next row hget =>
    refine List.sum_nonneg fun cost hcost => ?_
    obtain ⟨item, -, rfl⟩ := List.mem_map.mp hcost
    have hunit : 0 ≤ unitCostOf row.sale.lines item.lineId := by
      unfold unitCostOf
      cases hfind : row.sale.lines.find? (·.id = item.lineId) with
      | none => exact le_rfl
      | some line => exact (hsales row (Table.get_mem hget).1).nonneg line (List.mem_of_find?_eq_some hfind)
    have hunit' : (0 : ℚ) ≤ unitCostOf row.sale.lines item.lineId := by exact_mod_cast hunit
    have hquantity : (0 : ℚ) ≤ item.quantity := by exact_mod_cast item.quantity_pos.le
    unfold refundItemCost
    split
    · split
      · unfold decimal
        positivity
      · exact le_rfl
    · exact le_rfl
  next => exact le_rfl

/-! ## What is posted -/

/-- The cost goes from the inventory to the cost of sales. -/
structure PostsCost (db db' : TenantDb) (cost : Money) : Prop where
  cogs : netChange "COGS" db db' = cost
  inventory : netChange "INVENTORY" db db' = -cost

theorem PostsCost.iff {cost cost' : Money} (h : PostsCost db db' cost) :
    PostsCost db db' cost' ↔ cost = cost' := by
  constructor
  · exact fun h' => h.cogs.symm.trans h'.cogs
  · rintro rfl
    exact h

/-- A checkout posts the cost of its whole cart. -/
theorem checkout_posts {payload : CheckoutCreate} {claim : Except Err (Option Uuid)}
    (hcosts : Costs db) (hnew : replayed claim db.pos.sales.get = false)
    (hok : Pos.checkout request db payload claim = .ok db') :
    PostsCost db db' (postedCost
      (roundHalfEven (cartCost db.inventory (fun _ => true) payload.lines * 10 ^ 6) / 10 ^ 6)) := by
  obtain ⟨hreplayed, -⟩ | ⟨-, row, _, _, _, hsale, hfits, -, -, -, -, hbooks, -⟩ :=
    checkout_eq_ok hcosts.linked hok
  · rw [hnew] at hreplayed
    cases hreplayed
  have heffect := checkout_effect hcosts hsale hfits hbooks
  exact ⟨heffect.cogs, heffect.inventory⟩

/-- The loop of a refund adds up the cost of its items. -/
theorem refund_booked {payload : RefundCreate} {row : SaleRow} {state : RefundState}
    {saleReturn : SaleReturn} {rows : List Vat.VatTransaction} (hcosts : Costs db)
    (hget : db.pos.sales.get payload.saleId = some row)
    (hitems : ∀ item ∈ payload.lines, item.lineId ∈ row.sale.lines.map SaleLine.id)
    (hloop : ((payload.sorted row.sale.lines).map refundLineOf).foldlM
      (refundItem db.inventory.product nothingElsewhere) ⟨row.sale.lines, 0, ⟨0, 0, 0, []⟩⟩ = .ok state)
    (hbooks : Books db (saleReturn.entries state.booking) rows db') :
    state.booking.cost = refundCost db (fun _ => true) payload := by
  have hperm : (payload.sorted row.sale.lines).Perm payload.lines := List.perm_insertionSort _ _
  obtain ⟨-, hacc⟩ := refundItems_cost (hcosts.sales row (Table.get_mem hget).1)
    (fun item hitem => hitems item (hperm.mem_iff.mp hitem)) rfl (.zero 12) hloop
  have hsum : refundCost db (fun _ => true) payload =
      (payload.lines.map (refundItemCost db.inventory row.sale.lines fun _ => true)).sum := by
    simp [refundCost, hget]
  rw [zero_add, (hperm.map _).sum_eq, ← hsum] at hacc
  refine amountsOf_accumulated hacc fun hpos => ?_
  have hmem : PostingLine.ofDebit "INVENTORY" state.booking.cost ∈
      [PostingLine.ofDebit "INVENTORY" state.booking.cost, .ofCredit "COGS" state.booking.cost] :=
    List.mem_cons_self
  refine (hbooks.fits _ (List.mem_append_right _ (List.mem_map_of_mem ?_)) _ hmem).1
  simp [hpos.ne']

/-- The lines of a fair sale, as its columns have them. -/
theorem FairSale.stored {lines : List SaleLine} (h : FairSale lines) :
    ∀ line ∈ lines, line.Stored := by
  intro line hline
  have hline := h.fair line hline
  exact ⟨hline.quantity_pos, hline.tax_nonneg.trans hline.tax_le, hline.tax_nonneg⟩

/-- A refund posts the cost of all its items. -/
theorem refund_posts {payload : RefundCreate} {claim : Except Err (Option Uuid)} (hcosts : Costs db)
    (hfair : FairSales db) (hnew : replayed claim db.pos.returns.get = false)
    (hok : Pos.refund request db payload claim = .ok db') :
    PostsCost db db' (-postedCost (refundCost db (fun _ => true) payload)) := by
  obtain ⟨hreplayed, -⟩ | ⟨-, row, state, _, saleReturn, _, _, _, _, hget, hitems, hloop, -, -, -, -, -,
    hbooks, -⟩ := refund_eq_ok hcosts.linked hok
  · rw [hnew] at hreplayed
    cases hreplayed
  have hstored := (hfair.fair row (Table.get_mem hget).1).stored
  have heffect := refund_effect hbooks (refundItems_stored hstored hloop)
  rw [refund_booked hcosts hget hitems hloop hbooks] at heffect
  exact ⟨heffect.cogs, heffect.inventory⟩

/-! ## The three documents -/

/-- The requests that recognise the cost of what they sell or take back. -/
def Op.recognisesCost : Op → Bool
  | .fulfil .. | .checkout .. | .refund .. => true
  | _ => false

/-- The idempotency service answers for the request. -/
def Op.isReplayed (db : TenantDb) : Op → Bool
  | .checkout _ claim => replayed claim db.pos.sales.get
  | .refund _ claim => replayed claim db.pos.returns.get
  | _ => false

/-- The rounded cost of the lines whose products track stock. -/
def Op.trackedCost (db : TenantDb) : Op → Money
  | .fulfil orderId lines => postedCost (shippedValue db orderId lines)
  | .checkout payload _ => postedCost (cartCost db.inventory (·.isStockTracked) payload.lines)
  | .refund payload _ => -postedCost (refundCost db (·.isStockTracked) payload)
  | _ => 0

/-- `other` does not take a cost that is posted over the next tie, at `limit` from the last. -/
def StaysBelow (limit cost other : ℚ) : Prop :=
  Int.fract (cost * 10 ^ 4 + 1 / 2) + other * 10 ^ 4 < limit

instance (limit cost other : ℚ) : Decidable (StaysBelow limit cost other) :=
  inferInstanceAs (Decidable (_ < _))

/-- The cost of the lines whose products track no stock is too small to be seen.  A checkout rounds
to six decimals on the way, which takes up the last half of a millionth. -/
def Op.CostStays (db : TenantDb) : Op → Prop
  | .checkout payload _ =>
      StaysBelow (995 / 1000) (cartCost db.inventory (·.isStockTracked) payload.lines)
        (cartCost db.inventory (!·.isStockTracked) payload.lines)
  | .refund payload _ =>
      StaysBelow 1 (refundCost db (·.isStockTracked) payload)
        (refundCost db (!·.isStockTracked) payload)
  | _ => True

theorem postedCost_add_iff {cost other : ℚ} (hcost : 0 ≤ cost) (hother : 0 ≤ other) :
    postedCost (cost + other) = postedCost cost ↔ StaysBelow 1 cost other := by
  rw [postedCost, add_mul]
  exact roundHalfUp_add_eq_iff (by positivity) (by positivity)

theorem postedCost_roundHalfEven_add_iff {cost other : ℚ} (hcost : 0 ≤ cost) (hother : 0 ≤ other) :
    postedCost (roundHalfEven ((cost + other) * 10 ^ 6) / 10 ^ 6) = postedCost cost ↔
      StaysBelow (995 / 1000) cost other := by
  have hadd := roundHalfUp_roundHalfEven_add (x := cost * 10 ^ 4) (u := other * 10 ^ 4)
    (by positivity) (by positivity)
  rw [← add_mul, mul_assoc, ← pow_add] at hadd
  rw [postedCost, div_mul_eq_mul_div, ← div_div_eq_mul_div]
  norm_num at hadd ⊢
  exact hadd

/-- In every run of requests of a tenant, a fulfilment, a checkout or a refund that goes through posts
the rounded cost of the lines whose products track stock exactly if the cost of its other lines, and
the rounding of a checkout, are too small to be seen. -/
theorem tracked_cost_iff (configuration : Configuration) (calls : List Call) {call : Call}
    (hcost : call.op.recognisesCost = true)
    (hnew : call.op.isReplayed ((TenantDb.start configuration).run calls) = false)
    (hok : call.op.body call.request ((TenantDb.start configuration).run calls) = .ok db') :
    PostsCost ((TenantDb.start configuration).run calls) db'
        (call.op.trackedCost ((TenantDb.start configuration).run calls)) ↔
      call.op.CostStays ((TenantDb.start configuration).run calls) := by
  have hcosts := TenantDb.run_costs configuration calls
  have hfair := TenantDb.run_fair configuration calls
  generalize (TenantDb.start configuration).run calls = db at *
  obtain ⟨request, op⟩ := call
  cases op with
  | fulfil orderId lines =>
      obtain ⟨hinventory, hcogs⟩ := fulfil_netChange hcosts.linked hcosts.costed hok
      exact iff_of_true ⟨hcogs, hinventory⟩ trivial
  | checkout payload claim =>
      rw [(checkout_posts hcosts hnew hok).iff, cartCost_split db.inventory (·.isStockTracked)]
      exact postedCost_roundHalfEven_add_iff (cartCost_nonneg hcosts.costed _ _)
        (cartCost_nonneg hcosts.costed _ _)
  | refund payload claim =>
      rw [(refund_posts hcosts hfair hnew hok).iff, refundCost_split db (·.isStockTracked)]
      refine neg_inj.trans (postedCost_add_iff ?_ ?_)
      · exact refundCost_nonneg hcosts.sales _ _
      · exact refundCost_nonneg hcosts.sales _ _
  | _ => cases hcost

/-! ## Goods and a service -/

/-- The shop before anything is received, with both products tracked or only product `7`. -/
def unreceived (isStockTracked : Bool) : Configuration :=
  { corner with
    products := ⟨[cornerProduct 7 true, cornerProduct 8 isStockTracked].map fun row =>
      { row with product := { row.product with costPrice := 0 } }, by decide +revert⟩
    cost_price_nonnegative := by decide +revert }

/-- Ten pieces of a product are received at `2`. -/
def receiptOf (n : Nat) (productId : Uuid) : Call where
  request := cornerRequest n
  op := .inventory
    (.receipt Accounting.calendarYear.context
      { warehouseId := 1
        productId := productId
        quantity := 10
        unitCost := some 2
        referenceType := none
        referenceId := none
        notes := none
        quantity_pos := Sample.ten_pos } none) rfl

/-- A piece of each product is sold. -/
def sellBoth : Call where
  request := cornerRequest 2
  op := .checkout
    { sessionId := 1
      customerId := none
      lines := [⟨7, 1000000, 0, Sample.onePiece_pos, Sample.onePiece_lt, Sample.zero_le,
          Sample.zero_le_rate⟩,
        ⟨8, 1000000, 0, Sample.onePiece_pos, Sample.onePiece_lt, Sample.zero_le,
          Sample.zero_le_rate⟩]
      payments := [⟨.cash, 115000, 0⟩] } (.ok none)

def openDay : Call := ⟨cornerRequest 1, .openSession ⟨5, 0, Sample.zero_money⟩⟩

/-- A service that was never received costs nothing, so the cost of the goods is posted. -/
theorem tracked_cost_service :
    let db := (TenantDb.start (unreceived false)).run [receiptOf 9 7, openDay]
    PostsCost db (db.step sellBoth) 20000 := by
  have hok := TenantDb.body_of_commits
    (show ((TenantDb.start (unreceived false)).run [receiptOf 9 7, openDay]).commits sellBoth = true by
      decide +kernel)
  have hposts := (tracked_cost_iff (unreceived false) [receiptOf 9 7, openDay] rfl
    (by decide +kernel) hok).mpr (show StaysBelow .. by decide +kernel)
  have hcost : sellBoth.op.trackedCost
      ((TenantDb.start (unreceived false)).run [receiptOf 9 7, openDay]) = 20000 := by decide +kernel
  rwa [hcost] at hposts

/-- Both products are received at `2`, and then the second one is no longer tracked. -/
def untrackedLater : List Call :=
  [receiptOf 9 7, receiptOf 10 8, ⟨cornerRequest 11, .configure corner⟩, openDay]

/-- Its cost is posted with that of the goods. -/
theorem untracked_cost_posted :
    ¬∀ (configuration : Configuration) (calls : List Call) (call : Call) (db' : TenantDb),
      call.op.recognisesCost = true →
      call.op.isReplayed ((TenantDb.start configuration).run calls) = false →
      call.op.body call.request ((TenantDb.start configuration).run calls) = .ok db' →
      PostsCost ((TenantDb.start configuration).run calls) db'
        (call.op.trackedCost ((TenantDb.start configuration).run calls)) := by
  intro hposts
  have hok := TenantDb.body_of_commits
    (show ((TenantDb.start (unreceived true)).run untrackedLater).commits sellBoth = true by
      decide +kernel)
  have hcogs := (hposts (unreceived true) untrackedLater sellBoth _ rfl (by decide +kernel) hok).cogs
  exact absurd hcogs (by decide +kernel)

end Nexora.Tenant
