import Nexora.Accounting.Tables
import Mathlib.Tactic.Positivity

/-!
# Products and units

The columns of `products`, with those of their unit and tax category, that the
stock and document services read (`app/modules/catalog/models.py`), and the
check of a quantity against its unit.

Quantities are `NUMERIC(20, 6)` and unit costs `NUMERIC(18, 6)`, both in units of
`0.000001`.  Rates are in units of `0.000001` too.
-/

namespace Nexora.Catalog

open Nexora
open Nexora.Accounting (Money)

/-- `Quantity`, in units of `0.000001`. -/
abbrev Quantity := Int

/-- `UnitCost`, in units of `0.000001`. -/
abbrev UnitCost := Int

/-- `Rate`, in units of `0.000001`. -/
abbrev Rate := Int

/-- `Product`, with the precision of its unit and the rate of its tax category. -/
structure Product where
  id : Uuid
  costPrice : UnitCost
  sellingPrice : Money
  taxRate : Rate
  isStockTracked : Bool
  precision : Nat
  sellingPrice_nonneg : 0 ≤ sellingPrice
  taxRate_range : 0 ≤ taxRate ∧ taxRate ≤ 10 ^ 6
  precision_le : precision ≤ 6

/-- The smallest quantity with at most `precision` decimal places. -/
def quantum (precision : Nat) : Quantity := 10 ^ (6 - precision)

theorem quantum_pos (precision : Nat) : 0 < quantum precision := by
  unfold quantum
  positivity

/-- `_validate_quantity`.  The normalized quantity has at most `precision` decimal
places exactly when the quantum divides it. -/
def Product.validateQuantity (product : Product) (quantity : Quantity) : Except Err Unit :=
  if quantum product.precision ∣ quantity then .ok ()
  else .error (.domainValidation "VALIDATION_ERROR"
    s!"Quantity supports at most {product.precision} decimal places for this unit.")

/-- The smallest quantity a document can move.  The unit is only checked where stock
moves, so products that are not tracked go by the column. -/
def Product.step (product : Product) : Quantity :=
  if product.isStockTracked then quantum product.precision else 1

theorem Product.step_pos (product : Product) : 0 < product.step := by
  unfold step
  split
  · exact quantum_pos _
  · exact one_pos

end Nexora.Catalog

/-! ## Figures of the examples

A piece is a million units of a quantity column, and `50000` is a price of `5`. -/

namespace Nexora.Sample

open Nexora.Catalog
open Nexora.Accounting (Money)

theorem zero_le : (0 : Int) ≤ 0 := le_rfl

theorem zero_rate : (0 : Rate) ≤ 0 ∧ (0 : Rate) ≤ 10 ^ 6 := by decide

theorem zero_le_rate : (0 : Rate) ≤ 10 ^ 6 := by decide

theorem zero_money : (0 : Money) ≤ 0 ∧ (0 : Money) < 10 ^ 18 := by decide

theorem fifteenPercent : (0 : Rate) ≤ 150000 ∧ (150000 : Rate) ≤ 10 ^ 6 := by decide

theorem rate_nonneg {rate : Rate} (h : 0 ≤ rate ∧ rate ≤ 10 ^ 6) : 0 ≤ rate := h.1

theorem rate_le {rate : Rate} (h : 0 ≤ rate ∧ rate ≤ 10 ^ 6) : rate ≤ 10 ^ 6 := h.2

theorem quantity_pos {quantity : Quantity} (h : 0 < quantity ∧ quantity < 10 ^ 20) :
    0 < quantity := h.1

theorem quantity_lt {quantity : Quantity} (h : 0 < quantity ∧ quantity < 10 ^ 20) :
    quantity < 10 ^ 20 := h.2

theorem onePiece : (0 : Quantity) < 1000000 ∧ (1000000 : Quantity) < 10 ^ 20 := by decide

theorem onePiece_pos : (0 : Quantity) < 1000000 := onePiece.1

theorem onePiece_lt : (1000000 : Quantity) < 10 ^ 20 := onePiece.2

theorem twoPieces : (0 : Quantity) < 2000000 ∧ (2000000 : Quantity) < 10 ^ 20 := by decide

theorem twoPieces_pos : (0 : Quantity) < 2000000 := twoPieces.1

theorem twoPieces_lt : (2000000 : Quantity) < 10 ^ 20 := twoPieces.2

theorem whole_units : (0 : Nat) ≤ 6 := by decide

theorem five_nonneg : (0 : Money) ≤ 50000 := by decide

theorem two_pos : (0 : ℚ) < 2 := by norm_num

theorem four_pos : (0 : ℚ) < 4 := by norm_num

theorem ten_pos : (0 : ℚ) < 10 := by norm_num

end Nexora.Sample
