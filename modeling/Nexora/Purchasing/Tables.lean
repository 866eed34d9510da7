import Nexora.Sales.Tables

/-!
# The tables of purchasing

`app/modules/purchasing/models.py`, for one tenant.  It mirrors the tables of sales, except
that lines are priced by a unit cost of six decimals and have no discount.  A goods receipt
keeps the cost that each of its lines was received at, which need not be the cost on the
order.
-/

namespace Nexora.Purchasing

open Nexora Nexora.Catalog Nexora.Sales Foundations
open Nexora.Accounting (Money Date)

inductive PurchaseOrderStatus where
  | draft
  | confirmed
  | partiallyReceived
  | received
  | cancelled
deriving DecidableEq, Repr

/-- The value of a `PurchaseOrderStatus`. -/
def PurchaseOrderStatus.value : PurchaseOrderStatus → String
  | .draft => "DRAFT"
  | .confirmed => "CONFIRMED"
  | .partiallyReceived => "PARTIALLY_RECEIVED"
  | .received => "RECEIVED"
  | .cancelled => "CANCELLED"

/-! ## Lines -/

/-- `PurchaseLineInput`, with the bounds of its schema. -/
structure PurchaseLineInput where
  productId : Uuid
  quantity : Quantity
  unitCost : UnitCost
  taxRate : Rate
  quantity_pos : 0 < quantity
  quantity_lt : quantity < 10 ^ 20
  unitCost_range : 0 ≤ unitCost ∧ unitCost < 10 ^ 18
  taxRate_range : 0 ≤ taxRate ∧ taxRate ≤ 10 ^ 6

theorem PurchaseLineInput.columns_injective :
    Function.Injective fun line : PurchaseLineInput =>
      (line.productId, line.quantity, line.unitCost, line.taxRate) := by
  rintro ⟨⟩ ⟨⟩ h
  cases h
  rfl

instance : DecidableEq PurchaseLineInput := PurchaseLineInput.columns_injective.decidableEq

/-- The gross amount of a line. -/
def PurchaseLineInput.gross (line : PurchaseLineInput) : ℚ :=
  toContext (line.quantity / 10 ^ 6 * (line.unitCost / 10 ^ 6))

theorem PurchaseLineInput.gross_nonneg (line : PurchaseLineInput) : 0 ≤ line.gross := by
  have hcost : (0 : ℚ) ≤ line.unitCost := by exact_mod_cast line.unitCost_range.1
  exact Sales.gross_nonneg line.quantity_pos.le (by positivity)

/-- The columns that the lines of orders and bills share. -/
structure CostedLine extends PurchaseLineInput where
  amounts : Amounts
  amounts_eq : totalsOf toPurchaseLineInput.gross 0 taxRate =
    .ok (amounts.netAmount, amounts.taxAmount, amounts.totalAmount)
deriving DecidableEq

/-- `line_totals` of a line at its cost and without discount, in its columns. -/
def PurchaseLineInput.price (line : PurchaseLineInput) : Except Err CostedLine :=
  match h : Amounts.ofLine line.gross 0 line.taxRate line.gross_nonneg (by decide)
      line.taxRate_range.1 with
  | .error e => .error e
  | .ok amounts => .ok ⟨line, amounts, Amounts.ofLine_eq_ok h⟩

/-- A line as it is taxed: its rate, its net amount and its tax. -/
def CostedLine.taxable (line : CostedLine) : Rate × Money × Money :=
  (line.taxRate, line.amounts.netAmount, line.amounts.taxAmount)

/-- `PurchaseOrderLine`. -/
structure PurchaseOrderLine extends CostedLine where
  id : Uuid
  receivedQuantity : Quantity
  billedQuantity : Quantity
  received_within_ordered : 0 ≤ receivedQuantity ∧ receivedQuantity ≤ quantity
  billed_within_ordered : 0 ≤ billedQuantity ∧ billedQuantity ≤ quantity
deriving DecidableEq

/-- `GoodsReceiptLine`. -/
structure GoodsReceiptLine where
  purchaseOrderLineId : Uuid
  productId : Uuid
  quantity : Quantity
  unitCost : UnitCost
  quantity_pos : 0 < quantity
  unitCost_nonneg : 0 ≤ unitCost

theorem GoodsReceiptLine.columns_injective :
    Function.Injective fun line : GoodsReceiptLine =>
      (line.purchaseOrderLineId, line.productId, line.quantity, line.unitCost) := by
  rintro ⟨⟩ ⟨⟩ h
  cases h
  rfl

instance : DecidableEq GoodsReceiptLine := GoodsReceiptLine.columns_injective.decidableEq

/-- `SupplierBillLine`. -/
structure SupplierBillLine extends CostedLine where
  purchaseOrderLineId : Uuid
deriving DecidableEq

/-! ## Documents -/

/-- `PurchaseOrder` with its lines. -/
structure PurchaseOrder where
  id : Uuid
  orderNumber : String
  supplierId : Uuid
  branchId : Uuid
  warehouseId : Uuid
  status : PurchaseOrderStatus
  orderDate : Date
  amounts : Amounts
  lines : List PurchaseOrderLine
deriving DecidableEq

/-- `GoodsReceipt` with its lines. -/
structure GoodsReceipt where
  id : Uuid
  receiptNumber : String
  purchaseOrderId : Uuid
  warehouseId : Uuid
  lines : List GoodsReceiptLine
deriving DecidableEq

/-- `SupplierBill` with its lines. -/
structure SupplierBill where
  id : Uuid
  /-- Drawn when the bill is issued. -/
  billNumber : Option String
  supplierId : Uuid
  branchId : Uuid
  purchaseOrderId : Uuid
  status : InvoiceStatus
  issueDate : Date
  dueDate : Option Date
  amounts : Amounts
  paidAmount : Money
  lines : List SupplierBillLine
  paid_within_total : 0 ≤ paidAmount ∧ paidAmount ≤ amounts.totalAmount
  totals_eq : Amounts.total (lines.map (·.amounts)) = .ok amounts

/-! ## The database -/

/-- The tables of purchasing. -/
structure PurchasingDb where
  orders : Table PurchaseOrder.id
  receipts : Table GoodsReceipt.id
  bills : Table SupplierBill.id

/-- The tables of a new tenant. -/
def PurchasingDb.empty : PurchasingDb := ⟨.empty _, .empty _, .empty _⟩

end Nexora.Purchasing
