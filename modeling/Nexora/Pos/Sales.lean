import Nexora.Sales.Money
import Mathlib.Data.List.Sort
import Mathlib.Algebra.BigOperators.Group.List.Basic

/-!
# Sales at the till

`PosService.checkout` of `app/modules/pos/service.py`: the lines, totals and
tenders of a sale.  The steps that other modules decide (the idempotency claim, the
open session, stock movements, the journal and the VAT register) are a parameter,
`Elsewhere`, which says for each of them whether it raises.

`checkout_completed` collects what a sale that went through looks like.  It is what
refunds start from.
-/

namespace Nexora.Pos

open Nexora Nexora.Catalog Nexora.Sales Foundations
open Nexora.Accounting (Money)

/-! ## Tables -/

/-- `SaleLine`. -/
structure SaleLine where
  id : Uuid
  productId : Uuid
  quantity : Quantity
  unitPrice : Money
  discountRate : Rate
  taxRate : Rate
  netAmount : Money
  taxAmount : Money
  totalAmount : Money
  unitCost : UnitCost
  refundedQuantity : Quantity
deriving DecidableEq, Repr

/-- `Sale` with its lines and the amounts of its returns. -/
structure Sale where
  lines : List SaleLine
  netAmount : Money
  discountAmount : Money
  taxAmount : Money
  totalAmount : Money
  costAmount : UnitCost
  refundedAmount : Money
  returns : List Money
deriving DecidableEq, Repr

/-! ## What other modules decide -/

/-- The amounts a sale or a refund hands to the journal and the VAT register. -/
structure Booking where
  net : Money
  tax : Money
  cost : ℚ
  rateLines : List (Rate × Money × Money)

/-- The steps of a checkout or a refund outside this module. -/
inductive OutsideStep where
  /-- The idempotency claim, the session, the terminal and the branch. -/
  | enter
  /-- The stock movement of a product, after the check of its quantity. -/
  | move (productId : Uuid) (quantity : Quantity)
  /-- The number, the journal entries, the VAT register and the audit event. -/
  | book (booking : Booking)

/-- `refund_within_total` of `sales`. -/
def refundWithinTotal : Err := .integrity "refund_within_total"

/-- Whether the steps outside raise.  They write no sale, so they do not break the
constraint of its refunds. -/
structure Elsewhere where
  run : OutsideStep → Except Err Unit
  ne_refundWithinTotal : ∀ step, run step ≠ .error refundWithinTotal

/-- The stock movement of a line, for products that track stock. -/
def moveStock (elsewhere : Elsewhere) (product : Product) (quantity : Quantity) :
    Except Err Unit :=
  if product.isStockTracked then do
    product.validateQuantity quantity
    elsewhere.run (.move product.id quantity)
  else .ok ()

/-! ## Checkout -/

/-- `CartLine`, with the bounds of its schema. -/
structure CartLine where
  productId : Uuid
  quantity : Quantity
  discountRate : Rate
  quantity_pos : 0 < quantity
  quantity_lt : quantity < 10 ^ 20
  discountRate_nonneg : 0 ≤ discountRate
  discountRate_le : discountRate ≤ 10 ^ 6

inductive TenderType where
  | cash
  | card
  | mobile
  | voucher
deriving DecidableEq, Repr

structure TenderInput where
  tender : TenderType
  amount : Money
  changeGiven : Money
deriving DecidableEq, Repr

/-- The products at the till, the identifiers drawn for new lines, and the outside. -/
structure Till where
  product : Uuid → Option Product
  newId : Uuid → Uuid
  elsewhere : Elsewhere

/-- The storage of the amounts of a line. -/
def SaleLine.store (line : SaleLine) : Except Err Unit := do
  storeMoney "net_amount" line.netAmount
  storeMoney "tax_amount" line.taxAmount
  storeMoney "total_amount" line.totalAmount

/-- One pass of the loop of `checkout`. -/
def Till.sellLine (till : Till) (item : CartLine) : Except Err SaleLine := do
  let product ← orRaise .notFound (till.product item.productId)
  let (net, tax, total) ← lineTotals item.quantity product.sellingPrice item.discountRate
    product.taxRate
  moveStock till.elsewhere product (-item.quantity)
  let line : SaleLine :=
    { id := till.newId item.productId
      productId := item.productId
      quantity := item.quantity
      unitPrice := product.sellingPrice
      discountRate := item.discountRate
      taxRate := product.taxRate
      netAmount := net
      taxAmount := tax
      totalAmount := total
      unitCost := product.costPrice
      refundedQuantity := 0 }
  line.store
  .ok line

/-- `cost += item.quantity * product.cost_price` over the lines. -/
def costOf (lines : List SaleLine) : ℚ :=
  lines.foldl (fun cost line =>
    toContext (cost + toContext (line.quantity / 10 ^ 6 * (line.unitCost / 10 ^ 6)))) 0

/-- `discount += item.quantity * product.selling_price - line_net` over the lines. -/
def discountOf (lines : List SaleLine) : ℚ :=
  lines.foldl (fun discount line =>
    toContext (discount + toContext
      (toContext (line.quantity / 10 ^ 6 * (line.unitPrice / 10 ^ 4)) -
        line.netAmount / 10 ^ 4))) 0

def requireDistinct (ids : List Uuid) (message : String) : Except Err Unit :=
  if ids.Nodup then .ok () else .error (.domainValidation "DUPLICATE_LINE" message)

def requireTender (payments : List TenderInput) (total : Money) : Except Err Unit :=
  if (payments.map fun payment => payment.amount - payment.changeGiven).sum = total then .ok ()
  else .error (.conflict "TENDER_INSUFFICIENT" "Tender after change must equal the sale total.")

def requireCashChange (payments : List TenderInput) : Except Err Unit :=
  if payments.all fun payment => payment.tender = .cash ∨ payment.changeGiven = 0 then .ok ()
  else .error (.domainValidation "CHANGE_CASH_ONLY" "Only cash tender gives change.")

/-- Primary key of `sale_lines`. -/
def requireLineIds (lines : List SaleLine) : Except Err Unit :=
  if (lines.map SaleLine.id).Nodup then .ok () else .error (.integrity "pk_sale_lines")

/-- `PosService.checkout`. -/
def Till.checkout (till : Till) (items : List CartLine) (payments : List TenderInput) :
    Except Err Sale := do
  till.elsewhere.run .enter
  requireDistinct (items.map CartLine.productId) "A product may appear only once."
  let lines ← (items.insertionSort (fun a b => a.productId ≤ b.productId)).mapM till.sellLine
  let net := (lines.map SaleLine.netAmount).sum
  let tax := (lines.map SaleLine.taxAmount).sum
  let discount ← roundMoney (discountOf lines)
  requireTender payments (net + tax)
  requireCashChange payments
  requireLineIds lines
  storeMoney "total_amount" (net + tax)
  storeMoney "discount_amount" discount
  let booking : Booking :=
    { net := net
      tax := tax
      cost := costOf lines
      rateLines := lines.map fun line => (line.taxRate, line.netAmount, line.taxAmount) }
  till.elsewhere.run (.book booking)
  .ok
    { lines := lines
      netAmount := net
      discountAmount := discount
      taxAmount := tax
      totalAmount := net + tax
      costAmount := roundHalfEven (costOf lines * 10 ^ 6)
      refundedAmount := 0
      returns := [] }

/-! ## Completed sales -/

/-- A line as `checkout` leaves it. -/
structure SaleLine.Sold (product : Uuid → Option Product) (line : SaleLine) : Prop where
  quantity_pos : 0 < line.quantity
  quantity_lt : line.quantity < 10 ^ 20
  net : |line.netAmount| < 10 ^ 18
  tax : |line.taxAmount| < 10 ^ 18
  total_nonneg : 0 ≤ line.totalAmount
  total_lt : line.totalAmount < 10 ^ 18
  notRefunded : line.refundedQuantity = 0
  /-- The quantity was checked against the unit of the product. -/
  unit : ∃ p, product line.productId = some p ∧ p.step ∣ line.quantity

/-- A sale as `checkout` leaves it. -/
structure Sale.Completed (product : Uuid → Option Product) (sale : Sale) : Prop where
  sold : ∀ line ∈ sale.lines, line.Sold product
  nodup : (sale.lines.map SaleLine.id).Nodup
  total : sale.totalAmount = (sale.lines.map SaleLine.totalAmount).sum
  notRefunded : sale.refundedAmount = 0 ∧ sale.returns = []

theorem storeMoney_eq_ok {column : String} {amount : Money} {u : Unit}
    (h : storeMoney column amount = .ok u) : |amount| < 10 ^ 18 := by
  unfold storeMoney at h
  split at h
  next hlt => exact hlt
  next => cases h

theorem moveStock_eq_ok {elsewhere : Elsewhere} {product : Product} {quantity : Quantity} {u : Unit}
    (h : moveStock elsewhere product quantity = .ok u) : product.step ∣ quantity := by
  unfold moveStock at h
  unfold Product.step
  split at h
  next htracked =>
    rw [if_pos htracked]
    obtain ⟨_, hunit, -⟩ := bind_eq_ok.mp h
    unfold Product.validateQuantity at hunit
    split at hunit
    next hdvd => exact hdvd
    next => cases hunit
  next htracked =>
    rw [if_neg htracked]
    exact one_dvd _

theorem Till.sellLine_eq_ok {till : Till} {item : CartLine} {line : SaleLine}
    (h : till.sellLine item = .ok line) :
    line.Sold till.product ∧ line.totalAmount = line.netAmount + line.taxAmount := by
  obtain ⟨product, hproduct, h⟩ := bind_eq_ok.mp h
  obtain ⟨⟨net, tax, total⟩, htotals, h⟩ := bind_eq_ok.mp h
  obtain ⟨_, hmove, h⟩ := bind_eq_ok.mp h
  obtain ⟨_, hstore, h⟩ := bind_eq_ok.mp h
  cases h
  obtain ⟨_, hnet, hstore⟩ := bind_eq_ok.mp hstore
  obtain ⟨_, htax, htotal⟩ := bind_eq_ok.mp hstore
  obtain ⟨hnet_nonneg, htax_nonneg, hsum⟩ := lineTotals_nonneg item.quantity_pos.le
    product.sellingPrice_nonneg item.discountRate_le product.taxRate_range.1 htotals
  refine ⟨⟨item.quantity_pos, item.quantity_lt, storeMoney_eq_ok hnet, storeMoney_eq_ok htax, ?_,
    (le_abs_self total).trans_lt (storeMoney_eq_ok htotal), rfl, product,
    orRaise_eq_ok.mp hproduct, ?_⟩, hsum⟩
  · rw [hsum]
    exact add_nonneg hnet_nonneg htax_nonneg
  · simpa using moveStock_eq_ok hmove

/-- What a checkout that went through leaves. -/
theorem Till.checkout_completed {till : Till} {items : List CartLine}
    {payments : List TenderInput} {sale : Sale} (h : till.checkout items payments = .ok sale) :
    sale.Completed till.product := by
  obtain ⟨_, -, h⟩ := bind_eq_ok.mp h
  obtain ⟨_, -, h⟩ := bind_eq_ok.mp h
  obtain ⟨lines, hlines, h⟩ := bind_eq_ok.mp h
  obtain ⟨discount, -, h⟩ := bind_eq_ok.mp h
  obtain ⟨_, -, h⟩ := bind_eq_ok.mp h
  obtain ⟨_, -, h⟩ := bind_eq_ok.mp h
  obtain ⟨_, hids, h⟩ := bind_eq_ok.mp h
  obtain ⟨_, -, h⟩ := bind_eq_ok.mp h
  obtain ⟨_, -, h⟩ := bind_eq_ok.mp h
  obtain ⟨_, -, h⟩ := bind_eq_ok.mp h
  cases h
  have hsold : ∀ line ∈ lines,
      line.Sold till.product ∧ line.totalAmount = line.netAmount + line.taxAmount :=
    mapM_forall (fun _ _ hline => sellLine_eq_ok hline) hlines
  refine ⟨fun line hline => (hsold line hline).1, ?_, ?_, rfl, rfl⟩
  · unfold requireLineIds at hids
    split at hids
    next hnodup => exact hnodup
    next => cases hids
  · rw [← List.sum_map_add]
    exact congrArg List.sum (List.map_congr_left fun line hline => (hsold line hline).2.symm)

end Nexora.Pos
