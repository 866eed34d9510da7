import Nexora.Sales.Money
import Nexora.Foundations.KeyedTable

/-!
# The tables of sales

`app/modules/sales/models.py`, for one tenant.  A document holds its lines, in the order of
their products, which is the order in which the repository reads them.  Checks and column
bounds are fields of the rows, and so is what the service keeps of its own accord: the
amounts of a line are those of `line_totals`, and the totals of an invoice are the sums over
its lines.

Notes, descriptions, references and times of creation are left out: no service reads them
back.
-/

namespace Nexora.Sales

open Nexora Nexora.Catalog Foundations
open Nexora.Accounting (Money Date)

/-! ## Status -/

inductive QuotationStatus where
  | draft
  | sent
  | accepted
  | rejected
  | expired
deriving DecidableEq, Repr

/-- The value of a `QuotationStatus`. -/
def QuotationStatus.value : QuotationStatus → String
  | .draft => "DRAFT"
  | .sent => "SENT"
  | .accepted => "ACCEPTED"
  | .rejected => "REJECTED"
  | .expired => "EXPIRED"

inductive SalesOrderStatus where
  | draft
  | confirmed
  | partiallyFulfilled
  | fulfilled
  | cancelled
deriving DecidableEq, Repr

/-- The value of a `SalesOrderStatus`. -/
def SalesOrderStatus.value : SalesOrderStatus → String
  | .draft => "DRAFT"
  | .confirmed => "CONFIRMED"
  | .partiallyFulfilled => "PARTIALLY_FULFILLED"
  | .fulfilled => "FULFILLED"
  | .cancelled => "CANCELLED"

/-- `InvoiceStatus`, and `SupplierBillStatus`, which has the same members. -/
inductive InvoiceStatus where
  | draft
  | issued
  | partiallyPaid
  | paid
  | cancelled
deriving DecidableEq, Repr

/-- The value of an `InvoiceStatus`. -/
def InvoiceStatus.value : InvoiceStatus → String
  | .draft => "DRAFT"
  | .issued => "ISSUED"
  | .partiallyPaid => "PARTIALLY_PAID"
  | .paid => "PAID"
  | .cancelled => "CANCELLED"

/-- The statuses of a document that was issued. -/
def InvoiceStatus.isIssued : InvoiceStatus → Bool
  | .issued | .partiallyPaid | .paid => true
  | .draft | .cancelled => false

inductive PaymentMethod where
  | cash
  | card
  | bankTransfer
  | mobile
  | credit
deriving DecidableEq, Repr

/-! ## Lines -/

/-- `LineInput`, with the bounds of its schema. -/
structure LineInput where
  productId : Uuid
  quantity : Quantity
  unitPrice : Money
  discountRate : Rate
  taxRate : Rate
  quantity_pos : 0 < quantity
  quantity_lt : quantity < 10 ^ 20
  unitPrice_nonneg : 0 ≤ unitPrice
  discountRate_range : 0 ≤ discountRate ∧ discountRate ≤ 10 ^ 6
  taxRate_range : 0 ≤ taxRate ∧ taxRate ≤ 10 ^ 6

theorem LineInput.columns_injective :
    Function.Injective fun line : LineInput =>
      (line.productId, line.quantity, line.unitPrice, line.discountRate, line.taxRate) := by
  rintro ⟨⟩ ⟨⟩ h
  cases h
  rfl

instance : DecidableEq LineInput := LineInput.columns_injective.decidableEq

/-- The gross amount of a line. -/
def LineInput.gross (line : LineInput) : ℚ :=
  toContext (line.quantity / 10 ^ 6 * (line.unitPrice / 10 ^ 4))

theorem LineInput.gross_nonneg (line : LineInput) : 0 ≤ line.gross := by
  have hprice : (0 : ℚ) ≤ line.unitPrice := by exact_mod_cast line.unitPrice_nonneg
  exact Sales.gross_nonneg line.quantity_pos.le (by positivity)

/-- The columns that the lines of all priced documents share. -/
structure PricedLine extends LineInput where
  amounts : Amounts
  amounts_eq : totalsOf toLineInput.gross discountRate taxRate =
    .ok (amounts.netAmount, amounts.taxAmount, amounts.totalAmount)
deriving DecidableEq

/-- `line_totals` of a line, in its columns. -/
def LineInput.price (line : LineInput) : Except Err PricedLine :=
  match h : Amounts.ofLine line.gross line.discountRate line.taxRate line.gross_nonneg
      line.discountRate_range.2 line.taxRate_range.1 with
  | .error e => .error e
  | .ok amounts => .ok ⟨line, amounts, Amounts.ofLine_eq_ok h⟩

/-- A line as it is taxed: its rate, its net amount and its tax. -/
def PricedLine.taxable (line : PricedLine) : Rate × Money × Money :=
  (line.taxRate, line.amounts.netAmount, line.amounts.taxAmount)

/-- `SalesOrderLine`. -/
structure SalesOrderLine extends PricedLine where
  id : Uuid
  fulfilledQuantity : Quantity
  invoicedQuantity : Quantity
  fulfilled_within_ordered : 0 ≤ fulfilledQuantity ∧ fulfilledQuantity ≤ quantity
  invoiced_within_ordered : 0 ≤ invoicedQuantity ∧ invoicedQuantity ≤ quantity
deriving DecidableEq

/-- `InvoiceLine`. -/
structure InvoiceLine extends PricedLine where
  id : Uuid
  salesOrderLineId : Uuid
  creditedQuantity : Quantity
  credited_within_invoiced : 0 ≤ creditedQuantity ∧ creditedQuantity ≤ quantity
deriving DecidableEq

/-- `CreditNoteLine`. -/
structure CreditNoteLine extends PricedLine where
  id : Uuid
  invoiceLineId : Uuid
deriving DecidableEq

/-! ## Documents -/

/-- `Quotation` with its lines. -/
structure Quotation where
  id : Uuid
  quotationNumber : String
  customerId : Uuid
  branchId : Uuid
  status : QuotationStatus
  amounts : Amounts
  lines : List PricedLine
  convertedOrderId : Option Uuid
deriving DecidableEq

/-- `SalesOrder` with its lines. -/
structure SalesOrder where
  id : Uuid
  orderNumber : String
  customerId : Uuid
  branchId : Uuid
  warehouseId : Uuid
  quotationId : Option Uuid
  status : SalesOrderStatus
  orderDate : Date
  amounts : Amounts
  lines : List SalesOrderLine
deriving DecidableEq

/-- `FulfillmentLine`. -/
structure FulfillmentLine where
  salesOrderLineId : Uuid
  productId : Uuid
  quantity : Quantity
  quantity_pos : 0 < quantity

theorem FulfillmentLine.columns_injective :
    Function.Injective fun line : FulfillmentLine =>
      (line.salesOrderLineId, line.productId, line.quantity) := by
  rintro ⟨⟩ ⟨⟩ h
  cases h
  rfl

instance : DecidableEq FulfillmentLine := FulfillmentLine.columns_injective.decidableEq

/-- `Fulfillment` with its lines. -/
structure Fulfillment where
  id : Uuid
  fulfillmentNumber : String
  salesOrderId : Uuid
  warehouseId : Uuid
  lines : List FulfillmentLine
deriving DecidableEq

/-- `Invoice` with its lines. -/
structure Invoice where
  id : Uuid
  /-- Drawn when the invoice is issued. -/
  invoiceNumber : Option String
  customerId : Uuid
  branchId : Uuid
  salesOrderId : Uuid
  status : InvoiceStatus
  issueDate : Date
  dueDate : Option Date
  amounts : Amounts
  paidAmount : Money
  lines : List InvoiceLine
  paid_within_total : 0 ≤ paidAmount ∧ paidAmount ≤ amounts.totalAmount
  unique_lines : (lines.map InvoiceLine.id).Nodup
  totals_eq : Amounts.total (lines.map (·.amounts)) = .ok amounts
deriving DecidableEq

/-- `CreditNote` with its lines.  A note is issued when it is created. -/
structure CreditNote where
  id : Uuid
  creditNoteNumber : String
  invoiceId : Uuid
  customerId : Uuid
  branchId : Uuid
  issueDate : Date
  restock : Bool
  warehouseId : Option Uuid
  amounts : Amounts
  lines : List CreditNoteLine
  totals_eq : Amounts.total (lines.map (·.amounts)) = .ok amounts
deriving DecidableEq

/-- The direction of a payment with its counterparty. -/
inductive Counterparty where
  /-- `INBOUND`, from a customer. -/
  | customer (customerId : Uuid)
  /-- `OUTBOUND`, to a supplier. -/
  | supplier (supplierId : Uuid)
deriving DecidableEq, Repr

/-- `direction = 'INBOUND'`. -/
def Counterparty.isCustomer : Counterparty → Bool
  | .customer _ => true
  | .supplier _ => false

/-- `PaymentAllocation`, to an invoice of a payment from a customer and to a bill of a
payment to a supplier. -/
structure PaymentAllocation where
  targetId : Uuid
  amount : Money
  amount_positive : 0 < amount
deriving DecidableEq

/-- `Payment` with its allocations. -/
structure Payment where
  id : Uuid
  paymentNumber : String
  counterparty : Counterparty
  branchId : Uuid
  method : PaymentMethod
  amount : Money
  allocatedAmount : Money
  paymentDate : Date
  allocations : List PaymentAllocation
  amount_positive : 0 < amount
  allocated_within_amount : 0 ≤ allocatedAmount ∧ allocatedAmount ≤ amount
  unique_targets : (allocations.map PaymentAllocation.targetId).Nodup
deriving DecidableEq

/-! ## The database -/

/-- The tables of sales. -/
structure SalesDb where
  quotations : Table Quotation.id
  orders : Table SalesOrder.id
  fulfillments : Table Fulfillment.id
  invoices : Table Invoice.id
  creditNotes : Table CreditNote.id
  payments : Table Payment.id

/-- The tables of a new tenant. -/
def SalesDb.empty : SalesDb := ⟨.empty _, .empty _, .empty _, .empty _, .empty _, .empty _⟩

end Nexora.Sales
