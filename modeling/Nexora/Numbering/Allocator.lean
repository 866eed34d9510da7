import Nexora.Accounting.SystemAccounts

/-!
# Document numbers

`NumberAllocator` of `app/modules/numbering/service.py`.  A number is the prefix of its
series, the year, and a counter of the two.
-/

namespace Nexora.Numbering

open Nexora
open Nexora.Accounting (LedgerDb Env)

/-- The keys of `NumberAllocator.SERIES`. -/
inductive Series where
  | quotation
  | salesOrder
  | fulfillment
  | invoice
  | creditNote
  | salesPayment
  | purchaseOrder
  | goodsReceipt
  | supplierBill
  | purchasePayment
  | posSession
  | posSale
  | posReturn
  | journal
deriving DecidableEq, Repr

/-- The key of a series. -/
def Series.name : Series → String
  | .quotation => "quotation"
  | .salesOrder => "sales_order"
  | .fulfillment => "fulfillment"
  | .invoice => "invoice"
  | .creditNote => "credit_note"
  | .salesPayment => "sales_payment"
  | .purchaseOrder => "purchase_order"
  | .goodsReceipt => "goods_receipt"
  | .supplierBill => "supplier_bill"
  | .purchasePayment => "purchase_payment"
  | .posSession => "pos_session"
  | .posSale => "pos_sale"
  | .posReturn => "pos_return"
  | .journal => "journal"

/-- The prefix of the numbers of a series. -/
def Series.code : Series → String
  | .quotation => "QT"
  | .salesOrder => "SO"
  | .fulfillment => "FUL"
  | .invoice => "INV"
  | .creditNote => "CN"
  | .salesPayment => "RCP"
  | .purchaseOrder => "PO"
  | .goodsReceipt => "GRN"
  | .supplierBill => "BILL"
  | .purchasePayment => "PMT"
  | .posSession => "SHIFT"
  | .posSale => "SALE"
  | .posReturn => "RET"
  | .journal => "JE"

/-- The text of a number, with at least six digits for the counter. -/
def Series.format (series : Series) (period : String) (allocated : Nat) : String :=
  let digits := toString allocated
  series.code ++ "-" ++ period ++ "-" ++ "".pushn '0' (6 - digits.length) ++ digits

/-- `NumberAllocator.allocate`, in the year of the request. -/
def allocate (db : LedgerDb) (series : Series) (env : Env) : String × LedgerDb :=
  let period := toString env.today.year
  let allocated := db.sequences series.name period
  let counters := Function.update (db.sequences series.name) period (allocated + 1)
  (series.format period allocated,
    { db with sequences := Function.update db.sequences series.name counters })

/-- The journal draws its numbers in the same way. -/
theorem allocate_journal (db : LedgerDb) (env : Env) :
    allocate db .journal env = db.allocate (toString env.today.year) := rfl

/-- A number takes nothing from the ledger but its counter. -/
theorem allocate_sameCodes (db : LedgerDb) (series : Series) (env : Env) :
    db.SameCodes (allocate db series env).2 := ⟨rfl, fun _ a ha => ⟨a, ha, rfl⟩⟩

end Nexora.Numbering
