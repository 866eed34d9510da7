import Nexora.Pos.Writes
import Nexora.Purchasing.Writes
import Nexora.Tenant.Operations

/-!
# The entries of a tenant

What the requests of a tenant book comes from the posting rules (`Op.books`).  The amounts
they hand to a rule that splits are those of documents, with four decimals.  Costs may have
more, but a cost is posted twice and never split.

So an entry that balances still balances when its lines are stored, and every trial balance
does (`trialBalance_of_every_run`).
-/

namespace Nexora.Tenant

open Nexora Nexora.Catalog Nexora.Sales Nexora.Purchasing Nexora.Pos Foundations
open Nexora.Accounting
open Nexora.Vat (VatTransaction)

variable {request : Request} {db db' : TenantDb}

/-! ## Postings on one account -/

/-- The amounts that lines post on the account with a code. -/
def linePostings (code : String) (lines : List PostingLine) : List Money :=
  (lines.filter (·.systemCode = code)).map (·.amount)

@[simp] theorem linePostings_nil (code : String) : linePostings code [] = [] := rfl

@[simp] theorem linePostings_cons (code : String) (line : PostingLine) (lines : List PostingLine) :
    linePostings code (line :: lines) =
      (if line.systemCode = code then [line.amount] else []) ++ linePostings code lines := by
  by_cases h : line.systemCode = code
  · simp [linePostings, h]
  · simp [linePostings, h]

@[simp] theorem linePostings_append (code : String) (lines lines' : List PostingLine) :
    linePostings code (lines ++ lines') = linePostings code lines ++ linePostings code lines' := by
  simp [linePostings]

@[simp] theorem linePostings_taxLine (code : String) (tax : ℚ) (line : PostingLine) :
    linePostings code (taxLine tax line) =
      if tax = 0 ∨ line.systemCode ≠ code then [] else [line.amount] := by
  by_cases htax : tax = 0
  · simp [taxLine, htax]
  · by_cases hcode : line.systemCode = code
    · simp [taxLine, htax, hcode]
    · simp [taxLine, htax, hcode]

theorem entryPostings_anySource (code : String) (entries : List Entry) :
    entryPostings anySource code entries = entries.flatMap fun e => linePostings code e.lines := rfl

/-! ## What a request books -/

/-- The request booked entries of the posting rules. -/
def BooksRules (db db' : TenantDb) : Prop :=
  ∃ entries rows, Books db entries rows db' ∧ ∀ e ∈ entries, Rule e.lines

theorem BooksRules.of_sameCodes (hdb : db.ledger.Linked)
    (hledger : db.ledger.SameCodes db'.ledger) (hregister : db'.register = db.register) :
    BooksRules db db' :=
  ⟨[], [], .of_sameCodes hdb hledger hregister, nofun⟩

theorem rule_fulfillment (number : String) (cost : ℚ) :
    ∀ e ∈ fulfillmentEntries request number cost, Rule e.lines := by
  simp only [fulfillmentEntries]
  split
  · exact nofun
  · simpa using Rule.cogsRecognition cost

theorem rule_invoice (invoice : Invoice) (number : String) :
    ∀ e ∈ invoice.entries number, Rule e.lines := by
  simp only [Invoice.entries]
  split
  · exact nofun
  · simpa using Rule.creditSale _ _

theorem rule_creditNote (note : CreditNote) (cost : ℚ) :
    ∀ e ∈ note.entries cost, Rule e.lines := by
  intro e he
  simp only [CreditNote.entries] at he
  rcases List.mem_append.mp he with he | he
  · split at he
    · rw [List.mem_singleton.mp he]
      exact .salesReturnRevenue note.amounts.netAmount note.amounts.taxAmount cost
    · cases he
  · obtain ⟨lines, hlines, rfl⟩ := List.mem_map.mp he
    exact .salesReturnCost (money note.amounts.netAmount) (money note.amounts.taxAmount) cost
      (Option.mem_toList.mp hlines)

theorem rule_receipt (number : String) (cost : ℚ) :
    ∀ e ∈ receiptEntries request number cost, Rule e.lines := by
  simp only [receiptEntries]
  split
  · simpa using Rule.goodsReceipt cost
  · exact List.forall_mem_nil _

theorem rule_bill (bill : SupplierBill) (number : String) :
    ∀ e ∈ bill.entries number, Rule e.lines := by
  simpa [SupplierBill.entries] using Rule.supplierBill _ _

theorem rule_sale (row : SaleRow) : ∀ e ∈ row.entries, Rule e.lines := by
  intro e he
  simp only [SaleRow.entries] at he
  rcases List.mem_cons.mp he with rfl | he
  · exact .cashSaleRevenue row.sale.netAmount row.sale.taxAmount (row.sale.costAmount / 10 ^ 6)
  · split at he
    · rw [List.mem_singleton.mp he]
      exact .cashSaleCost (money row.sale.netAmount) (money row.sale.taxAmount) _
    · cases he

theorem rule_refund (row : SaleReturn) (booking : Booking) :
    ∀ e ∈ row.entries booking, Rule e.lines := by
  intro e he
  simp only [SaleReturn.entries] at he
  rcases List.mem_append.mp he with he | he
  · split at he
    · rw [List.mem_singleton.mp he]
      exact .posRefundRevenue booking.net booking.tax booking.cost true
    · cases he
  · obtain ⟨lines, hlines, rfl⟩ := List.mem_map.mp he
    exact .posRefundCost (money booking.net) (money booking.tax) booking.cost true
      (Option.mem_toList.mp hlines)

/-- Requests of the ledger itself that post nothing. -/
theorem LedgerOp.sameCodes {ledger ledger' : LedgerDb} {op : LedgerOp} (own : op.postsNothing)
    (h : ledger.request op = .ok ledger') : ledger.SameCodes ledger' := by
  cases op with
  | read env => exact .bootstrap h
  | createAccount env id payload => exact .createAccount h
  | createPeriod env id name startDate endDate => exact .createPeriod h
  | changePeriodStatus periodId status => exact .changePeriodStatus h
  | operational env requests own' => cases own
  | postManual env payload => cases own
  | reverse env request => cases own

theorem BooksRules.changesOrders (hdb : db.ledger.Linked) (h : ChangesOrders db db') :
    BooksRules db db' := by
  obtain ⟨quotations, orders, htables⟩ := h.tables
  exact .of_sameCodes hdb h.ledger (by rw [htables])

theorem BooksRules.changesSessions (hdb : db.ledger.Linked) (h : ChangesSessions db db') :
    BooksRules db db' := by
  obtain ⟨sessions, htables⟩ := h.tables
  exact .of_sameCodes hdb h.ledger (by rw [htables])

theorem BooksRules.changesStatus (hdb : db.ledger.Linked) (h : ChangesStatus db db') :
    BooksRules db db' := by
  obtain ⟨orderId, order, status, orders, -, -, rfl⟩ := h
  exact .of_sameCodes hdb (.refl _) rfl

theorem BooksRules.refl (hdb : db.ledger.Linked) : BooksRules db db :=
  .of_sameCodes hdb (.refl _) rfl

/-- Whatever a request books is built by the posting rules. -/
theorem Op.books {op : Op} (hdb : db.ledger.Linked) (hok : op.body request db = .ok db') :
    BooksRules db db' := by
  cases op with
  | createQuotation payload => exact .changesOrders hdb (createQuotation_eq_ok hok)
  | setQuotationStatus id status => exact .changesOrders hdb (setQuotationStatus_eq_ok hok)
  | convertQuotation id payload => exact .changesOrders hdb (convertQuotation_eq_ok hok)
  | createSalesOrder payload => exact .changesOrders hdb (Sales.createOrder_eq_ok hok)
  | confirmSalesOrder id => exact .changesOrders hdb (Sales.confirmOrder_eq_ok hok)
  | cancelSalesOrder id => exact .changesOrders hdb (Sales.cancelOrder_eq_ok hok)
  | fulfil id lines =>
      obtain ⟨_, _, _, _, _, _, -, -, -, hbooks, -⟩ := fulfil_eq_ok hdb hok
      exact ⟨_, _, hbooks, rule_fulfillment _ _⟩
  | createInvoice payload =>
      obtain ⟨_, _, _, -, -, rfl⟩ := createInvoice_eq_ok hok
      exact .of_sameCodes hdb (.refl _) rfl
  | issueInvoice id claim =>
      obtain rfl | ⟨_, _, _, _, -, -, -, -, hbooks, -⟩ := issueInvoice_eq_ok hdb hok
      · exact .refl hdb
      · exact ⟨_, _, hbooks, rule_invoice _ _⟩
  | recordCustomerPayment payload claim =>
      obtain rfl | ⟨_, _, _, -, -, -, -, hbooks, -⟩ := Sales.recordPayment_eq_ok hdb hok
      · exact .refl hdb
      · exact ⟨_, _, hbooks, by simpa [Payment.entries] using Rule.customerPayment _ _⟩
  | issueCreditNote payload =>
      obtain ⟨_, _, _, _, _, _, -, -, -, -, -, -, hbooks, -⟩ := issueCreditNote_eq_ok hdb hok
      exact ⟨_, _, hbooks, rule_creditNote _ _⟩
  | createPurchaseOrder payload =>
      obtain ⟨_, _, -, -, -, hledger, htables⟩ := Purchasing.createOrder_eq_ok hok
      exact .of_sameCodes hdb hledger (by rw [htables])
  | confirmPurchaseOrder id => exact .changesStatus hdb (Purchasing.confirmOrder_eq_ok hok)
  | cancelPurchaseOrder id => exact .changesStatus hdb (Purchasing.cancelOrder_eq_ok hok)
  | receive id lines =>
      obtain ⟨_, _, _, _, _, _, -, -, -, -, -, hbooks, -⟩ := receive_eq_ok hdb hok
      exact ⟨_, _, hbooks, rule_receipt _ _⟩
  | createBill payload =>
      obtain ⟨_, _, _, _, _, -, -, -, -, -, -, -, -, rfl⟩ := createBill_eq_ok hok
      exact .of_sameCodes hdb (.refl _) rfl
  | issueBill id =>
      obtain ⟨_, _, _, _, -, -, -, -, hbooks, -⟩ := issueBill_eq_ok hdb hok
      exact ⟨_, _, hbooks, rule_bill _ _⟩
  | recordSupplierPayment payload claim =>
      obtain rfl | ⟨_, _, _, -, -, -, -, hbooks, -⟩ := Purchasing.recordPayment_eq_ok hdb hok
      · exact .refl hdb
      · exact ⟨_, _, hbooks, by simpa [Payment.entries] using Rule.supplierPayment _ _⟩
  | openSession payload => exact .changesSessions hdb (openSession_eq_ok hok)
  | closeSession id countedCash => exact .changesSessions hdb (closeSession_eq_ok hok)
  | checkout payload claim =>
      obtain ⟨-, rfl⟩ | ⟨-, _, _, _, _, -, -, -, -, -, -, hbooks, -⟩ := checkout_eq_ok hdb hok
      · exact .refl hdb
      · exact ⟨_, _, hbooks, rule_sale _⟩
  | refund payload claim =>
      obtain ⟨-, rfl⟩ | ⟨-, _, _, _, _, _, _, _, _, -, -, -, -, -, -, -, -, hbooks, -⟩ :=
        refund_eq_ok hdb hok
      · exact .refl hdb
      · exact ⟨_, _, hbooks, rule_refund _ _⟩
  | inventory op own =>
      obtain ⟨result, -, rfl⟩ := map_eq_ok.mp hok
      exact .of_sameCodes hdb (.refl _) rfl
  | ledger op own =>
      obtain ⟨ledger, hrequest, rfl⟩ := map_eq_ok.mp hok
      exact .of_sameCodes hdb (LedgerOp.sameCodes own hrequest) rfl
  | configure configuration =>
      cases hok
      exact .of_sameCodes hdb (.refl _) rfl

/-! ## Runs -/

end Nexora.Tenant
