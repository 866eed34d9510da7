import Nexora.Tenant.Entries

/-!
# Control accounts

The ledger and the documents are written by different code.  `Agrees` says that they tell
the same: receivables and payables are what was issued less what was credited and paid, and
the two VAT accounts are the sums of the VAT register.

A document that posts nothing has a total of zero, and one without tax lines has no tax, so
the cases that the services skip change neither side.  Every request keeps the agreement
(`Op.agrees`), and so does every run of a new tenant.
-/

namespace Nexora.Tenant

open Nexora Nexora.Catalog Nexora.Sales Nexora.Purchasing Nexora.Pos Foundations
open Nexora.Accounting
open Nexora.Accounting.PostingRules
open Nexora.Vat (VatTransaction registerVat)

/-! ## Amounts on an account -/

/-- What lines post on the account with a code. -/
def lineNet (code : String) (lines : List PostingLine) : Money :=
  (linePostings code lines).sum

/-- What entries post on the account with a code. -/
def entryNet (code : String) (entries : List Entry) : Money :=
  (entries.map fun e => lineNet code e.lines).sum

@[simp] theorem lineNet_nil (code : String) : lineNet code [] = 0 := rfl

@[simp] theorem lineNet_cons (code : String) (line : PostingLine) (lines : List PostingLine) :
    lineNet code (line :: lines) =
      (if line.systemCode = code then line.amount else 0) + lineNet code lines := by
  simp only [lineNet, linePostings_cons, List.sum_append]
  split
  · simp
  · simp

@[simp] theorem lineNet_append (code : String) (lines lines' : List PostingLine) :
    lineNet code (lines ++ lines') = lineNet code lines + lineNet code lines' := by
  simp [lineNet]

/-- A tax line is left out only where it would post nothing. -/
theorem lineNet_taxLine {code : String} {tax : Money} {line : PostingLine}
    (h : tax = 0 → line.amount = 0) :
    lineNet code (taxLine (money tax) line) =
      if line.systemCode = code then line.amount else 0 := by
  by_cases htax : tax = 0
  · simp [taxLine, htax, h htax]
  · simp [taxLine, htax]

@[simp] theorem lineNet_debitTax (code code' : String) (tax : Money) :
    lineNet code (taxLine (money tax) (.ofDebit code' (money tax))) =
      if code' = code then tax else 0 := by
  rw [lineNet_taxLine]
  · simp
  · simp

@[simp] theorem lineNet_creditTax (code code' : String) (tax : Money) :
    lineNet code (taxLine (money tax) (.ofCredit code' (money tax))) =
      if code' = code then -tax else 0 := by
  rw [lineNet_taxLine]
  · simp
  · simp

@[simp] theorem entryNet_nil (code : String) : entryNet code [] = 0 := rfl

@[simp] theorem entryNet_cons (code : String) (e : Entry) (entries : List Entry) :
    entryNet code (e :: entries) = lineNet code e.lines + entryNet code entries := rfl

@[simp] theorem entryNet_append (code : String) (entries entries' : List Entry) :
    entryNet code (entries ++ entries') = entryNet code entries + entryNet code entries' := by
  simp [entryNet]

theorem sum_entryPostings (code : String) (entries : List Entry) :
    (entryPostings anySource code entries).sum = entryNet code entries := by
  induction entries with
  | nil => rfl
  | cons e entries ih =>
      simp only [entryPostings_anySource, List.flatMap_cons, List.sum_append, entryNet_cons] at ih ⊢
      rw [ih]
      rfl

/-- Every account moves by what the entries post on it. -/
theorem Books.net {db db' : TenantDb} {entries : List Entry} {rows : List VatTransaction}
    (h : Books db entries rows db') (code : String) :
    db'.ledger.net code = db.ledger.net code + entryNet code entries := by
  simp [LedgerDb.net, h.postings, sum_entryPostings]

/-! ## Agreement -/

/-- The sum of the credit notes. -/
def credited (db : SalesDb) : Money :=
  (db.creditNotes.rows.map fun note => note.amounts.totalAmount).sum

/-- The sum of the payments of customers. -/
def received (db : SalesDb) : Money :=
  ((db.payments.rows.filter (·.counterparty.isCustomer)).map (·.amount)).sum

/-- The sum of the payments to suppliers. -/
def paidOut (db : SalesDb) : Money :=
  ((db.payments.rows.filter fun payment => !payment.counterparty.isCustomer).map (·.amount)).sum

/-- What customers owe, by the documents. -/
def TenantDb.receivable (db : TenantDb) : Money :=
  db.sales.invoiced - credited db.sales - received db.sales

/-- What suppliers are owed, by the documents. -/
def TenantDb.payable (db : TenantDb) : Money := db.purchasing.billed - paidOut db.sales

/-- The control accounts and the VAT accounts agree with the documents and the register. -/
structure Agrees (db : TenantDb) : Prop where
  linked : db.ledger.Linked
  receivable : db.ledger.net "AR_CONTROL" = db.receivable
  payable : -db.ledger.net "AP_CONTROL" = db.payable
  vatOutput : -db.ledger.net "VAT_OUTPUT" = registerVat .output db.register.rows
  vatInput : db.ledger.net "VAT_INPUT" = registerVat .input db.register.rows
  sales : ∀ row ∈ db.pos.sales.rows, ∀ line ∈ row.sale.lines, line.Stored

/-- What a request has to do for the books and the documents to move together. -/
theorem Agrees.books {db db' : TenantDb} {entries : List Entry} {rows : List VatTransaction}
    (h : Agrees db) (hbooks : Books db entries rows db')
    (hreceivable : db'.receivable = db.receivable + entryNet "AR_CONTROL" entries)
    (hpayable : db'.payable = db.payable - entryNet "AP_CONTROL" entries)
    (houtput : registerVat .output rows = -entryNet "VAT_OUTPUT" entries)
    (hinput : registerVat .input rows = entryNet "VAT_INPUT" entries)
    (hsales : ∀ row ∈ db'.pos.sales.rows, ∀ line ∈ row.sale.lines, line.Stored) :
    Agrees db' where
  linked := hbooks.linked
  receivable := by rw [hbooks.net, h.receivable, hreceivable]
  payable := by
    rw [hbooks.net, hpayable, ← h.payable]
    ring
  vatOutput := by
    rw [hbooks.net, hbooks.register, Vat.registerVat_append, houtput, ← h.vatOutput]
    ring
  vatInput := by rw [hbooks.net, hbooks.register, Vat.registerVat_append, hinput, h.vatInput]
  sales := hsales

/-- A request that books nothing, and changes no document that counts. -/
theorem Agrees.of_same {db db' : TenantDb} (h : Agrees db)
    (hledger : db.ledger.SameCodes db'.ledger) (hregister : db'.register = db.register)
    (hreceivable : db'.receivable = db.receivable) (hpayable : db'.payable = db.payable)
    (hsales : db'.pos.sales = db.pos.sales) : Agrees db' := by
  refine h.books (.of_sameCodes h.linked hledger hregister) ?_ ?_ rfl rfl ?_
  · simp [hreceivable]
  · simp [hpayable]
  · rw [hsales]
    exact h.sales

/-! ## The tax of a document -/

/-- A document whose lines are taxed by their amounts registers its own tax. -/
theorem registerVat_of_amounts {Line : Type} {event : Vat.TaxableEvent} {newId : Nat → Uuid}
    {lines : List Line} {rate : Line → Rate} {amounts : Line → Amounts} {total : Amounts}
    {rows : List VatTransaction} (htotal : Amounts.total (lines.map amounts) = .ok total)
    (h : event.recordLines newId (lines.map fun line =>
      (rate line, (amounts line).netAmount, (amounts line).taxAmount)) = .ok rows)
    (direction : Vat.VatDirection) :
    registerVat direction rows =
      if direction = event.direction then
        if event.isReversal then -total.taxAmount else total.taxAmount
      else 0 := by
  rw [Vat.TaxableEvent.recordLines_vat ?_ h, (Amounts.total_eq_ok htotal).2]
  · simp only [List.map_map]
    rfl
  · intro line hline
    obtain ⟨line, -, rfl⟩ := List.mem_map.mp hline
    exact (amounts line).taxAmount_nonneg

/-- The total of a document, as it is posted. -/
theorem roundHalfUp_total (amounts : Amounts) :
    roundHalfUp (toContext (money amounts.netAmount + money amounts.taxAmount) * 10 ^ 4) =
      amounts.totalAmount := by
  have hnet := amounts.netAmount_nonneg
  have htax := amounts.taxAmount_nonneg
  have htotal := amounts.total_lt
  refine roundHalfUp_money_add ?_ ?_
  · rw [abs_of_nonneg hnet]
    linarith
  · rw [abs_of_nonneg htax]
    linarith

/-! ## Sales -/

variable {request : Request} {db db' : TenantDb}

theorem Agrees.changesOrders (h : Agrees db) (hchange : ChangesOrders db db') : Agrees db' := by
  obtain ⟨quotations, orders, htables⟩ := hchange.tables
  refine h.of_same hchange.ledger ?_ ?_ ?_ ?_
  · rw [htables]
  · rw [htables]
    rfl
  · rw [htables]
    rfl
  · rw [htables]

/-- A fulfilment posts costs only. -/
theorem Agrees.fulfil {orderId : Uuid} {lines : Option (List RequestedLine)} (h : Agrees db)
    (hok : Sales.fulfil request db orderId lines = .ok db') : Agrees db' := by
  obtain ⟨order, items, state, number, orders, fulfillments, -, -, -, hbooks, htables⟩ :=
    fulfil_eq_ok h.linked hok
  have hnet : ∀ code, code ≠ "COGS" → code ≠ "INVENTORY" →
      entryNet code (fulfillmentEntries request number state.cost) = 0 := by
    intro code hcogs hinventory
    simp only [fulfillmentEntries]
    split
    · rfl
    · simp [cogsRecognition, hcogs.symm, hinventory.symm]
  refine h.books hbooks ?_ ?_ ?_ ?_ ?_
  · rw [hnet _ (by decide) (by decide), htables]
    simp [TenantDb.receivable, SalesDb.invoiced, credited, received]
  · rw [hnet _ (by decide) (by decide), htables]
    simp [TenantDb.payable, paidOut]
  · rw [hnet _ (by decide) (by decide)]
    rfl
  · rw [hnet _ (by decide) (by decide)]
    rfl
  · rw [htables]
    exact h.sales

theorem Agrees.createInvoice {payload : InvoiceCreate} (h : Agrees db)
    (hok : Sales.createInvoice request db payload = .ok db') : Agrees db' := by
  obtain ⟨invoice, orders, invoices, hdraft, hinsert, rfl⟩ := createInvoice_eq_ok hok
  refine h.of_same (.refl _) rfl ?_ rfl rfl
  have hinvoiced := Table.sum_insert hinsert fun invoice =>
    issuedTotal invoice.status invoice.amounts
  simp only [hdraft, issuedTotal_draft, add_zero] at hinvoiced
  simp only [TenantDb.receivable, SalesDb.invoiced, credited, received, hinvoiced]

/-- The postings of an invoice. -/
theorem entryNet_invoice (invoice : Invoice) (number : String) (code : String) :
    entryNet code (invoice.entries number) =
      (if "AR_CONTROL" = code then invoice.amounts.totalAmount else 0) +
      (if "SALES_REVENUE" = code then -invoice.amounts.netAmount else 0) +
      (if "VAT_OUTPUT" = code then -invoice.amounts.taxAmount else 0) := by
  simp only [Invoice.entries]
  split
  next hzero =>
    -- A total that is not positive is zero, and so are its parts.
    have hnet := invoice.amounts.netAmount_nonneg
    have htax := invoice.amounts.taxAmount_nonneg
    simp only [Amounts.totalAmount] at hzero ⊢
    have hnet' : invoice.amounts.netAmount = 0 := by linarith
    have htax' : invoice.amounts.taxAmount = 0 := by linarith
    simp [hnet', htax']
  next => simp [creditSale, roundHalfUp_total, add_assoc]

theorem Agrees.issueInvoice {invoiceId : Uuid} {claim : Except Err (Option Uuid)} (h : Agrees db)
    (hok : Sales.issueInvoice request db invoiceId claim = .ok db') : Agrees db' := by
  obtain rfl | ⟨invoice, number, invoices, rows, hget, hdraft, hreplace, hrows, hbooks, htables⟩ :=
    issueInvoice_eq_ok h.linked hok
  · exact h
  have hvat := registerVat_of_amounts invoice.totals_eq hrows
  refine h.books hbooks ?_ ?_ ?_ ?_ ?_
  · have hinvoiced := invoiced_replace (Table.get_self hget) hreplace
    rw [entryNet_invoice, htables]
    simp only [hdraft, issuedTotal_draft, issuedTotal_issued, sub_zero] at hinvoiced
    simp only [TenantDb.receivable, hinvoiced, credited, received]
    simp
    ring
  · rw [entryNet_invoice, htables]
    simp [TenantDb.payable, paidOut]
  · rw [entryNet_invoice, hvat]
    simp [Invoice.taxableEvent]
  · rw [entryNet_invoice, hvat]
    simp [Invoice.taxableEvent]
  · rw [htables]
    exact h.sales

/-- A payment counts on the side of its counterparty. -/
theorem sum_payments {sales : SalesDb} {payment : Payment} {payments : Table Payment.id}
    (h : sales.payments.insert payment = some payments) :
    received { sales with payments := payments } =
        received sales + (if payment.counterparty.isCustomer then payment.amount else 0) ∧
      paidOut { sales with payments := payments } =
        paidOut sales + (if payment.counterparty.isCustomer then 0 else payment.amount) := by
  have hrows := (Table.insert_eq_some h).1
  cases hparty : payment.counterparty.isCustomer with
  | false => simp [received, paidOut, hrows, List.filter_append, hparty]
  | true => simp [received, paidOut, hrows, List.filter_append, hparty]

/-- A payment is posted on the account of its tender and on one control account. -/
theorem tenderAccount_ne {code : String} (hcash : "CASH" ≠ code) (hbank : "BANK" ≠ code)
    (cash : Bool) : tenderAccount cash ≠ code := by
  cases cash with
  | false => exact hbank
  | true => exact hcash

theorem Agrees.recordCustomerPayment {payload : PaymentCreate} {claim : Except Err (Option Uuid)}
    (h : Agrees db) (hok : Sales.recordPayment request db payload claim = .ok db') :
    Agrees db' := by
  obtain rfl | ⟨payment, invoices, payments, hparty, hamount, hinvoiced, hinsert, hbooks,
    htables⟩ := Sales.recordPayment_eq_ok h.linked hok
  · exact h
  have hnet : ∀ code, "CASH" ≠ code → "BANK" ≠ code →
      entryNet code (payment.entries "Customer payment " "CUSTOMER_PAYMENT"
        (customerPayment (money payload.amount) (payload.method = .cash))) =
      if "AR_CONTROL" = code then -payload.amount else 0 := by
    intro code hcash hbank
    simp [Payment.entries, customerPayment, tenderAccount_ne hcash hbank]
  obtain ⟨hreceived, hpaidOut⟩ := sum_payments hinsert
  simp only [hparty, Counterparty.isCustomer, if_true, hamount] at hreceived hpaidOut
  refine h.books hbooks ?_ ?_ ?_ ?_ ?_
  · rw [hnet _ (by decide) (by decide), htables]
    simp only [received] at hreceived
    simp only [SalesDb.invoiced] at hinvoiced
    simp only [TenantDb.receivable, SalesDb.invoiced, credited, received, hinvoiced, hreceived,
      if_true]
    ring
  · rw [hnet _ (by decide) (by decide), htables]
    simp only [paidOut] at hpaidOut
    simp [TenantDb.payable, paidOut, hpaidOut]
  · rw [hnet _ (by decide) (by decide)]
    rfl
  · rw [hnet _ (by decide) (by decide)]
    rfl
  · rw [htables]
    exact h.sales

/-- The postings of a credit note on the accounts of this module. -/
theorem entryNet_creditNote (note : CreditNote) (cost : ℚ) {code : String}
    (hreturns : "SALES_RETURNS" ≠ code) (hinventory : "INVENTORY" ≠ code) (hcogs : "COGS" ≠ code) :
    entryNet code (note.entries cost) =
      (if "VAT_OUTPUT" = code then note.amounts.taxAmount else 0) +
      (if "AR_CONTROL" = code then -note.amounts.totalAmount else 0) := by
  have hcost : entryNet code (((salesReturn (money note.amounts.netAmount)
      (money note.amounts.taxAmount) cost).2.toList).map fun lines =>
        { entryDate := note.issueDate
          description := "Credit note COGS reversal " ++ note.creditNoteNumber
          sourceType := "credit_note"
          sourceId := note.id
          eventType := "CREDIT_NOTE_COGS"
          lines := lines }) = 0 := by
    simp only [salesReturn]
    split
    · rfl
    · simp [hinventory, hcogs]
  simp only [CreditNote.entries, entryNet_append, hcost, add_zero]
  split
  next => simp [salesReturn, roundHalfUp_total, hreturns]
  next hzero =>
    have hnet := note.amounts.netAmount_nonneg
    have htax := note.amounts.taxAmount_nonneg
    simp only [Amounts.totalAmount] at hzero ⊢
    have hnet' : note.amounts.netAmount = 0 := by linarith
    have htax' : note.amounts.taxAmount = 0 := by linarith
    simp [hnet', htax']

theorem Agrees.issueCreditNote {payload : CreditNoteCreate} (h : Agrees db)
    (hok : Sales.issueCreditNote request db payload = .ok db') : Agrees db' := by
  obtain ⟨invoice, state, note, invoices, creditNotes, rows, -, -, hinvoiced, -, hinsert, hrows,
    hbooks, htables⟩ := issueCreditNote_eq_ok h.linked hok
  have hvat := registerVat_of_amounts note.totals_eq hrows
  refine h.books hbooks ?_ ?_ ?_ ?_ ?_
  · have hcredited := Table.sum_insert hinsert fun note => note.amounts.totalAmount
    rw [entryNet_creditNote _ _ (by decide) (by decide) (by decide), htables]
    simp only [SalesDb.invoiced] at hinvoiced
    simp only [TenantDb.receivable, SalesDb.invoiced, hinvoiced, credited, hcredited, received]
    simp
    ring
  · rw [entryNet_creditNote _ _ (by decide) (by decide) (by decide), htables]
    simp [TenantDb.payable, paidOut]
  · rw [entryNet_creditNote _ _ (by decide) (by decide) (by decide), hvat]
    simp [CreditNote.taxableEvent]
  · rw [entryNet_creditNote _ _ (by decide) (by decide) (by decide), hvat]
    simp [CreditNote.taxableEvent]
  · rw [htables]
    exact h.sales

/-! ## Purchasing -/

theorem Agrees.createPurchaseOrder {payload : PurchaseOrderCreate} (h : Agrees db)
    (hok : Purchasing.createOrder request db payload = .ok db') : Agrees db' := by
  obtain ⟨order, orders, -, -, -, hledger, htables⟩ := Purchasing.createOrder_eq_ok hok
  refine h.of_same hledger ?_ ?_ ?_ ?_
  · rw [htables]
  · rw [htables]
    rfl
  · rw [htables]
    rfl
  · rw [htables]

theorem Agrees.changesStatus (h : Agrees db) (hchange : ChangesStatus db db') : Agrees db' := by
  obtain ⟨orderId, order, status, orders, -, -, rfl⟩ := hchange
  exact h.of_same (.refl _) rfl rfl rfl rfl

/-- A goods receipt posts costs only. -/
theorem Agrees.receive {orderId : Uuid} {lines : Option (List ReceiptLineInput)} (h : Agrees db)
    (hok : Purchasing.receive request db orderId lines = .ok db') : Agrees db' := by
  obtain ⟨order, items, state, number, orders, receipts, -, -, -, -, -, hbooks, htables⟩ :=
    receive_eq_ok h.linked hok
  have hnet : ∀ code, "INVENTORY" ≠ code → "GRNI" ≠ code →
      entryNet code (receiptEntries request number state.cost) = 0 := by
    intro code hinventory hgrni
    simp only [receiptEntries]
    split
    · simp [goodsReceipt, hinventory, hgrni]
    · rfl
  refine h.books hbooks ?_ ?_ ?_ ?_ ?_
  · rw [hnet _ (by decide) (by decide), htables]
    simp [TenantDb.receivable]
  · rw [hnet _ (by decide) (by decide), htables]
    simp [TenantDb.payable, PurchasingDb.billed]
  · rw [hnet _ (by decide) (by decide)]
    rfl
  · rw [hnet _ (by decide) (by decide)]
    rfl
  · rw [htables]
    exact h.sales

theorem Agrees.createBill {payload : SupplierBillCreate} (h : Agrees db)
    (hok : Purchasing.createBill request db payload = .ok db') : Agrees db' := by
  obtain ⟨order, state, bill, orders, bills, -, -, -, -, hdraft, -, -, hinsert, rfl⟩ :=
    createBill_eq_ok hok
  refine h.of_same (.refl _) rfl rfl ?_ rfl
  have hbilled := Table.sum_insert hinsert fun bill => issuedTotal bill.status bill.amounts
  simp only [hdraft, issuedTotal_draft, add_zero] at hbilled
  simp only [TenantDb.payable, PurchasingDb.billed, hbilled]

/-- The postings of a bill. -/
theorem entryNet_bill (bill : SupplierBill) (number : String) (code : String) :
    entryNet code (bill.entries number) =
      (if "GRNI" = code then bill.amounts.netAmount else 0) +
      (if "VAT_INPUT" = code then bill.amounts.taxAmount else 0) +
      (if "AP_CONTROL" = code then -bill.amounts.totalAmount else 0) := by
  simp [SupplierBill.entries, supplierBill, roundHalfUp_total, add_assoc]

theorem Agrees.issueBill {billId : Uuid} (h : Agrees db)
    (hok : Purchasing.issueBill request db billId = .ok db') : Agrees db' := by
  obtain ⟨bill, number, bills, rows, hget, hdraft, hreplace, hrows, hbooks, htables⟩ :=
    issueBill_eq_ok h.linked hok
  have hvat := registerVat_of_amounts bill.totals_eq hrows
  refine h.books hbooks ?_ ?_ ?_ ?_ ?_
  · rw [entryNet_bill, htables]
    simp [TenantDb.receivable]
  · have hbilled := billed_replace (Table.get_self hget) hreplace
    simp only [hdraft, issuedTotal_draft, issuedTotal_issued, sub_zero] at hbilled
    rw [entryNet_bill, htables]
    simp only [TenantDb.payable, hbilled]
    simp
    ring
  · rw [entryNet_bill, hvat]
    simp [SupplierBill.taxableEvent]
  · rw [entryNet_bill, hvat]
    simp [SupplierBill.taxableEvent]
  · rw [htables]
    exact h.sales

theorem Agrees.recordSupplierPayment {payload : SupplierPaymentCreate}
    {claim : Except Err (Option Uuid)} (h : Agrees db)
    (hok : Purchasing.recordPayment request db payload claim = .ok db') : Agrees db' := by
  obtain rfl | ⟨payment, bills, payments, hparty, hamount, hfaces, hinsert, hbooks, htables⟩ :=
    Purchasing.recordPayment_eq_ok h.linked hok
  · exact h
  have hnet : ∀ code, "CASH" ≠ code → "BANK" ≠ code →
      entryNet code (payment.entries "Supplier payment " "SUPPLIER_PAYMENT"
        (supplierPayment (money payload.amount) (payload.method = .cash))) =
      if "AP_CONTROL" = code then payload.amount else 0 := by
    intro code hcash hbank
    simp [Payment.entries, supplierPayment, tenderAccount_ne hcash hbank]
  have hbilled : ({ db.purchasing with bills := bills } : PurchasingDb).billed =
      db.purchasing.billed := by
    rw [billed_eq, billed_eq, hfaces]
  obtain ⟨hreceived, hpaidOut⟩ := sum_payments hinsert
  simp only [hparty, Counterparty.isCustomer, Bool.false_eq_true, if_false, hamount, add_zero]
    at hreceived hpaidOut
  refine h.books hbooks ?_ ?_ ?_ ?_ ?_
  · rw [hnet _ (by decide) (by decide), htables]
    simp only [received] at hreceived
    simp [TenantDb.receivable, SalesDb.invoiced, credited, received, hreceived]
  · rw [hnet _ (by decide) (by decide), htables]
    simp only [TenantDb.payable, hbilled, hpaidOut, if_true]
    ring
  · rw [hnet _ (by decide) (by decide)]
    rfl
  · rw [hnet _ (by decide) (by decide)]
    rfl
  · rw [htables]
    exact h.sales

/-! ## The till -/

theorem Agrees.changesSessions (h : Agrees db) (hchange : ChangesSessions db db') :
    Agrees db' := by
  obtain ⟨sessions, htables⟩ := hchange.tables
  refine h.of_same hchange.ledger ?_ ?_ ?_ ?_
  · rw [htables]
  · rw [htables]
    rfl
  · rw [htables]
    rfl
  · rw [htables]

/-- The postings of a sale at the till on the accounts of this module. -/
theorem entryNet_sale (row : SaleRow) {code : String} (hcash : "CASH" ≠ code)
    (hrevenue : "SALES_REVENUE" ≠ code) (hinventory : "INVENTORY" ≠ code) (hcogs : "COGS" ≠ code) :
    entryNet code row.entries = if "VAT_OUTPUT" = code then -row.sale.taxAmount else 0 := by
  simp only [SaleRow.entries, PostingRules.cashSale, entryNet_cons]
  split
  · simp [hcash, hrevenue, hinventory, hcogs]
  · simp [hcash, hrevenue]

theorem Agrees.checkout {payload : CheckoutCreate} {claim : Except Err (Option Uuid)}
    (h : Agrees db) (hok : Pos.checkout request db payload claim = .ok db') : Agrees db' := by
  obtain ⟨-, rfl⟩ | ⟨-, row, inventory, sales, rows, hsale, -, -, -, hinsert, hrows, hbooks, htables⟩ :=
    checkout_eq_ok h.linked hok
  · exact h
  have hstored := Till.checkout_stored hsale
  obtain ⟨-, -, htax, -⟩ := Till.checkout_figures hsale
  have hvat := Vat.TaxableEvent.recordLines_vat (fun line hline => by
    obtain ⟨line, hmem, rfl⟩ := List.mem_map.mp hline
    exact (hstored line hmem).taxAmount_nonneg) hrows
  have hlines : ((row.sale.lines.map (·.taxable)).map (·.2.2)).sum = row.sale.taxAmount := by
    rw [htax, List.map_map]
    rfl
  refine h.books hbooks ?_ ?_ ?_ ?_ ?_
  · rw [entryNet_sale _ (by decide) (by decide) (by decide) (by decide), htables]
    simp [TenantDb.receivable]
  · rw [entryNet_sale _ (by decide) (by decide) (by decide) (by decide), htables]
    simp [TenantDb.payable]
  · rw [entryNet_sale _ (by decide) (by decide) (by decide) (by decide), hvat, hlines]
    simp [SaleRow.taxableEvent]
  · rw [entryNet_sale _ (by decide) (by decide) (by decide) (by decide), hvat]
    simp [SaleRow.taxableEvent]
  · rw [htables]
    exact Table.forall_insert hinsert h.sales hstored

/-- The postings of a refund on the accounts of this module. -/
theorem entryNet_refund (row : SaleReturn) {state : RefundState} (hstate : state.Stored)
    {code : String} (hreturns : "SALES_RETURNS" ≠ code) (hcash : "CASH" ≠ code)
    (hinventory : "INVENTORY" ≠ code) (hcogs : "COGS" ≠ code) :
    entryNet code (row.entries state.booking) =
      if "VAT_OUTPUT" = code then state.booking.tax else 0 := by
  have hcost : entryNet code (((posRefund (money state.booking.net) (money state.booking.tax)
      state.booking.cost true).2.toList).map fun lines =>
        { entryDate := row.occurredOn
          description := "POS refund COGS reversal " ++ row.returnNumber
          sourceType := "pos_return"
          sourceId := row.id
          eventType := "POS_REFUND_COGS"
          lines := lines }) = 0 := by
    simp only [posRefund]
    split
    · simp [hinventory, hcogs]
    · rfl
  simp only [SaleReturn.entries, entryNet_append, hcost, add_zero]
  split
  next => simp [posRefund, hreturns, hcash]
  next hzero =>
    -- Shares are not negative, so a refund without an amount has no tax.
    have hnet : 0 ≤ state.booking.net := by
      rw [hstate.net]
      exact List.sum_nonneg (by simpa using fun a b c hc => (hstate.rateLines _ hc).1)
    have htax : 0 ≤ state.booking.tax := by
      rw [hstate.tax]
      exact List.sum_nonneg (by simpa using fun a b c hc => (hstate.rateLines _ hc).2)
    have htax' : state.booking.tax = 0 := by linarith
    simp [htax']

theorem Agrees.refund {payload : RefundCreate} {claim : Except Err (Option Uuid)}
    (h : Agrees db) (hok : Pos.refund request db payload claim = .ok db') : Agrees db' := by
  obtain ⟨-, rfl⟩ | ⟨-, row, state, sale, saleReturn, inventory, returns, sales, rows, hget, -, hloop,
    ⟨hlines, -⟩, -, -, hreplace, hrows, hbooks, htables⟩ := refund_eq_ok h.linked hok
  · exact h
  have hstate := refundItems_stored (h.sales row (Table.get_mem hget).1) hloop
  have hvat := Vat.TaxableEvent.recordLines_vat
    (fun line hline => (hstate.rateLines line hline).2) hrows
  refine h.books hbooks ?_ ?_ ?_ ?_ ?_
  · rw [entryNet_refund _ hstate (by decide) (by decide) (by decide) (by decide), htables]
    simp [TenantDb.receivable]
  · rw [entryNet_refund _ hstate (by decide) (by decide) (by decide) (by decide), htables]
    simp [TenantDb.payable]
  · rw [entryNet_refund _ hstate (by decide) (by decide) (by decide) (by decide), hvat, hstate.tax]
    simp [SaleReturn.taxableEvent]
  · rw [entryNet_refund _ hstate (by decide) (by decide) (by decide) (by decide), hvat]
    simp [SaleReturn.taxableEvent]
  · rw [htables]
    refine Table.forall_replace (Table.get_self hget) hreplace h.sales ?_
    show ∀ line ∈ sale.lines, line.Stored
    rw [hlines]
    exact hstate.lines

/-! ## Runs -/

/-- Every request keeps the agreement. -/
theorem Op.agrees {op : Op} (h : Agrees db) (hok : op.body request db = .ok db') : Agrees db' := by
  cases op with
  | createQuotation payload => exact h.changesOrders (createQuotation_eq_ok hok)
  | setQuotationStatus id status => exact h.changesOrders (setQuotationStatus_eq_ok hok)
  | convertQuotation id payload => exact h.changesOrders (convertQuotation_eq_ok hok)
  | createSalesOrder payload => exact h.changesOrders (Sales.createOrder_eq_ok hok)
  | confirmSalesOrder id => exact h.changesOrders (Sales.confirmOrder_eq_ok hok)
  | cancelSalesOrder id => exact h.changesOrders (Sales.cancelOrder_eq_ok hok)
  | fulfil id lines => exact h.fulfil hok
  | createInvoice payload => exact h.createInvoice hok
  | issueInvoice id claim => exact h.issueInvoice hok
  | recordCustomerPayment payload claim => exact h.recordCustomerPayment hok
  | issueCreditNote payload => exact h.issueCreditNote hok
  | createPurchaseOrder payload => exact h.createPurchaseOrder hok
  | confirmPurchaseOrder id => exact h.changesStatus (Purchasing.confirmOrder_eq_ok hok)
  | cancelPurchaseOrder id => exact h.changesStatus (Purchasing.cancelOrder_eq_ok hok)
  | receive id lines => exact h.receive hok
  | createBill payload => exact h.createBill hok
  | issueBill id => exact h.issueBill hok
  | recordSupplierPayment payload claim => exact h.recordSupplierPayment hok
  | openSession payload => exact h.changesSessions (openSession_eq_ok hok)
  | closeSession id countedCash => exact h.changesSessions (closeSession_eq_ok hok)
  | checkout payload claim => exact h.checkout hok
  | refund payload claim => exact h.refund hok
  | inventory op own =>
      obtain ⟨result, -, rfl⟩ := map_eq_ok.mp hok
      exact h.of_same (.refl _) rfl rfl rfl rfl
  | ledger op own =>
      obtain ⟨ledger, hrequest, rfl⟩ := map_eq_ok.mp hok
      exact h.of_same (LedgerOp.sameCodes own hrequest) rfl rfl rfl rfl
  | configure configuration =>
      cases hok
      exact h.of_same (.refl _) rfl rfl rfl rfl

theorem Agrees.start (configuration : Configuration) : Agrees (.start configuration) where
  linked := LedgerDb.linked_empty
  receivable := rfl
  payable := rfl
  vatOutput := rfl
  vatInput := rfl
  sales := nofun

theorem TenantDb.run_agrees (configuration : Configuration) (calls : List Call) :
    Agrees ((TenantDb.start configuration).run calls) :=
  TenantDb.run_invariant (fun _ _ _ hdb hok => Op.agrees hdb hok) calls (.start configuration)

/-- After every run of requests, the receivables are the issued invoices less the credit
notes and the payments of customers, and the payables are the issued bills less the payments
to suppliers. -/
theorem TenantDb.control_accounts_eq_subledgers (configuration : Configuration)
    (calls : List Call) :
    let db := (TenantDb.start configuration).run calls
    db.ledger.net "AR_CONTROL" = db.sales.invoiced - credited db.sales - received db.sales ∧
      -db.ledger.net "AP_CONTROL" = db.purchasing.billed - paidOut db.sales :=
  ⟨(run_agrees configuration calls).receivable, (run_agrees configuration calls).payable⟩

/-- After every run of requests, the VAT accounts are the sums of the register. -/
theorem TenantDb.vat_accounts_eq_register (configuration : Configuration) (calls : List Call) :
    let db := (TenantDb.start configuration).run calls
    (-db.ledger.net "VAT_OUTPUT") = registerVat .output db.register.rows ∧
      db.ledger.net "VAT_INPUT" = registerVat .input db.register.rows :=
  ⟨(run_agrees configuration calls).vatOutput, (run_agrees configuration calls).vatInput⟩

end Nexora.Tenant
