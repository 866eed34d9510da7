import Nexora.Foundations.DebtBook
import Nexora.Tenant.DocumentRuns

/-!
# Allocations of payments

Invoices are debts of customers and bills are debts to suppliers.  Both are paid by
`record_payment`, from one table of payments, and the two sides are one `DebtBook` each
(`Documents.receivable`, `Documents.payable`).

`Writes.receivable` and `Writes.payable` say that every request on documents is a step of both
books.  `allocations_settled` is about every interleaving of such requests.
-/

namespace Nexora.Sales

open Nexora Foundations
open Nexora.Accounting (Money)

def InvoiceStatus.debt : InvoiceStatus → DebtBook.Status
  | .draft => .draft
  | .issued => .issued
  | .partiallyPaid => .partly
  | .paid => .paid
  | .cancelled => .cancelled

theorem InvoiceStatus.debt_inj {status status' : InvoiceStatus} :
    status.debt = status'.debt ↔ status = status' := by
  cases status <;> cases status' <;> decide

def Invoice.debt (invoice : Invoice) : DebtBook.Debt :=
  ⟨invoice.status.debt, invoice.amounts.totalAmount, invoice.paidAmount⟩

def Payment.asDebtPayment (payment : Payment) : DebtBook.Payment Uuid :=
  ⟨payment.amount, payment.allocatedAmount, payment.allocations.map fun a => (a.targetId, a.amount)⟩

/-- What payments allocated to a document. -/
def allocatedTo (payments : List Payment) (id : Uuid) : Money :=
  (payments.map fun payment => allocated (payment.allocations.filter (·.targetId = id))).sum

/-- The payments of customers. -/
def SalesDb.customerPayments (db : SalesDb) : List Payment :=
  db.payments.rows.filter (·.counterparty.isCustomer)

/-- The payments to suppliers. -/
def SalesDb.supplierPayments (db : SalesDb) : List Payment :=
  db.payments.rows.filter (!·.counterparty.isCustomer)

/-- A document, with what was allocated to it.  The status counts once it is issued. -/
structure Settled (status : InvoiceStatus) (total paid allocated : Money) : Prop where
  paid_eq : paid = allocated
  range : 0 ≤ paid ∧ paid ≤ total
  issued : status.isIssued → (status = .issued ↔ paid = 0)
  partiallyPaid : status.isIssued → (status = .partiallyPaid ↔ 0 < paid ∧ paid < total)
  fullyPaid : status.isIssued → (status = .paid ↔ 0 < paid ∧ paid = total)

end Nexora.Sales

namespace Nexora.Purchasing

open Nexora Foundations

def SupplierBill.debt (bill : SupplierBill) : DebtBook.Debt :=
  ⟨bill.status.debt, bill.amounts.totalAmount, bill.paidAmount⟩

end Nexora.Purchasing

namespace Nexora.Tenant

open Nexora Nexora.Sales Nexora.Purchasing Foundations
open Nexora.Accounting (Money)
open DebtBook (Debt Book Step)

/-! ## Debts -/

section Debts

variable {Doc : Type} {key : Doc → Uuid} {face : Doc → Debt} {docs docs' : Table key}
  {payments payments' : List Payment}

/-- The documents of one side with the payments of them. -/
def debtBook (face : Doc → Debt) (docs : Table key) (payments : List Payment) : Book Uuid :=
  ⟨fun id => (docs.get id).map face, payments.map Payment.asDebtPayment⟩

theorem debtBook_allocatedTo (id : Uuid) :
    (debtBook face docs payments).allocatedTo id = allocatedTo payments id := by
  simp only [Book.allocatedTo, debtBook, allocatedTo, List.map_map]
  refine congrArg List.sum (List.map_congr_left fun payment _ => ?_)
  simp only [Function.comp_apply, Payment.asDebtPayment, amountFor, List.filter_map, List.map_map,
    allocated]
  rfl

theorem debtBook_stay (h : ∀ id, (docs'.get id).map face = (docs.get id).map face) :
    Step (debtBook face docs payments) (debtBook face docs' payments) :=
  .stay h rfl

theorem debtBook_insert {new : Doc} (h : docs.insert new = some docs')
    (hdraft : (face new).status = .draft) (hzero : (face new).paid = 0)
    (htotal : 0 ≤ (face new).total) :
    Step (debtBook face docs payments) (debtBook face docs' payments) := by
  have hnone : (docs.get (key new)).map face = none := by
    rw [(Table.insert_eq_some h).2]
    rfl
  exact .create hnone hdraft hzero htotal (Table.map_get_insert face h) rfl

theorem debtBook_issue {id : Uuid} {old new : Doc} (hget : docs.get id = some old)
    (h : docs.replace (key old) new = some docs') (hkey : key new = key old)
    (hdraft : (face old).status = .draft)
    (hface : face new = { face old with status := .issued }) :
    Step (debtBook face docs payments) (debtBook face docs' payments) := by
  have hself : (docs.get (key old)).map face = some (face old) := by
    rw [Table.get_self hget]
    rfl
  refine .issue hself hdraft (fun k => ?_) rfl
  rw [← hface]
  exact Table.map_get_replace face hget h hkey k

/-- A payment with the loop that pays what it names. -/
theorem debtBook_pay {pay : Doc → PaymentAllocation → Except Err Doc} {status : Doc → InvoiceStatus}
    {payment : Payment} {items : List PaymentAllocation}
    (hpay : ∀ doc item paid, pay doc item = .ok paid →
      item.amount ≤ (face doc).total - (face doc).paid ∧ face paid = (face doc).pay item.amount)
    (hitems : payment.allocations = items) (hallocated : payment.allocatedAmount = allocated items)
    (h : PaysEach pay status items docs docs') (hpayments : payments' = payments ++ [payment]) :
    Step (debtBook face docs payments) (debtBook face docs' payments') := by
  subst hitems hpayments
  have hnames : (payment.allocations.map fun a => (a.targetId, a.amount)).map Prod.fst =
      payment.allocations.map PaymentAllocation.targetId := by
    rw [List.map_map]
    rfl
  have hamount : ∀ item ∈ payment.allocations, amountFor
      (payment.allocations.map fun a => (a.targetId, a.amount)) item.targetId = item.amount := by
    intro item hitem
    refine amountFor_of_nodup (a := (item.targetId, item.amount)) ?_
      (List.mem_map_of_mem hitem)
    rw [hnames]
    exact payment.unique_targets
  suffices hfits : payment.asDebtPayment.Fits (debtBook face docs payments)
      (debtBook face docs' (payments ++ [payment])) from .pay hfits (by simp [debtBook])
  refine ⟨?_, ?_, fun a ha => ?_, fun id hid => ?_, fun id hid => ?_⟩
  · show payment.allocatedAmount = _
    rw [hallocated, Payment.asDebtPayment, List.map_map]
    rfl
  · exact payment.allocated_within_amount.2
  · obtain ⟨item, -, rfl⟩ := List.mem_map.mp ha
    exact item.amount_positive
  · refine congrArg (Option.map face) (h.others id fun item hitem heq => hid ?_)
    rw [Payment.asDebtPayment, hnames]
    exact heq ▸ List.mem_map_of_mem hitem
  · rw [Payment.asDebtPayment, hnames] at hid
    obtain ⟨item, hitem, rfl⟩ := List.mem_map.mp hid
    obtain ⟨doc, paid, hget, -, hpaid, hget'⟩ := h.named item hitem
    obtain ⟨hle, hface⟩ := hpay doc item paid hpaid
    refine ⟨face doc, congrArg (Option.map face) hget, ?_, ?_⟩
    · rw [Payment.asDebtPayment, hamount item hitem]
      exact le_sub_iff_add_le'.mp hle
    · rw [Payment.asDebtPayment, hamount item hitem, ← hface]
      exact congrArg (Option.map face) hget'

end Debts

/-! ## Documents -/

variable {request : Request} {docs docs' : Documents} {op : Op}

def Documents.receivable (docs : Documents) : Book Uuid :=
  debtBook Invoice.debt docs.sales.invoices docs.sales.customerPayments

def Documents.payable (docs : Documents) : Book Uuid :=
  debtBook SupplierBill.debt docs.purchasing.bills docs.sales.supplierPayments

theorem invoice_pay_debt (invoice : Invoice) (item : PaymentAllocation) (paid : Invoice)
    (h : invoice.pay item = .ok paid) :
    item.amount ≤ invoice.debt.total - invoice.debt.paid ∧
      paid.debt = invoice.debt.pay item.amount := by
  obtain ⟨hle, -, hamounts, hpaid, hstatus⟩ := Invoice.pay_within h
  refine ⟨hle, ?_⟩
  rw [Invoice.debt, hamounts, hpaid, hstatus, apply_ite InvoiceStatus.debt]
  rfl

theorem bill_pay_debt (bill : SupplierBill) (item : PaymentAllocation) (paid : SupplierBill)
    (h : bill.pay item = .ok paid) :
    item.amount ≤ bill.debt.total - bill.debt.paid ∧ paid.debt = bill.debt.pay item.amount := by
  obtain ⟨hle, -, hamounts, hpaid, hstatus⟩ := SupplierBill.pay_within h
  refine ⟨hle, ?_⟩
  rw [SupplierBill.debt, hamounts, hpaid, hstatus, apply_ite InvoiceStatus.debt]
  rfl

theorem customerPayments_insert {sales : SalesDb} {payment : Payment} {payments : Table Payment.id}
    (h : sales.payments.insert payment = some payments) (hparty : payment.counterparty.isCustomer) :
    payments.rows.filter (·.counterparty.isCustomer) = sales.customerPayments ++ [payment] ∧
      payments.rows.filter (!·.counterparty.isCustomer) = sales.supplierPayments := by
  rw [(Table.insert_eq_some h).1]
  simp [List.filter_append, hparty, SalesDb.customerPayments, SalesDb.supplierPayments]

theorem supplierPayments_insert {sales : SalesDb} {payment : Payment} {payments : Table Payment.id}
    (h : sales.payments.insert payment = some payments)
    (hparty : payment.counterparty.isCustomer = false) :
    payments.rows.filter (!·.counterparty.isCustomer) = sales.supplierPayments ++ [payment] ∧
      payments.rows.filter (·.counterparty.isCustomer) = sales.customerPayments := by
  rw [(Table.insert_eq_some h).1]
  simp [List.filter_append, hparty, SalesDb.customerPayments, SalesDb.supplierPayments]

/-- Every request is a step of what customers owe. -/
theorem Writes.receivable (h : Writes request docs op docs') :
    Step docs.receivable docs'.receivable := by
  cases h with
  | @createInvoice _ _ _ invoice _ _ _ _ _ hdraft hpaid _ _ _ hinsert =>
      exact debtBook_insert hinsert (congrArg InvoiceStatus.debt hdraft) hpaid
        (invoice.paid_within_total.1.trans invoice.paid_within_total.2)
  | issueInvoice hget hdraft hreplace =>
      exact debtBook_issue hget hreplace rfl (congrArg InvoiceStatus.debt hdraft) rfl
  | recordCustomerPayment hparty hitems hallocated hpays hinsert =>
      obtain ⟨hcustomer, -⟩ := customerPayments_insert hinsert (by rw [hparty]; rfl)
      exact debtBook_pay invoice_pay_debt hitems hallocated hpays hcustomer
  | issueCreditNote hget hface hreplace =>
      refine debtBook_stay (Table.map_get_same hget hreplace (congrArg Prod.fst hface) ?_)
      have hrest := congrArg (fun face => (face.2.2.1, face.2.2.2.1, face.2.2.2.2.1)) hface
      simp only [Invoice.face, Prod.mk.injEq] at hrest
      rw [Invoice.debt, hrest.1, hrest.2.1, hrest.2.2, Invoice.debt]
  | recordSupplierPayment hparty _ _ _ hinsert =>
      obtain ⟨-, hcustomer⟩ := supplierPayments_insert hinsert (by rw [hparty]; rfl)
      exact .stay (fun _ => rfl) (congrArg (List.map Payment.asDebtPayment) hcustomer)
  | _ => exact .stay (fun _ => rfl) rfl

/-- Every request is a step of what is owed to suppliers. -/
theorem Writes.payable (h : Writes request docs op docs') : Step docs.payable docs'.payable := by
  cases h with
  | recordCustomerPayment hparty _ _ _ hinsert =>
      obtain ⟨-, hsupplier⟩ := customerPayments_insert hinsert (by rw [hparty]; rfl)
      exact .stay (fun _ => rfl) (congrArg (List.map Payment.asDebtPayment) hsupplier)
  | @createBill _ _ _ bill _ _ _ _ _ hdraft hpaid _ _ _ hinsert =>
      exact debtBook_insert hinsert (congrArg InvoiceStatus.debt hdraft) hpaid
        (bill.paid_within_total.1.trans bill.paid_within_total.2)
  | issueBill hget hdraft hreplace =>
      exact debtBook_issue hget hreplace rfl (congrArg InvoiceStatus.debt hdraft) rfl
  | recordSupplierPayment hparty hitems hallocated hpays hinsert =>
      obtain ⟨hsupplier, -⟩ := supplierPayments_insert hinsert (by rw [hparty]; rfl)
      exact debtBook_pay bill_pay_debt hitems hallocated hpays hsupplier
  | _ => exact .stay (fun _ => rfl) rfl

/-! ## Runs -/

/-- Both books are kept, and so are the sums of the payments. -/
structure Documents.Allocated (docs : Documents) : Prop where
  receivable : docs.receivable.Kept
  payable : docs.payable.Kept

theorem Documents.allocated_empty : Documents.empty.Allocated :=
  ⟨⟨nofun, fun _ _ => rfl, nofun⟩, ⟨nofun, fun _ _ => rfl, nofun⟩⟩

theorem documents_allocated :
    documents.Sound (fun _ _ => True) Documents.Allocated fun docs phase => phase.Reads docs :=
  documents_sound fun _ _ _ h hwrites =>
    ⟨h.receivable.step hwrites.receivable, h.payable.step hwrites.payable⟩

theorem settled_of_kept {Doc : Type} {key : Doc → Uuid} {face : Doc → Debt} {docs : Table key}
    {payments : List Payment} (h : (debtBook face docs payments).Kept) {doc : Doc}
    {status : InvoiceStatus} (hdoc : doc ∈ docs.rows) (hstatus : (face doc).status = status.debt) :
    Settled status (face doc).total (face doc).paid (allocatedTo payments (key doc)) := by
  have hget : (debtBook face docs payments).debts (key doc) = some (face doc) :=
    congrArg (Option.map face) (Table.get_eq_some.mpr ⟨hdoc, rfl⟩)
  have hkept := h.debts _ _ hget
  have hissued : status.isIssued → (face doc).status = .issued ∨ (face doc).status = .partly ∨
      (face doc).status = .paid := by
    rw [hstatus]
    cases status <;> decide
  have hstages := fun hissue => hkept.staged.status hkept.range.2 (hissued hissue)
  rw [hstatus] at hstages
  refine ⟨?_, hkept.range, fun hissue => ?_, fun hissue => ?_, fun hissue => ?_⟩
  · rw [hkept.paid, debtBook_allocatedTo]
  · exact InvoiceStatus.debt_inj.symm.trans (hstages hissue).1
  · exact InvoiceStatus.debt_inj.symm.trans (hstages hissue).2.1
  · exact InvoiceStatus.debt_inj.symm.trans (hstages hissue).2.2

theorem allocated_of_kept {Doc : Type} {key : Doc → Uuid} {face : Doc → Debt} {docs : Table key}
    {payments : List Payment} (h : (debtBook face docs payments).Kept) {payment : Payment}
    (hpayment : payment ∈ payments) : payment.allocatedAmount = allocated payment.allocations := by
  have hsum := (h.payments _ (List.mem_map_of_mem hpayment)).1
  rw [Payment.asDebtPayment, List.map_map] at hsum
  exact hsum

/-- In every interleaving of requests on documents from an empty tenant on: what an invoice or a
bill has as paid is the sum of what payments allocated to it, and its status says how much that
is; a payment is allocated as its allocations say, and no more than its amount; and the documents
change only when a request goes through.  One that raises leaves all tables as they were. -/
theorem allocations_settled {s : Interleaved Documents DocumentPhase}
    (h : documents.Reaches (Protocol.init .empty) s) :
    (∀ invoice ∈ s.committed.sales.invoices.rows,
      Settled invoice.status invoice.amounts.totalAmount invoice.paidAmount
        (allocatedTo s.committed.sales.customerPayments invoice.id)) ∧
    (∀ bill ∈ s.committed.purchasing.bills.rows,
      Settled bill.status bill.amounts.totalAmount bill.paidAmount
        (allocatedTo s.committed.sales.supplierPayments bill.id)) ∧
    (∀ payment ∈ s.committed.sales.payments.rows,
      payment.allocatedAmount = allocated payment.allocations ∧
        payment.allocatedAmount ≤ payment.amount) ∧
    (∀ (action : TxAction DocumentCall TenantDb) (s' : Interleaved Documents DocumentPhase),
      documents.step s action = some s' → s'.committed ≠ s.committed →
        ∃ t call seen around db, action = .finish t ∧
          s.txs.get t = some (t, .writing call seen around) ∧
            call.op.body call.request (around.withDocuments (s.committed.seeAll seen)) = .ok db ∧
              s'.committed = db.documents) ∧
    ∀ (db : TenantDb) (call : Call), db.commits call = false → db.step call = db := by
  have hs := (documents_allocated.runs h (.init Documents.allocated_empty)).committed
  refine ⟨fun invoice hinvoice => settled_of_kept hs.receivable hinvoice rfl,
    fun bill hbill => settled_of_kept hs.payable hbill rfl, fun payment hpayment => ⟨?_, ?_⟩,
    fun action s' hstep hne => documents_committed hstep hne, fun db call hfails => ?_⟩
  · cases hparty : payment.counterparty.isCustomer with
    | true => exact allocated_of_kept hs.receivable (List.mem_filter.mpr ⟨hpayment, hparty⟩)
    | false =>
        refine allocated_of_kept hs.payable (List.mem_filter.mpr ⟨hpayment, ?_⟩)
        rw [hparty]
        rfl
  · exact payment.allocated_within_amount.2
  · rcases db.step_cases call with ⟨-, hsame⟩ | ⟨_, -, hcommits, -⟩
    · exact hsame
    · rw [hcommits] at hfails
      cases hfails

/-- The order is invoiced for `10` as invoice `3`. -/
def serviceInvoice : List (TxAction DocumentCall TenantDb) :=
  DocumentCall.alone 1 (serviceOrder 1) 0 ++
  DocumentCall.alone 2 (confirmation 2 1) 1 ++
  DocumentCall.alone 3 (invoicing 3 1) 1 ++
  DocumentCall.alone 4 ⟨cornerRequest 4, .issueInvoice 3 (.ok none), rfl⟩ 1

/-- A payment of `6` for that invoice. -/
def servicePayment (n : Nat) : DocumentCall :=
  ⟨cornerRequest n, .recordCustomerPayment
    { customerId := 1
      branchId := 4
      method := .cash
      amount := 60000
      paymentDate := ⟨2026, 1, 17⟩
      allocations := [⟨3, 60000, by decide⟩]
      amount_positive := by decide
      amount_lt := by decide } (.ok none), rfl⟩

/-- Two payments meet, and the second one is rejected. -/
def servicePayments : List (TxAction DocumentCall TenantDb) :=
  serviceInvoice ++
    [.begin 5 (servicePayment 5), .begin 6 (servicePayment 6), .run 5 (.start corner),
     .run 5 (.start corner), .finish 5, .run 6 (.start corner), .run 6 (.start corner), .finish 6]

theorem allocations_settled_two_payments : ∃ s : Interleaved Documents DocumentPhase,
    documents.Reaches (Protocol.init .empty) s ∧
      (s.committed.sales.invoices.rows.map fun invoice => (invoice.status, invoice.paidAmount)) =
        [(.partiallyPaid, 60000)] ∧
      s.committed.sales.payments.rows.map (·.id) = [5] ∧
      ∀ invoice ∈ s.committed.sales.invoices.rows,
        Settled invoice.status invoice.amounts.totalAmount invoice.paidAmount
          (allocatedTo s.committed.sales.customerPayments invoice.id) := by
  have hsome : (servicePayments.foldlM documents.step (Protocol.init .empty)).isSome := by
    decide +kernel
  obtain ⟨s, hs⟩ := Option.isSome_iff_exists.mp hsome
  have hfacts : (servicePayments.foldlM documents.step (Protocol.init .empty)).all fun s =>
      (s.committed.sales.invoices.rows.map fun invoice => (invoice.status, invoice.paidAmount)) =
        [(.partiallyPaid, 60000)] ∧ s.committed.sales.payments.rows.map (·.id) = [5] := by
    decide +kernel
  rw [hs, Option.all_some, decide_eq_true_eq] at hfacts
  have hreaches := Protocol.Reaches.of_foldlM servicePayments hs
  exact ⟨s, hreaches, hfacts.1, hfacts.2, (allocations_settled hreaches).1⟩

end Nexora.Tenant
