import Nexora.Tenant.FairSales

/-!
# The amount of a refund

A refund prorates the total, the net amount and the tax of a line, and rounds each of them.  The
return keeps the first, `CASH` and the VAT register get the other two.  Those always agree with each
other; the first agrees with them when the carries of its lines cancel (`refund_amounts_iff`).

For two pieces with an odd net amount and an odd tax, both halves round up and their sum does not
(`odd_halves_disagree`).
-/

namespace Nexora.Tenant

open Nexora Nexora.Catalog Nexora.Sales Nexora.Purchasing Nexora.Pos Foundations
open Nexora.Accounting (Money)
open Nexora.Inventory (InventoryDb)
open Nexora.Vat (VatTransaction TaxableEvent RateTotal recorded)

variable {request : Request} {db db' : TenantDb}

/-! ## The register rows of returns -/

/-- The register rows of a return. -/
def TenantDb.returnRows (db : TenantDb) (returnId : Uuid) : List VatTransaction :=
  db.register.rows.filter fun row => row.sourceType = "pos_return" ∧ row.sourceId = returnId

/-- Register rows of returns belong to returns that are there. -/
structure ReturnsRecorded (db : TenantDb) : Prop where
  linked : db.ledger.Linked
  stored : ∀ row ∈ db.register.rows, row.sourceType = "pos_return" →
    ∃ saleReturn ∈ db.pos.returns.rows, saleReturn.id = row.sourceId

namespace ReturnsRecorded

/-- A request that records nothing of a return. -/
theorem books {entries : List Entry} {rows : List VatTransaction} (h : ReturnsRecorded db)
    (hbooks : Books db entries rows db') (hreturns : db'.pos.returns = db.pos.returns)
    (hrows : ∀ row ∈ rows, row.sourceType ≠ "pos_return") : ReturnsRecorded db' := by
  refine ⟨hbooks.linked, ?_⟩
  rw [hbooks.register, hreturns]
  intro row hrow htype
  rcases List.mem_append.mp hrow with hrow | hrow
  · exact h.stored row hrow htype
  · exact absurd htype (hrows row hrow)

theorem event {entries : List Entry} {rows : List VatTransaction} {taxable : TaxableEvent}
    {newId : Nat → Uuid} {lines : List RateTotal} (h : ReturnsRecorded db)
    (hrows : taxable.recordLines newId lines = .ok rows) (hbooks : Books db entries rows db')
    (hreturns : db'.pos.returns = db.pos.returns) (htype : taxable.sourceType ≠ "pos_return") :
    ReturnsRecorded db' := by
  refine h.books hbooks hreturns fun row hrow => ?_
  rw [(TaxableEvent.recordLines_source hrows row hrow).1]
  exact htype

theorem same (h : ReturnsRecorded db) (hledger : db.ledger.SameCodes db'.ledger)
    (hregister : db'.register = db.register) (hreturns : db'.pos.returns = db.pos.returns) :
    ReturnsRecorded db' :=
  h.books (.of_sameCodes h.linked hledger hregister) hreturns (List.forall_mem_nil _)

theorem changesOrders (h : ReturnsRecorded db) (hdb : ChangesOrders db db') :
    ReturnsRecorded db' := by
  obtain ⟨_, _, htables⟩ := hdb.tables
  exact h.same hdb.ledger (by rw [htables]) (by rw [htables])

theorem changesStatus (h : ReturnsRecorded db) (hdb : ChangesStatus db db') :
    ReturnsRecorded db' := by
  obtain ⟨_, _, _, _, -, -, rfl⟩ := hdb
  exact h.same (.refl _) rfl rfl

theorem changesSessions (h : ReturnsRecorded db) (hdb : ChangesSessions db db') :
    ReturnsRecorded db' := by
  obtain ⟨_, htables⟩ := hdb.tables
  exact h.same hdb.ledger (by rw [htables]) (by rw [htables])

/-- A refund records rows of its own return. -/
theorem refund {payload : RefundCreate} {claim : Except Err (Option Uuid)} (h : ReturnsRecorded db)
    (hok : Pos.refund request db payload claim = .ok db') : ReturnsRecorded db' := by
  obtain ⟨-, rfl⟩ | ⟨-, row, state, sale, saleReturn, inventory, returns, sales, rows, -, -, -, -,
    ⟨-, -, hinsert⟩, -, -, hrows, hbooks, htables⟩ := refund_eq_ok h.linked hok
  · exact h
  refine ⟨hbooks.linked, ?_⟩
  have hreturns : db'.pos.returns = returns := by rw [htables]
  rw [hbooks.register, hreturns, (Table.insert_eq_some hinsert).1]
  intro vat hvat htype
  rcases List.mem_append.mp hvat with hvat | hvat
  · obtain ⟨stored, hstored, hid⟩ := h.stored vat hvat htype
    exact ⟨stored, List.mem_append_left _ hstored, hid⟩
  · exact ⟨saleReturn, List.mem_append_right _ List.mem_cons_self,
      (TaxableEvent.recordLines_source hrows vat hvat).2.symm⟩

end ReturnsRecorded

theorem Op.keeps_recorded {op : Op} (h : ReturnsRecorded db) (hok : op.body request db = .ok db') :
    ReturnsRecorded db' := by
  have hdb := h.linked
  cases op with
  | createQuotation payload => exact h.changesOrders (createQuotation_eq_ok hok)
  | setQuotationStatus id status => exact h.changesOrders (setQuotationStatus_eq_ok hok)
  | convertQuotation id payload => exact h.changesOrders (convertQuotation_eq_ok hok)
  | createSalesOrder payload => exact h.changesOrders (Sales.createOrder_eq_ok hok)
  | confirmSalesOrder id => exact h.changesOrders (Sales.confirmOrder_eq_ok hok)
  | cancelSalesOrder id => exact h.changesOrders (Sales.cancelOrder_eq_ok hok)
  | fulfil id lines =>
      obtain ⟨_, _, _, _, _, _, -, -, -, hbooks, htables⟩ := fulfil_eq_ok hdb hok
      exact h.books hbooks (by rw [htables]) (List.forall_mem_nil _)
  | createInvoice payload =>
      obtain ⟨_, _, _, -, -, -, -, rfl⟩ := createInvoice_eq_ok hok
      exact h.same (.refl _) rfl rfl
  | issueInvoice id claim =>
      obtain rfl | ⟨_, _, _, _, -, -, -, hrows, hbooks, htables⟩ := issueInvoice_eq_ok hdb hok
      · exact h
      · exact h.event hrows hbooks (by rw [htables]) (show "invoice" ≠ "pos_return" by decide)
  | recordCustomerPayment payload claim =>
      obtain rfl | ⟨_, _, _, -, -, -, -, hbooks, htables⟩ := Sales.recordPayment_eq_ok hdb hok
      · exact h
      · exact h.books hbooks (by rw [htables]) (List.forall_mem_nil _)
  | issueCreditNote payload =>
      obtain ⟨_, _, _, _, _, _, -, -, -, -, -, hrows, hbooks, htables⟩ :=
        issueCreditNote_eq_ok hdb hok
      exact h.event hrows hbooks (by rw [htables]) (show "credit_note" ≠ "pos_return" by decide)
  | createPurchaseOrder payload =>
      obtain ⟨_, _, -, -, -, hledger, htables⟩ := Purchasing.createOrder_eq_ok hok
      exact h.same hledger (by rw [htables]) (by rw [htables])
  | confirmPurchaseOrder id => exact h.changesStatus (Purchasing.confirmOrder_eq_ok hok)
  | cancelPurchaseOrder id => exact h.changesStatus (Purchasing.cancelOrder_eq_ok hok)
  | receive id lines =>
      obtain ⟨_, _, _, _, _, _, -, -, -, -, -, hbooks, htables⟩ := receive_eq_ok hdb hok
      exact h.books hbooks (by rw [htables]) (List.forall_mem_nil _)
  | createBill payload =>
      obtain ⟨_, _, _, _, _, -, -, -, -, -, -, -, -, rfl⟩ := createBill_eq_ok hok
      exact h.same (.refl _) rfl rfl
  | issueBill id =>
      obtain ⟨_, _, _, _, -, -, -, hrows, hbooks, htables⟩ := issueBill_eq_ok hdb hok
      exact h.event hrows hbooks (by rw [htables]) (show "supplier_bill" ≠ "pos_return" by decide)
  | recordSupplierPayment payload claim =>
      obtain rfl | ⟨_, _, _, -, -, -, -, hbooks, htables⟩ := Purchasing.recordPayment_eq_ok hdb hok
      · exact h
      · exact h.books hbooks (by rw [htables]) (List.forall_mem_nil _)
  | openSession payload => exact h.changesSessions (openSession_eq_ok hok)
  | closeSession id countedCash => exact h.changesSessions (closeSession_eq_ok hok)
  | checkout payload claim =>
      obtain ⟨-, rfl⟩ | ⟨-, _, _, _, _, -, -, -, -, -, hrows, hbooks, htables⟩ :=
        checkout_eq_ok hdb hok
      · exact h
      · exact h.event hrows hbooks (by rw [htables]) (show "pos_sale" ≠ "pos_return" by decide)
  | refund payload claim => exact h.refund hok
  | inventory op own =>
      obtain ⟨result, -, rfl⟩ := map_eq_ok.mp hok
      exact h.same (.refl _) rfl rfl
  | ledger op own =>
      obtain ⟨ledger, hrequest, rfl⟩ := map_eq_ok.mp hok
      exact h.same (LedgerOp.sameCodes own hrequest) rfl rfl
  | configure configuration =>
      cases hok
      exact h.same (.refl _) rfl rfl

/-- In every run, a register row of a return names one that is there. -/
theorem TenantDb.run_recorded (configuration : Configuration) (calls : List Call) :
    ReturnsRecorded ((TenantDb.start configuration).run calls) :=
  TenantDb.run_invariant (fun _ _ _ hdb hok => Op.keeps_recorded hdb hok) calls
    ⟨Accounting.LedgerDb.linked_empty, fun row hrow => by cases hrow⟩

/-! ## Carries -/

section Carry

variable {line : SaleLine} {quantity : Quantity}

/-- How far the shares of the net amount and of the tax are past the last ties below them, in
ten-thousandths.  The share of the total is their sum, but for what its division leaves out. -/
def carry (line : SaleLine) (quantity : Quantity) : ℚ :=
  Int.fract (line.share line.netAmount quantity * 10 ^ 4 + 1 / 2) +
    Int.fract (line.share line.taxAmount quantity * 10 ^ 4 + 1 / 2) +
    (line.share line.totalAmount quantity * 10 ^ 4 -
      (line.share line.netAmount quantity * 10 ^ 4 + line.share line.taxAmount quantity * 10 ^ 4))

theorem prorated_total (h : Priced line) (hquantity : 0 ≤ quantity) :
    line.prorated line.totalAmount quantity = line.prorated line.netAmount quantity +
      line.prorated line.taxAmount quantity + ⌊carry line quantity - 1 / 2⌋ := by
  have hnet := h.tax_nonneg.trans h.tax_le
  refine roundHalfUp_carry (share_nonneg h.quantity_pos hnet hquantity)
    (share_nonneg h.quantity_pos h.tax_nonneg hquantity) (share_nonneg h.quantity_pos ?_ hquantity)
  rw [h.total]
  exact add_nonneg hnet h.tax_nonneg

/-- The total is off from its parts by one ten-thousandth at most. -/
theorem carry_bounds (h : Priced line) (hlt : line.netAmount + line.taxAmount < 10 ^ 18)
    (hquantity : 0 ≤ quantity) (hle : quantity ≤ line.quantity) :
    -1 / 2 ≤ carry line quantity ∧ carry line quantity < 5 / 2 := by
  have hnet := h.tax_nonneg.trans h.tax_le
  have hclose : ∀ amount : Money, 0 ≤ amount → amount ≤ line.totalAmount →
      |line.share amount quantity * 10 ^ 4 - amount * quantity / line.quantity| < 1 / 10 ^ 6 := by
    intro amount hnonneg hamount
    refine (SaleLine.abs_share_sub_lt h.quantity_pos ?_ hquantity hle).1
    rw [abs_of_nonneg hnonneg]
    exact hamount.trans_lt (h.total ▸ hlt)
  have hnetClose := abs_lt.mp (hclose line.netAmount hnet
    (h.total ▸ le_add_of_nonneg_right h.tax_nonneg))
  have htaxClose := abs_lt.mp (hclose line.taxAmount h.tax_nonneg
    (h.total ▸ le_add_of_nonneg_left hnet))
  have htotalClose := abs_lt.mp (hclose line.totalAmount
    (h.total ▸ add_nonneg hnet h.tax_nonneg) le_rfl)
  have hexact : (line.totalAmount : ℚ) * quantity / line.quantity =
      line.netAmount * quantity / line.quantity + line.taxAmount * quantity / line.quantity := by
    rw [h.total]
    push_cast
    ring
  rw [hexact] at htotalClose
  have hfractNet := Int.fract_nonneg (line.share line.netAmount quantity * 10 ^ 4 + 1 / 2)
  have hfractTax := Int.fract_nonneg (line.share line.taxAmount quantity * 10 ^ 4 + 1 / 2)
  have hltNet := Int.fract_lt_one (line.share line.netAmount quantity * 10 ^ 4 + 1 / 2)
  have hltTax := Int.fract_lt_one (line.share line.taxAmount quantity * 10 ^ 4 + 1 / 2)
  unfold carry
  constructor
  · linarith
  · linarith

end Carry

/-- The carries of the lines that items name. -/
def carriesOf (lines : List SaleLine) (items : List RequestedLine) : List ℚ :=
  items.filterMap fun item =>
    (lines.find? (·.id = item.lineId)).map fun line => carry line item.quantity

/-- The carries of the items of a refund. -/
def refundCarries (db : TenantDb) (payload : RefundCreate) : List ℚ :=
  match db.pos.sales.get payload.saleId with
  | some row => carriesOf row.sale.lines payload.lines
  | none => []

/-- As many items lose a ten-thousandth to the rounding of their two parts as gain one by it. -/
def CarriesCancel (db : TenantDb) (payload : RefundCreate) : Prop :=
  (refundCarries db payload).countP (3 / 2 ≤ ·) = (refundCarries db payload).countP (· < 1 / 2)

instance (db : TenantDb) (payload : RefundCreate) : Decidable (CarriesCancel db payload) :=
  inferInstanceAs (Decidable (_ = _))

/-- What the amount of a return has more than its net amount and its tax. -/
def surplus (state : RefundState) : Money :=
  state.total - (state.booking.net + state.booking.tax)

/-- A pass of the loop of `refund`. -/
theorem refundItem_surplus {inventory : InventoryDb} {elsewhere : Elsewhere} {lines : List SaleLine}
    {state state' : RefundState} {item : RequestedLine}
    (hlines : state.lines.map soldLine = lines.map soldLine) (hfair : FairSale state.lines)
    (hpriced : ∀ line ∈ state.lines, Priced line)
    (h : refundItem inventory.product elsewhere state (refundLineOf item) = .ok state') :
    ∃ line, lines.find? (·.id = item.lineId) = some line ∧
      (-1 / 2 ≤ carry line item.quantity ∧ carry line item.quantity < 5 / 2) ∧
      surplus state' = surplus state + ⌊carry line item.quantity - 1 / 2⌋ := by
  obtain ⟨now, hfound, h⟩ := bind_eq_ok.mp h
  obtain ⟨_, hremaining, h⟩ := bind_eq_ok.mp h
  obtain ⟨_, -, h⟩ := bind_eq_ok.mp h
  obtain ⟨amount, hamount, h⟩ := bind_eq_ok.mp h
  obtain ⟨net, hnet, h⟩ := bind_eq_ok.mp h
  obtain ⟨tax, htax, h⟩ := bind_eq_ok.mp h
  obtain ⟨_, -, h⟩ := bind_eq_ok.mp h
  cases h
  rw [orRaise_eq_ok] at hfound
  have hmem := List.mem_of_find?_eq_some hfound
  obtain ⟨hremains, -⟩ := ite_error_eq_ok.mp hremaining
  have hquantity : item.quantity ≤ now.quantity :=
    (not_lt.mp hremains).trans (Int.sub_le_self _ (hfair.fair now hmem).refunded_nonneg)
  have hsold := find_sold hlines item.lineId
  rw [show state.lines.find? (·.id = item.lineId) = some now from hfound, Option.map_some] at hsold
  obtain ⟨old, hold, heq⟩ := Option.map_eq_some_iff.mp hsold.symm
  have hcarry : carry old item.quantity = carry now item.quantity := by
    show carry (soldLine old) item.quantity = carry (soldLine now) item.quantity
    rw [heq]
  have hsplit := prorated_total (hpriced now hmem) item.quantity_pos.le
  refine ⟨old, hold, ?_, ?_⟩
  · rw [hcarry]
    exact carry_bounds (hpriced now hmem) (hfair.worth_lt hmem) item.quantity_pos.le
      hquantity
  · have hamount' := SaleLine.prorate_eq_ok hamount
    have hnet' := SaleLine.prorate_eq_ok hnet
    have htax' := SaleLine.prorate_eq_ok htax
    simp only [surplus, hamount', hnet', htax', hcarry, refundLineOf, hsplit]
    ring

theorem refundItems_surplus {inventory : InventoryDb} {elsewhere : Elsewhere}
    {lines : List SaleLine} {items : List RequestedLine} {state state' : RefundState}
    (hlines : state.lines.map soldLine = lines.map soldLine) (hfair : FairSale state.lines)
    (hpriced : ∀ line ∈ state.lines, Priced line)
    (h : (items.map refundLineOf).foldlM (refundItem inventory.product elsewhere) state =
      .ok state') :
    (∀ c ∈ carriesOf lines items, -1 / 2 ≤ c ∧ c < 5 / 2) ∧ surplus state' = surplus state +
      ((carriesOf lines items).map fun c => ⌊c - 1 / 2⌋).sum := by
  induction items generalizing state with
  | nil =>
      cases h
      exact ⟨List.forall_mem_nil _, (add_zero _).symm⟩
  | cons item items ih =>
      rw [List.map_cons, List.foldlM_cons] at h
      obtain ⟨state₁, hfirst, h⟩ := bind_eq_ok.mp h
      obtain ⟨hlines₁, hfair₁, -⟩ := refundItem_fair hlines hfair hfirst
      have hpriced₁ := Priced.of_sold (hlines₁.trans hlines.symm) hpriced
      obtain ⟨line, hfind, hbounds, hsurplus⟩ := refundItem_surplus hlines hfair hpriced hfirst
      obtain ⟨hrest, hsum⟩ := ih hlines₁ hfair₁ hpriced₁ h
      have hcons : carriesOf lines (item :: items) =
          carry line item.quantity :: carriesOf lines items := by
        simp [carriesOf, hfind]
      rw [hcons, List.forall_mem_cons, List.map_cons, List.sum_cons, hsum, hsurplus, add_assoc]
      exact ⟨⟨hbounds, hrest⟩, rfl⟩

/-! ## The return, the cash and the register -/

/-- The amount of a return is what the request credited to `CASH`, and the net amounts and the taxes
that the register has for the return come to the same. -/
structure AmountsAgree (db db' : TenantDb) (saleReturn : SaleReturn) : Prop where
  cash : saleReturn.amount = -netChange "CASH" db db'
  register : -netChange "CASH" db db' = recorded (db'.returnRows saleReturn.id)

/-- The return is there, and its amounts agree. -/
def RefundAgrees (db db' : TenantDb) (returnId : Uuid) : Prop :=
  ∃ saleReturn, db'.pos.returns.get returnId = some saleReturn ∧ AmountsAgree db db' saleReturn

/-- The register has nothing of a return before it is made. -/
theorem ReturnsRecorded.returnRows_eq {entries : List Entry} {rows : List VatTransaction}
    {saleReturn : SaleReturn} {returns : Table SaleReturn.id} {newId : Nat → Uuid}
    {lines : List RateTotal} (h : ReturnsRecorded db)
    (hinsert : db.pos.returns.insert saleReturn = some returns)
    (hrows : saleReturn.taxableEvent.recordLines newId lines = .ok rows)
    (hbooks : Books db entries rows db') : db'.returnRows saleReturn.id = rows := by
  have hsource := TaxableEvent.recordLines_source hrows
  have hfresh := Table.get_eq_none.mp (Table.insert_eq_some hinsert).2
  rw [TenantDb.returnRows, hbooks.register, List.filter_append]
  have hbefore : db.register.rows.filter (fun row => row.sourceType = "pos_return" ∧
      row.sourceId = saleReturn.id) = [] := by
    refine List.filter_eq_nil_iff.mpr fun row hrow hreturn => ?_
    obtain ⟨htype, hid⟩ := of_decide_eq_true hreturn
    obtain ⟨stored, hstored, hstoredId⟩ := h.stored row hrow htype
    exact hfresh stored hstored (hstoredId.trans hid)
  rw [hbefore, List.nil_append]
  exact List.filter_eq_self.mpr fun row hrow => decide_eq_true (hsource row hrow)

/-- What the sales and the register have in common in every run. -/
structure Refundable (db : TenantDb) : Prop where
  fair : FairSales db
  recorded : ReturnsRecorded db
  priced : ∀ row ∈ db.pos.sales.rows, ∀ line ∈ row.sale.lines, Priced line

theorem TenantDb.run_refundable (configuration : Configuration) (calls : List Call) :
    Refundable ((TenantDb.start configuration).run calls) := by
  have hfair := TenantDb.run_fair configuration calls
  have htotals := TenantDb.run_lines
    (P := fun line => line.totalAmount = line.netAmount + line.taxAmount)
    (fun _ _ _ hline => (Till.sellLine_eq_ok hline).2) configuration calls
  refine ⟨hfair, TenantDb.run_recorded configuration calls, fun row hrow line hline => ?_⟩
  have hline' := (hfair.fair row hrow).fair line hline
  exact ⟨hline'.quantity_pos, hline'.tax_nonneg, hline'.tax_le, htotals row hrow line hline⟩

/-- The register has what is credited to `CASH`, and the amount of the return is that with the
carries of its items. -/
theorem refund_carries {payload : RefundCreate} {claim : Except Err (Option Uuid)}
    (h : Refundable db) (hnew : replayed claim db.pos.returns.get = false)
    (hok : Pos.refund request db payload claim = .ok db') :
    ∃ saleReturn, db'.pos.returns.get request.documentId = some saleReturn ∧
      -netChange "CASH" db db' = recorded (db'.returnRows saleReturn.id) ∧
      saleReturn.amount = -netChange "CASH" db db' +
        (((refundCarries db payload).countP (3 / 2 ≤ ·) : Int) -
          ((refundCarries db payload).countP (· < 1 / 2) : Int)) := by
  obtain ⟨hreplayed, -⟩ | ⟨-, row, state, sale, saleReturn, inventory, returns, sales, rows, hget,
    -, hloop, -, ⟨hid, hamount, hinsert⟩, -, -, hrows, hbooks, htables⟩ :=
      refund_eq_ok h.fair.linked hok
  · rw [hnew] at hreplayed
    cases hreplayed
  have hrow := (Table.get_mem hget).1
  have hstored : ∀ line ∈ row.sale.lines, line.Stored := by
    intro line hline
    have hline := h.priced row hrow line hline
    exact ⟨hline.quantity_pos, hline.tax_nonneg.trans hline.tax_le, hline.tax_nonneg⟩
  have hstate := refundItems_stored hstored hloop
  have hcash := (refund_effect hbooks hstate).cash
  have hsum : -netChange "CASH" db db' = state.booking.net + state.booking.tax := by
    rw [hcash]
    ring
  refine ⟨saleReturn, ?_, ?_, ?_⟩
  · rw [htables, ← hid]
    exact Table.get_eq_some.mpr
      ⟨(Table.insert_eq_some hinsert).1 ▸ List.mem_append_right _ List.mem_cons_self, rfl⟩
  · rw [hsum, h.recorded.returnRows_eq hinsert hrows hbooks,
      TaxableEvent.recordLines_recorded hstate.rateLines hrows, List.sum_map_add, hstate.net,
      hstate.tax]
  · obtain ⟨hbounds, hsurplus⟩ :=
      refundItems_surplus rfl (h.fair.fair row hrow) (h.priced row hrow) hloop
    -- The items are taken back in the order of their products.
    have hperm : (carriesOf row.sale.lines (payload.sorted row.sale.lines)).Perm
        (refundCarries db payload) := by
      have hsorted : (payload.sorted row.sale.lines).Perm payload.lines :=
        List.perm_insertionSort _ _
      simp only [refundCarries, hget]
      exact hsorted.filterMap _
    rw [sum_floor_sub_half hbounds, hperm.countP_eq, hperm.countP_eq, surplus, surplus] at hsurplus
    rw [hamount, hsum]
    simp only [add_zero, sub_zero, zero_add] at hsurplus
    linarith

/-- In every run, the amount of the return of a refund that goes through is what the refund credits
to `CASH` exactly if the carries of its items cancel. -/
theorem refund_amounts_iff (configuration : Configuration) (calls : List Call)
    {payload : RefundCreate} {claim : Except Err (Option Uuid)}
    (hnew : replayed claim ((TenantDb.start configuration).run calls).pos.returns.get = false)
    (hok : Pos.refund request ((TenantDb.start configuration).run calls) payload claim = .ok db') :
    RefundAgrees ((TenantDb.start configuration).run calls) db' request.documentId ↔
      CarriesCancel ((TenantDb.start configuration).run calls) payload := by
  obtain ⟨saleReturn, hreturn, hregister, hamount⟩ :=
    refund_carries (TenantDb.run_refundable configuration calls) hnew hok
  unfold CarriesCancel
  constructor
  · rintro ⟨found, hfound, hagree⟩
    obtain rfl : found = saleReturn := Option.some.inj (hfound.symm.trans hreturn)
    have hzero := left_eq_add.mp (hagree.cash.symm.trans hamount)
    exact_mod_cast sub_eq_zero.mp hzero
  · intro hcancel
    refine ⟨saleReturn, hreturn, ?_, hregister⟩
    rw [hamount, hcancel, sub_self, add_zero]

/-! ## One piece of two -/

/-- Two pieces of product `7` at `5`, sold at a discount. -/
def soldPair (discountRate : Rate) (paid : Money) (h : 0 ≤ discountRate ∧ discountRate ≤ 10 ^ 6) :
    List Call :=
  [costReceipt 9 2, ⟨cornerRequest 1, .openSession ⟨5, 0, Sample.zero_money⟩⟩,
   ⟨cornerRequest 2, .checkout
    { sessionId := 1
      customerId := none
      lines := [⟨7, 2000000, discountRate, Sample.twoPieces_pos, Sample.twoPieces_lt,
        Sample.rate_nonneg h, Sample.rate_le h⟩]
      payments := [⟨.cash, paid, 0⟩] } (.ok none)⟩]

def onePieceBack : RefundCreate :=
  ⟨2, 1, [⟨2007, 1000000, Sample.onePiece_pos, Sample.onePiece_lt⟩]⟩

/-- Half of `10.00` and half of `1.50`. -/
theorem even_halves_agree :
    let db := (TenantDb.start corner).run (soldPair 0 115000 (by decide))
    RefundAgrees db (db.step ⟨cornerRequest 3, .refund onePieceBack (.ok none)⟩) 3 := by
  have hok := TenantDb.body_of_commits
    (show ((TenantDb.start corner).run (soldPair 0 115000 (by decide))).commits
      ⟨cornerRequest 3, .refund onePieceBack (.ok none)⟩ = true by decide +kernel)
  exact (refund_amounts_iff corner (soldPair 0 115000 (by decide)) (by decide +kernel) hok).mpr
    (by decide +kernel)

/-- Half of `9.9995` goes as `4.9998` and half of `1.4999` as `0.75`, but half of their sum is
`5.7497`. -/
theorem odd_halves_disagree :
    ¬∀ (configuration : Configuration) (calls : List Call) (request : Request)
      (payload : RefundCreate) (claim : Except Err (Option Uuid)) (db' : TenantDb),
      replayed claim ((TenantDb.start configuration).run calls).pos.returns.get = false →
      Pos.refund request ((TenantDb.start configuration).run calls) payload claim = .ok db' →
      RefundAgrees ((TenantDb.start configuration).run calls) db' request.documentId := by
  intro hagrees
  have hok := TenantDb.body_of_commits
    (show ((TenantDb.start corner).run (soldPair 50 114994 (by decide))).commits
      ⟨cornerRequest 3, .refund onePieceBack (.ok none)⟩ = true by decide +kernel)
  obtain ⟨saleReturn, hreturn, hagree⟩ := hagrees corner _ _ _ _ _ (by decide +kernel) hok
  have hamount : ((((TenantDb.start corner).run (soldPair 50 114994 (by decide))).step
      ⟨cornerRequest 3, .refund onePieceBack (.ok none)⟩).pos.returns.get 3).any
        (·.amount = 57497) := by decide +kernel
  obtain ⟨found, hfound, hfacts⟩ := (Option.any_eq_true _ _).mp hamount
  obtain rfl : found = saleReturn := Option.some.inj (hfound.symm.trans hreturn)
  have hcash := hagree.cash
  rw [of_decide_eq_true hfacts] at hcash
  exact absurd hcash (by decide +kernel)

end Nexora.Tenant
