import Nexora.Tenant.ControlAccounts

/-!
# The tables of the till in a run

Only the four requests of the till change its sessions, its sales and its returns
(`Op.keeps_till`).  A sale stays as it was sold: refunds count up what came back of its lines
and leave everything else of them (`TenantDb.run_sold`).
-/

namespace Nexora.Tenant

open Nexora Nexora.Catalog Nexora.Sales Nexora.Purchasing Nexora.Pos Foundations

variable {request : Request} {db db' : TenantDb}

/-! ## Frames -/

/-- The requests that change the sessions, the sales or the returns of the till. -/
def Op.isTill : Op → Bool
  | .openSession _ | .closeSession .. | .checkout .. | .refund .. => true
  | _ => false

/-- The sessions, the sales and the returns are the same. -/
structure SameTill (db db' : TenantDb) : Prop where
  sessions : db'.pos.sessions = db.pos.sessions
  sales : db'.pos.sales = db.pos.sales
  returns : db'.pos.returns = db.pos.returns

theorem SameTill.of_pos (h : db'.pos = db.pos) : SameTill db db' := by
  constructor
  · rw [h]
  · rw [h]
  · rw [h]

theorem SameTill.changesOrders (h : ChangesOrders db db') : SameTill db db' := by
  obtain ⟨_, _, htables⟩ := h.tables
  exact .of_pos (by rw [htables])

theorem Op.keeps_till {op : Op} (hdb : db.ledger.Linked) (hop : op.isTill = false)
    (hok : op.body request db = .ok db') : SameTill db db' := by
  cases op with
  | createQuotation payload => exact .changesOrders (createQuotation_eq_ok hok)
  | setQuotationStatus id status => exact .changesOrders (setQuotationStatus_eq_ok hok)
  | convertQuotation id payload => exact .changesOrders (convertQuotation_eq_ok hok)
  | createSalesOrder payload => exact .changesOrders (Sales.createOrder_eq_ok hok)
  | confirmSalesOrder id => exact .changesOrders (Sales.confirmOrder_eq_ok hok)
  | cancelSalesOrder id => exact .changesOrders (Sales.cancelOrder_eq_ok hok)
  | fulfil id lines =>
      obtain ⟨_, _, _, _, _, _, -, -, -, -, htables⟩ := fulfil_eq_ok hdb hok
      exact .of_pos (by rw [htables])
  | createInvoice payload =>
      obtain ⟨_, _, _, -, -, -, -, rfl⟩ := createInvoice_eq_ok hok
      exact .of_pos rfl
  | issueInvoice id claim =>
      obtain rfl | ⟨_, _, _, _, -, -, -, -, -, htables⟩ := issueInvoice_eq_ok hdb hok
      · exact .of_pos rfl
      · exact .of_pos (by rw [htables])
  | recordCustomerPayment payload claim =>
      obtain rfl | ⟨_, _, _, -, -, -, -, -, htables⟩ := Sales.recordPayment_eq_ok hdb hok
      · exact .of_pos rfl
      · exact .of_pos (by rw [htables])
  | issueCreditNote payload =>
      obtain ⟨_, _, _, _, _, _, -, -, -, -, -, -, -, htables⟩ := issueCreditNote_eq_ok hdb hok
      exact .of_pos (by rw [htables])
  | createPurchaseOrder payload =>
      obtain ⟨_, _, -, -, -, -, htables⟩ := Purchasing.createOrder_eq_ok hok
      exact .of_pos (by rw [htables])
  | confirmPurchaseOrder id =>
      obtain ⟨_, _, _, _, -, -, rfl⟩ := Purchasing.confirmOrder_eq_ok hok
      exact .of_pos rfl
  | cancelPurchaseOrder id =>
      obtain ⟨_, _, _, _, -, -, rfl⟩ := Purchasing.cancelOrder_eq_ok hok
      exact .of_pos rfl
  | receive id lines =>
      obtain ⟨_, _, _, _, _, _, -, -, -, -, -, -, htables⟩ := receive_eq_ok hdb hok
      exact .of_pos (by rw [htables])
  | createBill payload =>
      obtain ⟨_, _, _, _, _, -, -, -, -, -, -, -, -, rfl⟩ := createBill_eq_ok hok
      exact .of_pos rfl
  | issueBill id =>
      obtain ⟨_, _, _, _, -, -, -, -, -, htables⟩ := issueBill_eq_ok hdb hok
      exact .of_pos (by rw [htables])
  | recordSupplierPayment payload claim =>
      obtain rfl | ⟨_, _, _, -, -, -, -, -, htables⟩ := Purchasing.recordPayment_eq_ok hdb hok
      · exact .of_pos rfl
      · exact .of_pos (by rw [htables])
  | openSession payload => cases hop
  | closeSession id countedCash => cases hop
  | checkout payload claim => cases hop
  | refund payload claim => cases hop
  | inventory op own =>
      obtain ⟨result, -, rfl⟩ := map_eq_ok.mp hok
      exact .of_pos rfl
  | ledger op own =>
      obtain ⟨ledger, -, rfl⟩ := map_eq_ok.mp hok
      exact .of_pos rfl
  | configure configuration =>
      cases hok
      exact ⟨rfl, rfl, rfl⟩

/-! ## Sales -/

/-- A line of a sale as it was sold. -/
def soldLine (line : SaleLine) : SaleLine := { line with refundedQuantity := 0 }

theorem addRefunded_sold (lines : List SaleLine) (id : Uuid) (quantity : Quantity) :
    (addRefunded lines id quantity).map soldLine = lines.map soldLine := by
  simp only [addRefunded, List.map_map]
  refine List.map_congr_left fun line _ => ?_
  simp only [Function.comp_apply]
  split
  · rfl
  · rfl

/-- What the loop of `refund` leaves of the lines. -/
theorem refundItems_sold {product : Uuid → Option Product} {elsewhere : Elsewhere}
    {items : List RefundLine} {state state' : RefundState}
    (h : items.foldlM (refundItem product elsewhere) state = .ok state') :
    state'.lines.map soldLine = state.lines.map soldLine := by
  refine foldlM_invariant
    (I := fun state' : RefundState => state'.lines.map soldLine = state.lines.map soldLine) ?_ h rfl
  intro item _ state₁ state₂ hlines hitem
  obtain ⟨line, -, hitem⟩ := bind_eq_ok.mp hitem
  obtain ⟨_, -, hitem⟩ := bind_eq_ok.mp hitem
  obtain ⟨_, -, hitem⟩ := bind_eq_ok.mp hitem
  obtain ⟨_, -, hitem⟩ := bind_eq_ok.mp hitem
  obtain ⟨_, -, hitem⟩ := bind_eq_ok.mp hitem
  obtain ⟨_, -, hitem⟩ := bind_eq_ok.mp hitem
  obtain ⟨_, -, hitem⟩ := bind_eq_ok.mp hitem
  cases hitem
  exact (addRefunded_sold _ _ _).trans hlines

/-- The sale is there, with these lines when it was sold. -/
def SoldAs (db : TenantDb) (saleId : Uuid) (lines : List SaleLine) : Prop :=
  ∃ row, db.pos.sales.get saleId = some row ∧ row.sale.lines.map soldLine = lines

theorem SoldAs.same {saleId : Uuid} {lines : List SaleLine} (h : SoldAs db saleId lines)
    (hsales : db'.pos.sales = db.pos.sales) : SoldAs db' saleId lines := by
  rw [SoldAs, hsales]
  exact h

/-- A refund of this sale or of another. -/
theorem SoldAs.refund {saleId : Uuid} {lines : List SaleLine} {payload : RefundCreate}
    {claim : Except Err (Option Uuid)} (h : SoldAs db saleId lines) (hdb : db.ledger.Linked)
    (hok : Pos.refund request db payload claim = .ok db') : SoldAs db' saleId lines := by
  obtain ⟨-, rfl⟩ | ⟨-, row, state, sale, saleReturn, inventory, returns, sales, rows, hget, -, hloop,
    ⟨hlines, -⟩, -, -, hreplace, -, -, htables⟩ := refund_eq_ok hdb hok
  · exact h
  obtain ⟨old, hold, rfl⟩ := h
  have hsales : db'.pos.sales = sales := by rw [htables]
  rw [SoldAs, hsales, Table.get_replace (Table.get_self hget) (by rfl) hreplace saleId]
  split
  next heq =>
    obtain rfl : row = old := Option.some.inj ((heq ▸ Table.get_self hget).symm.trans hold)
    refine ⟨_, rfl, ?_⟩
    show sale.lines.map soldLine = row.sale.lines.map soldLine
    rw [hlines, refundItems_sold hloop]
  next => exact ⟨old, hold, rfl⟩

/-- Every request keeps a sale as it was sold. -/
theorem Op.keeps_sold {op : Op} {saleId : Uuid} {lines : List SaleLine} (h : SoldAs db saleId lines)
    (hdb : db.ledger.Linked) (hok : op.body request db = .ok db') : SoldAs db' saleId lines := by
  cases op with
  | openSession payload =>
      obtain ⟨_, htables⟩ := (openSession_eq_ok hok).tables
      exact h.same (by rw [htables])
  | closeSession id countedCash =>
      obtain ⟨_, htables⟩ := (closeSession_eq_ok hok).tables
      exact h.same (by rw [htables])
  | checkout payload claim =>
      obtain ⟨-, rfl⟩ | ⟨-, row, _, sales, _, -, -, -, -, hinsert, -, -, htables⟩ :=
        checkout_eq_ok hdb hok
      · exact h
      · obtain ⟨old, hold, hlines⟩ := h
        refine ⟨old, ?_, hlines⟩
        rw [htables]
        exact Table.get_of_append hold (Table.insert_eq_some hinsert).1
  | refund payload claim => exact h.refund hdb hok
  | _ => exact h.same (Op.keeps_till hdb rfl hok).sales

theorem TenantDb.run_sold {saleId : Uuid} {lines : List SaleLine} (calls : List Call)
    (hdb : db.ledger.Linked) (h : SoldAs db saleId lines) : SoldAs (db.run calls) saleId lines := by
  refine (TenantDb.run_invariant (I := fun db => db.ledger.Linked ∧ SoldAs db saleId lines) ?_ calls
    ⟨hdb, h⟩).2
  intro db call db' hdb hok
  obtain ⟨_, _, hbooks, -⟩ := Op.books hdb.1 hok
  exact ⟨hbooks.linked, Op.keeps_sold hdb.2 hdb.1 hok⟩

/-- What holds of each line as it is rung up, whatever is refunded of it. -/
theorem TenantDb.run_lines {P : SaleLine → Prop}
    (hsell : ∀ (till : Till) (item : CartLine) (line : SaleLine),
      till.sellLine item = .ok line → P (soldLine line))
    (configuration : Configuration) (calls : List Call) :
    ∀ row ∈ ((TenantDb.start configuration).run calls).pos.sales.rows,
      ∀ line ∈ row.sale.lines, P (soldLine line) := by
  refine (TenantDb.run_invariant (I := fun db => db.ledger.Linked ∧
    ∀ row ∈ db.pos.sales.rows, ∀ line ∈ row.sale.lines, P (soldLine line)) ?_ calls
    ⟨Accounting.LedgerDb.linked_empty, fun row hrow => by cases hrow⟩).2
  rintro db ⟨request, op⟩ db' ⟨hdb, hlines⟩ hok
  obtain ⟨_, _, hbooks, -⟩ := Op.books hdb hok
  refine ⟨hbooks.linked, ?_⟩
  cases op with
  | openSession payload =>
      obtain ⟨_, htables⟩ := (openSession_eq_ok hok).tables
      rw [htables]
      exact hlines
  | closeSession id countedCash =>
      obtain ⟨_, htables⟩ := (closeSession_eq_ok hok).tables
      rw [htables]
      exact hlines
  | checkout payload claim =>
      obtain ⟨-, rfl⟩ | ⟨-, row, _, sales, _, hsale, -, -, -, hinsert, -, -, htables⟩ :=
        checkout_eq_ok hdb hok
      · exact hlines
      · rw [htables]
        exact Table.forall_insert hinsert hlines
          (mapM_forall (fun _ _ hline => hsell _ _ _ hline) (Till.checkout_figures hsale).1)
  | refund payload claim =>
      obtain ⟨-, rfl⟩ | ⟨-, row, state, sale, _, _, _, _, _, hget, -, hloop, ⟨hstate, -⟩, -, -, hreplace,
        -, -, htables⟩ := refund_eq_ok hdb hok
      · exact hlines
      · rw [htables]
        refine Table.forall_replace (Table.get_self hget) hreplace hlines fun line hline => ?_
        have hsold : soldLine line ∈ row.sale.lines.map soldLine := by
          rw [← refundItems_sold hloop, ← hstate]
          exact List.mem_map_of_mem hline
        obtain ⟨old, hold, heq⟩ := List.mem_map.mp hsold
        exact heq ▸ hlines row (Table.get_mem hget).1 old hold
  | _ =>
      rw [(Op.keeps_till hdb rfl hok).sales]
      exact hlines

end Nexora.Tenant
