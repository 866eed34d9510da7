import Nexora.Tenant.StockDocuments

/-!
# Stock and books

Receipts, issues and adjustments of the inventory itself post nothing, and the till posts the
cost of all its lines.  `Op.Clean` is the condition on the request and the state before it
under which a request is accounted for, and `stock_and_books_iff` says that a run is accounted
for exactly when all its requests are clean.
-/

namespace Nexora.Tenant

open Nexora Nexora.Catalog Nexora.Sales Nexora.Purchasing Nexora.Pos Foundations
open Nexora.Accounting
open Nexora.Inventory (InventoryDb Movement DocumentKind Adds decimal)
open Nexora.Vat (VatTransaction)

variable {request : Request} {db db' : TenantDb}

/-! ## Every request -/

/-- The cost that a request uses for a movement: that of the receipt, that of the sale that
is refunded, or that of the product before. -/
def Op.costUsed (db : TenantDb) : Op → Movement → UnitCost
  | .refund payload _ => fun m =>
      ((db.pos.sales.get payload.saleId).map fun row => soldCost row.sale.lines m.productId).getD 0
  | _ => costBefore db.inventory

/-- The requests that post what they move.  The inventory itself posts nothing, so it must
not move anything of value.  The till posts the cost of all lines, so this must be the cost
of the lines that move stock, to the ten-thousandth. -/
def Op.Clean (db : TenantDb) : Op → Prop
  | .inventory (.receipt _ payload key) _ => db.inventory.replays key = true ∨
      ∀ unitCost ∈ payload.unitCost, roundHalfUp (unitCost * 10 ^ 6) = 0
  | .inventory (.issue _ payload key) _ => db.inventory.replays key = true ∨
      db.inventory.costPrice payload.productId = 0
  | .inventory (.adjust _ payload _ key) _ => db.inventory.replays key = true ∨
      db.inventory.costPrice payload.productId = 0
  | .checkout payload claim => replayed claim db.pos.sales.get = true ∨
      amountsOf (roundHalfEven
          (cartCost db.inventory (fun _ => true) payload.lines * 10 ^ 6) / 10 ^ 6) =
        amountsOf (cartCost db.inventory (·.isStockTracked) payload.lines)
  | .refund payload claim => replayed claim db.pos.returns.get = true ∨
      amountsOf (refundCost db (fun _ => true) payload) =
        amountsOf (refundCost db (·.isStockTracked) payload)
  | _ => True

/-- A request of the inventory posts nothing, so its movements must have no value. -/
theorem accounted_single_iff {cost : Movement → UnitCost} {m : Movement}
    (hadds : Adds db.inventory [m] db'.inventory) (hledger : db'.ledger = db.ledger)
    (htype : m.movementType.isTransfer = false) : Accounted cost db db' ↔ cost m = 0 := by
  have hamounts : Tenant.stockAmounts cost [m] = [] ↔ cost m = 0 := by
    simp [Tenant.stockAmounts, htype]
  rw [← hamounts]
  constructor
  · rintro ⟨movements, hmovements, hpostings⟩
    rw [hadds.movements] at hmovements
    rw [hledger, List.self_eq_append_right] at hpostings
    rwa [List.append_cancel_left hmovements]
  · intro hnone
    exact ⟨[m], hadds.movements, by rw [hledger, hnone, List.append_nil]⟩

theorem Accounted.of_same {cost : Movement → UnitCost} (hdb : db.ledger.Linked)
    (hadds : Inventory.AddsTransfers db.inventory db'.inventory)
    (hledger : db.ledger.SameCodes db'.ledger) (hregister : db'.register = db.register) :
    Accounted cost db db' :=
  .of_transfers hadds (.of_sameCodes hdb hledger hregister) rfl

/-! ## Runs -/

/-- What the costs of later requests rest on. -/
structure Costs (db : TenantDb) : Prop where
  linked : db.ledger.Linked
  costed : db.inventory.Costed
  sales : ∀ row ∈ db.pos.sales.rows, SoldOnce row.sale.lines

/-- A sale has a line for each product of the cart, at the cost of the product. -/
theorem soldOnce_checkout {till : Till} {items : List CartLine} {payments : List TenderInput}
    {sale : Sale} (hcosted : ∀ productId product, till.product productId = some product →
      0 ≤ product.costPrice) (h : till.checkout items payments = .ok sale) :
    SoldOnce sale.lines := by
  obtain ⟨hlines, -, -, -, hnodup⟩ := Till.checkout_figures h
  have hsold := mapM_forall₂ hlines
  refine ⟨fun line hline => ?_, ?_⟩
  · obtain ⟨item, -, hitem⟩ := exists_of_forall₂ hsold hline
    obtain ⟨-, -, -, product, hproduct, hcost⟩ := Till.sellLine_stored hitem
    rw [hcost]
    exact hcosted _ product hproduct
  · have hids : sale.lines.map SaleLine.productId =
        (items.insertionSort fun a b => a.productId ≤ b.productId).map CartLine.productId := by
      clear hlines
      generalize sale.lines = lines at hsold
      generalize (items.insertionSort fun a b => a.productId ≤ b.productId) = sorted at hsold
      induction hsold with
      | nil => rfl
      | cons hline _ ih =>
          obtain ⟨-, hproduct, -⟩ := Till.sellLine_stored hline
          rw [List.map_cons, List.map_cons, hproduct, ih]
    rw [hids]
    exact ((List.perm_insertionSort _ items).map _).nodup_iff.mpr hnodup

theorem costs_checkout {payload : CheckoutCreate} {claim : Except Err (Option Uuid)}
    (h : Costs db) (hok : Pos.checkout request db payload claim = .ok db') :
    ∀ row ∈ db'.pos.sales.rows, SoldOnce row.sale.lines := by
  obtain ⟨-, rfl⟩ | ⟨-, row, inventory, sales, rows, hsale, -, -, -, hinsert, -, -, htables⟩ :=
    checkout_eq_ok h.linked hok
  · exact h.sales
  · rw [htables]
    exact Table.forall_insert hinsert h.sales (soldOnce_checkout (fun productId product hproduct =>
      h.costed.costPrice_nonneg (Inventory.InventoryDb.anyProduct_of_product hproduct)) hsale)

theorem costs_refund {payload : RefundCreate} {claim : Except Err (Option Uuid)}
    (h : Costs db) (hok : Pos.refund request db payload claim = .ok db') :
    ∀ row ∈ db'.pos.sales.rows, SoldOnce row.sale.lines := by
  obtain ⟨-, rfl⟩ | ⟨-, row, state, sale, saleReturn, inventory, returns, sales, rows, hget, hitems,
    hloop, ⟨hlines, -⟩, -, -, hreplace, -, -, htables⟩ := refund_eq_ok h.linked hok
  · exact h.sales
  · have hsold := h.sales row (Table.get_mem hget).1
    have hperm : (payload.sorted row.sale.lines).Perm payload.lines := List.perm_insertionSort _ _
    obtain ⟨hface, -⟩ := refundItems_cost hsold
      (fun item hitem => hitems item (hperm.mem_iff.mp hitem)) rfl (.zero 12) hloop
    rw [htables]
    refine Table.forall_replace (Table.get_self hget) hreplace h.sales ?_
    show SoldOnce sale.lines
    rw [hlines]
    exact hsold.congr hface

/-- A request that moves no stock and posts nothing on the account. -/
theorem Costs.unmoved (h : Costs db) {entries : List Entry} {rows : List VatTransaction}
    (hbooks : Books db entries rows db') (hinventory : db'.inventory = db.inventory)
    (hsales : db'.pos.sales = db.pos.sales)
    (hposts : entryPostings anySource "INVENTORY" entries = []) (cost : Movement → UnitCost) :
    Costs db' ∧ Accounted cost db db' := by
  refine ⟨⟨hbooks.linked, ?_, ?_⟩, .of_transfers (.of_none ?_) hbooks hposts⟩
  · rw [hinventory]
    exact h.costed
  · rw [hsales]
    exact h.sales
  · rw [hinventory]
    exact .refl _

theorem Costs.of_same (h : Costs db) (hledger : db.ledger.SameCodes db'.ledger)
    (hregister : db'.register = db.register) (hinventory : db'.inventory = db.inventory)
    (hsales : db'.pos.sales = db.pos.sales) (cost : Movement → UnitCost) :
    Costs db' ∧ Accounted cost db db' :=
  h.unmoved (.of_sameCodes h.linked hledger hregister) hinventory hsales rfl cost

theorem Costs.changesOrders (h : Costs db) (hchange : ChangesOrders db db')
    (cost : Movement → UnitCost) : Costs db' ∧ Accounted cost db db' := by
  obtain ⟨quotations, orders, htables⟩ := hchange.tables
  exact h.of_same hchange.ledger (by rw [htables]) (by rw [htables]) (by rw [htables]) cost

theorem Costs.changesSessions (h : Costs db) (hchange : ChangesSessions db db')
    (cost : Movement → UnitCost) : Costs db' ∧ Accounted cost db db' := by
  obtain ⟨sessions, htables⟩ := hchange.tables
  exact h.of_same hchange.ledger (by rw [htables]) (by rw [htables]) (by rw [htables]) cost

theorem Costs.changesStatus (h : Costs db) (hchange : ChangesStatus db db')
    (cost : Movement → UnitCost) : Costs db' ∧ Accounted cost db db' := by
  obtain ⟨orderId, order, status, orders, -, -, rfl⟩ := hchange
  refine h.of_same ?_ ?_ ?_ ?_ cost
  · exact .refl _
  · rfl
  · rfl
  · rfl

/-- A request that only moved stock. -/
theorem Costs.moved (h : Costs db) (hadds : AddsAny db db') (hledger : db'.ledger.Linked)
    (hsales : ∀ row ∈ db'.pos.sales.rows, SoldOnce row.sale.lines) : Costs db' := by
  obtain ⟨movements, hadds⟩ := hadds
  exact ⟨hledger, hadds.costed h.costed, hsales⟩

theorem postings_invoice (invoice : Invoice) (number : String) :
    entryPostings anySource "INVENTORY" (invoice.entries number) = [] := by
  simp only [entryPostings_anySource, Invoice.entries]
  split
  · rfl
  · simp [PostingRules.creditSale]

theorem postings_bill (bill : SupplierBill) (number : String) :
    entryPostings anySource "INVENTORY" (bill.entries number) = [] := by
  simp [entryPostings_anySource, SupplierBill.entries, PostingRules.supplierBill]

theorem postings_payment (payment : Payment) (description eventType : String)
    {lines : List PostingLine} (hlines : linePostings "INVENTORY" lines = []) :
    entryPostings anySource "INVENTORY" (payment.entries description eventType lines) = [] := by
  simp [entryPostings_anySource, Payment.entries, hlines]

theorem tenderAccount_ne_inventory (cash : Bool) : PostingRules.tenderAccount cash ≠ "INVENTORY" := by
  cases cash with
  | false => decide
  | true => decide

/-- Requests of the inventory itself. -/
theorem Costs.inventory (h : Costs db) {op : Inventory.Op} {own : op.isOwn}
    {result : InventoryDb × Unit} (hok : op.body db.inventory = .ok result) :
    Costs { db with inventory := result.1 } ∧
      (Accounted (costBefore db.inventory) db { db with inventory := result.1 } ↔
        (Op.inventory op own).Clean db) := by
  have hmoved : ∀ movements, Adds db.inventory movements result.1 →
      Costs { db with inventory := result.1 } := fun movements hadds =>
    h.moved ⟨movements, hadds⟩ h.linked h.sales
  have htransfers : Inventory.AddsTransfers db.inventory result.1 →
      Costs { db with inventory := result.1 } ∧
        Accounted (costBefore db.inventory) db { db with inventory := result.1 } := by
    rintro ⟨movements, hadds, htype⟩
    exact ⟨hmoved movements hadds, .of_same h.linked ⟨movements, hadds, htype⟩ (.refl _) rfl⟩
  have hsingle : ∀ m, Adds db.inventory [m] result.1 → m.movementType.isTransfer = false →
      (Accounted (costBefore db.inventory) db { db with inventory := result.1 } ↔
        costBefore db.inventory m = 0) := fun m hadds htype => accounted_single_iff hadds rfl htype
  cases op with
  | receipt context payload key =>
      obtain ⟨movement, hok⟩ := Inventory.tables_eq_ok hok
      rcases Inventory.receipt_adds hok with
        ⟨hreplays, heq⟩ | ⟨hreplays, hadds, htype, unitCost, hpayload, hcost⟩
      · obtain ⟨hcosts, haccounted⟩ := htransfers (.of_none (heq ▸ .refl _))
        exact ⟨hcosts, by simp [Op.Clean, hreplays, haccounted]⟩
      · refine ⟨hmoved _ hadds, ?_⟩
        rw [hsingle movement hadds (by rw [htype]; rfl)]
        simp [Op.Clean, hreplays, costBefore, hcost, hpayload]
  | issue context payload key =>
      obtain ⟨movement, hok⟩ := Inventory.tables_eq_ok hok
      rcases Inventory.issue_adds hok with
        ⟨hreplays, heq⟩ | ⟨hreplays, hadds, htype, hcost, hproduct⟩
      · obtain ⟨hcosts, haccounted⟩ := htransfers (.of_none (heq ▸ .refl _))
        exact ⟨hcosts, by simp [Op.Clean, hreplays, haccounted]⟩
      · refine ⟨hmoved _ hadds, ?_⟩
        rw [hsingle movement hadds (by rw [htype]; rfl)]
        simp [Op.Clean, hreplays, costBefore, hcost, hproduct]
  | adjust context payload id key =>
      obtain ⟨movement, hok⟩ := Inventory.tables_eq_ok hok
      rcases Inventory.adjust_adds hok with
        ⟨hreplays, hadds⟩ | ⟨hreplays, hadds, htype, hcost, hproduct⟩
      · obtain ⟨hcosts, haccounted⟩ := htransfers (.of_none hadds)
        exact ⟨hcosts, by simp [Op.Clean, hreplays, haccounted]⟩
      · refine ⟨hmoved _ hadds, ?_⟩
        rw [hsingle movement hadds (by rw [htype]; rfl)]
        simp [Op.Clean, hreplays, costBefore, hcost, hproduct]
  | reserve context payload id =>
      obtain ⟨reservation, hok⟩ := Inventory.tables_eq_ok hok
      obtain ⟨hcosts, haccounted⟩ := htransfers (.of_none (Inventory.reserve_adds hok))
      exact ⟨hcosts, by simp [Op.Clean, haccounted]⟩
  | release id =>
      obtain ⟨hcosts, haccounted⟩ := htransfers (.of_none (Inventory.release_adds hok))
      exact ⟨hcosts, by simp [Op.Clean, haccounted]⟩
  | releaseExpired now locked =>
      obtain ⟨released, hok⟩ := Inventory.tables_eq_ok hok
      obtain ⟨hcosts, haccounted⟩ := htransfers (.of_none (Inventory.releaseExpired_adds hok))
      exact ⟨hcosts, by simp [Op.Clean, haccounted]⟩
  | createTransfer context payload id =>
      obtain ⟨transfer, hok⟩ := Inventory.tables_eq_ok hok
      obtain ⟨hcosts, haccounted⟩ := htransfers (.of_none (Inventory.createTransfer_adds hok))
      exact ⟨hcosts, by simp [Op.Clean, haccounted]⟩
  | shipTransfer context id key =>
      obtain ⟨transfer, hok⟩ := Inventory.tables_eq_ok hok
      obtain ⟨hcosts, haccounted⟩ := htransfers (Inventory.transitionTransfer_adds hok)
      exact ⟨hcosts, by simp [Op.Clean, haccounted]⟩
  | receiveTransfer context id key =>
      obtain ⟨transfer, hok⟩ := Inventory.tables_eq_ok hok
      obtain ⟨hcosts, haccounted⟩ := htransfers (Inventory.transitionTransfer_adds hok)
      exact ⟨hcosts, by simp [Op.Clean, haccounted]⟩
  | fulfil document => cases own
  | issueCreditNote document => cases own
  | checkout document => cases own
  | refund document => cases own
  | receiveGoods document => cases own

/-- A request is accounted for exactly when it is clean. -/
theorem Op.accounted_iff {op : Op} (h : Costs db) (hok : op.body request db = .ok db') :
    Costs db' ∧ (Accounted (op.costUsed db) db db' ↔ op.Clean db) := by
  have hclean : ∀ {cost : Movement → UnitCost}, Costs db' ∧ Accounted cost db db' →
      Costs db' ∧ (Accounted cost db db' ↔ True) := fun hkept => ⟨hkept.1, by simp [hkept.2]⟩
  cases op with
  | createQuotation payload => exact hclean (h.changesOrders (createQuotation_eq_ok hok) _)
  | setQuotationStatus id status =>
      exact hclean (h.changesOrders (setQuotationStatus_eq_ok hok) _)
  | convertQuotation id payload => exact hclean (h.changesOrders (convertQuotation_eq_ok hok) _)
  | createSalesOrder payload => exact hclean (h.changesOrders (Sales.createOrder_eq_ok hok) _)
  | confirmSalesOrder id => exact hclean (h.changesOrders (Sales.confirmOrder_eq_ok hok) _)
  | cancelSalesOrder id => exact hclean (h.changesOrders (Sales.cancelOrder_eq_ok hok) _)
  | fulfil id lines =>
      obtain ⟨_, _, _, _, _, _, -, -, -, hbooks, htables⟩ := fulfil_eq_ok h.linked hok
      obtain ⟨hadds, haccounted⟩ := accounted_fulfil h.linked h.costed hok
      exact hclean ⟨h.moved hadds hbooks.linked (by rw [htables]; exact h.sales), haccounted⟩
  | createInvoice payload =>
      obtain ⟨_, _, _, -, -, htables⟩ := createInvoice_eq_ok hok
      exact hclean (h.of_same (by rw [htables]; exact .refl _) (by rw [htables])
        (by rw [htables]) (by rw [htables]) _)
  | issueInvoice id claim =>
      obtain rfl | ⟨_, _, _, _, -, -, -, -, hbooks, htables⟩ := issueInvoice_eq_ok h.linked hok
      · exact hclean (h.of_same (.refl _) rfl rfl rfl _)
      · exact hclean (h.unmoved hbooks (by rw [htables]) (by rw [htables]) (postings_invoice _ _) _)
  | recordCustomerPayment payload claim =>
      obtain rfl | ⟨_, _, _, -, -, -, -, hbooks, htables⟩ := Sales.recordPayment_eq_ok h.linked hok
      · exact hclean (h.of_same (.refl _) rfl rfl rfl _)
      · refine hclean (h.unmoved hbooks (by rw [htables]) (by rw [htables]) ?_ _)
        exact postings_payment _ _ _
          (by simp [PostingRules.customerPayment, tenderAccount_ne_inventory])
  | issueCreditNote payload =>
      obtain ⟨_, _, _, _, _, _, -, -, -, -, -, -, hbooks, htables⟩ :=
        issueCreditNote_eq_ok h.linked hok
      obtain ⟨hadds, haccounted⟩ := accounted_creditNote h.linked h.costed hok
      exact hclean ⟨h.moved hadds hbooks.linked (by rw [htables]; exact h.sales), haccounted⟩
  | createPurchaseOrder payload =>
      obtain ⟨_, _, -, -, -, hledger, htables⟩ := Purchasing.createOrder_eq_ok hok
      exact hclean (h.of_same hledger (by rw [htables]) (by rw [htables]) (by rw [htables]) _)
  | confirmPurchaseOrder id => exact hclean (h.changesStatus (Purchasing.confirmOrder_eq_ok hok) _)
  | cancelPurchaseOrder id => exact hclean (h.changesStatus (Purchasing.cancelOrder_eq_ok hok) _)
  | receive id lines =>
      obtain ⟨_, _, _, _, _, _, -, -, -, -, -, hbooks, htables⟩ := receive_eq_ok h.linked hok
      obtain ⟨hadds, haccounted⟩ := accounted_receive h.linked hok
      exact hclean ⟨h.moved hadds hbooks.linked (by rw [htables]; exact h.sales), haccounted⟩
  | createBill payload =>
      obtain ⟨_, _, _, _, _, -, -, -, -, -, -, -, -, htables⟩ := createBill_eq_ok hok
      exact hclean (h.of_same (by rw [htables]; exact .refl _) (by rw [htables])
        (by rw [htables]) (by rw [htables]) _)
  | issueBill id =>
      obtain ⟨_, _, _, _, -, -, -, -, hbooks, htables⟩ := issueBill_eq_ok h.linked hok
      exact hclean (h.unmoved hbooks (by rw [htables]) (by rw [htables]) (postings_bill _ _) _)
  | recordSupplierPayment payload claim =>
      obtain rfl | ⟨_, _, _, -, -, -, -, hbooks, htables⟩ :=
        Purchasing.recordPayment_eq_ok h.linked hok
      · exact hclean (h.of_same (.refl _) rfl rfl rfl _)
      · refine hclean (h.unmoved hbooks (by rw [htables]) (by rw [htables]) ?_ _)
        exact postings_payment _ _ _
          (by simp [PostingRules.supplierPayment, tenderAccount_ne_inventory])
  | openSession payload => exact hclean (h.changesSessions (openSession_eq_ok hok) _)
  | closeSession id countedCash => exact hclean (h.changesSessions (closeSession_eq_ok hok) _)
  | checkout payload claim =>
      obtain ⟨hadds, hiff⟩ := accounted_checkout_iff h.linked h.costed hok
      have hbody : (Op.checkout payload claim).body request db = .ok db' := hok
      obtain ⟨_, _, hbooks, -⟩ := Op.books h.linked hbody
      exact ⟨h.moved hadds hbooks.linked (costs_checkout h hok), hiff⟩
  | refund payload claim =>
      obtain ⟨hadds, hiff⟩ := accounted_refund_iff h.linked h.sales hok
      have hbody : (Op.refund payload claim).body request db = .ok db' := hok
      obtain ⟨_, _, hbooks, -⟩ := Op.books h.linked hbody
      exact ⟨h.moved hadds hbooks.linked (costs_refund h hok), hiff⟩
  | inventory op own =>
      obtain ⟨result, hresult, rfl⟩ := map_eq_ok.mp hok
      exact h.inventory hresult
  | ledger op own =>
      obtain ⟨ledger, hrequest, rfl⟩ := map_eq_ok.mp hok
      refine hclean (h.of_same ?_ ?_ ?_ ?_ _)
      · exact LedgerOp.sameCodes own hrequest
      · rfl
      · rfl
      · rfl
  | configure configuration =>
      cases hok
      refine hclean ⟨⟨h.linked, configuration.cost_price_nonnegative, h.sales⟩, ?_⟩
      refine ⟨[], ?_, ?_⟩
      · simp [TenantDb.configure]
      · simp [TenantDb.configure, stockAmounts]

theorem Costs.start (configuration : Configuration) : Costs (.start configuration) :=
  ⟨LedgerDb.linked_empty, configuration.cost_price_nonnegative, nofun⟩

theorem TenantDb.run_costs (configuration : Configuration) (calls : List Call) :
    Costs ((TenantDb.start configuration).run calls) :=
  TenantDb.run_invariant (fun _ _ _ hdb hok => (Op.accounted_iff hdb hok).1) calls
    (.start configuration)

/-- In every run of requests of a new tenant, all committed requests post what they move on
the inventory account, and nothing else, exactly when all of them are clean. -/
theorem stock_and_books_iff (configuration : Configuration) (calls : List Call) :
    (∀ before call after db', calls = before ++ call :: after →
      call.op.body call.request ((TenantDb.start configuration).run before) = .ok db' →
      Accounted (call.op.costUsed ((TenantDb.start configuration).run before))
        ((TenantDb.start configuration).run before) db') ↔
    (∀ before call after db', calls = before ++ call :: after →
      call.op.body call.request ((TenantDb.start configuration).run before) = .ok db' →
      call.op.Clean ((TenantDb.start configuration).run before)) := by
  constructor
  · intro haccounted before call after db' hcalls hok
    exact (Op.accounted_iff (TenantDb.run_costs configuration before) hok).2.mp
      (haccounted before call after db' hcalls hok)
  · intro hclean before call after db' hcalls hok
    exact (Op.accounted_iff (TenantDb.run_costs configuration before) hok).2.mpr
      (hclean before call after db' hcalls hok)

/-- Ten pieces of product `7` are received at `2`. -/
def cornerReceipt : Call where
  request := cornerRequest 1
  op := .inventory
    (.receipt Accounting.calendarYear.context
      { warehouseId := 1
        productId := 7
        quantity := 10
        unitCost := some 2
        referenceType := none
        referenceId := none
        notes := none
        quantity_pos := Sample.ten_pos } none) rfl

/-- The receipt moves ten pieces of non-zero cost and posts nothing. -/
theorem receipt_posts_nothing :
    ¬∀ (configuration : Configuration) (calls : List Call) before call after db',
      calls = before ++ call :: after →
      call.op.body call.request ((TenantDb.start configuration).run before) = .ok db' →
      Accounted (call.op.costUsed ((TenantDb.start configuration).run before))
        ((TenantDb.start configuration).run before) db' := by
  intro haccounted
  have hisOk : (cornerReceipt.op.body cornerReceipt.request (.start corner)).isOk := by
    decide +kernel
  cases hok : cornerReceipt.op.body cornerReceipt.request (.start corner) with
  | error e =>
      rw [hok] at hisOk
      cases hisOk
  | ok db' =>
      have hclean := (Op.accounted_iff (Costs.start corner) hok).2.mp
        (haccounted corner [cornerReceipt] [] cornerReceipt [] db' rfl hok)
      rcases hclean with hreplay | hzero
      · exact absurd hreplay (by decide)
      · exact absurd (hzero 2 rfl) (by decide +kernel)

end Nexora.Tenant
