import Nexora.Accounting.ProfitAndLoss
import Nexora.Reports.Dashboard
import Nexora.Tenant.Drafts
import Nexora.Tenant.TrackedCosts

/-!
# Gross profit

The gross profit of the dashboard is what the sales of the till come to, less what they cost.  A sale
comes to its total, with the tax on it, and what is refunded of it stays in both figures.  The result of
the ledger has the net amounts, and a refund takes its net amount and its cost off again.

So where only the till posts, the two figures are apart by the tax of the sales and the margin of the
refunds (`gross_profit_iff`).
-/

namespace Nexora.Accounting

open Nexora Foundations

variable {P : Date → Prop} {db db' : LedgerDb}

/-- A request of the ledger that posts nothing. -/
theorem LedgerDb.Systematic.own {op : LedgerOp} (h : db.Systematic P) (hop : op.postsNothing)
    (hok : db.request op = .ok db') : db'.Systematic P := by
  cases op with
  | read env => exact h.bootstrap hok
  | createAccount env id payload => exact h.sameCodes (.createAccount hok) (h.typed.createAccount hok)
  | createPeriod env id name startDate endDate =>
      refine h.sameCodes (.createPeriod hok) ?_
      obtain ⟨-, hok⟩ := ite_error_eq_ok.mp hok
      obtain ⟨db₁, hboot, hok⟩ := bind_eq_ok.mp (Extends.of_orConflict hok)
      unfold Typed
      rw [addPeriod_accounts hok]
      exact h.typed.bootstrap hboot
  | changePeriodStatus periodId status =>
      refine h.sameCodes (.changePeriodStatus hok) ?_
      simp only [LedgerDb.request, LedgerDb.changePeriodStatus] at hok
      split at hok
      next => cases hok
      next =>
        obtain ⟨-, hok⟩ := ite_error_eq_ok.mp hok
        obtain ⟨periods, -, hok⟩ := bind_eq_ok.mp hok
        cases hok
        exact h.typed
  | operational env requests own' => cases hop
  | postManual env payload => cases hop
  | reverse env request => cases hop

end Nexora.Accounting

namespace Nexora.Tenant

open Nexora Nexora.Catalog Nexora.Sales Nexora.Pos Foundations
open Nexora.Accounting (Date LedgerDb Money between incomeCodes money total)
open Nexora.Inventory (InventoryDb decimal)

variable {request : Request} {db db' : TenantDb}

/-! ## Runs of the till -/

/-- The requests of the till, and those that neither post nor write a document. -/
def Op.staysAtTill : Op → Bool
  | .openSession .. | .closeSession .. | .checkout .. | .refund .. | .inventory .. | .ledger ..
  | .configure .. => true
  | _ => false

/-- The requests of a run that go through, each with the tables before it. -/
def TenantDb.committed : TenantDb → List Call → List (TenantDb × Op)
  | _, [] => []
  | db, call :: calls =>
      (if db.commits call then [(db, call.op)] else []) ++ (db.step call).committed calls

/-- The days on which the till has sold something or taken it back. -/
def TenantDb.tillDates (db : TenantDb) : List Date :=
  db.pos.sales.rows.map (·.occurredOn) ++ db.pos.returns.rows.map (·.occurredOn)

/-! ## What takes the figures apart -/

/-- The tax on a line of a cart. -/
def cartLineTax (inventory : InventoryDb) (line : CartLine) : Money :=
  match inventory.product line.productId with
  | some product =>
      match lineTotals line.quantity product.sellingPrice line.discountRate product.taxRate with
      | .ok (_, tax, _) => tax
      | .error _ => 0
  | none => 0

/-- The tax on a cart. -/
def cartTax (inventory : InventoryDb) (lines : List CartLine) : Money :=
  (lines.map (cartLineTax inventory)).sum

/-- The net amount that an item takes back of the lines of a sale. -/
def itemNet (lines : List SaleLine) (item : RequestedLine) : Money :=
  match lines.find? (·.id = item.lineId) with
  | some line => line.prorated line.netAmount item.quantity
  | none => 0

/-- The net amount of a refund. -/
def refundNet (db : TenantDb) (payload : RefundCreate) : Money :=
  match db.pos.sales.get payload.saleId with
  | some row => (payload.lines.map (itemNet row.sale.lines)).sum
  | none => 0

/-- The tax of a sale, and the margin of a refund. -/
def Op.apart (db : TenantDb) (op : Op) : ℚ :=
  if op.isReplayed db then 0 else
    match op with
    | .checkout payload _ => money (cartTax db.inventory payload.lines)
    | .refund payload _ => money (refundNet db payload) - refundCost db (fun _ => true) payload
    | _ => 0

/-- The cost that the till posts for a cart. -/
def postedCart (db : TenantDb) (payload : CheckoutCreate) : Money :=
  postedCost (roundHalfEven (cartCost db.inventory (fun _ => true) payload.lines * 10 ^ 6) / 10 ^ 6)

/-- What the rounding of a posted cost adds to the cost. -/
def Op.costRounding (db : TenantDb) (op : Op) : ℚ :=
  if op.isReplayed db then 0 else
    match op with
    | .checkout payload _ =>
        money (postedCart db payload) - cartCost db.inventory (fun _ => true) payload.lines
    | .refund payload _ => refundCost db (fun _ => true) payload -
        money (postedCost (refundCost db (fun _ => true) payload))
    | _ => 0

theorem abs_money_roundHalfUp_sub_le (x : ℚ) : |money (roundHalfUp (x * 10 ^ 4)) - x| ≤ 1 / 2 / 10 ^ 4 := by
  have hround := abs_roundHalfUp_sub_le (x * 10 ^ 4)
  rw [money, div_sub' (by norm_num), abs_div, abs_of_pos (by norm_num : (0 : ℚ) < 10 ^ 4),
    mul_comm (10 ^ 4 : ℚ) x]
  exact div_le_div_of_nonneg_right hround (by norm_num)

/-- Half of the fourth decimal, and for a sale half of the sixth on the way. -/
theorem Op.abs_costRounding_le (db : TenantDb) (op : Op) :
    |op.costRounding db| ≤ 1 / 2 / 10 ^ 4 + 1 / 2 / 10 ^ 6 := by
  unfold costRounding
  split
  next => norm_num
  next =>
    cases op with
    | checkout payload claim =>
        have hposted := abs_money_roundHalfUp_sub_le
          (roundHalfEven (cartCost db.inventory (fun _ => true) payload.lines * 10 ^ 6) / 10 ^ 6)
        have hstored :=
          abs_roundHalfEven_sub_le (cartCost db.inventory (fun _ => true) payload.lines * 10 ^ 6)
        rw [abs_le] at *
        unfold postedCart postedCost
        constructor
        · linarith
        · linarith
    | refund payload claim =>
        have hposted := abs_money_roundHalfUp_sub_le (refundCost db (fun _ => true) payload)
        rw [abs_sub_comm]
        unfold postedCost
        linarith
    | _ => norm_num

/-! ## The books of the till -/

/-- Only the till has posted, on the days of its documents. -/
def TenantDb.OnlyTill (db : TenantDb) : Prop := db.ledger.Systematic (· ∈ db.tillDates)

theorem OnlyTill.book {P : Date → Prop} {entries : List Entry} {rows : List Vat.VatTransaction}
    (h : db.ledger.Systematic P) (hentries : ∀ e ∈ entries, P e.entryDate)
    (hok : db.book request entries rows = .ok db') : db'.ledger.Systematic P := by
  obtain ⟨ledger, hrequest, hok⟩ := bind_eq_ok.mp hok
  obtain ⟨register, -, hok⟩ := bind_eq_ok.mp hok
  cases hok
  refine h.operational (fun r hr => ?_) hrequest
  obtain ⟨⟨e, index⟩, hrow, rfl⟩ := List.mem_map.mp hr
  exact ⟨rfl, hentries e (List.fst_mem_of_mem_zipIdx hrow)⟩

theorem OnlyTill.allocate {P : Date → Prop} (h : db.ledger.Systematic P)
    (series : Numbering.Series) : (db.allocate request series).2.ledger.Systematic P :=
  ⟨h.typed, h.coded, h.dated⟩

theorem sale_dated {row : SaleRow} : ∀ e ∈ row.entries, e.entryDate = row.occurredOn := by
  simp only [SaleRow.entries]
  split
  · simp
  · simp

theorem saleReturn_dated {row : SaleReturn} {booking : Booking} :
    ∀ e ∈ row.entries booking, e.entryDate = row.occurredOn := by
  intro e he
  rcases List.mem_append.mp he with he | he
  · split at he
    · rw [List.mem_singleton.mp he]
    · cases he
  · obtain ⟨_, -, rfl⟩ := List.mem_map.mp he
    rfl

/-- A sale is in the table before its entries are posted. -/
theorem checkoutDraft_eq_ok {payload : CheckoutCreate} {claim : Except Err (Option Uuid)}
    {draft : Draft} (h : checkoutDraft request db payload claim = .ok draft) :
    draft = .replayed db ∨ ∃ row sales, draft.entries = SaleRow.entries row ∧
      db.pos.sales.insert row = some sales ∧
      draft.tables.ledger = (db.allocate request .posSale).2.ledger ∧
      draft.tables.pos = { db.pos with sales := sales } := by
  obtain ⟨stored, -, h⟩ := bind_eq_ok.mp h
  split at h
  next =>
    obtain ⟨_, -, h⟩ := bind_eq_ok.mp h
    cases h
    exact .inl rfl
  next =>
    obtain ⟨⟨session, terminal⟩, -, h⟩ := bind_eq_ok.mp h
    obtain ⟨_, -, h⟩ := bind_eq_ok.mp h
    obtain ⟨sale, -, h⟩ := bind_eq_ok.mp h
    obtain ⟨_, -, h⟩ := bind_eq_ok.mp h
    obtain ⟨inventory, -, h⟩ := bind_eq_ok.mp h
    obtain ⟨sales, hinsert, h⟩ := bind_eq_ok.mp h
    obtain ⟨rows, -, h⟩ := bind_eq_ok.mp h
    cases h
    exact .inr ⟨_, sales, rfl, orRaise_eq_ok.mp hinsert, rfl, rfl⟩

/-- A return is in the table before its entries are posted. -/
theorem refundDraft_eq_ok {payload : RefundCreate} {claim : Except Err (Option Uuid)}
    {draft : Draft} (h : refundDraft request db payload claim = .ok draft) :
    draft = .replayed db ∨ ∃ saleReturn booking returns row sale sales,
      draft.entries = SaleReturn.entries saleReturn booking ∧
      db.pos.returns.insert saleReturn = some returns ∧
      db.pos.sales.get payload.saleId = some row ∧
      db.pos.sales.replace row.id { row with sale := sale } = some sales ∧
      draft.tables.ledger = (db.allocate request .posReturn).2.ledger ∧
      draft.tables.pos = { db.pos with sales := sales, returns := returns } := by
  obtain ⟨stored, -, h⟩ := bind_eq_ok.mp h
  split at h
  next =>
    cases h
    exact .inl rfl
  next =>
    obtain ⟨⟨session, terminal⟩, -, h⟩ := bind_eq_ok.mp h
    obtain ⟨row, hrow, h⟩ := bind_eq_ok.mp h
    obtain ⟨_, -, h⟩ := bind_eq_ok.mp h
    obtain ⟨_, -, h⟩ := bind_eq_ok.mp h
    obtain ⟨_, -, h⟩ := bind_eq_ok.mp h
    obtain ⟨_, -, h⟩ := bind_eq_ok.mp h
    obtain ⟨state, -, h⟩ := bind_eq_ok.mp h
    obtain ⟨sale, -, h⟩ := bind_eq_ok.mp h
    obtain ⟨_, -, h⟩ := bind_eq_ok.mp h
    obtain ⟨inventory, -, h⟩ := bind_eq_ok.mp h
    obtain ⟨returns, hinsert, h⟩ := bind_eq_ok.mp h
    obtain ⟨sales, hreplace, h⟩ := bind_eq_ok.mp h
    obtain ⟨rows, -, h⟩ := bind_eq_ok.mp h
    cases h
    exact .inr ⟨_, state.booking, returns, row, sale, sales, rfl, orRaise_eq_ok.mp hinsert,
      orRaise_eq_ok.mp hrow, orRaise_eq_ok.mp hreplace, rfl, rfl⟩

/-- A draft of the till, with its document in the tables. -/
theorem OnlyTill.draft {draft : Draft} {series : Numbering.Series} (h : db.OnlyTill)
    (hledger : draft.tables.ledger = (db.allocate request series).2.ledger)
    (hdates : ∀ d ∈ db.tillDates, d ∈ draft.tables.tillDates)
    (hentries : ∀ e ∈ draft.entries, e.entryDate ∈ draft.tables.tillDates)
    (hok : draft.book request = .ok db') : db'.OnlyTill := by
  have hsame : db'.tillDates = draft.tables.tillDates := by
    obtain ⟨_, _, rfl⟩ := TenantDb.book_frame hok
    rfl
  unfold TenantDb.OnlyTill
  rw [hsame]
  refine OnlyTill.book ?_ hentries hok
  rw [hledger]
  exact OnlyTill.allocate (h.mono hdates) series

theorem OnlyTill.checkout {payload : CheckoutCreate} {claim : Except Err (Option Uuid)}
    (h : db.OnlyTill) (hok : Pos.checkout request db payload claim = .ok db') : db'.OnlyTill := by
  rw [checkout_eq] at hok
  obtain ⟨draft, hdraft, hok⟩ := bind_eq_ok.mp hok
  obtain rfl | ⟨row, sales, hentries, hinsert, hledger, hpos⟩ := checkoutDraft_eq_ok hdraft
  · cases hok
    exact h
  have hrows := (Table.insert_eq_some hinsert).1
  refine OnlyTill.draft h hledger ?_ ?_ hok
  · intro d hd
    simp only [TenantDb.tillDates, hpos, hrows, List.mem_append, List.map_append] at hd ⊢
    tauto
  · intro e he
    rw [hentries] at he
    simp [TenantDb.tillDates, hpos, hrows, sale_dated e he]

theorem OnlyTill.refund {payload : RefundCreate} {claim : Except Err (Option Uuid)}
    (h : db.OnlyTill) (hok : Pos.refund request db payload claim = .ok db') : db'.OnlyTill := by
  rw [refund_eq] at hok
  obtain ⟨draft, hdraft, hok⟩ := bind_eq_ok.mp hok
  obtain rfl | ⟨saleReturn, booking, returns, row, sale, sales, hentries, hinsert, hget, hreplace,
    hledger, hpos⟩ := refundDraft_eq_ok hdraft
  · cases hok
    exact h
  have hrows := (Table.insert_eq_some hinsert).1
  have hsales : sales.rows.map (·.occurredOn) = db.pos.sales.rows.map (·.occurredOn) := by
    obtain ⟨before, after, hbefore, hafter⟩ :=
      Table.replace_eq_some (Table.get_self hget) hreplace
    rw [hbefore, hafter]
    simp
  refine OnlyTill.draft h hledger ?_ ?_ hok
  · intro d hd
    simp only [TenantDb.tillDates, hpos, hrows, hsales, List.mem_append, List.map_append] at hd ⊢
    tauto
  · intro e he
    rw [hentries] at he
    simp [TenantDb.tillDates, hpos, hrows, saleReturn_dated e he]

theorem OnlyTill.body {op : Op} (h : db.OnlyTill) (hop : op.staysAtTill = true)
    (hok : op.body request db = .ok db') : db'.OnlyTill := by
  cases op with
  | openSession payload =>
      obtain ⟨terminal, -, hok⟩ := bind_eq_ok.mp hok
      obtain ⟨_, -, hok⟩ := bind_eq_ok.mp hok
      obtain ⟨_, -, hok⟩ := bind_eq_ok.mp hok
      obtain ⟨sessions, -, hok⟩ := bind_eq_ok.mp hok
      cases hok
      exact OnlyTill.allocate h .posSession
  | closeSession id countedCash =>
      obtain ⟨⟨session, _⟩, -, hok⟩ := bind_eq_ok.mp hok
      obtain ⟨_, -, hok⟩ := bind_eq_ok.mp hok
      obtain ⟨_, -, hok⟩ := bind_eq_ok.mp hok
      obtain ⟨_, -, hok⟩ := bind_eq_ok.mp hok
      obtain ⟨sessions, -, hok⟩ := bind_eq_ok.mp hok
      cases hok
      exact h
  | checkout payload claim => exact OnlyTill.checkout h hok
  | refund payload claim => exact OnlyTill.refund h hok
  | inventory op own =>
      obtain ⟨result, -, rfl⟩ := map_eq_ok.mp hok
      exact h
  | ledger op own =>
      obtain ⟨ledger, hrequest, rfl⟩ := map_eq_ok.mp hok
      exact h.own own hrequest
  | configure configuration =>
      cases hok
      exact h
  | _ => cases hop

/-! ## The two figures -/

/-- What a sale comes to, less what its lines cost. -/
def saleMargin (sale : Sale) : ℚ := money sale.totalAmount - (sale.lines.map SaleLine.cost).sum

/-- The gross profit of all sales. -/
def TenantDb.margin (db : TenantDb) : ℚ :=
  (db.pos.sales.rows.map fun row => saleMargin row.sale).sum

/-- The result of the ledger, over its accounts. -/
def TenantDb.result (db : TenantDb) : Money := -(incomeCodes.map db.ledger.net).sum

/-- How far the two figures are apart. -/
def TenantDb.gap (db : TenantDb) : ℚ := db.margin - money db.result

theorem money_add (m n : Money) : money (m + n) = money m + money n := by
  simp only [money, Int.cast_add, add_div]

theorem money_sub (m n : Money) : money (m - n) = money m - money n := by
  simp only [money, Int.cast_sub, sub_div]

theorem sum_cost (lines : List SaleLine) : (lines.map SaleLine.cost).sum = linesCost lines := by
  unfold linesCost
  congr 1
  refine List.map_congr_left fun line _ => ?_
  unfold SaleLine.cost decimal
  push_cast
  ring

theorem TillEffect.result {net tax cost : Money} (h : TillEffect db db' net tax cost)
    (hdiscounts : netChange "SALES_DISCOUNTS" db db' = 0)
    (hrounding : netChange "ROUNDING" db db' = 0) : db'.result = db.result + net - cost := by
  have hincome := h.income
  have hcogs := h.cogs
  unfold netChange at *
  simp only [TenantDb.result, incomeCodes, List.map_cons, List.map_nil, List.sum_cons, List.sum_nil]
  linarith

theorem cartTax_eq {till : Till} {items : List CartLine} {lines : List SaleLine}
    {inventory : InventoryDb} (htill : till.product = inventory.product)
    (h : List.Forall₂ (fun item line => till.sellLine item = .ok line) items lines) :
    cartTax inventory items = (lines.map SaleLine.taxAmount).sum := by
  induction h with
  | nil => rfl
  | @cons item line items lines hline _ ih =>
      have htax : cartLineTax inventory item = line.taxAmount := by
        obtain ⟨product, hproduct, hline⟩ := bind_eq_ok.mp hline
        obtain ⟨⟨net, tax, total⟩, htotals, hline⟩ := bind_eq_ok.mp hline
        obtain ⟨_, -, hline⟩ := bind_eq_ok.mp hline
        obtain ⟨_, -, hline⟩ := bind_eq_ok.mp hline
        cases hline
        rw [htill] at hproduct
        simp [cartLineTax, orRaise_eq_ok.mp hproduct, htotals]
      simp only [cartTax, List.map_cons, List.sum_cons] at ih ⊢
      rw [htax, ih]

/-- A sale comes to its net amount and its tax. -/
theorem Till.checkout_total {till : Till} {items : List CartLine} {payments : List TenderInput}
    {sale : Sale} (h : till.checkout items payments = .ok sale) :
    sale.totalAmount = sale.netAmount + sale.taxAmount := by
  obtain ⟨hlines, hnet, htax, -⟩ := Till.checkout_figures h
  rw [(Till.checkout_completed h).total, hnet, htax, ← List.sum_map_add]
  refine congrArg List.sum (List.map_congr_left ?_)
  exact mapM_forall (fun _ _ hline => (Till.sellLine_eq_ok hline).2) hlines

theorem cartTax_sorted (inventory : InventoryDb) (lines : List CartLine) :
    cartTax inventory (lines.insertionSort fun a b => a.productId ≤ b.productId) =
      cartTax inventory lines :=
  ((List.perm_insertionSort _ lines).map _).sum_eq

/-- A sale takes the figures apart by its tax. -/
theorem gap_checkout {payload : CheckoutCreate} {claim : Except Err (Option Uuid)}
    (hcosts : Costs db) (hok : Pos.checkout request db payload claim = .ok db') :
    db'.gap = db.gap + (Op.checkout payload claim).costRounding db +
      (Op.checkout payload claim).apart db := by
  obtain ⟨hreplayed, rfl⟩ | ⟨hnew, row, _, sales, _, hsale, hfits, -, -, hinsert, -, hbooks, htables⟩ :=
    checkout_eq_ok hcosts.linked hok
  · simp [Op.costRounding, Op.apart, Op.isReplayed, hreplayed]
  obtain ⟨hlines, -, htax, -⟩ := Till.checkout_figures hsale
  have hsold := mapM_forall₂ hlines
  have heffect := checkout_effect hcosts hsale hfits hbooks
  have hresult : db'.result = db.result + row.sale.netAmount - postedCart db payload := by
    refine heffect.result ?_ ?_
    · rw [hbooks.netChange_eq, entryNet_sale _ (by decide) (by decide) (by decide) (by decide)]
      rfl
    · rw [hbooks.netChange_eq, entryNet_sale _ (by decide) (by decide) (by decide) (by decide)]
      rfl
  have hmargin : db'.margin = db.margin + saleMargin row.sale := by
    rw [TenantDb.margin, htables]
    exact Table.sum_insert hinsert _
  have hsale' : saleMargin row.sale = money row.sale.netAmount + money row.sale.taxAmount -
      cartCost db.inventory (fun _ => true) payload.lines := by
    rw [saleMargin, Till.checkout_total hsale, money_add, sum_cost, linesCost_eq rfl hsold,
      cartCost_sorted]
  have hcart : cartTax db.inventory payload.lines = row.sale.taxAmount := by
    rw [htax, ← cartTax_eq rfl hsold, cartTax_sorted]
  simp only [TenantDb.gap, hmargin, hresult, hsale', Op.costRounding, Op.apart, Op.isReplayed, hnew,
    hcart, money_add, money_sub, Bool.false_eq_true, if_false]
  ring

/-- The net amounts that a refund takes back. -/
theorem refundNet_eq {payload : RefundCreate} {row : SaleRow} {state : RefundState}
    (hfair : FairSale row.sale.lines) (hget : db.pos.sales.get payload.saleId = some row)
    (hloop : ((payload.sorted row.sale.lines).map refundLineOf).foldlM
      (refundItem db.inventory.product nothingElsewhere) ⟨row.sale.lines, 0, ⟨0, 0, 0, []⟩⟩ = .ok state) :
    refundNet db payload = state.booking.net := by
  obtain ⟨totals, htotals, hrates⟩ := refundItems_shares rfl hloop
  have hperm : (payload.sorted row.sale.lines).Perm payload.lines := List.perm_insertionSort _ _
  have hnets : ((payload.sorted row.sale.lines).map (itemNet row.sale.lines)) =
      totals.map (·.2.1) := by
    clear hloop hperm hrates
    generalize payload.sorted row.sale.lines = items at htotals
    induction htotals with
    | nil => rfl
    | cons htotal _ ih =>
        obtain ⟨line, hline, hid, rfl⟩ := htotal
        rw [List.map_cons, List.map_cons, ih]
        simp [itemNet, hid, find_line hfair.nodup hline]
  have hnet := (refundItems_stored hfair.stored hloop).net
  rw [hnet, show state.booking.rateLines = totals from hrates, ← hnets, (hperm.map _).sum_eq]
  simp [refundNet, hget]

/-- A refund takes the figures apart by its margin. -/
theorem gap_refund {payload : RefundCreate} {claim : Except Err (Option Uuid)} (hcosts : Costs db)
    (hfair : FairSales db) (hok : Pos.refund request db payload claim = .ok db') :
    db'.gap = db.gap + (Op.refund payload claim).costRounding db +
      (Op.refund payload claim).apart db := by
  obtain ⟨hreplayed, rfl⟩ | ⟨hnew, row, state, sale, saleReturn, _, _, sales, _, hget, hitems, hloop,
    ⟨hlines, hfigures⟩, -, -, hreplace, -, hbooks, htables⟩ := refund_eq_ok hcosts.linked hok
  · simp [Op.costRounding, Op.apart, Op.isReplayed, hreplayed]
  have hrow := hfair.fair row (Table.get_mem hget).1
  have hstate := refundItems_stored hrow.stored hloop
  have heffect := refund_effect hbooks hstate
  rw [refund_booked hcosts hget hitems hloop hbooks, ← refundNet_eq hrow hget hloop] at heffect
  have hresult : db'.result = db.result - refundNet db payload +
      postedCost (refundCost db (fun _ => true) payload) := by
    rw [heffect.result ?_ ?_]
    · ring
    · rw [hbooks.netChange_eq,
        entryNet_refund _ hstate (by decide) (by decide) (by decide) (by decide)]
      rfl
    · rw [hbooks.netChange_eq,
        entryNet_refund _ hstate (by decide) (by decide) (by decide) (by decide)]
      rfl
  have hmargin : db'.margin = db.margin := by
    have hcost : (sale.lines.map SaleLine.cost).sum = (row.sale.lines.map SaleLine.cost).sum := by
      have hsold := congrArg (List.map SaleLine.cost) (refundItems_sold hloop)
      rw [List.map_map, List.map_map] at hsold
      rw [hlines]
      exact congrArg List.sum hsold
    have hsame : saleMargin sale = saleMargin row.sale := by
      rw [saleMargin, saleMargin, hfigures.totalAmount, hcost]
    rw [TenantDb.margin, htables]
    refine (Table.sum_replace (Table.get_self hget) hreplace fun row => saleMargin row.sale).trans ?_
    rw [hsame, sub_add_cancel]
    rfl
  simp only [TenantDb.gap, hmargin, hresult, Op.costRounding, Op.apart, Op.isReplayed, hnew,
    money_add, money_sub, Bool.false_eq_true, if_false]
  ring

/-! ## Runs -/

/-- A tenant whose books are those of the till. -/
structure TillBooks (db : TenantDb) : Prop where
  costs : Costs db
  fair : FairSales db
  only : db.OnlyTill

theorem TillBooks.start (configuration : Configuration) : TillBooks (.start configuration) :=
  ⟨TenantDb.run_costs configuration [], TenantDb.run_fair configuration [],
    Accounting.LedgerDb.Systematic.empty⟩

theorem gap_of_sameCodes (hdb : db.ledger.Linked) (hledger : db.ledger.SameCodes db'.ledger)
    (hsales : db'.pos.sales = db.pos.sales) : db'.gap = db.gap := by
  have hnet : db'.ledger.net = db.ledger.net := by
    funext code
    rw [LedgerDb.net, hledger.postings hdb, LedgerDb.net]
  simp only [TenantDb.gap, TenantDb.margin, TenantDb.result, hnet, hsales]

/-- What every request does to the gap between the two figures. -/
theorem TillBooks.body {op : Op} (h : TillBooks db) (hop : op.staysAtTill = true)
    (hok : op.body request db = .ok db') :
    TillBooks db' ∧ db'.gap = db.gap + op.costRounding db + op.apart db := by
  have hcosts := (Op.accounted_iff h.costs hok).1
  refine ⟨⟨hcosts, ⟨hcosts.linked, Op.keeps_fair h.fair hok⟩, OnlyTill.body h.only hop hok⟩, ?_⟩
  have hsame : db'.gap = db.gap → op.costRounding db = 0 → op.apart db = 0 →
      db'.gap = db.gap + op.costRounding db + op.apart db := by
    intro hgap hrounding hapart
    rw [hgap, hrounding, hapart, add_zero, add_zero]
  cases op with
  | openSession payload =>
      have hchange := openSession_eq_ok hok
      obtain ⟨_, htables⟩ := hchange.tables
      exact hsame (gap_of_sameCodes h.costs.linked hchange.ledger (by rw [htables])) rfl rfl
  | closeSession id countedCash =>
      have hchange := closeSession_eq_ok hok
      obtain ⟨_, htables⟩ := hchange.tables
      exact hsame (gap_of_sameCodes h.costs.linked hchange.ledger (by rw [htables])) rfl rfl
  | checkout payload claim => exact gap_checkout h.costs hok
  | refund payload claim => exact gap_refund h.costs h.fair hok
  | inventory op own =>
      obtain ⟨result, -, rfl⟩ := map_eq_ok.mp hok
      exact hsame rfl rfl rfl
  | ledger op own =>
      obtain ⟨ledger, hrequest, rfl⟩ := map_eq_ok.mp hok
      exact hsame (gap_of_sameCodes h.costs.linked (LedgerOp.sameCodes own hrequest) rfl) rfl rfl
  | configure configuration =>
      cases hok
      exact hsame rfl rfl rfl
  | _ => cases hop

/-- What a request makes of a figure, over the requests of a run that go through. -/
def TenantDb.sumOf (figure : TenantDb → Op → ℚ) (db : TenantDb) (calls : List Call) : ℚ :=
  ((db.committed calls).map fun row => figure row.1 row.2).sum

theorem TenantDb.sumOf_cons (figure : TenantDb → Op → ℚ) (db : TenantDb) (call : Call)
    (calls : List Call) : db.sumOf figure (call :: calls) =
      (if db.commits call then figure db call.op else 0) + (db.step call).sumOf figure calls := by
  simp only [sumOf, committed, List.map_append, List.sum_append]
  split
  · simp
  · simp

theorem TenantDb.sumOf_eq_zero {figure : TenantDb → Op → ℚ} {calls : List Call}
    (h : db.AllOver (fun db op => figure db op = 0) calls) : db.sumOf figure calls = 0 := by
  induction calls generalizing db with
  | nil => rfl
  | cons call calls ih =>
      obtain ⟨hcall, hcalls⟩ := h
      rw [sumOf_cons, ih hcalls, add_zero]
      split
      next hcommits => exact hcall hcommits
      next => rfl

theorem TillBooks.run {calls : List Call} (h : TillBooks db)
    (hcalls : db.AllOver (fun _ op => op.staysAtTill = true) calls) :
    TillBooks (db.run calls) ∧ (db.run calls).gap =
      db.gap + db.sumOf (fun db op => op.costRounding db) calls +
        db.sumOf (fun db op => op.apart db) calls := by
  induction calls generalizing db with
  | nil => exact ⟨h, by simp [TenantDb.sumOf, TenantDb.committed, TenantDb.run]⟩
  | cons call calls ih =>
      obtain ⟨hcall, hcalls⟩ := hcalls
      rw [TenantDb.sumOf_cons, TenantDb.sumOf_cons]
      rcases db.step_cases call with ⟨hcommits, hstep⟩ | ⟨db', hok, hcommits, hstep⟩
      · rw [hstep] at hcalls
        obtain ⟨hrun, hgap⟩ := ih h hcalls
        rw [show db.run (call :: calls) = db.run calls from congrArg (TenantDb.run · calls) hstep]
        refine ⟨hrun, ?_⟩
        simp [hcommits, hgap, hstep]
      · rw [hstep] at hcalls
        obtain ⟨hdb', hgap'⟩ := h.body (hcall hcommits) hok
        obtain ⟨hrun, hgap⟩ := ih hdb' hcalls
        rw [show db.run (call :: calls) = db'.run calls from congrArg (TenantDb.run · calls) hstep]
        refine ⟨hrun, ?_⟩
        rw [hgap, hgap', hstep, if_pos hcommits, if_pos hcommits]
        ring

/-! ## The dashboard -/

theorem sum_places (places : ℕ) (ns : List ℤ) :
    (ns.map fun n : ℤ => (n : ℚ) / 10 ^ places).sum = (ns.sum : ℤ) / 10 ^ places := by
  induction ns with
  | nil => simp
  | cons n ns ih => rw [List.map_cons, List.sum_cons, List.sum_cons, ih, Int.cast_add, add_div]

/-- Over a range with all its sales, the figures of the query are those of all sales. -/
theorem margin_eq {start stop : Date}
    (hdates : ∀ row ∈ db.pos.sales.rows, between start stop row.occurredOn = true) :
    money (db.posRevenue start stop) - db.costOfGoodsSold start stop = db.margin := by
  have hall : db.salesBetween start stop = db.pos.sales.rows :=
    List.filter_eq_self.mpr hdates
  rw [TenantDb.posRevenue, TenantDb.costOfGoodsSold, TenantDb.margin, hall]
  generalize db.pos.sales.rows = rows
  induction rows with
  | nil => simp [money]
  | cons row rows ih =>
      rw [List.map_cons, List.map_cons, List.sum_cons, List.sum_cons, ← ih, List.flatMap_cons,
        List.sum_append, money_add, saleMargin]
      ring

/-- The gross profit of the dashboard has twelve decimals. -/
theorem grossProfit_eq {start stop : Date}
    (hsize : |money (db.posRevenue start stop) - db.costOfGoodsSold start stop| < 10 ^ 16) :
    (db.figures start stop).grossProfit =
      money (db.posRevenue start stop) - db.costOfGoodsSold start stop := by
  let cost : ℤ := ((db.salesBetween start stop).flatMap fun row =>
    row.sale.lines.map fun line => line.quantity * line.unitCost).sum
  have hcost : db.costOfGoodsSold start stop = (cost : ℚ) / 10 ^ 12 := by
    rw [TenantDb.costOfGoodsSold, ← sum_places, List.map_flatMap]
    simp only [List.map_map]
    rfl
  have hplaces : money (db.posRevenue start stop) - db.costOfGoodsSold start stop =
      ((db.posRevenue start stop * 10 ^ 8 - cost : ℤ) : ℚ) / 10 ^ 12 := by
    rw [hcost, money]
    push_cast
    ring
  rw [TenantDb.figures, hplaces]
  refine toContext_of_places ?_
  rw [hplaces, abs_div, div_lt_iff₀ (by positivity)] at hsize
  norm_num at hsize ⊢
  exact_mod_cast hsize

/-- In a run where only the till posts, over a range with the dates of all its sales and returns and with
a gross profit below `10 ^ 16`, the dashboard agrees with the result of the ledger, up to the rounding of
the costs that were posted, exactly when the taxes of the sales and the margins of the refunds come to
nothing.  A run whose sales bear no tax and whose refunds take back no more than their cost is one. -/
theorem gross_profit_iff (configuration : Configuration) (calls : List Call)
    (hcalls : (TenantDb.start configuration).AllOver (fun _ op => op.staysAtTill = true) calls)
    {start stop : Date} {dashboard : Reports.Dashboard}
    (h : ((TenantDb.start configuration).run calls).dashboard none start stop = .ok dashboard)
    {env : Accounting.Env} {ledger : LedgerDb} {revenue expense : List (Accounting.Account × Money)}
    (hledger : ((TenantDb.start configuration).run calls).ledger.profitAndLoss env start stop =
      .ok (ledger, revenue, expense))
    (hdates : ∀ d ∈ ((TenantDb.start configuration).run calls).tillDates, between start stop d = true)
    (hsize : |money (((TenantDb.start configuration).run calls).posRevenue start stop) -
      ((TenantDb.start configuration).run calls).costOfGoodsSold start stop| < 10 ^ 16) :
    (dashboard.grossProfit = money (total revenue - total expense) +
        (TenantDb.start configuration).sumOf (fun db op => op.costRounding db) calls ↔
      (TenantDb.start configuration).sumOf (fun db op => op.apart db) calls = 0) ∧
      ((TenantDb.start configuration).AllOver (fun db op => op.apart db = 0) calls →
        (TenantDb.start configuration).sumOf (fun db op => op.apart db) calls = 0) := by
  refine ⟨?_, TenantDb.sumOf_eq_zero⟩
  obtain ⟨hbooks, hgap⟩ := (TillBooks.start configuration).run hcalls
  have hstart : (TenantDb.start configuration).gap = 0 := by
    rw [TenantDb.gap, show (TenantDb.start configuration).margin = 0 from rfl,
      show (TenantDb.start configuration).result = 0 from rfl]
    simp [money]
  rw [hstart, zero_add] at hgap
  obtain ⟨_, -, h⟩ := bind_eq_ok.mp h
  cases h
  have hprofit : ((TenantDb.start configuration).run calls).margin =
      (((TenantDb.start configuration).run calls).figures start stop).grossProfit := by
    rw [grossProfit_eq hsize, margin_eq]
    intro row hrow
    exact hdates _ (List.mem_append_left _ (List.mem_map_of_mem hrow))
  have hresult : total revenue - total expense = ((TenantDb.start configuration).run calls).result := by
    obtain ⟨hboot, hincome⟩ := Accounting.LedgerDb.profitAndLoss_eq_ok hledger
    have hnet : ledger.net = ((TenantDb.start configuration).run calls).ledger.net := by
      funext code
      rw [LedgerDb.net, (Accounting.LedgerDb.SameCodes.bootstrap hboot).postings hbooks.costs.linked,
        LedgerDb.net]
    rw [hincome, (hbooks.only.bootstrap hboot).income_eq hdates, hnet, TenantDb.result]
  rw [hresult, ← hprofit]
  rw [TenantDb.gap] at hgap
  constructor
  · intro hagrees
    linarith
  · intro hapart
    linarith

/-- The shop, with product `7` free of tax. -/
def untaxed : Configuration :=
  { corner with
    products := ⟨[⟨⟨7, 2000000, 50000, 0, true, 0, Sample.five_nonneg, Sample.zero_rate,
      Sample.whole_units⟩, true⟩], by decide⟩
    cost_price_nonnegative := by decide }

/-- Two pieces at a cost of `2` each, sold at `5` each. -/
def twoPieces (configuration : Configuration) (paid : Money) : List Call :=
  let run := SaleAndRefund.cornerSale configuration 2 2000000 paid Sample.twoPieces
  run.before ++ [run.selling]

/-- The tables after it. -/
def afterTwoPieces (configuration : Configuration) (paid : Money) : TenantDb :=
  (TenantDb.start configuration).run (twoPieces configuration paid)

/-- Without tax, both figures are `6`. -/
theorem gross_profit_untaxed : ∃ dashboard ledger revenue expense,
    (afterTwoPieces untaxed 100000).dashboard none ⟨2026, 1, 1⟩ ⟨2026, 1, 31⟩ = .ok dashboard ∧
      (afterTwoPieces untaxed 100000).ledger.profitAndLoss Accounting.calendarYear
        ⟨2026, 1, 1⟩ ⟨2026, 1, 31⟩ = .ok (ledger, revenue, expense) ∧
      dashboard.grossProfit = money (total revenue - total expense) +
        (TenantDb.start untaxed).sumOf (fun db op => op.costRounding db) (twoPieces untaxed 100000) := by
  have hcalls : (TenantDb.start untaxed).AllOver (fun _ op => op.staysAtTill = true)
      (twoPieces untaxed 100000) := by decide +kernel
  have hreport : (afterTwoPieces untaxed 100000).dashboard none ⟨2026, 1, 1⟩ ⟨2026, 1, 31⟩ =
      .ok ((afterTwoPieces untaxed 100000).figures ⟨2026, 1, 1⟩ ⟨2026, 1, 31⟩) := rfl
  obtain ⟨ledger, hboot, -⟩ := Option.any_eq_true _ _ |>.mp
    (show ((afterTwoPieces untaxed 100000).ledger.bootstrap Accounting.calendarYear).toOption.any
      (fun _ => true) = true by decide +kernel)
  obtain ⟨revenue, expense, hledger⟩ := Accounting.LedgerDb.profitAndLoss_of_bootstrap
    (toOption_eq_some.mp hboot) ⟨2026, 1, 1⟩ ⟨2026, 1, 31⟩
  have hdates : ∀ d ∈ (afterTwoPieces untaxed 100000).tillDates,
      between ⟨2026, 1, 1⟩ ⟨2026, 1, 31⟩ d = true := by decide +kernel
  have hsize : |money ((afterTwoPieces untaxed 100000).posRevenue ⟨2026, 1, 1⟩ ⟨2026, 1, 31⟩) -
      (afterTwoPieces untaxed 100000).costOfGoodsSold ⟨2026, 1, 1⟩ ⟨2026, 1, 31⟩| < 10 ^ 16 := by
    decide +kernel
  have huntaxed : (TenantDb.start untaxed).AllOver (fun db op => op.apart db = 0)
      (twoPieces untaxed 100000) := by decide +kernel
  obtain ⟨hiff, hapart⟩ :=
    gross_profit_iff untaxed (twoPieces untaxed 100000) hcalls hreport hledger hdates hsize
  exact ⟨_, _, _, _, hreport, hledger, hiff.mpr (hapart huntaxed)⟩

/-- At `15 %` the dashboard has `7.5`, with the tax, and the ledger `6`.  No cost is rounded. -/
theorem gross_profit_taxed :
    (TenantDb.start corner).AllOver (fun _ op => op.staysAtTill = true) (twoPieces corner 115000) ∧
    (∀ d ∈ (afterTwoPieces corner 115000).tillDates,
      between ⟨2026, 1, 1⟩ ⟨2026, 1, 31⟩ d = true) ∧
    (TenantDb.start corner).sumOf (fun db op => op.costRounding db) (twoPieces corner 115000) = 0 ∧
    ((afterTwoPieces corner 115000).figures ⟨2026, 1, 1⟩ ⟨2026, 1, 31⟩).grossProfit = 15 / 2 ∧
    ∃ ledger revenue expense, (afterTwoPieces corner 115000).ledger.profitAndLoss
        Accounting.calendarYear ⟨2026, 1, 1⟩ ⟨2026, 1, 31⟩ = .ok (ledger, revenue, expense) ∧
      money (total revenue - total expense) = 6 := by
  obtain ⟨ledger, hboot, hincome⟩ := Option.any_eq_true _ _ |>.mp
    (show ((afterTwoPieces corner 115000).ledger.bootstrap Accounting.calendarYear).toOption.any
      (fun ledger => ledger.income (between ⟨2026, 1, 1⟩ ⟨2026, 1, 31⟩) = 60000) = true by
        decide +kernel)
  obtain ⟨revenue, expense, hledger⟩ := Accounting.LedgerDb.profitAndLoss_of_bootstrap
    (toOption_eq_some.mp hboot) ⟨2026, 1, 1⟩ ⟨2026, 1, 31⟩
  refine ⟨?_, ?_, ?_, ?_, ledger, revenue, expense, hledger, ?_⟩
  · decide +kernel
  · decide +kernel
  · decide +kernel
  · decide +kernel
  · rw [(Accounting.LedgerDb.profitAndLoss_eq_ok hledger).2, of_decide_eq_true hincome]
    norm_num [money]

end Nexora.Tenant
