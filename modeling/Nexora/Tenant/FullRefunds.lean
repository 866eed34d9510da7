import Nexora.Tenant.Restocks
import Nexora.Tenant.Tills

/-!
# Sales that are refunded in full

A refund takes the net amounts, the taxes and the costs of the lines of a sale as they are
stored there.  When it takes every line in full, what it posts on cash, on revenue and on the
output tax is what the sale posted, and so are its rows in the VAT register.

Costs are added up from the same lines but not rounded alike: a sale keeps its cost with six
decimals and posts that, and a refund posts the cost itself.  So the cost cancels unless the
first rounding takes it up to half a ten-thousandth (`full_refund_cancels_iff`).
-/

namespace Nexora.Tenant

open Nexora Nexora.Catalog Nexora.Sales Nexora.Pos Foundations
open Nexora.Accounting
open Nexora.Accounting.PostingRules
open Nexora.Inventory (InventoryDb decimal)
open Nexora.Vat (VatTransaction RateTotal rowSum rateSum)

variable {request : Request} {db db' : TenantDb}

/-! ## Lines in full -/

/-- The items take back every line in full. -/
def TakesAll (items : List RequestedLine) (lines : List SaleLine) : Prop :=
  ∀ line ∈ lines, ∃ item ∈ items, item.lineId = line.id ∧ item.quantity = line.quantity

instance (items : List RequestedLine) (lines : List SaleLine) : Decidable (TakesAll items lines) :=
  inferInstanceAs (Decidable (∀ line ∈ lines, ∃ item ∈ items, _ ∧ _))

/-- The items of a refund, which name lines of the sale and none of them twice. -/
structure Names (items : List RequestedLine) (lines : List SaleLine) : Prop where
  lineIds : (lines.map SaleLine.id).Nodup
  itemIds : (items.map (·.lineId)).Nodup
  named : ∀ item ∈ items, item.lineId ∈ lines.map SaleLine.id

theorem find_line {lines : List SaleLine} (hnodup : (lines.map SaleLine.id).Nodup)
    {line : SaleLine} (hline : line ∈ lines) : lines.find? (·.id = line.id) = some line :=
  (Table.get_eq_some (t := ⟨lines, hnodup⟩)).mpr ⟨hline, rfl⟩

/-- What is said of a line by its item is said of every line once. -/
theorem TakesAll.perm {X : Type} {items : List RequestedLine} {lines : List SaleLine}
    {ofItem : RequestedLine → X} {ofLine : SaleLine → X} (hall : TakesAll items lines)
    (h : Names items lines)
    (hsame : ∀ item ∈ items, ∀ line ∈ lines, item.lineId = line.id → item.quantity = line.quantity →
      ofItem item = ofLine line) : (items.map ofItem).Perm (lines.map ofLine) := by
  have hids : (items.map (·.lineId)).Perm (lines.map SaleLine.id) := by
    refine (List.perm_ext_iff_of_nodup h.itemIds h.lineIds).mpr fun id => ⟨fun hid => ?_, fun hid => ?_⟩
    · obtain ⟨item, hitem, rfl⟩ := List.mem_map.mp hid
      exact h.named item hitem
    · obtain ⟨line, hline, rfl⟩ := List.mem_map.mp hid
      obtain ⟨item, hitem, hlineId, -⟩ := hall line hline
      exact hlineId ▸ List.mem_map_of_mem hitem
  have hitems : items.map (fun item => some (ofItem item)) =
      (items.map (·.lineId)).map fun id => (lines.find? (·.id = id)).map ofLine := by
    rw [List.map_map]
    refine List.map_congr_left fun item hitem => ?_
    obtain ⟨line, hline, hid⟩ := List.mem_map.mp (h.named item hitem)
    obtain ⟨item', hitem', hlineId, hquantity⟩ := hall line hline
    obtain rfl : item' = item :=
      List.inj_on_of_nodup_map h.itemIds hitem' hitem (hlineId.trans hid)
    simp [hlineId, find_line h.lineIds hline, hsame item' hitem line hline hlineId hquantity]
  have hlines : lines.map (fun line => some (ofLine line)) =
      (lines.map SaleLine.id).map fun id => (lines.find? (·.id = id)).map ofLine := by
    rw [List.map_map]
    refine List.map_congr_left fun line hline => ?_
    simp [find_line h.lineIds hline]
  have hsome : (items.map fun item => some (ofItem item)).Perm
      (lines.map fun line => some (ofLine line)) := by
    rw [hitems, hlines]
    exact hids.map _
  have hout := hsome.filterMap id
  simpa [List.filterMap_map, Function.comp_def] using hout

/-! ## The refund -/

theorem refund_names {payload : RefundCreate} {claim : Except Err (Option Uuid)}
    (hnew : replayed claim db.pos.returns.get = false)
    (hok : Pos.refund request db payload claim = .ok db') :
    (payload.lines.map (·.lineId)).Nodup := by
  obtain ⟨stored, hclaim, hok⟩ := bind_eq_ok.mp hok
  split at hok
  next existing hexisting => simp [replayed, hclaim, hexisting] at hnew
  next =>
    obtain ⟨⟨session, terminal⟩, -, hok⟩ := bind_eq_ok.mp hok
    obtain ⟨row, -, hok⟩ := bind_eq_ok.mp hok
    obtain ⟨_, -, hok⟩ := bind_eq_ok.mp hok
    obtain ⟨_, -, hok⟩ := bind_eq_ok.mp hok
    obtain ⟨_, hdistinct, -⟩ := bind_eq_ok.mp hok
    exact requireDistinct_eq_ok hdistinct

/-- The rate, the net amount and the tax that an item takes back of a line. -/
def SharesOf (lines : List SaleLine) (item : RequestedLine) (total : RateTotal) : Prop :=
  ∃ line ∈ lines, item.lineId = line.id ∧
    total = (line.taxRate, line.prorated line.netAmount item.quantity,
      line.prorated line.taxAmount item.quantity)

theorem refundItem_shares {inventory : InventoryDb} {elsewhere : Elsewhere} {lines : List SaleLine}
    {state state' : RefundState} {item : RequestedLine}
    (hlines : state.lines.map soldLine = lines.map soldLine)
    (h : refundItem inventory.product elsewhere state (refundLineOf item) = .ok state') :
    state'.lines.map soldLine = lines.map soldLine ∧ ∃ total, SharesOf lines item total ∧
      state'.booking.rateLines = state.booking.rateLines ++ [total] := by
  obtain ⟨now, hfound, h⟩ := bind_eq_ok.mp h
  obtain ⟨_, -, h⟩ := bind_eq_ok.mp h
  obtain ⟨_, -, h⟩ := bind_eq_ok.mp h
  obtain ⟨_, -, h⟩ := bind_eq_ok.mp h
  obtain ⟨net, hnet, h⟩ := bind_eq_ok.mp h
  obtain ⟨tax, htax, h⟩ := bind_eq_ok.mp h
  obtain ⟨_, -, h⟩ := bind_eq_ok.mp h
  cases h
  rw [orRaise_eq_ok] at hfound
  have hmem : soldLine now ∈ lines.map soldLine :=
    hlines ▸ List.mem_map_of_mem (List.mem_of_find?_eq_some hfound)
  obtain ⟨line, hline, hsame⟩ := List.mem_map.mp hmem
  have hid : now.id = (refundLineOf item).saleLineId := by simpa using List.find?_some hfound
  simp only [soldLine, SaleLine.mk.injEq] at hsame
  obtain ⟨hsameId, -, hquantity, -, -, hrate, hsameNet, hsameTax, -⟩ := hsame
  refine ⟨(addRefunded_sold _ _ _).trans hlines, _,
    ⟨line, hline, hid.symm.trans hsameId.symm, ?_⟩, rfl⟩
  rw [SaleLine.prorate_eq_ok hnet, SaleLine.prorate_eq_ok htax]
  simp only [SaleLine.prorated, SaleLine.share, hrate, hquantity, hsameNet, hsameTax]
  rfl

theorem refundItems_shares {inventory : InventoryDb} {elsewhere : Elsewhere} {lines : List SaleLine}
    {items : List RequestedLine} {state state' : RefundState}
    (hlines : state.lines.map soldLine = lines.map soldLine)
    (h : (items.map refundLineOf).foldlM (refundItem inventory.product elsewhere) state =
      .ok state') :
    ∃ totals, List.Forall₂ (SharesOf lines) items totals ∧
      state'.booking.rateLines = state.booking.rateLines ++ totals := by
  induction items generalizing state with
  | nil =>
      cases h
      exact ⟨[], .nil, (List.append_nil _).symm⟩
  | cons item items ih =>
      rw [List.map_cons, List.foldlM_cons] at h
      obtain ⟨state₁, hfirst, h⟩ := bind_eq_ok.mp h
      obtain ⟨hlines₁, total, htotal, hrate⟩ := refundItem_shares hlines hfirst
      obtain ⟨totals, htotals, hrates⟩ := ih hlines₁ h
      exact ⟨total :: totals, .cons htotal htotals, by simp [hrates, hrate]⟩

/-- The shares of a line that is taken back in full are its amounts. -/
theorem SharesOf.taxable {lines : List SaleLine} {item : RequestedLine} {total : RateTotal}
    {line : SaleLine} {product : Uuid → Option Product} (h : SharesOf lines item total)
    (hnodup : (lines.map SaleLine.id).Nodup) (hline : line ∈ lines) (hsold : line.Sold product)
    (hid : item.lineId = line.id) (hquantity : item.quantity = line.quantity) :
    total = line.taxable := by
  obtain ⟨line', hline', hid', rfl⟩ := h
  obtain rfl : line' = line :=
    List.inj_on_of_nodup_map hnodup hline' hline (hid'.symm.trans hid)
  have hfull : ∀ {amount : Money}, |amount| < 10 ^ 18 →
      line'.prorated amount line'.quantity = amount := by
    intro amount hamount
    have hq : (line'.quantity : ℚ) ≠ 0 := by exact_mod_cast hsold.quantity_pos.ne'
    have hshare := SaleLine.prorated_of_dvd hsold.quantity_pos hamount hsold.quantity_pos.le le_rfl
      (Dvd.intro_left amount rfl)
    rw [mul_div_cancel_right₀ _ hq] at hshare
    exact_mod_cast hshare
  rw [hquantity, hfull hsold.net, hfull hsold.tax]
  rfl

/-- The shares of items that take back all lines are the amounts of the lines. -/
theorem shares_perm {product : Uuid → Option Product} {lines : List SaleLine}
    {items sorted : List RequestedLine} {totals : List RateTotal} (hall : TakesAll items lines)
    (h : Names items lines) (hsold : ∀ line ∈ lines, line.Sold product)
    (hperm : sorted.Perm items) (htotals : List.Forall₂ (SharesOf lines) sorted totals) :
    totals.Perm (lines.map SaleLine.taxable) := by
  let taxableOf (item : RequestedLine) : RateTotal :=
    ((lines.find? (·.id = item.lineId)).map SaleLine.taxable).getD (0, 0, 0)
  have htaxable : ∀ item ∈ items, ∀ line ∈ lines, item.lineId = line.id →
      item.quantity = line.quantity → taxableOf item = line.taxable := by
    intro item _ line hline hid _
    simp [taxableOf, hid, find_line h.lineIds hline]
  have hmap : totals = sorted.map taxableOf := by
    have hmem : ∀ item ∈ sorted, item ∈ items := fun item => hperm.mem_iff.mp
    clear hperm
    induction htotals with
    | nil => rfl
    | @cons item total sorted totals htotal _ ih =>
        have hitem := hmem item List.mem_cons_self
        obtain ⟨line, hline, hid⟩ := List.mem_map.mp (h.named item hitem)
        obtain ⟨item', hitem', hid', hquantity⟩ := hall line hline
        obtain rfl : item' = item := List.inj_on_of_nodup_map h.itemIds hitem' hitem (hid'.trans hid)
        rw [List.map_cons, htaxable item' hitem line hline hid' hquantity,
          htotal.taxable h.lineIds hline (hsold line hline) hid' hquantity,
          ih fun item hmem' => hmem item (List.mem_cons_of_mem _ hmem')]
  rw [hmap]
  exact (hperm.map taxableOf).trans (hall.perm h htaxable)

theorem refundItems_products {inventory : InventoryDb} {elsewhere : Elsewhere}
    {lines : List SaleLine} {items : List RequestedLine} {state state' : RefundState}
    (hface : state.lines.map lineFace = lines.map lineFace)
    (h : (items.map refundLineOf).foldlM (refundItem inventory.product elsewhere) state =
      .ok state') :
    ∀ item ∈ items, ∃ product,
      inventory.product (productOf lines (refundLineOf item)) = some product := by
  induction items generalizing state with
  | nil =>
      intro item hitem
      cases hitem
  | cons first items ih =>
      rw [List.map_cons, List.foldlM_cons] at h
      obtain ⟨state₁, hfirst, h⟩ := bind_eq_ok.mp h
      obtain ⟨hface₁, -, hproduct⟩ := refundItem_cost hface hfirst
      intro item hitem
      rcases List.mem_cons.mp hitem with rfl | hitem
      · exact hproduct
      · exact ih hface₁ h item hitem

/-! ## Costs -/

/-- The cost of lines as they were sold. -/
def linesCost (lines : List SaleLine) : ℚ :=
  (lines.map fun line => decimal line.quantity * (line.unitCost / 10 ^ 6)).sum

/-- The lines of a sale cost what the cart costs. -/
theorem linesCost_eq {inventory : InventoryDb} {till : Till} {items : List CartLine}
    {lines : List SaleLine} (htill : till.product = inventory.product)
    (h : List.Forall₂ (fun item line => till.sellLine item = .ok line) items lines) :
    linesCost lines = cartCost inventory (fun _ => true) items := by
  induction h with
  | nil => rfl
  | @cons item line items lines hline _ ih =>
      obtain ⟨-, -, hquantity, product, hproduct, hcost⟩ := Till.sellLine_stored hline
      rw [htill] at hproduct
      have hterm : cartLineCost inventory (fun _ => true) item =
          decimal line.quantity * (line.unitCost / 10 ^ 6) := by
        simp [cartLineCost, hproduct, hquantity, hcost]
      simp only [linesCost, cartCost, List.map_cons, List.sum_cons] at ih ⊢
      rw [ih, hterm]

/-- Items that take back all lines cost what the lines cost. -/
theorem refundItemCost_all {inventory : InventoryDb} {lines : List SaleLine}
    {items : List RequestedLine} (hall : TakesAll items lines) (h : Names items lines)
    (hproducts : ∀ item ∈ items, ∃ product,
      inventory.product (productOf lines (refundLineOf item)) = some product) :
    (items.map (refundItemCost inventory lines fun _ => true)).sum = linesCost lines := by
  refine (hall.perm h ?_).sum_eq
  intro item hitem line hline hid hquantity
  obtain ⟨product, hproduct⟩ := hproducts item hitem
  have hcost : unitCostOf lines item.lineId = line.unitCost := by
    simp [unitCostOf, hid, find_line h.lineIds hline]
  simp [refundItemCost, hproduct, hcost, hquantity]

/-! ## What the till posts -/

/-- What a sale at the till adds to the accounts, and a refund takes off them again. -/
structure TillEffect (db db' : TenantDb) (net tax cost : Money) : Prop where
  cash : netChange "CASH" db db' = net + tax
  income : netChange "SALES_REVENUE" db db' + netChange "SALES_RETURNS" db db' = -net
  vat : netChange "VAT_OUTPUT" db db' = -tax
  cogs : netChange "COGS" db db' = cost
  inventory : netChange "INVENTORY" db db' = -cost

theorem Books.netChange_eq {entries : List Entry} {rows : List VatTransaction}
    (h : Books db entries rows db') (code : String) :
    Tenant.netChange code db db' = entryNet code entries := by
  rw [h.netChange, sum_entryPostings]

theorem sale_effect {row : SaleRow} {rows : List VatTransaction}
    (hbooks : Books db row.entries rows db') (hcost : 0 ≤ row.sale.costAmount) :
    TillEffect db db' row.sale.netAmount row.sale.taxAmount
      (postedCost (row.sale.costAmount / 10 ^ 6)) := by
  have hfits := hbooks.fits _ List.mem_cons_self
  simp only [List.mem_append, List.mem_cons, or_imp, forall_and, forall_eq] at hfits
  have hsum := roundHalfUp_money_add (fits_ofCredit hfits.1.2.1) (fits_taxLine fits_ofCredit hfits.2)
  have hentries : ∀ code, entryNet code row.entries =
      lineNet code (PostingRules.cashSale (money row.sale.netAmount) (money row.sale.taxAmount) 0).1 +
        lineNet code (PostingRules.cashSale 0 0 (row.sale.costAmount / 10 ^ 6)).2 := by
    intro code
    simp only [SaleRow.entries, PostingRules.cashSale, entryNet_cons]
    rcases hcost.eq_or_lt with hzero | hpos
    · simp [← hzero]
    · simp [hpos]
  constructor
  · rw [hbooks.netChange_eq, hentries]
    simp [PostingRules.cashSale, hsum]
  · rw [hbooks.netChange_eq, hbooks.netChange_eq, hentries, hentries]
    simp [PostingRules.cashSale]
  · rw [hbooks.netChange_eq, hentries]
    simp [PostingRules.cashSale]
  · rw [hbooks.netChange_eq, hentries]
    simp [PostingRules.cashSale, postedCost]
  · rw [hbooks.netChange_eq, hentries]
    simp [PostingRules.cashSale, postedCost]

/-- What a checkout posts, with the cost of its cart. -/
theorem checkout_effect {payload : CheckoutCreate} {row : SaleRow} {rows : List VatTransaction}
    (hcosts : Costs db)
    (hsale : (tillOf request db).checkout payload.lines payload.payments = .ok row.sale)
    (hfits : |row.sale.costAmount| < 10 ^ 18) (hbooks : Books db row.entries rows db') :
    TillEffect db db' row.sale.netAmount row.sale.taxAmount (postedCost
      (roundHalfEven (cartCost db.inventory (fun _ => true) payload.lines * 10 ^ 6) / 10 ^ 6)) := by
  obtain ⟨hlines, -, -, hamount, -⟩ := Till.checkout_figures hsale
  have hacc := costOf_accumulates rfl hcosts.costed (mapM_forall₂ hlines)
  rw [cartCost_sorted] at hacc
  rw [hamount] at hfits
  have hnonneg : 0 ≤ row.sale.costAmount := by
    rw [hamount]
    exact roundHalfEven_nonneg (mul_nonneg hacc.acc_nonneg (by norm_num))
  have heffect := sale_effect hbooks hnonneg
  rwa [hamount, costOf_eq hacc hfits] at heffect

theorem refund_effect {saleReturn : SaleReturn} {state : RefundState} {rows : List VatTransaction}
    (hbooks : Books db (saleReturn.entries state.booking) rows db') (hstate : state.Stored) :
    TillEffect db db' (-state.booking.net) (-state.booking.tax)
      (-postedCost state.booking.cost) := by
  have hnet : 0 ≤ state.booking.net := by
    rw [hstate.net]
    exact List.sum_nonneg (by simpa using fun a b c hc => (hstate.rateLines _ hc).1)
  have htax : 0 ≤ state.booking.tax := by
    rw [hstate.tax]
    exact List.sum_nonneg (by simpa using fun a b c hc => (hstate.rateLines _ hc).2)
  have hsum : roundHalfUp (toContext (money state.booking.net + money state.booking.tax) * 10 ^ 4) =
      state.booking.net + state.booking.tax := by
    by_cases hpos : 0 < state.booking.net + state.booking.tax
    · have hfits := hbooks.fits _ (List.mem_append_left _ (by
        rw [if_pos hpos]
        exact List.mem_singleton_self _))
      simp only [List.mem_append, List.mem_cons, or_imp, forall_and, forall_eq] at hfits
      exact roundHalfUp_money_add (fits_ofDebit hfits.1.1.1) (fits_taxLine fits_ofDebit hfits.1.2)
    · have hnet' : state.booking.net = 0 := by linarith
      have htax' : state.booking.tax = 0 := by linarith
      simp [hnet', htax', money]
  have hentries : ∀ code, entryNet code (saleReturn.entries state.booking) =
      lineNet code (posRefund (money state.booking.net) (money state.booking.tax) 0 true).1 +
        lineNet code [.ofDebit "INVENTORY" state.booking.cost, .ofCredit "COGS" state.booking.cost] := by
    intro code
    simp only [SaleReturn.entries, entryNet_append]
    congr 1
    · split
      next => simp [posRefund]
      next hzero =>
        have hnet' : state.booking.net = 0 := by linarith
        have htax' : state.booking.tax = 0 := by linarith
        simp [posRefund, hnet', htax', money, taxLine]
    · by_cases hcost : state.booking.cost = 0
      · simp [posRefund, hcost]
      · simp [posRefund, hcost]
  constructor
  · rw [hbooks.netChange_eq, hentries]
    simp [posRefund, hsum]
    ring
  · rw [hbooks.netChange_eq, hbooks.netChange_eq, hentries, hentries]
    simp [posRefund]
  · rw [hbooks.netChange_eq, hentries]
    simp [posRefund]
  · rw [hbooks.netChange_eq, hentries]
    simp [posRefund, postedCost]
  · rw [hbooks.netChange_eq, hentries]
    simp [posRefund, postedCost]

/-! ## A sale and its refund in a run -/

/-- A sale, and after other requests a refund. -/
structure SaleAndRefund where
  configuration : Configuration
  before : List Call
  saleRequest : Request
  cart : CheckoutCreate
  saleClaim : Except Err (Option Uuid)
  between : List Call
  refundRequest : Request
  refund : RefundCreate
  refundClaim : Except Err (Option Uuid)

namespace SaleAndRefund

variable {run : SaleAndRefund}

def selling (run : SaleAndRefund) : Call := ⟨run.saleRequest, .checkout run.cart run.saleClaim⟩

def refunding (run : SaleAndRefund) : Call :=
  ⟨run.refundRequest, .refund run.refund run.refundClaim⟩

/-- The tables before the sale. -/
def opened (run : SaleAndRefund) : TenantDb := (TenantDb.start run.configuration).run run.before

/-- The tables after the sale. -/
def sold (run : SaleAndRefund) : TenantDb := run.opened.step run.selling

/-- The tables before the refund. -/
def reopened (run : SaleAndRefund) : TenantDb := run.sold.run run.between

/-- The tables after the refund. -/
def refunded (run : SaleAndRefund) : TenantDb := run.reopened.step run.refunding

/-- Both requests go through, neither of them is a replay, and the refund takes back every
line of the sale in full. -/
structure InFull (run : SaleAndRefund) : Prop where
  sells : run.opened.commits run.selling = true
  newSale : replayed run.saleClaim run.opened.pos.sales.get = false
  refunds : run.reopened.commits run.refunding = true
  newRefund : replayed run.refundClaim run.reopened.pos.returns.get = false
  ofSale : run.refund.saleId = run.saleRequest.documentId
  all : ∀ row ∈ run.reopened.pos.sales.get run.refund.saleId,
    TakesAll run.refund.lines row.sale.lines

/-- What the sale and the refund add to an account. -/
def change (run : SaleAndRefund) (code : String) : Money :=
  netChange code run.opened run.sold + netChange code run.reopened run.refunded

/-- What the sale and the refund add to the register at a rate. -/
def taxChange (run : SaleAndRefund) (rate : Rate) : Money :=
  (rowSum (· = rate) run.sold.register.rows - rowSum (· = rate) run.opened.register.rows) +
    (rowSum (· = rate) run.refunded.register.rows - rowSum (· = rate) run.reopened.register.rows)

/-- The refund takes off the books what the sale brought on them. -/
structure Cancels (run : SaleAndRefund) : Prop where
  cash : run.change "CASH" = 0
  income : run.change "SALES_REVENUE" + run.change "SALES_RETURNS" = 0
  vat : run.change "VAT_OUTPUT" = 0
  cogs : run.change "COGS" = 0
  inventory : run.change "INVENTORY" = 0
  register : ∀ rate, run.taxChange rate = 0

/-- What the cart costs, at the cost prices before the sale. -/
def cartValue (run : SaleAndRefund) : ℚ :=
  cartCost run.opened.inventory (fun _ => true) run.cart.lines

/-- The sale with the given lines, as far as the refund needs it. -/
structure Sells (run : SaleAndRefund) (sale : Sale) : Prop where
  completed : sale.Completed run.opened.inventory.product
  soldOnce : SoldOnce sale.lines
  stored : ∀ line ∈ sale.lines, line.Stored
  there : SoldAs run.sold run.saleRequest.documentId (sale.lines.map soldLine)
  cost : linesCost sale.lines = run.cartValue
  effect : TillEffect run.opened run.sold (sale.lines.map SaleLine.netAmount).sum
    (sale.lines.map SaleLine.taxAmount).sum
    (postedCost (roundHalfEven (run.cartValue * 10 ^ 6) / 10 ^ 6))
  register : ∀ p, rowSum p run.sold.register.rows - rowSum p run.opened.register.rows =
    rateSum p (sale.lines.map SaleLine.taxable)

theorem InFull.sells_sale (h : run.InFull) : ∃ sale, run.Sells sale := by
  have hcosts : Costs run.opened := TenantDb.run_costs run.configuration run.before
  have hok : Pos.checkout run.saleRequest run.opened run.cart run.saleClaim = .ok run.sold :=
    TenantDb.body_of_commits h.sells
  obtain ⟨hreplayed, -⟩ | ⟨-, row, inventory, sales, rows, hsale, hfits, ⟨hid, -⟩, -, hinsert, hrows,
    hbooks, htables⟩ := checkout_eq_ok hcosts.linked hok
  · rw [h.newSale] at hreplayed
    cases hreplayed
  obtain ⟨hlines, hnet, htax, -⟩ := Till.checkout_figures hsale
  have heffect := checkout_effect hcosts hsale hfits hbooks
  rw [hnet, htax] at heffect
  have hstored := Till.checkout_stored hsale
  refine ⟨row.sale, Till.checkout_completed hsale, ?_, hstored, ⟨row, ?_, rfl⟩, ?_, heffect,
    fun p => ?_⟩
  · exact soldOnce_checkout (fun productId product hproduct => hcosts.costed.costPrice_nonneg
      (Inventory.InventoryDb.anyProduct_of_product hproduct)) hsale
  · rw [htables, ← hid]
    exact Table.get_eq_some.mpr
      ⟨(Table.insert_eq_some hinsert).1 ▸ List.mem_append_right _ List.mem_cons_self, rfl⟩
  · rw [linesCost_eq rfl (mapM_forall₂ hlines), cartCost_sorted]
    rfl
  · rw [hbooks.register, Vat.rowSum_append, add_sub_cancel_left,
      Vat.TaxableEvent.recordLines_sum ?_ hrows]
    · rfl
    · intro line hline
      obtain ⟨line, hmem, rfl⟩ := List.mem_map.mp hline
      exact (hstored line hmem).taxAmount_nonneg

theorem InFull.reopened_costs (h : run.InFull) : Costs run.reopened := by
  have hopened : Costs run.opened := TenantDb.run_costs run.configuration run.before
  have hsold : Costs run.sold :=
    (Op.accounted_iff hopened (TenantDb.body_of_commits h.sells)).1
  exact TenantDb.run_invariant (fun _ _ _ hdb hok => (Op.accounted_iff hdb hok).1) run.between hsold

/-- What the refund takes back of the sale. -/
structure TakesBack (run : SaleAndRefund) (sale : Sale) : Prop where
  effect : TillEffect run.reopened run.refunded (-(sale.lines.map SaleLine.netAmount).sum)
    (-(sale.lines.map SaleLine.taxAmount).sum) (-postedCost run.cartValue)
  register : ∀ p, rowSum p run.refunded.register.rows - rowSum p run.reopened.register.rows =
    -rateSum p (sale.lines.map SaleLine.taxable)

theorem InFull.takesBack (h : run.InFull) {sale : Sale} (hsale : run.Sells sale) :
    run.TakesBack sale := by
  have hcosts := h.reopened_costs
  have hok : Pos.refund run.refundRequest run.reopened run.refund run.refundClaim =
      .ok run.refunded := TenantDb.body_of_commits h.refunds
  have hdistinct := refund_names h.newRefund hok
  obtain ⟨hreplayed, -⟩ | ⟨-, row, state, _, saleReturn, _, _, _, rows, hget, hnamed, hloop, -, -, -,
    -, hrows, hbooks, -⟩ := refund_eq_ok hcosts.linked hok
  · rw [h.newRefund] at hreplayed
    cases hreplayed
  -- The lines of the sale are still those that were sold.
  have hsold : row.sale.lines.map soldLine = sale.lines.map soldLine := by
    have hlinked : run.sold.ledger.Linked := by
      have hopened : Costs run.opened := TenantDb.run_costs run.configuration run.before
      exact (Op.accounted_iff hopened (TenantDb.body_of_commits h.sells)).1.linked
    obtain ⟨row', hrow', hlines⟩ := TenantDb.run_sold run.between hlinked hsale.there
    rw [h.ofSale] at hget
    obtain rfl : row = row' := Option.some.inj (hget.symm.trans hrow')
    exact hlines
  have hids : row.sale.lines.map SaleLine.id = sale.lines.map SaleLine.id := by
    simpa [soldLine, Function.comp_def] using congrArg (List.map SaleLine.id) hsold
  have hface : row.sale.lines.map lineFace = sale.lines.map lineFace := by
    have hmap := congrArg (List.map lineFace) hsold
    rw [List.map_map, List.map_map] at hmap
    exact hmap
  have hall : TakesAll run.refund.lines sale.lines := by
    intro line hline
    have hmem : soldLine line ∈ row.sale.lines.map soldLine := hsold ▸ List.mem_map_of_mem hline
    obtain ⟨now, hnow, hsame⟩ := List.mem_map.mp hmem
    simp only [soldLine, SaleLine.mk.injEq] at hsame
    obtain ⟨item, hitem, hid, hquantity⟩ := h.all row hget now hnow
    exact ⟨item, hitem, hid.trans hsame.1, hquantity.trans hsame.2.2.1⟩
  have hperm : (run.refund.sorted row.sale.lines).Perm run.refund.lines :=
    List.perm_insertionSort _ _
  have hnames : Names run.refund.lines sale.lines :=
    ⟨hsale.completed.nodup, hdistinct, fun item hitem => hids ▸ hnamed item hitem⟩
  have hstored : ∀ line ∈ row.sale.lines, line.Stored := by
    intro now hnow
    have hmem : soldLine now ∈ sale.lines.map soldLine := hsold ▸ List.mem_map_of_mem hnow
    obtain ⟨line, hline, hsame⟩ := List.mem_map.mp hmem
    simp only [soldLine, SaleLine.mk.injEq] at hsame
    obtain ⟨-, -, hquantity, -, -, -, hnet, htax, -⟩ := hsame
    have hline := hsale.stored line hline
    exact ⟨hquantity ▸ hline.quantity_pos, hnet ▸ hline.netAmount_nonneg,
      htax ▸ hline.taxAmount_nonneg⟩
  have hstate := refundItems_stored hstored hloop
  obtain ⟨totals, htotals, hrates⟩ := refundItems_shares hsold hloop
  have hshares : state.booking.rateLines.Perm (sale.lines.map SaleLine.taxable) := by
    rw [show state.booking.rateLines = totals from hrates]
    exact shares_perm hall hnames hsale.completed.sold hperm htotals
  have hnet : state.booking.net = (sale.lines.map SaleLine.netAmount).sum := by
    rw [hstate.net, (hshares.map _).sum_eq, List.map_map]
    rfl
  have htax : state.booking.tax = (sale.lines.map SaleLine.taxAmount).sum := by
    rw [hstate.tax, (hshares.map _).sum_eq, List.map_map]
    rfl
  have hcost : state.booking.cost = run.cartValue := by
    have hsorted : ∀ item ∈ run.refund.sorted row.sale.lines,
        item.lineId ∈ sale.lines.map SaleLine.id :=
      fun item hitem => hnames.named item (hperm.mem_iff.mp hitem)
    obtain ⟨-, hacc⟩ := refundItems_cost hsale.soldOnce hsorted hface (.zero 12) hloop
    have hproducts := refundItems_products hface hloop
    rw [zero_add, (hperm.map _).sum_eq, refundItemCost_all hall hnames
      fun item hitem => hproducts item (hperm.mem_iff.mpr hitem), hsale.cost] at hacc
    refine amountsOf_accumulated hacc fun hpos => ?_
    have hmem : PostingLine.ofDebit "INVENTORY" state.booking.cost ∈
        [PostingLine.ofDebit "INVENTORY" state.booking.cost, .ofCredit "COGS" state.booking.cost] :=
      List.mem_cons_self
    refine (hbooks.fits _ (List.mem_append_right _ (List.mem_map_of_mem ?_)) _ hmem).1
    simp [hpos.ne']
  refine ⟨?_, fun p => ?_⟩
  · rw [← hnet, ← htax, ← hcost]
    exact refund_effect hbooks hstate
  · have hsum : rateSum p state.booking.rateLines = rateSum p (sale.lines.map SaleLine.taxable) :=
      (hshares.map _).sum_eq
    rw [hbooks.register, Vat.rowSum_append, add_sub_cancel_left,
      Vat.TaxableEvent.recordLines_sum (fun line hline => (hstate.rateLines line hline).2) hrows, hsum]
    rfl

/-- A refund of all lines of a sale takes off the books what the sale brought on them, unless the
cost of the cart, counted in ten-thousandths, ends on a fraction from `0.495` up to `0.5`. -/
theorem full_refund_cancels_iff (h : run.InFull) :
    run.Cancels ↔ Int.fract (run.cartValue * 10 ^ 4) < 495 / 1000 ∨
      1 / 2 ≤ Int.fract (run.cartValue * 10 ^ 4) := by
  obtain ⟨sale, hsale⟩ := h.sells_sale
  have hback := h.takesBack hsale
  have hnonneg : 0 ≤ run.cartValue * 10 ^ 4 := by
    rw [← hsale.cost]
    refine mul_nonneg (List.sum_nonneg ?_) (by norm_num)
    intro cost hcost
    obtain ⟨line, hline, rfl⟩ := List.mem_map.mp hcost
    have hquantity := (hsale.stored line hline).quantity_pos
    have hunit := hsale.soldOnce.nonneg line hline
    have hquantity' : (0 : ℚ) < line.quantity := by exact_mod_cast hquantity
    have hunit' : (0 : ℚ) ≤ line.unitCost := by exact_mod_cast hunit
    unfold decimal
    positivity
  have hcost : postedCost (roundHalfEven (run.cartValue * 10 ^ 6) / 10 ^ 6) =
      postedCost run.cartValue ↔ Int.fract (run.cartValue * 10 ^ 4) < 495 / 1000 ∨
        1 / 2 ≤ Int.fract (run.cartValue * 10 ^ 4) := by
    have htwice : (roundHalfEven (run.cartValue * 10 ^ 6) / 10 ^ 6 * 10 ^ 4 : ℚ) =
        roundHalfEven (run.cartValue * 10 ^ 4 * 10 ^ 2) / 10 ^ 2 := by
      rw [mul_assoc, show (10 ^ 4 * 10 ^ 2 : ℚ) = 10 ^ 6 by norm_num]
      ring
    rw [postedCost, postedCost, htwice]
    exact roundHalfUp_roundHalfEven hnonneg
  rw [← hcost, ← sub_eq_zero]
  have hsold := hsale.effect
  have hrefunded := hback.effect
  constructor
  · intro hcancels
    have hcogs := hcancels.cogs
    rw [change, hsold.cogs, hrefunded.cogs] at hcogs
    exact hcogs
  · intro hzero
    constructor
    · rw [change, hsold.cash, hrefunded.cash]
      ring
    · rw [change, change, add_add_add_comm, hsold.income, hrefunded.income]
      ring
    · rw [change, hsold.vat, hrefunded.vat]
      ring
    · rw [change, hsold.cogs, hrefunded.cogs]
      exact hzero
    · rw [change, hsold.inventory, hrefunded.inventory]
      linarith
    · intro rate
      rw [taxChange, hsale.register, hback.register]
      ring

/-- A sale of a quantity of product `7`, received at a cost and sold at `5` and `15 %`, and its
refund. -/
def cornerSale (configuration : Configuration) (unitCost : ℚ) (quantity : Quantity) (paid : Money)
    (h : 0 < quantity ∧ quantity < 10 ^ 20) : SaleAndRefund where
  configuration := configuration
  before := [costReceipt 9 unitCost, ⟨cornerRequest 1, .openSession ⟨5, 0, Sample.zero_money⟩⟩]
  saleRequest := cornerRequest 2
  cart :=
    { sessionId := 1
      customerId := none
      lines := [⟨7, quantity, 0, Sample.quantity_pos h, Sample.quantity_lt h, Sample.zero_le,
        Sample.zero_le_rate⟩]
      payments := [⟨.cash, paid, 0⟩] }
  saleClaim := .ok none
  between := []
  refundRequest := cornerRequest 3
  refund := ⟨2, 1, [⟨2007, quantity, Sample.quantity_pos h, Sample.quantity_lt h⟩]⟩
  refundClaim := .ok none

/-- Two pieces at a cost of `2` each. -/
theorem full_refund_cancels_two_pieces :
    (cornerSale corner 2 2000000 115000 (by decide)).Cancels := by
  refine (full_refund_cancels_iff ⟨?_, ?_, ?_, ?_, ?_, ?_⟩).mpr (.inl ?_)
  · decide +kernel
  · decide +kernel
  · decide +kernel
  · decide +kernel
  · decide +kernel
  · decide +kernel
  · decide +kernel

/-- The shop, with product `7` sold by the tenth of a piece. -/
def tenths : Configuration :=
  { corner with
    products := ⟨[{ cornerProduct 7 true with
      product := { (cornerProduct 7 true).product with
        precision := 1
        precision_le := by decide } }], by decide⟩
    cost_price_nonnegative := by decide }

/-- Half a piece at a cost of `0.000299`: the sale posts `0.0002` and the refund `0.0001`. -/
theorem half_piece_not_cancelled : ¬∀ run : SaleAndRefund, run.InFull → run.Cancels := by
  intro hcancels
  have hfull : (cornerSale tenths (299 / 10 ^ 6) 500000 28750 (by decide)).InFull := by
    refine ⟨?_, ?_, ?_, ?_, ?_, ?_⟩
    · decide +kernel
    · decide +kernel
    · decide +kernel
    · decide +kernel
    · decide +kernel
    · decide +kernel
  exact absurd (hcancels _ hfull).cogs (by decide +kernel)

end SaleAndRefund

end Nexora.Tenant
