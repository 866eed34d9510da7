import Nexora.Tenant.FullRefunds

/-!
# The taxes of documents and of sales

A tax rate is at most one, and a tax is rounded from the unrounded net amount, so a tax is never
more than the net amount it is on: a document with a total has a net amount.  Refunds of a sale
keep this, and together they never take back more than the sale (`refundItems_fair`).
-/

namespace Nexora.Tenant

open Nexora Nexora.Catalog Nexora.Sales Nexora.Purchasing Nexora.Pos Foundations
open Nexora.Accounting (Money)
open Nexora.Inventory (InventoryDb)
open Nexora.Vat (RateTotal)

variable {request : Request} {db db' : TenantDb}

/-! ## Taxes -/

theorem PricedLine.tax_le (line : PricedLine) : line.amounts.taxAmount ≤ line.amounts.netAmount :=
  totalsOf_tax_le line.gross_nonneg line.discountRate_range.2 line.taxRate_range line.amounts_eq

theorem CostedLine.tax_le (line : CostedLine) : line.amounts.taxAmount ≤ line.amounts.netAmount :=
  totalsOf_tax_le line.gross_nonneg (by decide) line.taxRate_range line.amounts_eq

/-- A document with a total has a net amount. -/
theorem Amounts.net_pos {lines : List Amounts} {amounts : Amounts}
    (htotal : Amounts.total lines = .ok amounts)
    (hlines : ∀ line ∈ lines, line.taxAmount ≤ line.netAmount) (h : 0 < amounts.totalAmount) :
    0 < amounts.netAmount := by
  obtain ⟨hnet, htax⟩ := Amounts.total_eq_ok htotal
  have hle : amounts.taxAmount ≤ amounts.netAmount := by
    rw [hnet, htax]
    exact List.sum_le_sum hlines
  by_contra hnot
  have hzero : amounts.netAmount ≤ 0 := not_lt.mp hnot
  exact absurd h (not_lt.mpr (add_nonpos hzero (hle.trans hzero)))

theorem invoice_net_pos (invoice : Invoice) (h : 0 < invoice.amounts.totalAmount) :
    0 < invoice.amounts.netAmount := by
  refine Amounts.net_pos invoice.totals_eq (fun amounts hamounts => ?_) h
  obtain ⟨line, -, rfl⟩ := List.mem_map.mp hamounts
  exact PricedLine.tax_le line.toPricedLine

theorem bill_net_pos (bill : SupplierBill) (h : 0 < bill.amounts.totalAmount) :
    0 < bill.amounts.netAmount := by
  refine Amounts.net_pos bill.totals_eq (fun amounts hamounts => ?_) h
  obtain ⟨line, -, rfl⟩ := List.mem_map.mp hamounts
  exact CostedLine.tax_le line.toCostedLine

/-! ## Sales -/

/-- A line of a sale with a tax of at most its net amount. -/
structure FairLine (line : SaleLine) : Prop where
  quantity_pos : 0 < line.quantity
  refunded_nonneg : 0 ≤ line.refundedQuantity
  tax_nonneg : 0 ≤ line.taxAmount
  tax_le : line.taxAmount ≤ line.netAmount

/-- A sale with lines of its own that fit its columns together. -/
structure FairSale (lines : List SaleLine) : Prop where
  fair : ∀ line ∈ lines, FairLine line
  nodup : (lines.map SaleLine.id).Nodup
  total_lt : (lines.map fun line => line.netAmount + line.taxAmount).sum < 10 ^ 18

theorem Till.sellLine_fair {till : Till} {item : CartLine} {line : SaleLine}
    (h : till.sellLine item = .ok line) : FairLine line := by
  obtain ⟨product, -, h⟩ := bind_eq_ok.mp h
  obtain ⟨⟨net, tax, total⟩, htotals, h⟩ := bind_eq_ok.mp h
  obtain ⟨_, -, h⟩ := bind_eq_ok.mp h
  obtain ⟨_, -, h⟩ := bind_eq_ok.mp h
  cases h
  have hnonneg := lineTotals_nonneg item.quantity_pos.le product.sellingPrice_nonneg
    item.discountRate_le product.taxRate_range.1 htotals
  have hprice : (0 : ℚ) ≤ product.sellingPrice := by exact_mod_cast product.sellingPrice_nonneg
  exact ⟨item.quantity_pos, le_rfl, hnonneg.2.1,
    totalsOf_tax_le (gross_nonneg item.quantity_pos.le (by positivity)) item.discountRate_le
      product.taxRate_range htotals⟩

theorem Till.checkout_fair {till : Till} {items : List CartLine} {payments : List TenderInput}
    {sale : Sale} (h : till.checkout items payments = .ok sale) : FairSale sale.lines := by
  have hcompleted := Till.checkout_completed h
  have hlines := (Till.checkout_figures h).1
  obtain ⟨_, -, h⟩ := bind_eq_ok.mp h
  obtain ⟨_, -, h⟩ := bind_eq_ok.mp h
  obtain ⟨lines, -, h⟩ := bind_eq_ok.mp h
  obtain ⟨discount, -, h⟩ := bind_eq_ok.mp h
  obtain ⟨_, -, h⟩ := bind_eq_ok.mp h
  obtain ⟨_, -, h⟩ := bind_eq_ok.mp h
  obtain ⟨_, -, h⟩ := bind_eq_ok.mp h
  obtain ⟨_, htotal, h⟩ := bind_eq_ok.mp h
  obtain ⟨_, -, h⟩ := bind_eq_ok.mp h
  obtain ⟨_, -, h⟩ := bind_eq_ok.mp h
  cases h
  refine ⟨mapM_forall (fun _ _ hline => Till.sellLine_fair hline) hlines, hcompleted.nodup, ?_⟩
  show (lines.map fun line => line.netAmount + line.taxAmount).sum < 10 ^ 18
  rw [List.sum_map_add]
  exact (le_abs_self _).trans_lt (Pos.storeMoney_eq_ok htotal)

/-! ## Refunds -/

section Shares

variable {line : SaleLine} {amount amount' : Money} {quantity : Quantity}

theorem share_nonneg (hline : 0 < line.quantity) (hamount : 0 ≤ amount) (hquantity : 0 ≤ quantity) :
    0 ≤ line.share amount quantity * 10 ^ 4 := by
  have hline' : (0 : ℚ) < line.quantity := by exact_mod_cast hline
  have hamount' : (0 : ℚ) ≤ amount := by exact_mod_cast hamount
  have hquantity' : (0 : ℚ) ≤ quantity := by exact_mod_cast hquantity
  have hproduct : (0 : ℚ) ≤ amount / 10 ^ 4 * (quantity / 10 ^ 6) := by positivity
  refine mul_nonneg (toContext_nonneg (div_nonneg (toContext_nonneg hproduct) ?_)) (by norm_num)
  positivity

theorem share_mono (hline : 0 < line.quantity) (hamount : 0 ≤ amount) (hle : amount ≤ amount')
    {quantity' : Quantity} (hquantity : 0 ≤ quantity) (hle' : quantity ≤ quantity') :
    0 ≤ line.prorated amount quantity ∧
      line.prorated amount quantity ≤ line.prorated amount' quantity' := by
  have hline' : (0 : ℚ) < line.quantity := by exact_mod_cast hline
  have hamount' : (0 : ℚ) ≤ amount := by exact_mod_cast hamount
  have hle₁ : (amount : ℚ) ≤ amount' := by exact_mod_cast hle
  have hquantity' : (0 : ℚ) ≤ quantity := by exact_mod_cast hquantity
  have hle₂ : (quantity : ℚ) ≤ quantity' := by exact_mod_cast hle'
  have hproduct : (0 : ℚ) ≤ amount / 10 ^ 4 * (quantity / 10 ^ 6) := by positivity
  have hamount'' : (0 : ℚ) ≤ amount' := hamount'.trans hle₁
  have hproducts : (amount : ℚ) / 10 ^ 4 * (quantity / 10 ^ 6) ≤
      amount' / 10 ^ 4 * (quantity' / 10 ^ 6) := by gcongr
  have hquotient : 0 ≤ toContext ((amount : ℚ) / 10 ^ 4 * (quantity / 10 ^ 6)) /
      (line.quantity / 10 ^ 6) := div_nonneg (toContext_nonneg hproduct) (by positivity)
  have hshare := toContext_mono hquotient
    (div_le_div_of_nonneg_right (toContext_mono hproduct hproducts) (by positivity))
  have hnonneg := share_nonneg hline hamount hquantity
  exact ⟨roundHalfUp_nonneg hnonneg,
    roundHalfUp_mono hnonneg (mul_le_mul_of_nonneg_right hshare (by norm_num))⟩

theorem share_full (hline : 0 < line.quantity) (hamount : |amount| < 10 ^ 18) :
    line.prorated amount line.quantity = amount := by
  have hq : (line.quantity : ℚ) ≠ 0 := by exact_mod_cast hline.ne'
  have hshare := SaleLine.prorated_of_dvd hline hamount hline.le le_rfl (Dvd.intro_left amount rfl)
  rw [mul_div_cancel_right₀ _ hq] at hshare
  exact_mod_cast hshare

end Shares

/-- The net amount and the tax of the line with an id. -/
def lineWorth (lines : List SaleLine) (lineId : Uuid) : Money :=
  ((lines.find? (·.id = lineId)).map fun line => line.netAmount + line.taxAmount).getD 0

theorem find_sold {lines lines' : List SaleLine} (h : lines'.map soldLine = lines.map soldLine)
    (lineId : Uuid) :
    (lines'.find? (·.id = lineId)).map soldLine = (lines.find? (·.id = lineId)).map soldLine := by
  have hfind : ∀ l : List SaleLine, (l.find? (·.id = lineId)).map soldLine =
      (l.map soldLine).find? (·.id = lineId) := by
    intro l
    rw [List.find?_map]
    rfl
  rw [hfind, hfind, h]

theorem FairSale.worth_lt {lines : List SaleLine} (h : FairSale lines) {line : SaleLine}
    (hline : line ∈ lines) : line.netAmount + line.taxAmount < 10 ^ 18 := by
  have hnonneg : ∀ x ∈ lines.map fun line => line.netAmount + line.taxAmount, 0 ≤ x := by
    intro x hx
    obtain ⟨line, hline, rfl⟩ := List.mem_map.mp hx
    have hfair := h.fair line hline
    exact add_nonneg (hfair.tax_nonneg.trans hfair.tax_le) hfair.tax_nonneg
  exact (List.single_le_sum hnonneg _ (List.mem_map_of_mem hline)).trans_lt h.total_lt

theorem FairSale.amounts_lt {lines : List SaleLine} (h : FairSale lines) {line : SaleLine}
    (hline : line ∈ lines) : |line.netAmount| < 10 ^ 18 ∧ |line.taxAmount| < 10 ^ 18 := by
  have hfair := h.fair line hline
  have hlt := h.worth_lt hline
  have hnet := hfair.tax_nonneg.trans hfair.tax_le
  rw [abs_of_nonneg hnet, abs_of_nonneg hfair.tax_nonneg]
  exact ⟨(le_add_of_nonneg_right hfair.tax_nonneg).trans_lt hlt,
    (le_add_of_nonneg_left hnet).trans_lt hlt⟩

theorem FairSale.addRefunded {lines : List SaleLine} (h : FairSale lines) {id : Uuid}
    {quantity : Quantity} (hquantity : 0 ≤ quantity) : FairSale (addRefunded lines id quantity) := by
  have hsame : ∀ f : SaleLine → Money, (∀ line r, f { line with refundedQuantity := r } = f line) →
      (Pos.addRefunded lines id quantity).map f = lines.map f := by
    intro f hf
    rw [Pos.addRefunded, List.map_map]
    refine List.map_congr_left fun line _ => ?_
    simp only [Function.comp_apply]
    split
    · exact hf line _
    · rfl
  refine ⟨fun line hline => ?_, ?_, ?_⟩
  · obtain ⟨old, hold, rfl⟩ := List.mem_map.mp hline
    have hfair := h.fair old hold
    split
    · exact ⟨hfair.quantity_pos, add_nonneg hfair.refunded_nonneg hquantity, hfair.tax_nonneg,
        hfair.tax_le⟩
    · exact hfair
  · have hids : (Pos.addRefunded lines id quantity).map SaleLine.id = lines.map SaleLine.id := by
      rw [Pos.addRefunded, List.map_map]
      refine List.map_congr_left fun line _ => ?_
      simp only [Function.comp_apply]
      split
      · rfl
      · rfl
    rw [hids]
    exact h.nodup
  · rw [hsame _ fun _ _ => rfl]
    exact h.total_lt

/-- The figures of a line, as it was sold. -/
structure Priced (line : SaleLine) : Prop where
  quantity_pos : 0 < line.quantity
  tax_nonneg : 0 ≤ line.taxAmount
  tax_le : line.taxAmount ≤ line.netAmount
  total : line.totalAmount = line.netAmount + line.taxAmount

theorem Priced.of_sold {lines lines' : List SaleLine} (hsold : lines'.map soldLine = lines.map soldLine)
    (h : ∀ line ∈ lines, Priced line) : ∀ line ∈ lines', Priced line := by
  intro line hline
  have hmem := List.mem_map_of_mem (f := soldLine) hline
  rw [hsold] at hmem
  obtain ⟨old, hold, heq⟩ := List.mem_map.mp hmem
  simp only [soldLine, SaleLine.mk.injEq] at heq
  obtain ⟨-, -, hquantity, -, -, -, hnet, htax, htotal, -⟩ := heq
  have hpriced := h old hold
  exact ⟨hquantity ▸ hpriced.quantity_pos, htax ▸ hpriced.tax_nonneg,
    htax ▸ hnet ▸ hpriced.tax_le, by rw [← htotal, ← hnet, ← htax, hpriced.total]⟩

/-- A pass of the loop of `refund`. -/
theorem refundItem_fair {inventory : InventoryDb} {elsewhere : Elsewhere} {lines : List SaleLine}
    {state state' : RefundState} {item : RequestedLine}
    (hlines : state.lines.map soldLine = lines.map soldLine) (hfair : FairSale state.lines)
    (h : refundItem inventory.product elsewhere state (refundLineOf item) = .ok state') :
    state'.lines.map soldLine = lines.map soldLine ∧ FairSale state'.lines ∧
      ∃ net tax : Money, 0 ≤ tax ∧ tax ≤ net ∧ net + tax ≤ lineWorth lines item.lineId ∧
        state'.booking.net = state.booking.net + net ∧
        state'.booking.tax = state.booking.tax + tax := by
  obtain ⟨now, hfound, h⟩ := bind_eq_ok.mp h
  obtain ⟨_, hremaining, h⟩ := bind_eq_ok.mp h
  obtain ⟨_, -, h⟩ := bind_eq_ok.mp h
  obtain ⟨_, -, h⟩ := bind_eq_ok.mp h
  obtain ⟨net, hnet, h⟩ := bind_eq_ok.mp h
  obtain ⟨tax, htax, h⟩ := bind_eq_ok.mp h
  obtain ⟨_, -, h⟩ := bind_eq_ok.mp h
  cases h
  rw [orRaise_eq_ok] at hfound
  have hmem := List.mem_of_find?_eq_some hfound
  have hnow := hfair.fair now hmem
  obtain ⟨hremains, -⟩ := ite_error_eq_ok.mp hremaining
  have hquantity : item.quantity ≤ now.quantity :=
    (not_lt.mp hremains).trans (Int.sub_le_self _ hnow.refunded_nonneg)
  have hpos := item.quantity_pos.le
  have hnetNonneg := hnow.tax_nonneg.trans hnow.tax_le
  obtain ⟨hnetLt, htaxLt⟩ := hfair.amounts_lt hmem
  have hworth : lineWorth lines item.lineId = now.netAmount + now.taxAmount := by
    have hsold := find_sold hlines item.lineId
    rw [show state.lines.find? (·.id = item.lineId) = some now from hfound, Option.map_some] at hsold
    obtain ⟨old, hold, heq⟩ := Option.map_eq_some_iff.mp hsold.symm
    simp only [soldLine, SaleLine.mk.injEq] at heq
    obtain ⟨-, -, -, -, -, -, hsameNet, hsameTax, -⟩ := heq
    simp [lineWorth, hold, hsameNet, hsameTax]
  refine ⟨(addRefunded_sold _ _ _).trans hlines, hfair.addRefunded hpos, net, tax, ?_, ?_, ?_, rfl, rfl⟩
  · rw [SaleLine.prorate_eq_ok htax]
    exact (share_mono hnow.quantity_pos hnow.tax_nonneg le_rfl hpos le_rfl).1
  · rw [SaleLine.prorate_eq_ok htax, SaleLine.prorate_eq_ok hnet]
    exact (share_mono hnow.quantity_pos hnow.tax_nonneg hnow.tax_le hpos le_rfl).2
  · rw [hworth, SaleLine.prorate_eq_ok htax, SaleLine.prorate_eq_ok hnet]
    have hnetLe := (share_mono hnow.quantity_pos hnetNonneg le_rfl hpos hquantity).2
    have htaxLe := (share_mono hnow.quantity_pos hnow.tax_nonneg le_rfl hpos hquantity).2
    rw [share_full hnow.quantity_pos hnetLt] at hnetLe
    rw [share_full hnow.quantity_pos htaxLt] at htaxLe
    exact add_le_add hnetLe htaxLe

theorem refundItems_step {inventory : InventoryDb} {elsewhere : Elsewhere} {lines : List SaleLine}
    {items : List RequestedLine} {state state' : RefundState}
    (hlines : state.lines.map soldLine = lines.map soldLine) (hfair : FairSale state.lines)
    (h : (items.map refundLineOf).foldlM (refundItem inventory.product elsewhere) state =
      .ok state') :
    FairSale state'.lines ∧ ∃ net tax : Money, 0 ≤ tax ∧ tax ≤ net ∧
      net + tax ≤ (items.map fun item => lineWorth lines item.lineId).sum ∧
      state'.booking.net = state.booking.net + net ∧
      state'.booking.tax = state.booking.tax + tax := by
  induction items generalizing state with
  | nil =>
      cases h
      exact ⟨hfair, 0, 0, le_rfl, le_rfl, by simp, by simp, by simp⟩
  | cons item items ih =>
      rw [List.map_cons, List.foldlM_cons] at h
      obtain ⟨state₁, hfirst, h⟩ := bind_eq_ok.mp h
      obtain ⟨hlines₁, hfair₁, net, tax, htax, hle, hworth, hnet, htax'⟩ :=
        refundItem_fair hlines hfair hfirst
      obtain ⟨hfair', net', tax', htaxs, hles, hworths, hnets, htaxs'⟩ := ih hlines₁ hfair₁ h
      refine ⟨hfair', net + net', tax + tax', add_nonneg htax htaxs, add_le_add hle hles, ?_, ?_, ?_⟩
      · rw [List.map_cons, List.sum_cons, add_add_add_comm]
        exact add_le_add hworth hworths
      · rw [hnets, hnet, add_assoc]
      · rw [htaxs', htax', add_assoc]

/-- Lines of a sale that are named once are worth at most the sale. -/
theorem sum_lineWorth_le {lines : List SaleLine} (hfair : FairSale lines) {ids : List Uuid}
    (hnodup : ids.Nodup) (hids : ∀ id ∈ ids, id ∈ lines.map SaleLine.id) :
    (ids.map (lineWorth lines)).sum ≤
      (lines.map fun line => line.netAmount + line.taxAmount).sum := by
  have hworth : ∀ line ∈ lines, lineWorth lines line.id = line.netAmount + line.taxAmount := by
    intro line hline
    simp [lineWorth, find_line hfair.nodup hline]
  have hall : (lines.map fun line => line.netAmount + line.taxAmount) =
      (lines.map SaleLine.id).map (lineWorth lines) := by
    rw [List.map_map]
    exact List.map_congr_left fun line hline => (hworth line hline).symm
  obtain ⟨ids', hperm, hsub⟩ := List.subperm_of_subset hnodup hids
  rw [hall, ← (hperm.map (lineWorth lines)).sum_eq]
  refine (hsub.map (lineWorth lines)).sum_le_sum fun x hx => ?_
  rw [← hall] at hx
  obtain ⟨line, hline, rfl⟩ := List.mem_map.mp hx
  have hline := hfair.fair line hline
  exact add_nonneg (hline.tax_nonneg.trans hline.tax_le) hline.tax_nonneg

/-- What a refund takes back. -/
theorem refundItems_fair {inventory : InventoryDb} {elsewhere : Elsewhere} {lines : List SaleLine}
    (hfair : FairSale lines) {items : List RequestedLine} (hnodup : (items.map (·.lineId)).Nodup)
    (hitems : ∀ item ∈ items, item.lineId ∈ lines.map SaleLine.id) {state : RefundState}
    (h : (items.map refundLineOf).foldlM (refundItem inventory.product elsewhere)
      ⟨lines, 0, ⟨0, 0, 0, []⟩⟩ = .ok state) :
    FairSale state.lines ∧ 0 ≤ state.booking.tax ∧ state.booking.tax ≤ state.booking.net ∧
      state.booking.net + state.booking.tax < 10 ^ 18 := by
  obtain ⟨hfair', net, tax, htax, hle, hworth, hnet, htax'⟩ := refundItems_step rfl hfair h
  have hbound := sum_lineWorth_le hfair hnodup (by simpa using hitems)
  rw [List.map_map] at hbound
  rw [hnet, htax', zero_add, zero_add]
  exact ⟨hfair', htax, hle, (hworth.trans hbound).trans_lt hfair.total_lt⟩

/-! ## Runs -/

/-- The sales of a tenant are fair. -/
structure FairSales (db : TenantDb) : Prop where
  linked : db.ledger.Linked
  fair : ∀ row ∈ db.pos.sales.rows, FairSale row.sale.lines

theorem fair_refund {payload : RefundCreate} {claim : Except Err (Option Uuid)} (h : FairSales db)
    (hok : Pos.refund request db payload claim = .ok db') :
    ∀ row ∈ db'.pos.sales.rows, FairSale row.sale.lines := by
  obtain ⟨-, rfl⟩ | ⟨hnew, row, state, sale, saleReturn, inventory, returns, sales, rows, hget, hitems,
    hloop, ⟨hlines, -⟩, -, -, hreplace, -, -, htables⟩ := refund_eq_ok h.linked hok
  · exact h.fair
  · have hperm : (payload.sorted row.sale.lines).Perm payload.lines := List.perm_insertionSort _ _
    have hnodup := (hperm.map (·.lineId)).nodup_iff.mpr (refund_names hnew hok)
    have hrefunded := refundItems_fair (h.fair row (Table.get_mem hget).1) hnodup
      (fun item hitem => hitems item (hperm.mem_iff.mp hitem)) hloop
    rw [htables]
    refine Table.forall_replace (Table.get_self hget) hreplace h.fair ?_
    show FairSale sale.lines
    rw [hlines]
    exact hrefunded.1

theorem Op.keeps_fair {op : Op} (h : FairSales db) (hok : op.body request db = .ok db') :
    ∀ row ∈ db'.pos.sales.rows, FairSale row.sale.lines := by
  cases op with
  | openSession payload =>
      obtain ⟨_, htables⟩ := (openSession_eq_ok hok).tables
      rw [htables]
      exact h.fair
  | closeSession id countedCash =>
      obtain ⟨_, htables⟩ := (closeSession_eq_ok hok).tables
      rw [htables]
      exact h.fair
  | checkout payload claim =>
      obtain ⟨-, rfl⟩ | ⟨-, row, _, sales, _, hsale, -, -, -, hinsert, -, -, htables⟩ :=
        checkout_eq_ok h.linked hok
      · exact h.fair
      · rw [htables]
        exact Table.forall_insert hinsert h.fair (Till.checkout_fair hsale)
  | refund payload claim => exact fair_refund h hok
  | _ =>
      rw [(Op.keeps_till h.linked rfl hok).sales]
      exact h.fair

/-- Every sale of a run is fair. -/
theorem TenantDb.run_fair (configuration : Configuration) (calls : List Call) :
    FairSales ((TenantDb.start configuration).run calls) := by
  refine TenantDb.run_invariant ?_ calls ⟨Accounting.LedgerDb.linked_empty, fun row hrow => by cases hrow⟩
  intro db call db' hdb hok
  obtain ⟨_, _, hbooks, -⟩ := Op.books hdb.linked hok
  exact ⟨hbooks.linked, Op.keeps_fair hdb hok⟩

end Nexora.Tenant
