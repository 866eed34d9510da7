import Nexora.Pos.Service

/-!
# What the till writes

One theorem for each request that goes through, as for sales.  The amounts of a stored sale
are not negative, and so neither are those of its refunds (`SaleLine.Stored`).
-/

namespace Nexora.Pos

open Nexora Nexora.Catalog Nexora.Sales Nexora.Tenant Foundations
open Nexora.Accounting (Money)
open Nexora.Inventory (InventoryDb)
open Nexora.Vat (VatTransaction)

variable {request : Request} {db db' : TenantDb}

/-! ## Sessions -/

/-- Only the sessions changed, and a number may have been drawn. -/
structure ChangesSessions (db db' : TenantDb) : Prop where
  ledger : db.ledger.SameCodes db'.ledger
  tables : ∃ sessions, db' = { db with
    ledger := db'.ledger
    pos := { db.pos with sessions := sessions } }

theorem openSession_eq_ok {payload : SessionOpen}
    (h : openSession request db payload = .ok db') : ChangesSessions db db' := by
  obtain ⟨terminal, -, h⟩ := bind_eq_ok.mp h
  obtain ⟨_, -, h⟩ := bind_eq_ok.mp h
  obtain ⟨_, -, h⟩ := bind_eq_ok.mp h
  obtain ⟨sessions, -, h⟩ := bind_eq_ok.mp h
  cases h
  exact ⟨Numbering.allocate_sameCodes _ _ _, sessions, rfl⟩

theorem closeSession_eq_ok {sessionId : Uuid} {countedCash : Money}
    (h : closeSession request db sessionId countedCash = .ok db') : ChangesSessions db db' := by
  obtain ⟨⟨session, terminal⟩, -, h⟩ := bind_eq_ok.mp h
  obtain ⟨_, -, h⟩ := bind_eq_ok.mp h
  obtain ⟨_, -, h⟩ := bind_eq_ok.mp h
  obtain ⟨_, -, h⟩ := bind_eq_ok.mp h
  obtain ⟨sessions, -, h⟩ := bind_eq_ok.mp h
  cases h
  exact ⟨.refl _, sessions, rfl⟩

/-! ## Lines of a sale -/

/-- What later requests rely on of the lines of a sale. -/
structure SaleLine.Stored (line : SaleLine) : Prop where
  quantity_pos : 0 < line.quantity
  netAmount_nonneg : 0 ≤ line.netAmount
  taxAmount_nonneg : 0 ≤ line.taxAmount

/-- A line of a sale takes its quantity from the cart and its cost from the product. -/
theorem Till.sellLine_stored {till : Till} {item : CartLine} {line : SaleLine}
    (h : till.sellLine item = .ok line) :
    line.Stored ∧ line.productId = item.productId ∧ line.quantity = item.quantity ∧
      ∃ product, till.product item.productId = some product ∧
        line.unitCost = product.costPrice := by
  obtain ⟨product, hproduct, h⟩ := bind_eq_ok.mp h
  obtain ⟨⟨net, tax, total⟩, htotals, h⟩ := bind_eq_ok.mp h
  obtain ⟨_, -, h⟩ := bind_eq_ok.mp h
  obtain ⟨_, -, h⟩ := bind_eq_ok.mp h
  cases h
  obtain ⟨hnet, htax, -⟩ := lineTotals_nonneg item.quantity_pos.le product.sellingPrice_nonneg
    item.discountRate_le product.taxRate_range.1 htotals
  exact ⟨⟨item.quantity_pos, hnet, htax⟩, rfl, rfl, product, orRaise_eq_ok.mp hproduct, rfl⟩

theorem requireDistinct_eq_ok {ids : List Uuid} {message : String} {u : Unit}
    (h : requireDistinct ids message = .ok u) : ids.Nodup := by
  simp only [requireDistinct] at h
  split at h
  next hnodup => exact hnodup
  next => cases h

/-- The figures of a sale are those of its lines. -/
theorem Till.checkout_figures {till : Till} {items : List CartLine} {payments : List TenderInput}
    {sale : Sale} (h : till.checkout items payments = .ok sale) :
    (items.insertionSort fun a b => a.productId ≤ b.productId).mapM till.sellLine =
        .ok sale.lines ∧
      sale.netAmount = (sale.lines.map SaleLine.netAmount).sum ∧
      sale.taxAmount = (sale.lines.map SaleLine.taxAmount).sum ∧
      sale.costAmount = roundHalfEven (costOf sale.lines * 10 ^ 6) ∧
      (items.map CartLine.productId).Nodup := by
  obtain ⟨_, -, h⟩ := bind_eq_ok.mp h
  obtain ⟨_, hdistinct, h⟩ := bind_eq_ok.mp h
  obtain ⟨lines, hlines, h⟩ := bind_eq_ok.mp h
  obtain ⟨discount, -, h⟩ := bind_eq_ok.mp h
  obtain ⟨_, -, h⟩ := bind_eq_ok.mp h
  obtain ⟨_, -, h⟩ := bind_eq_ok.mp h
  obtain ⟨_, -, h⟩ := bind_eq_ok.mp h
  obtain ⟨_, -, h⟩ := bind_eq_ok.mp h
  obtain ⟨_, -, h⟩ := bind_eq_ok.mp h
  obtain ⟨_, -, h⟩ := bind_eq_ok.mp h
  cases h
  exact ⟨hlines, rfl, rfl, rfl, requireDistinct_eq_ok hdistinct⟩

theorem Till.checkout_stored {till : Till} {items : List CartLine} {payments : List TenderInput}
    {sale : Sale} (h : till.checkout items payments = .ok sale) :
    ∀ line ∈ sale.lines, line.Stored :=
  mapM_forall (fun _ _ hline => (sellLine_stored hline).1) (checkout_figures h).1

/-! ## Checkout -/

theorem storeCostAmount_eq_ok {cost : UnitCost} {u : Unit} (h : storeCostAmount cost = .ok u) :
    |cost| < 10 ^ 18 := by
  simp only [storeCostAmount] at h
  split at h
  next hlt => exact hlt
  next => cases h

/-- A sale is made, or its key shows that it was. -/
theorem checkout_eq_ok {payload : CheckoutCreate} {claim : Except Err (Option Uuid)}
    (hdb : db.ledger.Linked) (h : checkout request db payload claim = .ok db') :
    (replayed claim db.pos.sales.get = true ∧ db' = db) ∨
      (replayed claim db.pos.sales.get = false ∧
      ∃ (row : SaleRow) (inventory : InventoryDb) (sales : Table SaleRow.id)
        (rows : List VatTransaction),
      (tillOf request db).checkout payload.lines payload.payments = .ok row.sale ∧
      |row.sale.costAmount| < 10 ^ 18 ∧
      (row.id = request.documentId ∧ row.payments = payload.payments) ∧
      (payload.lines.insertionSort fun a b => a.productId ≤ b.productId).foldlM
        (sellStock row.warehouseId request.documentId) db.inventory = .ok inventory ∧
      db.pos.sales.insert row = some sales ∧
      row.taxableEvent.recordLines request.vatId (row.sale.lines.map (·.taxable)) = .ok rows ∧
      Books db row.entries rows db' ∧
      db' = { db with
        inventory := inventory
        ledger := db'.ledger
        register := db'.register
        pos := { db.pos with sales := sales } }) := by
  obtain ⟨stored, hclaim, h⟩ := bind_eq_ok.mp h
  split at h
  next existing hexisting =>
    obtain ⟨_, -, h⟩ := bind_eq_ok.mp h
    cases h
    exact .inl ⟨by simp [replayed, hclaim, hexisting], rfl⟩
  next hexisting =>
    obtain ⟨⟨session, terminal⟩, -, h⟩ := bind_eq_ok.mp h
    obtain ⟨_, -, h⟩ := bind_eq_ok.mp h
    obtain ⟨sale, hsale, h⟩ := bind_eq_ok.mp h
    obtain ⟨_, hcost, h⟩ := bind_eq_ok.mp h
    obtain ⟨inventory, hstock, h⟩ := bind_eq_ok.mp h
    obtain ⟨sales, hinsert, h⟩ := bind_eq_ok.mp h
    obtain ⟨rows, hrows, h⟩ := bind_eq_ok.mp h
    obtain ⟨hbooks, hdb'⟩ := TenantDb.book_eq_ok hdb h (Numbering.allocate_sameCodes _ _ _) rfl
    refine .inr ⟨by simp [replayed, hclaim, hexisting], _, inventory, sales, rows, ?_,
      storeCostAmount_eq_ok hcost, ?_, ?_, orRaise_eq_ok.mp hinsert, hrows, hbooks, hdb'⟩
    · exact hsale
    · exact ⟨rfl, rfl⟩
    · exact hstock

/-! ## Refunds -/

/-- A refund so far: its lines, and the sums of its shares. -/
structure RefundState.Stored (state : RefundState) : Prop where
  lines : ∀ line ∈ state.lines, line.Stored
  net : state.booking.net = (state.booking.rateLines.map (·.2.1)).sum
  tax : state.booking.tax = (state.booking.rateLines.map (·.2.2)).sum
  rateLines : ∀ line ∈ state.booking.rateLines, 0 ≤ line.2.1 ∧ 0 ≤ line.2.2

theorem SaleLine.prorate_nonneg {line : SaleLine} {amount m : Money} {quantity : Quantity}
    (hline : 0 < line.quantity) (hamount : 0 ≤ amount) (hquantity : 0 < quantity)
    (h : line.prorate amount quantity = .ok m) : 0 ≤ m := by
  have ha : (0 : ℚ) ≤ amount := by exact_mod_cast hamount
  have hl : (0 : ℚ) < line.quantity := by exact_mod_cast hline
  have hq : (0 : ℚ) < quantity := by exact_mod_cast hquantity
  refine roundMoney_nonneg h ?_
  exact toContext_nonneg (div_nonneg (toContext_nonneg (by positivity)) (by positivity))

theorem addRefunded_stored {lines : List SaleLine} {id : Uuid} {quantity : Quantity}
    (h : ∀ line ∈ lines, line.Stored) : ∀ line ∈ addRefunded lines id quantity, line.Stored := by
  intro line hline
  obtain ⟨old, hold, rfl⟩ := List.mem_map.mp hline
  have hstored := h old hold
  split
  · exact ⟨hstored.quantity_pos, hstored.netAmount_nonneg, hstored.taxAmount_nonneg⟩
  · exact hstored

/-- One pass of the loop keeps the sums. -/
theorem refundItem_stored {product : Uuid → Option Product} {elsewhere : Elsewhere}
    {state state' : RefundState} {item : RefundLine} (hstate : state.Stored)
    (h : refundItem product elsewhere state item = .ok state') : state'.Stored := by
  obtain ⟨line, hfound, h⟩ := bind_eq_ok.mp h
  obtain ⟨_, -, h⟩ := bind_eq_ok.mp h
  obtain ⟨_, -, h⟩ := bind_eq_ok.mp h
  obtain ⟨_, -, h⟩ := bind_eq_ok.mp h
  obtain ⟨net, hnet, h⟩ := bind_eq_ok.mp h
  obtain ⟨tax, htax, h⟩ := bind_eq_ok.mp h
  obtain ⟨_, -, h⟩ := bind_eq_ok.mp h
  cases h
  have hline := hstate.lines line (List.mem_of_find?_eq_some (orRaise_eq_ok.mp hfound))
  refine ⟨addRefunded_stored hstate.lines, ?_, ?_, ?_⟩
  · simp [hstate.net]
  · simp [hstate.tax]
  · intro rateLine hmem
    rcases List.mem_append.mp hmem with hmem | hmem
    · exact hstate.rateLines rateLine hmem
    · rw [List.mem_singleton.mp hmem]
      exact ⟨SaleLine.prorate_nonneg hline.quantity_pos hline.netAmount_nonneg item.quantity_pos
          hnet,
        SaleLine.prorate_nonneg hline.quantity_pos hline.taxAmount_nonneg item.quantity_pos htax⟩

theorem refundItems_stored {product : Uuid → Option Product} {elsewhere : Elsewhere}
    {lines : List SaleLine} {items : List RefundLine} {state : RefundState}
    (hlines : ∀ line ∈ lines, line.Stored)
    (h : items.foldlM (refundItem product elsewhere) ⟨lines, 0, ⟨0, 0, 0, []⟩⟩ = .ok state) :
    state.Stored :=
  foldlM_invariant (I := RefundState.Stored) (fun _ _ _ _ hstate => refundItem_stored hstate) h
    ⟨hlines, rfl, rfl, nofun⟩

/-- The figures of a sale, which a refund leaves alone. -/
structure Sale.SameFigures (sale sale' : Sale) : Prop where
  netAmount : sale'.netAmount = sale.netAmount
  discountAmount : sale'.discountAmount = sale.discountAmount
  taxAmount : sale'.taxAmount = sale.taxAmount
  totalAmount : sale'.totalAmount = sale.totalAmount
  costAmount : sale'.costAmount = sale.costAmount

theorem Sale.storeRefund_eq_ok {sale refunded : Sale} {state : RefundState}
    (h : sale.storeRefund state = .ok refunded) :
    refunded.lines = state.lines ∧ sale.SameFigures refunded := by
  simp only [storeRefund] at h
  split at h
  next =>
    cases h
    exact ⟨rfl, rfl, rfl, rfl, rfl, rfl⟩
  next => cases h

theorem requireLines_eq_ok {lines : List SaleLine} {items : List RefundLine} {u : Unit}
    (h : requireLines lines items = .ok u) :
    ∀ item ∈ items, item.saleLineId ∈ lines.map SaleLine.id := by
  simp only [requireLines] at h
  split at h
  next hall => simpa using hall
  next => cases h

/-- A refund is made, or its key shows that it was. -/
theorem refund_eq_ok {payload : RefundCreate} {claim : Except Err (Option Uuid)}
    (hdb : db.ledger.Linked) (h : refund request db payload claim = .ok db') :
    (replayed claim db.pos.returns.get = true ∧ db' = db) ∨
      (replayed claim db.pos.returns.get = false ∧
      ∃ (row : SaleRow) (state : RefundState) (sale : Sale) (saleReturn : SaleReturn)
        (inventory : InventoryDb) (returns : Table SaleReturn.id) (sales : Table SaleRow.id)
        (rows : List VatTransaction),
      db.pos.sales.get payload.saleId = some row ∧
      (∀ item ∈ payload.lines, item.lineId ∈ row.sale.lines.map SaleLine.id) ∧
      ((payload.sorted row.sale.lines).map refundLineOf).foldlM
        (refundItem db.inventory.product nothingElsewhere) ⟨row.sale.lines, 0, ⟨0, 0, 0, []⟩⟩ =
          .ok state ∧
      (sale.lines = state.lines ∧ row.sale.SameFigures sale) ∧
      (saleReturn.id = request.documentId ∧ saleReturn.amount = state.total ∧
        db.pos.returns.insert saleReturn = some returns) ∧
      (payload.sorted row.sale.lines).foldlM
        (returnStock row.warehouseId request.documentId row.sale.lines) db.inventory =
          .ok inventory ∧
      db.pos.sales.replace row.id { row with sale := sale } = some sales ∧
      saleReturn.taxableEvent.recordLines request.vatId state.booking.rateLines = .ok rows ∧
      Books db (saleReturn.entries state.booking) rows db' ∧
      db' = { db with
        inventory := inventory
        ledger := db'.ledger
        register := db'.register
        pos := { db.pos with sales := sales, returns := returns } }) := by
  obtain ⟨stored, hclaim, h⟩ := bind_eq_ok.mp h
  split at h
  next existing hexisting =>
    cases h
    exact .inl ⟨by simp [replayed, hclaim, hexisting], rfl⟩
  next hexisting =>
    obtain ⟨⟨session, terminal⟩, -, h⟩ := bind_eq_ok.mp h
    obtain ⟨row, hrow, h⟩ := bind_eq_ok.mp h
    obtain ⟨_, -, h⟩ := bind_eq_ok.mp h
    obtain ⟨_, -, h⟩ := bind_eq_ok.mp h
    obtain ⟨_, -, h⟩ := bind_eq_ok.mp h
    obtain ⟨_, hlines, h⟩ := bind_eq_ok.mp h
    obtain ⟨state, hloop, h⟩ := bind_eq_ok.mp h
    obtain ⟨sale, hsale, h⟩ := bind_eq_ok.mp h
    obtain ⟨_, -, h⟩ := bind_eq_ok.mp h
    obtain ⟨inventory, hstock, h⟩ := bind_eq_ok.mp h
    obtain ⟨returns, hinsert, h⟩ := bind_eq_ok.mp h
    obtain ⟨sales, hreplace, h⟩ := bind_eq_ok.mp h
    obtain ⟨rows, hrows, h⟩ := bind_eq_ok.mp h
    obtain ⟨hbooks, hdb'⟩ := TenantDb.book_eq_ok hdb h (Numbering.allocate_sameCodes _ _ _) rfl
    refine .inr ⟨by simp [replayed, hclaim, hexisting], row, state, sale, _, inventory, returns,
      sales, rows, orRaise_eq_ok.mp hrow, fun item hitem => ?_, hloop,
      Sale.storeRefund_eq_ok hsale, ?_, hstock, orRaise_eq_ok.mp hreplace, hrows, hbooks, hdb'⟩
    · exact requireLines_eq_ok hlines (refundLineOf item) (List.mem_map_of_mem hitem)
    · exact ⟨rfl, rfl, orRaise_eq_ok.mp hinsert⟩

end Nexora.Pos
