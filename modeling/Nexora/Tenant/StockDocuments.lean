import Nexora.Tenant.StockValue

/-!
# The documents that move stock

Fulfilments, credit notes and goods receipts post what they move.  The till also counts the
cost of products that do not track stock, so checkouts and refunds do so exactly when the two
costs come to one amount.
-/

namespace Nexora.Tenant

open Nexora Nexora.Catalog Nexora.Sales Nexora.Purchasing Nexora.Pos Foundations
open Nexora.Accounting
open Nexora.Inventory (InventoryDb Movement DocumentKind Adds decimal)
open Nexora.Vat (VatTransaction)

/-! ## Requests that post what they move -/

variable {request : Request} {db db' : TenantDb}

/-- Movements were added, and no cost became negative. -/
def AddsAny (db db' : TenantDb) : Prop :=
  ∃ movements, Adds db.inventory movements db'.inventory

theorem Tallied.adds {cost : Movement → UnitCost} {sign : Int} {acc : ℚ}
    (h : Tallied cost sign db.inventory db'.inventory acc) : AddsAny db db' := by
  obtain ⟨movements, hmoved, -⟩ := h
  exact ⟨movements, hmoved.adds⟩

/-- A document that posts the cost it added up is accounted for. -/
theorem Tallied.accounted {cost : Movement → UnitCost} {sign : Int} {acc : ℚ}
    {entries : List Entry} {rows : List VatTransaction}
    (h : Tallied cost sign db.inventory db'.inventory acc) (hsign : sign = 1 ∨ sign = -1)
    (hbooks : Books db entries rows db')
    (hposts : entryPostings anySource "INVENTORY" entries = (amountsOf acc).map (sign * ·))
    (hfits : 0 < acc → |roundHalfUp (acc * 10 ^ 4)| < 10 ^ 18) : Accounted cost db db' := by
  obtain ⟨movements, hmoved, hacc⟩ := h
  rw [hmoved.accounted_iff hsign hbooks, hposts, amountsOf_accumulated hacc hfits]

/-- A request that moves stock between warehouses at most, and posts nothing on the
account. -/
theorem Accounted.of_transfers {cost : Movement → UnitCost} {entries : List Entry}
    {rows : List VatTransaction} (h : Inventory.AddsTransfers db.inventory db'.inventory)
    (hbooks : Books db entries rows db')
    (hposts : entryPostings anySource "INVENTORY" entries = []) : Accounted cost db db' := by
  obtain ⟨movements, hadds, htransfers⟩ := h
  refine ⟨movements, hadds.movements, ?_⟩
  have hfilter : movements.filter (fun m => !m.movementType.isTransfer) = [] := by
    refine List.filter_eq_nil_iff.mpr fun m hm => ?_
    simp [htransfers m hm]
  rw [hbooks.postings, hposts]
  simp [stockAmounts, hfilter]

theorem postings_fulfillment (number : String) (cost : ℚ) :
    entryPostings anySource "INVENTORY" (fulfillmentEntries request number cost) =
      (amountsOf cost).map (-1 * ·) := by
  by_cases hcost : cost ≤ 0
  · simp [fulfillmentEntries, amountsOf, entryPostings, hcost, not_lt.mpr hcost]
  · simp [fulfillmentEntries, amountsOf, entryPostings, anySource, PostingRules.cogsRecognition,
      hcost, not_le.mp hcost]

/-- A pass of the loop of `fulfil`. -/
theorem fulfilLine_tallied {warehouseId fulfillmentId : Uuid} {items : List RequestedLine}
    {inventory : InventoryDb} {state state' : FulfilState} {line : SalesOrderLine}
    (hcosted : inventory.Costed)
    (hstate : Tallied (costBefore inventory) (-1) inventory state.inventory state.cost ∧
      state.inventory.products = inventory.products)
    (h : fulfilLine warehouseId fulfillmentId items state line = .ok state') :
    Tallied (costBefore inventory) (-1) inventory state'.inventory state'.cost ∧
      state'.inventory.products = inventory.products := by
  obtain ⟨htallied, hproducts⟩ := hstate
  simp only [fulfilLine] at h
  split at h
  next =>
    cases h
    exact ⟨htallied, hproducts⟩
  next item _ =>
    split at h
    next =>
      obtain ⟨product, hproduct, h⟩ := bind_eq_ok.mp h
      obtain ⟨inventory', hpost, h⟩ := bind_eq_ok.mp h
      cases h
      rw [orRaise_eq_ok, (anyProduct_congr hproducts).1] at hproduct
      refine ⟨htallied.postStock (.inr rfl) rfl (fun q => ?_)
        (fun m hm hcost => costBefore_eq hproduct hm hcost) (hcosted.costPrice_nonneg hproduct) hpost,
        (postStock_products hpost).trans hproducts⟩
      simp [DocumentKind.signed, DocumentKind.fulfillment]
    next => cases h

theorem accounted_fulfil {orderId : Uuid} {lines : Option (List RequestedLine)}
    (hdb : db.ledger.Linked) (hcosted : db.inventory.Costed)
    (hok : Sales.fulfil request db orderId lines = .ok db') :
    AddsAny db db' ∧ Accounted (costBefore db.inventory) db db' := by
  obtain ⟨order, items, state, number, orders, fulfillments, -, -, hloop, hbooks, htables⟩ :=
    fulfil_eq_ok hdb hok
  obtain ⟨htallied, -⟩ := foldlM_invariant
    (I := fun state : FulfilState =>
      Tallied (costBefore db.inventory) (-1) db.inventory state.inventory state.cost ∧
        state.inventory.products = db.inventory.products)
    (fun _ _ _ _ hstate hpass => fulfilLine_tallied hcosted hstate hpass)
    hloop ⟨.refl _ _ _, rfl⟩
  have hinventory : db'.inventory = state.inventory := by rw [htables]
  rw [← hinventory] at htallied
  refine ⟨htallied.adds, htallied.accounted (.inr rfl) hbooks (postings_fulfillment _ _) fun hpos => ?_⟩
  have hfits := hbooks.fits _ (by
    simp only [fulfillmentEntries, not_le.mpr hpos, if_false]
    exact List.mem_singleton_self _) _ (List.mem_cons_self)
  exact hfits.1

/-- The cost of a credit note is posted where there is one. -/
theorem postings_creditNote (note : CreditNote) {cost : ℚ} (hcost : 0 ≤ cost) :
    entryPostings anySource "INVENTORY" (note.entries cost) = (amountsOf cost).map (1 * ·) := by
  simp only [entryPostings_anySource, CreditNote.entries, List.flatMap_append]
  rcases hcost.eq_or_lt with rfl | hpos
  · split
    · simp [amountsOf, PostingRules.salesReturn]
    · simp [amountsOf, PostingRules.salesReturn]
  · split
    · simp [amountsOf, PostingRules.salesReturn, hpos, hpos.ne']
    · simp [amountsOf, PostingRules.salesReturn, hpos, hpos.ne']

theorem restockLine_tallied {noteId : Uuid} {restocks : Option Uuid} {inventory : InventoryDb}
    {state : CreditState} {productId : Uuid} {item : RequestedLine} {inventory' : InventoryDb}
    {cost : ℚ} (hcosted : inventory.Costed)
    (hstate : Tallied (costBefore inventory) 1 inventory state.inventory state.cost ∧
      state.inventory.products = inventory.products)
    (h : restockLine noteId restocks state productId item = .ok (inventory', cost)) :
    Tallied (costBefore inventory) 1 inventory inventory' cost ∧
      inventory'.products = inventory.products := by
  obtain ⟨htallied, hproducts⟩ := hstate
  simp only [restockLine] at h
  split at h
  next =>
    cases h
    exact ⟨htallied, hproducts⟩
  next =>
    obtain ⟨product, hproduct, h⟩ := bind_eq_ok.mp h
    obtain ⟨inventory₁, hpost, h⟩ := bind_eq_ok.mp h
    cases h
    rw [orRaise_eq_ok, (anyProduct_congr hproducts).1] at hproduct
    refine ⟨htallied.postStock (.inl rfl) rfl (fun q => ?_)
      (fun m hm hcost => costBefore_eq hproduct hm hcost) (hcosted.costPrice_nonneg hproduct) hpost,
      (postStock_products hpost).trans hproducts⟩
    simp [DocumentKind.signed, DocumentKind.creditNote]

theorem creditLine_tallied {restocks : Option Uuid} {inventory : InventoryDb}
    {state state' : CreditState} {row : RequestedLine × Nat} (hcosted : inventory.Costed)
    (hstate : Tallied (costBefore inventory) 1 inventory state.inventory state.cost ∧
      state.inventory.products = inventory.products)
    (h : creditLine request restocks state row = .ok state') :
    Tallied (costBefore inventory) 1 inventory state'.inventory state'.cost ∧
      state'.inventory.products = inventory.products := by
  obtain ⟨line, -, h⟩ := bind_eq_ok.mp h
  split at h
  next =>
    obtain ⟨priced, -, h⟩ := bind_eq_ok.mp h
    obtain ⟨⟨inventory', cost⟩, hrestock, h⟩ := bind_eq_ok.mp h
    cases h
    exact restockLine_tallied hcosted hstate hrestock
  next => cases h

theorem accounted_creditNote {payload : CreditNoteCreate} (hdb : db.ledger.Linked)
    (hcosted : db.inventory.Costed) (hok : Sales.issueCreditNote request db payload = .ok db') :
    AddsAny db db' ∧ Accounted (costBefore db.inventory) db db' := by
  obtain ⟨invoice, state, note, invoices, creditNotes, rows, -, hloop, -, -, -, -, hbooks, htables⟩ :=
    issueCreditNote_eq_ok hdb hok
  obtain ⟨htallied, -⟩ := foldlM_invariant
    (I := fun state : CreditState =>
      Tallied (costBefore db.inventory) 1 db.inventory state.inventory state.cost ∧
        state.inventory.products = db.inventory.products)
    (fun _ _ _ _ hstate hpass => creditLine_tallied hcosted hstate hpass)
    hloop ⟨.refl _ _ _, rfl⟩
  have hcost : 0 ≤ state.cost := by
    obtain ⟨movements, -, hacc⟩ := htallied
    exact hacc.acc_nonneg
  have hinventory : db'.inventory = state.inventory := by rw [htables]
  rw [← hinventory] at htallied
  refine ⟨htallied.adds, htallied.accounted (.inl rfl) hbooks (postings_creditNote note hcost) fun hpos => ?_⟩
  have hmem : PostingLine.ofDebit "INVENTORY" state.cost ∈
      [PostingLine.ofDebit "INVENTORY" state.cost, .ofCredit "COGS" state.cost] :=
    List.mem_cons_self
  refine (hbooks.fits _ (List.mem_append_right _ (List.mem_map_of_mem ?_)) _ hmem).1
  simp [hpos.ne']

theorem postings_receipt (number : String) (cost : ℚ) :
    entryPostings anySource "INVENTORY" (receiptEntries request number cost) =
      (amountsOf cost).map (1 * ·) := by
  by_cases hcost : 0 < cost
  · simp [receiptEntries, amountsOf, entryPostings, anySource, PostingRules.goodsReceipt, hcost]
  · simp [receiptEntries, amountsOf, entryPostings, hcost]

/-- A pass of the loop of `receive`. -/
theorem receiveLine_tallied {warehouseId receiptId : Uuid} {items : List ReceiptLineInput}
    {inventory inventory₀ : InventoryDb} {state state' : ReceiveState} {line : PurchaseOrderLine}
    (hstate : Tallied (costBefore inventory₀) 1 inventory state.inventory state.cost)
    (h : receiveLine warehouseId receiptId items state line = .ok state') :
    Tallied (costBefore inventory₀) 1 inventory state'.inventory state'.cost := by
  simp only [receiveLine] at h
  split at h
  next =>
    cases h
    exact hstate
  next item _ =>
    split at h
    next =>
      obtain ⟨product, -, h⟩ := bind_eq_ok.mp h
      obtain ⟨inventory', hpost, h⟩ := bind_eq_ok.mp h
      cases h
      refine hstate.postStock (.inl rfl) rfl (fun q => ?_) (fun m _ hcost => ?_)
        (item.costOf_nonneg line) hpost
      · simp [DocumentKind.signed, DocumentKind.goodsReceipt]
      · simp [costBefore, hcost]
    next => cases h

theorem accounted_receive {orderId : Uuid} {lines : Option (List ReceiptLineInput)}
    (hdb : db.ledger.Linked) (hok : Purchasing.receive request db orderId lines = .ok db') :
    AddsAny db db' ∧ Accounted (costBefore db.inventory) db db' := by
  obtain ⟨order, items, state, number, orders, receipts, -, -, hloop, -, -, hbooks, htables⟩ :=
    receive_eq_ok hdb hok
  have htallied := foldlM_invariant
    (I := fun state : ReceiveState =>
      Tallied (costBefore db.inventory) 1 db.inventory state.inventory state.cost)
    (fun _ _ _ _ hstate hpass => receiveLine_tallied hstate hpass) hloop (.refl _ _ _)
  have hinventory : db'.inventory = state.inventory := by rw [htables]
  rw [← hinventory] at htallied
  refine ⟨htallied.adds, htallied.accounted (.inl rfl) hbooks (postings_receipt _ _) ?_⟩
  exact receipt_fits hbooks

/-! ## The till -/

/-- The cost of a cart line, where its product counts. -/
def cartLineCost (inventory : InventoryDb) (counts : Product → Bool) (line : CartLine) : ℚ :=
  match inventory.product line.productId with
  | some product =>
      if counts product then decimal line.quantity * (product.costPrice / 10 ^ 6) else 0
  | none => 0

/-- The cost of a cart, over the products that count. -/
def cartCost (inventory : InventoryDb) (counts : Product → Bool) (lines : List CartLine) : ℚ :=
  (lines.map (cartLineCost inventory counts)).sum

theorem cartCost_sorted (inventory : InventoryDb) (counts : Product → Bool)
    (lines : List CartLine) :
    cartCost inventory counts (lines.insertionSort fun a b => a.productId ≤ b.productId) =
      cartCost inventory counts lines :=
  ((List.perm_insertionSort _ lines).map _).sum_eq

/-- The lines of a sale add up the cost of the whole cart. -/
theorem costOf_accumulates {inventory : InventoryDb} {items : List CartLine}
    {lines : List SaleLine} {till : Till} (htill : till.product = inventory.product)
    (hcosted : inventory.Costed)
    (h : List.Forall₂ (fun item line => till.sellLine item = .ok line) items lines) :
    Accumulates 12 (costOf lines) (cartCost inventory (fun _ => true) items) := by
  have hfold : ∀ acc value, Accumulates 12 acc value →
      Accumulates 12 (lines.foldl (fun cost line => addCost cost line.quantity line.unitCost) acc)
        (value + cartCost inventory (fun _ => true) items) := by
    induction h with
    | nil => simp [cartCost]
    | @cons item line items lines hline _ ih =>
        intro acc value hacc
        obtain ⟨hstored, -, hquantity, product, hproduct, hcost⟩ := Till.sellLine_stored hline
        rw [htill] at hproduct
        have hnonneg := hcosted.costPrice_nonneg
          (Inventory.InventoryDb.anyProduct_of_product hproduct)
        have hterm : cartLineCost inventory (fun _ => true) item =
            decimal line.quantity * (line.unitCost / 10 ^ 6) := by
          simp [cartLineCost, hproduct, hquantity, hcost]
        have hstep := ih _ _ (addCost_accumulates hacc hstored.quantity_pos.le (hcost ▸ hnonneg))
        simpa [cartCost, hterm, add_assoc] using hstep
  have hall := hfold 0 0 (.zero 12)
  rw [zero_add] at hall
  exact hall

/-- The stock of a sale moves for the products that track it. -/
theorem sellStock_moved {inventory : InventoryDb} {warehouseId saleId : Uuid}
    {items : List CartLine} {inventory₁ inventory' : InventoryDb} (hcosted : inventory.Costed)
    (hproducts : inventory₁.products = inventory.products)
    (h : items.foldlM (sellStock warehouseId saleId) inventory₁ = .ok inventory') :
    ∃ movements, Moved (costBefore inventory) (-1) inventory₁ movements inventory' ∧
      (-1 : Int) * movedValue (costBefore inventory) movements =
        cartCost inventory (·.isStockTracked) items := by
  induction items generalizing inventory₁ with
  | nil =>
      cases h
      exact ⟨[], .refl _ _ _, by simp [movedValue, cartCost]⟩
  | cons item items ih =>
      rw [List.foldlM_cons] at h
      obtain ⟨inventory₂, hfirst, h⟩ := bind_eq_ok.mp h
      obtain ⟨product, hproduct, hpost⟩ := bind_eq_ok.mp hfirst
      rw [orRaise_eq_ok, (anyProduct_congr hproducts).2] at hproduct
      have hany := Inventory.InventoryDb.anyProduct_of_product hproduct
      have hcost : ∀ m : Movement, m.productId = product.id → m.unitCost = none →
          costBefore inventory m = product.costPrice :=
        fun m hm hnone => costBefore_eq hany hm hnone
      obtain ⟨movements, hmoved, hvalue⟩ := postStock_moved (.inr rfl) rfl
        (fun q => by simp [DocumentKind.signed, DocumentKind.posSale]) hcost
        (hcosted.costPrice_nonneg hany) hpost
      obtain ⟨movements', hmoved', hvalue'⟩ := ih ((postStock_products hpost).trans hproducts) h
      refine ⟨movements ++ movements', hmoved.trans hmoved', ?_⟩
      have hterm : cartLineCost inventory (·.isStockTracked) item =
          if product.isStockTracked then
            decimal item.item.quantity * (product.costPrice / 10 ^ 6) else 0 := by
        simp [cartLineCost, hproduct, CartLine.item]
      rw [movedValue_append, mul_add, hvalue, hvalue', ← hterm]
      simp [cartCost]

theorem postings_sale (row : SaleRow) (hcost : 0 ≤ row.sale.costAmount) :
    entryPostings anySource "INVENTORY" row.entries =
      (amountsOf (row.sale.costAmount / 10 ^ 6)).map (-1 * ·) := by
  simp only [entryPostings_anySource, SaleRow.entries, List.flatMap_cons]
  rcases hcost.eq_or_lt with hzero | hpos
  · rw [← hzero]
    simp [amountsOf, PostingRules.cashSale]
  · have hpos' : (0 : ℚ) < row.sale.costAmount / 10 ^ 6 := by positivity
    simp [amountsOf, PostingRules.cashSale, hpos, hpos']

/-- A figure in the column of the cost was added up exactly. -/
theorem costOf_eq {lines : List SaleLine} {value : ℚ} (h : Accumulates 12 (costOf lines) value)
    (hfits : |roundHalfEven (costOf lines * 10 ^ 6)| < 10 ^ 18) : costOf lines = value := by
  rcases h.exact with hexact | hbig
  · exact hexact
  · have hbig' : (10 : ℚ) ^ 16 ≤ costOf lines := by
      refine le_trans (le_of_eq ?_) hbig
      norm_num
    have hround := abs_roundHalfEven_sub_le (costOf lines * 10 ^ 6)
    have hlt : |(roundHalfEven (costOf lines * 10 ^ 6) : ℚ)| < 10 ^ 18 := by exact_mod_cast hfits
    have hupper := (abs_lt.mp hlt).2
    have hlower := (abs_le.mp hround).1
    generalize (roundHalfEven (costOf lines * 10 ^ 6) : ℚ) = rounded at hupper hlower
    linarith

theorem map_neg_injective : Function.Injective (List.map ((-1 : Money) * ·)) := by
  refine List.map_injective_iff.mpr fun a b h => ?_
  simpa using h

theorem accounted_checkout_iff {payload : CheckoutCreate} {claim : Except Err (Option Uuid)}
    (hdb : db.ledger.Linked) (hcosted : db.inventory.Costed)
    (hok : Pos.checkout request db payload claim = .ok db') :
    AddsAny db db' ∧ (Accounted (costBefore db.inventory) db db' ↔
      replayed claim db.pos.sales.get = true ∨
        amountsOf (roundHalfEven
            (cartCost db.inventory (fun _ => true) payload.lines * 10 ^ 6) / 10 ^ 6) =
          amountsOf (cartCost db.inventory (·.isStockTracked) payload.lines)) := by
  obtain ⟨hreplayed, rfl⟩ | ⟨hreplayed, row, inventory, sales, rows, hsale, hcost, -, hstock, -, -,
    hbooks, htables⟩ := checkout_eq_ok hdb hok
  · simp only [hreplayed, true_or, iff_true]
    exact ⟨⟨[], .refl _⟩, .of_transfers (.of_none (.refl _)) (.refl hdb) rfl⟩
  · obtain ⟨hlines, -, -, hamount, -⟩ := Till.checkout_figures hsale
    have hacc := costOf_accumulates rfl hcosted (mapM_forall₂ hlines)
    rw [cartCost_sorted] at hacc
    rw [hamount] at hcost
    have hexact := costOf_eq hacc hcost
    obtain ⟨movements, hmoved, hvalue⟩ := sellStock_moved hcosted rfl hstock
    rw [cartCost_sorted] at hvalue
    have hinventory : db'.inventory = inventory := by rw [htables]
    rw [← hinventory] at hmoved
    have hnonneg : 0 ≤ row.sale.costAmount := by
      rw [hamount]
      exact roundHalfEven_nonneg (mul_nonneg hacc.acc_nonneg (by norm_num))
    refine ⟨⟨movements, hmoved.adds⟩, ?_⟩
    rw [hmoved.accounted_iff (.inr rfl) hbooks, postings_sale row hnonneg, hvalue, hamount, hexact,
      map_neg_injective.eq_iff]
    simp [hreplayed]

/-! ## Refunds -/

/-- What a refund leaves alone in a line of a sale. -/
def lineFace (line : SaleLine) : Uuid × Uuid × UnitCost := (line.id, line.productId, line.unitCost)

/-- The cost at which a line was sold. -/
def unitCostOf (lines : List SaleLine) (lineId : Uuid) : UnitCost :=
  ((lines.find? (·.id = lineId)).map SaleLine.unitCost).getD 0

/-- The cost at which a product was sold. -/
def soldCost (lines : List SaleLine) (productId : Uuid) : UnitCost :=
  ((lines.find? (·.productId = productId)).map SaleLine.unitCost).getD 0

/-- The costs of a sale are not negative, and a product appears once in it. -/
structure SoldOnce (lines : List SaleLine) : Prop where
  nonneg : ∀ line ∈ lines, 0 ≤ line.unitCost
  nodup : (lines.map SaleLine.productId).Nodup

theorem productOf_refundLineOf (lines : List SaleLine) (item : RequestedLine) :
    productOf lines (refundLineOf item) =
      ((lines.find? (·.id = item.lineId)).map SaleLine.productId).getD 0 := rfl

theorem find_face {lines lines' : List SaleLine} (h : lines'.map lineFace = lines.map lineFace)
    (lineId : Uuid) :
    (lines'.find? (·.id = lineId)).map lineFace = (lines.find? (·.id = lineId)).map lineFace := by
  have hfind : ∀ l : List SaleLine, (l.find? (·.id = lineId)).map lineFace =
      (l.map lineFace).find? (·.1 = lineId) := by
    intro l
    rw [List.find?_map]
    rfl
  rw [hfind, hfind, h]

theorem SoldOnce.congr {lines lines' : List SaleLine} (h : SoldOnce lines)
    (hface : lines'.map lineFace = lines.map lineFace) : SoldOnce lines' := by
  refine ⟨fun line hline => ?_, ?_⟩
  · have hmem : lineFace line ∈ lines.map lineFace := hface ▸ List.mem_map_of_mem hline
    obtain ⟨old, hold, heq⟩ := List.mem_map.mp hmem
    have hcost : old.unitCost = line.unitCost := congrArg (·.2.2) heq
    rw [← hcost]
    exact h.nonneg old hold
  · have hids : lines'.map SaleLine.productId = lines.map SaleLine.productId := by
      have hcongr := congrArg (List.map (·.2.1)) hface
      simpa [lineFace, Function.comp_def] using hcongr
    rw [hids]
    exact h.nodup

/-- A product of a sale is found under its line and under itself. -/
theorem SoldOnce.soldCost_eq {lines : List SaleLine} (h : SoldOnce lines) {item : RequestedLine}
    (hitem : item.lineId ∈ lines.map SaleLine.id) :
    soldCost lines (productOf lines (refundLineOf item)) = unitCostOf lines item.lineId ∧
      0 ≤ unitCostOf lines item.lineId := by
  obtain ⟨line, hline⟩ : ∃ line, lines.find? (·.id = item.lineId) = some line := by
    rw [← Option.isSome_iff_exists, List.find?_isSome]
    obtain ⟨line, hmem, hid⟩ := List.mem_map.mp hitem
    exact ⟨line, hmem, by simp [hid]⟩
  have hmem := List.mem_of_find?_eq_some hline
  have hproduct : productOf lines (refundLineOf item) = line.productId := by
    simp [productOf_refundLineOf, hline]
  have hcost : unitCostOf lines item.lineId = line.unitCost := by simp [unitCostOf, hline]
  rw [hproduct, hcost]
  refine ⟨?_, h.nonneg line hmem⟩
  obtain ⟨found, hfound⟩ : ∃ found, lines.find? (·.productId = line.productId) = some found := by
    rw [← Option.isSome_iff_exists, List.find?_isSome]
    exact ⟨line, hmem, by simp⟩
  have hsame : found = line :=
    List.inj_on_of_nodup_map h.nodup (List.mem_of_find?_eq_some hfound) hmem
      (by simpa using List.find?_some hfound)
  simp [soldCost, hfound, hsame]

theorem addRefunded_face (lines : List SaleLine) (id : Uuid) (quantity : Quantity) :
    (addRefunded lines id quantity).map lineFace = lines.map lineFace := by
  simp only [addRefunded, List.map_map]
  refine List.map_congr_left fun line _ => ?_
  simp only [Function.comp_apply]
  split
  · rfl
  · rfl

/-- The cost of an item of a refund, where its product counts. -/
def refundItemCost (inventory : InventoryDb) (lines : List SaleLine) (counts : Product → Bool)
    (item : RequestedLine) : ℚ :=
  match inventory.product (productOf lines (refundLineOf item)) with
  | some product =>
      if counts product then decimal item.quantity * (unitCostOf lines item.lineId / 10 ^ 6) else 0
  | none => 0

/-- The cost of a refund, over the products that count. -/
def refundCost (db : TenantDb) (counts : Product → Bool) (payload : RefundCreate) : ℚ :=
  match db.pos.sales.get payload.saleId with
  | some row =>
      (payload.lines.map (refundItemCost db.inventory row.sale.lines counts)).sum
  | none => 0

/-- A pass of the loop of `refund`, as far as costs go. -/
theorem refundItem_cost {inventory : InventoryDb} {elsewhere : Elsewhere} {lines : List SaleLine}
    {state state' : RefundState} {item : RequestedLine}
    (hface : state.lines.map lineFace = lines.map lineFace)
    (h : refundItem inventory.product elsewhere state (refundLineOf item) = .ok state') :
    state'.lines.map lineFace = lines.map lineFace ∧
      state'.booking.cost = addCost state.booking.cost item.quantity
        (unitCostOf lines item.lineId) ∧
      ∃ product, inventory.product (productOf lines (refundLineOf item)) = some product := by
  obtain ⟨line, hfound, h⟩ := bind_eq_ok.mp h
  obtain ⟨_, -, h⟩ := bind_eq_ok.mp h
  obtain ⟨product, hproduct, h⟩ := bind_eq_ok.mp h
  obtain ⟨_, -, h⟩ := bind_eq_ok.mp h
  obtain ⟨_, -, h⟩ := bind_eq_ok.mp h
  obtain ⟨_, -, h⟩ := bind_eq_ok.mp h
  obtain ⟨_, -, h⟩ := bind_eq_ok.mp h
  cases h
  rw [orRaise_eq_ok] at hfound hproduct
  have hfind := find_face hface item.lineId
  have hfound' : state.lines.find? (·.id = item.lineId) = some line := hfound
  rw [hfound', Option.map_some] at hfind
  obtain ⟨old, hold, heq⟩ := Option.map_eq_some_iff.mp hfind.symm
  have hcost : unitCostOf lines item.lineId = line.unitCost := by
    have hunit : old.unitCost = line.unitCost := congrArg (·.2.2) heq
    simp [unitCostOf, hold, hunit]
  have hid : productOf lines (refundLineOf item) = line.productId := by
    have hproductId : old.productId = line.productId := congrArg (·.2.1) heq
    simp [productOf_refundLineOf, hold, hproductId]
  refine ⟨(addRefunded_face _ _ _).trans hface, ?_, product, by rw [hid, hproduct]⟩
  rw [hcost]
  simp only [addCost, refundLineOf, mul_comm]

theorem refundItems_cost {inventory : InventoryDb} {elsewhere : Elsewhere}
    {lines : List SaleLine} (hlines : SoldOnce lines) {items : List RequestedLine}
    (hitems : ∀ item ∈ items, item.lineId ∈ lines.map SaleLine.id) {state state' : RefundState}
    {value : ℚ} (hface : state.lines.map lineFace = lines.map lineFace)
    (hacc : Accumulates 12 state.booking.cost value)
    (h : (items.map refundLineOf).foldlM (refundItem inventory.product elsewhere) state =
      .ok state') :
    state'.lines.map lineFace = lines.map lineFace ∧
      Accumulates 12 state'.booking.cost
        (value + (items.map (refundItemCost inventory lines fun _ => true)).sum) := by
  induction items generalizing state value with
  | nil =>
      cases h
      exact ⟨hface, by simpa using hacc⟩
  | cons item items ih =>
      rw [List.map_cons, List.foldlM_cons] at h
      obtain ⟨state₁, hfirst, h⟩ := bind_eq_ok.mp h
      obtain ⟨hface₁, hcost, product, hproduct⟩ := refundItem_cost hface hfirst
      have hnonneg := (hlines.soldCost_eq (hitems item List.mem_cons_self)).2
      have hacc₁ := addCost_accumulates hacc item.quantity_pos.le hnonneg
      rw [← hcost] at hacc₁
      have hrest := ih (fun item hitem => hitems item (List.mem_cons_of_mem _ hitem)) hface₁ hacc₁ h
      have hterm : refundItemCost inventory lines (fun _ => true) item =
          decimal item.quantity * (unitCostOf lines item.lineId / 10 ^ 6) := by
        simp [refundItemCost, hproduct]
      rw [List.map_cons, List.sum_cons, hterm, ← add_assoc]
      exact hrest

/-- The stock of a refund comes back for the products that track it. -/
theorem returnStock_moved {inventory : InventoryDb} {warehouseId returnId : Uuid}
    {lines : List SaleLine} (hlines : SoldOnce lines) {items : List RequestedLine}
    (hitems : ∀ item ∈ items, item.lineId ∈ lines.map SaleLine.id)
    {inventory₁ inventory' : InventoryDb} (hproducts : inventory₁.products = inventory.products)
    (h : items.foldlM (returnStock warehouseId returnId lines) inventory₁ = .ok inventory') :
    ∃ movements, Moved (fun m => soldCost lines m.productId) 1 inventory₁ movements inventory' ∧
      (1 : Int) * movedValue (fun m => soldCost lines m.productId) movements =
        (items.map (refundItemCost inventory lines (·.isStockTracked))).sum := by
  induction items generalizing inventory₁ with
  | nil =>
      cases h
      exact ⟨[], .refl _ _ _, by simp [movedValue]⟩
  | cons item items ih =>
      rw [List.foldlM_cons] at h
      obtain ⟨inventory₂, hfirst, h⟩ := bind_eq_ok.mp h
      obtain ⟨product, hproduct, hpost⟩ := bind_eq_ok.mp hfirst
      rw [orRaise_eq_ok, (anyProduct_congr hproducts).2] at hproduct
      obtain ⟨hsold, hnonneg⟩ := hlines.soldCost_eq (hitems item List.mem_cons_self)
      have hid : product.id = productOf lines (refundLineOf item) :=
        Inventory.InventoryDb.anyProduct_id (Inventory.InventoryDb.anyProduct_of_product hproduct)
      have hcost : ∀ m : Movement, m.productId = product.id → m.unitCost = none →
          (fun m : Movement => soldCost lines m.productId) m = unitCostOf lines item.lineId := by
        intro m hm _
        simp only [hm, hid, hsold]
      obtain ⟨movements, hmoved, hvalue⟩ := postStock_moved (.inl rfl) rfl
        (fun q => by simp [DocumentKind.signed, DocumentKind.posReturn]) hcost hnonneg hpost
      obtain ⟨movements', hmoved', hvalue'⟩ :=
        ih (fun item hitem => hitems item (List.mem_cons_of_mem _ hitem))
          ((postStock_products hpost).trans hproducts) h
      refine ⟨movements ++ movements', hmoved.trans hmoved', ?_⟩
      have hterm : refundItemCost inventory lines (·.isStockTracked) item =
          if product.isStockTracked then
            decimal item.quantity * (unitCostOf lines item.lineId / 10 ^ 6) else 0 := by
        simp [refundItemCost, hproduct]
      rw [movedValue_append, mul_add, hvalue, hvalue', List.map_cons, List.sum_cons, hterm]

theorem postings_refund (row : SaleReturn) {booking : Booking} (hcost : 0 ≤ booking.cost) :
    entryPostings anySource "INVENTORY" (row.entries booking) =
      (amountsOf booking.cost).map (1 * ·) := by
  simp only [entryPostings_anySource, SaleReturn.entries, List.flatMap_append]
  rcases hcost.eq_or_lt with hzero | hpos
  · split
    · simp [amountsOf, PostingRules.posRefund, ← hzero]
    · simp [amountsOf, PostingRules.posRefund, ← hzero]
  · split
    · simp [amountsOf, PostingRules.posRefund, hpos, hpos.ne']
    · simp [amountsOf, PostingRules.posRefund, hpos, hpos.ne']

theorem accounted_refund_iff {payload : RefundCreate} {claim : Except Err (Option Uuid)}
    (hdb : db.ledger.Linked) (hsales : ∀ row ∈ db.pos.sales.rows, SoldOnce row.sale.lines)
    (hok : Pos.refund request db payload claim = .ok db') :
    AddsAny db db' ∧ (Accounted (fun m => ((db.pos.sales.get payload.saleId).map fun row =>
        soldCost row.sale.lines m.productId).getD 0) db db' ↔
      replayed claim db.pos.returns.get = true ∨
        amountsOf (refundCost db (fun _ => true) payload) =
          amountsOf (refundCost db (·.isStockTracked) payload)) := by
  obtain ⟨hreplayed, rfl⟩ | ⟨hreplayed, row, state, sale, saleReturn, inventory, returns, sales, rows,
    hget, hitems, hloop, -, -, hstock, -, -, hbooks, htables⟩ := refund_eq_ok hdb hok
  · simp only [hreplayed, true_or, iff_true]
    exact ⟨⟨[], .refl _⟩, .of_transfers (.of_none (.refl _)) (.refl hdb) rfl⟩
  · have hlines := hsales row (Table.get_mem hget).1
    have hperm : (payload.sorted row.sale.lines).Perm payload.lines := List.perm_insertionSort _ _
    have hsorted : ∀ item ∈ payload.sorted row.sale.lines,
        item.lineId ∈ row.sale.lines.map SaleLine.id :=
      fun item hitem => hitems item (hperm.mem_iff.mp hitem)
    have hsum : ∀ counts, ((payload.sorted row.sale.lines).map
        (refundItemCost db.inventory row.sale.lines counts)).sum = refundCost db counts payload := by
      intro counts
      rw [(hperm.map _).sum_eq]
      simp [refundCost, hget]
    obtain ⟨-, hacc⟩ := refundItems_cost hlines hsorted rfl (.zero 12) hloop
    rw [hsum, zero_add] at hacc
    obtain ⟨movements, hmoved, hvalue⟩ := returnStock_moved hlines hsorted rfl hstock
    rw [hsum] at hvalue
    have hinventory : db'.inventory = inventory := by rw [htables]
    rw [← hinventory] at hmoved
    simp only [hget, Option.map_some, Option.getD_some]
    have hfits : 0 < state.booking.cost → |roundHalfUp (state.booking.cost * 10 ^ 4)| < 10 ^ 18 := by
      intro hpos
      have hmem : PostingLine.ofDebit "INVENTORY" state.booking.cost ∈
          [PostingLine.ofDebit "INVENTORY" state.booking.cost, .ofCredit "COGS" state.booking.cost] :=
        List.mem_cons_self
      refine (hbooks.fits _ (List.mem_append_right _ (List.mem_map_of_mem ?_)) _ hmem).1
      simp [hpos.ne']
    refine ⟨⟨movements, hmoved.adds⟩, ?_⟩
    rw [hmoved.accounted_iff (.inl rfl) hbooks, postings_refund saleReturn hacc.acc_nonneg, hvalue,
      amountsOf_accumulated hacc hfits]
    simp [hreplayed]

end Nexora.Tenant
