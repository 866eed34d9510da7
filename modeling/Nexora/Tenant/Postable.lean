import Nexora.Accounting.OpenLedger
import Nexora.Tenant.Drafts
import Nexora.Tenant.FairSales
import Nexora.Tenant.Grni
import Nexora.Tenant.Restocks

/-!
# Documents whose entries the journal accepts

A document that passes the checks of its own service builds its entries (`Op.draft`).  Invoices
and payments always build entries that the journal accepts.  The others do not: the guards of
the services look at amounts before they are rounded, and the till and supplier bills have no
guard for an amount of zero.  `Op.Postable` is the condition, for each kind of document, and
`accepted_iff` says that it is exact.
-/

namespace Nexora.Tenant

open Nexora Nexora.Catalog Nexora.Sales Nexora.Purchasing Nexora.Pos Foundations
open Nexora.Accounting
open Nexora.Accounting.PostingRules (cogsRecognition goodsReceipt)
open Nexora.Inventory (InventoryDb decimal)
open Nexora.Vat (VatTransaction insertRows)

variable {request : Request} {db db' : TenantDb}

/-! ## Costs -/

/-- A cost that posts nothing, or is positive in its column. -/
def PostableCost (value : ℚ) : Prop := value = 0 ∨ Bookable value

instance (value : ℚ) : Decidable (PostableCost value) := inferInstanceAs (Decidable (_ ∨ _))

section Costs

variable {acc value : ℚ} {debitCode creditCode : String}

theorem not_bookable_of_large (h : (10 : ℚ) ^ (28 - ((12 : ℕ) : ℤ)) ≤ value) : ¬Bookable value := by
  rintro ⟨-, hlt⟩
  have hlarge : (10 : ℚ) ^ 16 ≤ value := le_trans (le_of_eq (by norm_num)) h
  linarith

/-- A cost that was added up is posted as its exact value is. -/
theorem bookable_acc_iff (h : Accumulates 12 acc value) : Bookable acc ↔ Bookable value := by
  rcases h.exact with rfl | hacc
  · rfl
  · rcases h.large with rfl | hvalue
    · rfl
    · exact iff_of_false (not_bookable_of_large hacc) (not_bookable_of_large hvalue)

theorem acc_eq_zero_iff (h : Accumulates 12 acc value) : acc = 0 ↔ value = 0 := by
  have hpos : (0 : ℚ) < 10 ^ (28 - ((12 : ℕ) : ℤ)) := zpow_pos (by norm_num) _
  rcases h.exact with rfl | hacc
  · rfl
  · rcases h.large with rfl | hvalue
    · rfl
    · exact iff_of_false (hpos.trans_le hacc).ne' (hpos.trans_le hvalue).ne'

theorem toContext_acc (h : Accumulates 12 acc value) (hbookable : Bookable acc) :
    toContext acc = acc := by
  rcases h.exact with rfl | hacc
  · refine toContext_of_lt h.scaled h.nonneg ?_
    have hlt := hbookable.2
    refine lt_of_lt_of_le ?_ (le_of_eq (by norm_num : (10 : ℚ) ^ 16 = _))
    linarith
  · exact absurd hbookable (not_bookable_of_large hacc)

theorem PostableCost.accepted (h : Accumulates 12 acc value) (hvalue : PostableCost value) :
    acc = 0 ∨ Accepted [.ofDebit debitCode acc, .ofCredit creditCode acc] := by
  rcases hvalue with hzero | hbookable
  · exact .inl ((acc_eq_zero_iff h).mpr hzero)
  · have hacc := (bookable_acc_iff h).mpr hbookable
    exact .inr (accepted_of_bookable h.acc_nonneg (toContext_acc h hacc) hacc)

theorem PostableCost.of_storable (h : Accumulates 12 acc value)
    (hacc : acc = 0 ∨ Storable [.ofDebit debitCode acc, .ofCredit creditCode acc]) :
    PostableCost value := by
  rcases hacc with hzero | hstorable
  · exact .inl ((acc_eq_zero_iff h).mp hzero)
  · exact .inr ((bookable_acc_iff h).mp (bookable_of_storable h.acc_nonneg hstorable))

end Costs

/-! ## The price of a cart -/

/-- What a line of a cart comes to, before it is rounded. -/
def CartLine.worth (inventory : InventoryDb) (line : CartLine) : ℚ :=
  match inventory.product line.productId with
  | some product =>
      decimal line.quantity * (product.sellingPrice / 10 ^ 4) * (1 - line.discountRate / 10 ^ 6)
  | none => 0

/-- A line of the cart comes to half a ten-thousandth or more. -/
def CheckoutCreate.HasPrice (db : TenantDb) (payload : CheckoutCreate) : Prop :=
  ∃ line ∈ payload.lines, 1 / 2 ≤ CartLine.worth db.inventory line * 10 ^ 4

instance (db : TenantDb) (payload : CheckoutCreate) : Decidable (CheckoutCreate.HasPrice db payload) :=
  inferInstanceAs (Decidable (∃ line ∈ payload.lines, _))

section Unrounded

variable {quantity : Quantity} {price : Money} {discountRate : Rate}

theorem discount_scaled (discountRate : Rate) :
    ∃ n : ℤ, (1 - discountRate / 10 ^ 6 : ℚ) = n * (10 : ℚ) ^ (-((6 : ℕ) : ℤ)) := by
  refine ⟨10 ^ 6 - discountRate, ?_⟩
  push_cast
  norm_num
  ring

theorem toContext_discount (h : 0 ≤ discountRate ∧ discountRate ≤ 10 ^ 6) :
    toContext (1 - discountRate / 10 ^ 6) = 1 - discountRate / 10 ^ 6 := by
  have hlow : (0 : ℚ) ≤ discountRate := by exact_mod_cast h.1
  have hhigh : (discountRate : ℚ) ≤ 10 ^ 6 := by exact_mod_cast h.2
  refine toContext_of_lt (discount_scaled discountRate) ?_ ?_
  · linarith
  · norm_num
    linarith

/-- The rounding to 28 digits does not matter to an amount of half a ten-thousandth. -/
theorem half_le_unrounded_iff (hquantity : 0 ≤ quantity) (hprice : 0 ≤ price)
    (hdiscount : 0 ≤ discountRate ∧ discountRate ≤ 10 ^ 6) :
    1 / 2 ≤ toContext (toContext (quantity / 10 ^ 6 * (price / 10 ^ 4)) *
        toContext (1 - discountRate / 10 ^ 6)) * 10 ^ 4 ↔
      1 / 2 ≤ (quantity / 10 ^ 6 * (price / 10 ^ 4) * (1 - discountRate / 10 ^ 6) : ℚ) * 10 ^ 4 := by
  rw [toContext_discount hdiscount]
  have hquantity' : (0 : ℚ) ≤ quantity := by exact_mod_cast hquantity
  have hprice' : (0 : ℚ) ≤ price := by exact_mod_cast hprice
  have hgross : (0 : ℚ) ≤ quantity / 10 ^ 6 * (price / 10 ^ 4) := by positivity
  have hfactor : (0 : ℚ) ≤ 1 - discountRate / 10 ^ 6 := by
    have hhigh : (discountRate : ℚ) ≤ 10 ^ 6 := by exact_mod_cast hdiscount.2
    linarith
  have hscaled : ∃ n : ℤ, (quantity / 10 ^ 6 * (price / 10 ^ 4) : ℚ) =
      n * (10 : ℚ) ^ (-((10 : ℕ) : ℤ)) := by
    refine ⟨quantity * price, ?_⟩
    push_cast
    norm_num
    ring
  rcases toContext_scaled hscaled hgross with hexact | ⟨hrounded, hlarge⟩
  · rw [hexact]
    have hproduct : ∃ n : ℤ, (quantity / 10 ^ 6 * (price / 10 ^ 4) * (1 - discountRate / 10 ^ 6) : ℚ) =
        n * (10 : ℚ) ^ (-((16 : ℕ) : ℤ)) := by
      refine ⟨quantity * price * (10 ^ 6 - discountRate), ?_⟩
      push_cast
      norm_num
      ring
    rcases toContext_scaled hproduct (mul_nonneg hgross hfactor) with hexact | ⟨hrounded, hlarge⟩
    · rw [hexact]
    · norm_num at hrounded hlarge
      exact iff_of_true (by linarith) (by linarith)
  · rcases hdiscount.2.eq_or_lt with rfl | hlt
    · norm_num
    · -- A factor that is not zero has six decimals, so the product is large as well.
      have hstep : (10 : ℚ) ^ (-6 : ℤ) ≤ 1 - discountRate / 10 ^ 6 := by
        have hle : (discountRate : ℚ) ≤ 10 ^ 6 - 1 := by exact_mod_cast Int.le_sub_one_of_lt hlt
        norm_num
        linarith
      have hbig : ∀ x : ℚ, (10 : ℚ) ^ (28 - ((10 : ℕ) : ℤ)) ≤ x →
          (10 : ℚ) ^ (12 : ℤ) ≤ x * (1 - discountRate / 10 ^ 6) := by
        intro x hx
        calc (10 : ℚ) ^ (12 : ℤ) = 10 ^ (28 - ((10 : ℕ) : ℤ)) * 10 ^ (-6 : ℤ) := by norm_num
          _ ≤ x * (1 - discountRate / 10 ^ 6) :=
              mul_le_mul hx hstep (by positivity) ((by positivity : (0 : ℚ) ≤ _).trans hx)
      have hleft := zpow_le_toContext (hbig _ hrounded)
      have hright := hbig _ hlarge
      norm_num at hleft hright
      exact iff_of_true (by linarith) (by linarith)

end Unrounded

/-! ## The condition -/

/-- The value of what a receipt takes in. -/
def receiptValue (db : TenantDb) (orderId : Uuid) (lines : Option (List ReceiptLineInput)) : ℚ :=
  match db.purchasing.orders.get orderId with
  | some order =>
      match order.requested lines with
      | .ok items => (order.lines.map (PurchaseOrderLine.receivedValue db.inventory items)).sum
      | .error _ => 0
  | none => 0

/-- The cost of a sale is kept with six decimals.  It must be none there, or be positive with
four as well. -/
def CheckoutCreate.PostableCart (db : TenantDb) (payload : CheckoutCreate) : Prop :=
  cartCost db.inventory (fun _ => true) payload.lines * 10 ^ 6 ≤ 1 / 2 ∨
    99 / 2 ≤ cartCost db.inventory (fun _ => true) payload.lines * 10 ^ 6

instance (db : TenantDb) (payload : CheckoutCreate) :
    Decidable (CheckoutCreate.PostableCart db payload) :=
  inferInstanceAs (Decidable (_ ∨ _))

/-- The amounts of a document are such that the journal takes its entries. -/
def Op.Postable (db : TenantDb) : Op → Prop
  | .fulfil id lines => PostableCost (shippedValue db id lines)
  | .receive id lines => PostableCost (receiptValue db id lines)
  | .issueBill id => ∀ bill ∈ db.purchasing.bills.get id, 0 < bill.amounts.totalAmount
  | .checkout payload claim =>
      replayed claim db.pos.sales.get = true ∨
        CheckoutCreate.HasPrice db payload ∧ CheckoutCreate.PostableCart db payload
  | .refund payload claim =>
      replayed claim db.pos.returns.get = true ∨
        PostableCost (refundCost db (fun _ => true) payload)
  | _ => True

instance (db : TenantDb) (op : Op) : Decidable (op.Postable db) := by
  unfold Op.Postable
  split <;> infer_instance

/-! ## Entries -/

/-- The journal takes the entries exactly on a condition. -/
structure HingesOn (condition : Prop) (entries : List Entry) : Prop where
  accepted : condition → ∀ e ∈ entries, Accepted e.lines
  storable : (∀ e ∈ entries, Storable e.lines) → condition

section Entries

variable {p q : Prop} {entries entries' : List Entry}

theorem HingesOn.nil (h : p) : HingesOn p [] := ⟨fun _ _ he => (List.not_mem_nil he).elim, fun _ => h⟩

theorem HingesOn.of_accepted (hp : p) (h : ∀ e ∈ entries, Accepted e.lines) : HingesOn p entries :=
  ⟨fun _ => h, fun _ => hp⟩

theorem HingesOn.single {e : Entry} (haccepted : p → Accepted e.lines)
    (hstorable : Storable e.lines → p) : HingesOn p [e] :=
  ⟨fun hp _ he' => List.mem_singleton.mp he' ▸ haccepted hp,
    fun h => hstorable (h e List.mem_cons_self)⟩

theorem HingesOn.append (h : HingesOn p entries) (h' : HingesOn q entries') :
    HingesOn (p ∧ q) (entries ++ entries') := by
  refine ⟨fun hpq e he => ?_, fun hall => ⟨?_, ?_⟩⟩
  · rcases List.mem_append.mp he with he | he
    · exact h.accepted hpq.1 e he
    · exact h'.accepted hpq.2 e he
  · exact h.storable fun e he => hall e (List.mem_append_left _ he)
  · exact h'.storable fun e he => hall e (List.mem_append_right _ he)

theorem HingesOn.congr (h : HingesOn p entries) (hiff : p ↔ q) : HingesOn q entries :=
  ⟨fun hq => h.accepted (hiff.mpr hq), fun hall => hiff.mp (h.storable hall)⟩

/-- An entry of a cost, which is made when there is one. -/
theorem HingesOn.cost {acc value : ℚ} {debitCode creditCode : String} {e : Entry}
    (h : Accumulates 12 acc value)
    (hlines : e.lines = [.ofDebit debitCode acc, .ofCredit creditCode acc]) :
    HingesOn (PostableCost value) (if 0 < acc then [e] else []) := by
  split
  next hpos =>
    refine .single (fun hvalue => ?_) fun hstorable => ?_
    · rw [hlines]
      exact (hvalue.accepted h).resolve_left hpos.ne'
    · exact .of_storable h (.inr (hlines ▸ hstorable))
  next hnot =>
    refine .nil (.inl ((acc_eq_zero_iff h).mp ?_))
    exact le_antisymm (not_lt.mp hnot) h.acc_nonneg

end Entries

/-! ## Documents -/

section Documents

variable {draft : Draft}

theorem hingesOn_fulfil {orderId : Uuid} {lines : Option (List RequestedLine)}
    (hcosted : db.inventory.Costed) (h : fulfilDraft request db orderId lines = .ok draft) :
    HingesOn (PostableCost (shippedValue db orderId lines)) draft.entries := by
  obtain ⟨order, horder, h⟩ := bind_eq_ok.mp h
  obtain ⟨_, -, h⟩ := bind_eq_ok.mp h
  obtain ⟨items, hitems, h⟩ := bind_eq_ok.mp h
  obtain ⟨_, -, h⟩ := bind_eq_ok.mp h
  obtain ⟨state, hloop, h⟩ := bind_eq_ok.mp h
  obtain ⟨_, -, h⟩ := bind_eq_ok.mp h
  obtain ⟨_, -, h⟩ := bind_eq_ok.mp h
  cases h
  have hvalue : shippedValue db orderId lines =
      (order.lines.map (shippedLine db.inventory items)).sum := by
    simp [shippedValue, Sales.findOrder_eq_ok horder, hitems]
  have hacc := fulfilLines_value hcosted rfl (.zero 12) hloop
  rw [zero_add, ← hvalue] at hacc
  show HingesOn _ (fulfillmentEntries _ _ _)
  simp only [fulfillmentEntries, ← not_lt, ite_not]
  exact .cost hacc rfl

theorem hingesOn_receive {orderId : Uuid} {lines : Option (List ReceiptLineInput)}
    (h : receiveDraft request db orderId lines = .ok draft) :
    HingesOn (PostableCost (receiptValue db orderId lines)) draft.entries := by
  obtain ⟨order, horder, h⟩ := bind_eq_ok.mp h
  obtain ⟨_, -, h⟩ := bind_eq_ok.mp h
  obtain ⟨items, hitems, h⟩ := bind_eq_ok.mp h
  obtain ⟨_, -, h⟩ := bind_eq_ok.mp h
  obtain ⟨state, hloop, h⟩ := bind_eq_ok.mp h
  obtain ⟨_, -, h⟩ := bind_eq_ok.mp h
  obtain ⟨_, -, h⟩ := bind_eq_ok.mp h
  cases h
  have hvalue : receiptValue db orderId lines =
      (order.lines.map (PurchaseOrderLine.receivedValue db.inventory items)).sum := by
    simp [receiptValue, Purchasing.findOrder_eq_ok horder, hitems]
  have hacc := receiveLines_accumulates (.zero 12) rfl hloop
  rw [zero_add, ← hvalue] at hacc
  exact .cost hacc rfl

theorem accepted_invoice (invoice : Invoice) (number : String) :
    ∀ e ∈ invoice.entries number, Accepted e.lines := by
  simp only [Invoice.entries]
  split
  next => exact fun e he => (List.not_mem_nil he).elim
  next hpos =>
    intro e he
    rw [List.mem_singleton.mp he]
    exact debitSplit_accepted (invoice_net_pos invoice (not_le.mp hpos))
      invoice.amounts.taxAmount_nonneg invoice.amounts.total_lt

theorem accepted_issueInvoice {invoiceId : Uuid} {claim : Except Err (Option Uuid)}
    (h : issueInvoiceDraft request db invoiceId claim = .ok draft) :
    ∀ e ∈ draft.entries, Accepted e.lines := by
  obtain ⟨stored, -, h⟩ := bind_eq_ok.mp h
  split at h
  next =>
    obtain ⟨_, -, h⟩ := bind_eq_ok.mp h
    cases h
    exact fun e he => (List.not_mem_nil he).elim
  next =>
    obtain ⟨invoice, -, h⟩ := bind_eq_ok.mp h
    obtain ⟨_, -, h⟩ := bind_eq_ok.mp h
    obtain ⟨_, -, h⟩ := bind_eq_ok.mp h
    obtain ⟨_, -, h⟩ := bind_eq_ok.mp h
    cases h
    exact accepted_invoice invoice _

/-- A payment has an amount, on both sides. -/
theorem accepted_amount {amount : Money} {debitCode creditCode : String} (hpos : 0 < amount)
    (hlt : amount < 10 ^ 18) :
    Accepted [.ofDebit debitCode (money amount), .ofCredit creditCode (money amount)] := by
  have hcarries : Carries [.ofDebit debitCode (money amount), .ofCredit creditCode (money amount)]
      [(amount, 0), (0, amount)] := by
    simp [Carries, PostingLine.ofDebit, PostingLine.ofCredit, money]
  refine hcarries.accepted (by simp) ?_ (by simpa using hlt) (by simp)
  simp [OneSide, hpos]

theorem accepted_customerPayment {payload : PaymentCreate} {claim : Except Err (Option Uuid)}
    (h : customerPaymentDraft request db payload claim = .ok draft) :
    ∀ e ∈ draft.entries, Accepted e.lines := by
  obtain ⟨_, -, h⟩ := bind_eq_ok.mp h
  obtain ⟨stored, -, h⟩ := bind_eq_ok.mp h
  split at h
  next =>
    cases h
    exact fun e he => (List.not_mem_nil he).elim
  next =>
    obtain ⟨_, -, h⟩ := bind_eq_ok.mp h
    obtain ⟨payment, -, h⟩ := bind_eq_ok.mp h
    obtain ⟨_, -, h⟩ := bind_eq_ok.mp h
    obtain ⟨_, -, h⟩ := bind_eq_ok.mp h
    cases h
    intro e he
    rw [List.mem_singleton.mp he]
    exact accepted_amount payload.amount_positive payload.amount_lt

theorem accepted_supplierPayment {payload : SupplierPaymentCreate}
    {claim : Except Err (Option Uuid)}
    (h : supplierPaymentDraft request db payload claim = .ok draft) :
    ∀ e ∈ draft.entries, Accepted e.lines := by
  obtain ⟨_, -, h⟩ := bind_eq_ok.mp h
  obtain ⟨stored, -, h⟩ := bind_eq_ok.mp h
  split at h
  next =>
    cases h
    exact fun e he => (List.not_mem_nil he).elim
  next =>
    obtain ⟨_, -, h⟩ := bind_eq_ok.mp h
    obtain ⟨payment, -, h⟩ := bind_eq_ok.mp h
    obtain ⟨_, -, h⟩ := bind_eq_ok.mp h
    obtain ⟨_, -, h⟩ := bind_eq_ok.mp h
    cases h
    intro e he
    rw [List.mem_singleton.mp he]
    exact accepted_amount payload.amount_positive payload.amount_lt

theorem hingesOn_issueBill {billId : Uuid} (h : issueBillDraft request db billId = .ok draft) :
    HingesOn (∀ bill ∈ db.purchasing.bills.get billId, 0 < bill.amounts.totalAmount)
      draft.entries := by
  obtain ⟨bill, hbill, h⟩ := bind_eq_ok.mp h
  obtain ⟨_, -, h⟩ := bind_eq_ok.mp h
  obtain ⟨_, -, h⟩ := bind_eq_ok.mp h
  obtain ⟨_, -, h⟩ := bind_eq_ok.mp h
  cases h
  have hget := Purchasing.findBill_eq_ok hbill
  refine HingesOn.single (fun hpos => ?_) fun hstorable => ?_
  · exact creditSplit_accepted (bill_net_pos bill (hpos bill hget)) bill.amounts.taxAmount_nonneg
      bill.amounts.total_lt
  · intro bill' hbill'
    cases hget.symm.trans hbill'
    have hnet := net_pos_of_creditSplit bill.amounts.netAmount_nonneg
      bill.amounts.taxAmount_nonneg bill.amounts.total_lt hstorable
    exact add_pos_of_pos_of_nonneg hnet bill.amounts.taxAmount_nonneg

theorem hingesOn_refund {payload : RefundCreate} {claim : Except Err (Option Uuid)}
    (hsales : ∀ row ∈ db.pos.sales.rows, SoldOnce row.sale.lines ∧ FairSale row.sale.lines)
    (h : refundDraft request db payload claim = .ok draft) :
    HingesOn (replayed claim db.pos.returns.get = true ∨
      PostableCost (refundCost db (fun _ => true) payload)) draft.entries := by
  obtain ⟨stored, hclaim, h⟩ := bind_eq_ok.mp h
  split at h
  next existing hexisting =>
    cases h
    exact .nil (.inl (by simp [replayed, hclaim, hexisting]))
  next hexisting =>
    have hnew : replayed claim db.pos.returns.get = false := by simp [replayed, hclaim, hexisting]
    obtain ⟨⟨session, terminal⟩, -, h⟩ := bind_eq_ok.mp h
    obtain ⟨row, hrow, h⟩ := bind_eq_ok.mp h
    obtain ⟨_, -, h⟩ := bind_eq_ok.mp h
    obtain ⟨_, -, h⟩ := bind_eq_ok.mp h
    obtain ⟨_, hdistinct, h⟩ := bind_eq_ok.mp h
    obtain ⟨_, hlines, h⟩ := bind_eq_ok.mp h
    obtain ⟨state, hloop, h⟩ := bind_eq_ok.mp h
    obtain ⟨sale, -, h⟩ := bind_eq_ok.mp h
    obtain ⟨_, -, h⟩ := bind_eq_ok.mp h
    obtain ⟨inventory, -, h⟩ := bind_eq_ok.mp h
    obtain ⟨returns, -, h⟩ := bind_eq_ok.mp h
    obtain ⟨sales, -, h⟩ := bind_eq_ok.mp h
    obtain ⟨rows, -, h⟩ := bind_eq_ok.mp h
    cases h
    rw [orRaise_eq_ok] at hrow
    obtain ⟨hsold, hfair⟩ := hsales row (Table.get_mem hrow).1
    have hperm : (payload.sorted row.sale.lines).Perm payload.lines := List.perm_insertionSort _ _
    have hitems : ∀ item ∈ payload.sorted row.sale.lines,
        item.lineId ∈ row.sale.lines.map SaleLine.id := fun item hitem =>
      requireLines_eq_ok hlines (refundLineOf item) (List.mem_map_of_mem (hperm.mem_iff.mp hitem))
    have hnodup := (hperm.map (·.lineId)).nodup_iff.mpr (requireDistinct_eq_ok hdistinct)
    obtain ⟨-, htax, htax_le, hlt⟩ := refundItems_fair hfair hnodup hitems hloop
    have hacc := (refundItems_cost hsold hitems rfl (.zero 12) hloop).2
    have hvalue : refundCost db (fun _ => true) payload =
        ((payload.sorted row.sale.lines).map
          (refundItemCost db.inventory row.sale.lines fun _ => true)).sum := by
      simp only [refundCost, hrow]
      exact ((hperm.map _).sum_eq).symm
    rw [zero_add, ← hvalue] at hacc
    -- The amount is none, or its net part is positive.
    have hrevenue : ∀ e : Entry, e.lines = (PostingRules.posRefund (money state.booking.net)
        (money state.booking.tax) state.booking.cost true).1 →
        HingesOn True (if 0 < state.booking.net + state.booking.tax then [e] else []) := by
      intro e he
      split
      next hpos =>
        refine .single (fun _ => ?_) fun _ => trivial
        rw [he]
        refine creditSplit_accepted ?_ htax hlt
        by_contra hnet
        have hzero := not_lt.mp hnet
        exact absurd hpos (not_lt.mpr (add_nonpos hzero (htax_le.trans hzero)))
      next => exact .nil trivial
    have hcost : ∀ e : List PostingLine → Entry, (∀ lines, (e lines).lines = lines) →
        HingesOn (PostableCost (refundCost db (fun _ => true) payload))
          ((PostingRules.posRefund (money state.booking.net) (money state.booking.tax)
            state.booking.cost true).2.toList.map e) := by
      intro e he
      have hcosts := HingesOn.cost (e := e [.ofDebit "INVENTORY" state.booking.cost,
        .ofCredit "COGS" state.booking.cost]) hacc (he _)
      rcases hacc.acc_nonneg.eq_or_lt with hzero | hpos
      · simpa [PostingRules.posRefund, ← hzero] using hcosts
      · simpa [PostingRules.posRefund, hpos, hpos.ne'] using hcosts
    refine (HingesOn.append (hrevenue _ rfl) (hcost _ fun _ => rfl)).congr ?_
    simp [hnew]

/-! ## Checkout -/

theorem roundHalfUp_pos_iff {x : ℚ} (h : 0 ≤ x) : 0 < roundHalfUp x ↔ 1 / 2 ≤ x := by
  rw [roundHalfUp_of_nonneg h, Int.lt_iff_add_one_le, Int.le_floor]
  norm_num
  constructor
  · intro hx
    linarith
  · intro hx
    linarith

/-- A line of a sale has an amount when its cart line comes to one. -/
theorem Till.sellLine_net_pos {till : Till} {item : CartLine} {line : SaleLine}
    (hproduct : till.product = db.inventory.product) (h : till.sellLine item = .ok line) :
    0 < line.netAmount ↔ 1 / 2 ≤ CartLine.worth db.inventory item * 10 ^ 4 := by
  obtain ⟨product, hfound, h⟩ := bind_eq_ok.mp h
  obtain ⟨⟨net, tax, total⟩, htotals, h⟩ := bind_eq_ok.mp h
  obtain ⟨_, -, h⟩ := bind_eq_ok.mp h
  obtain ⟨_, -, h⟩ := bind_eq_ok.mp h
  cases h
  rw [orRaise_eq_ok, hproduct] at hfound
  obtain ⟨net', hnet, htotals⟩ := bind_eq_ok.mp htotals
  obtain ⟨tax', -, htotals⟩ := bind_eq_ok.mp htotals
  cases htotals
  have hprice : (0 : ℚ) ≤ product.sellingPrice := by exact_mod_cast product.sellingPrice_nonneg
  have hdiscount : (0 : ℚ) ≤ 1 - item.discountRate / 10 ^ 6 := by
    have hle : (item.discountRate : ℚ) ≤ 10 ^ 6 := by exact_mod_cast item.discountRate_le
    linarith
  have hunrounded : 0 ≤ toContext (toContext (item.quantity / 10 ^ 6 *
      (product.sellingPrice / 10 ^ 4)) * toContext (1 - item.discountRate / 10 ^ 6)) :=
    toContext_nonneg (mul_nonneg (gross_nonneg item.quantity_pos.le (by positivity))
      (toContext_nonneg hdiscount))
  show 0 < net ↔ _
  rw [roundMoney_eq_ok hnet, roundHalfUp_pos_iff (mul_nonneg hunrounded (by norm_num)),
    half_le_unrounded_iff item.quantity_pos.le product.sellingPrice_nonneg
      ⟨item.discountRate_nonneg, item.discountRate_le⟩]
  simp only [CartLine.worth, hfound, decimal]

theorem Till.checkout_net_pos {till : Till} {payload : CheckoutCreate} {sale : Sale}
    (hproduct : till.product = db.inventory.product)
    (h : till.checkout payload.lines payload.payments = .ok sale) :
    0 < sale.netAmount ↔ CheckoutCreate.HasPrice db payload := by
  obtain ⟨hlines, hnet, -⟩ := Till.checkout_figures h
  have hsold := mapM_forall₂ hlines
  have hfair := (Till.checkout_fair h).fair
  have hnonneg : ∀ x ∈ sale.lines.map SaleLine.netAmount, 0 ≤ x := by
    intro x hx
    obtain ⟨line, hline, rfl⟩ := List.mem_map.mp hx
    exact (hfair line hline).tax_nonneg.trans (hfair line hline).tax_le
  rw [hnet]
  constructor
  · intro hpos
    have hzero : (sale.lines.map fun _ => (0 : Money)).sum = 0 := by simp
    rw [← hzero] at hpos
    obtain ⟨line, hline, hline_pos⟩ := List.exists_lt_of_sum_lt _ _ hpos
    obtain ⟨item, hitem, hmade⟩ := exists_of_forall₂ hsold hline
    exact ⟨item, (List.mem_insertionSort _).mp hitem,
      (Till.sellLine_net_pos hproduct hmade).mp hline_pos⟩
  · rintro ⟨item, hitem, hworth⟩
    obtain ⟨line, hline, hmade⟩ :=
      exists_of_forall₂ hsold.flip ((List.mem_insertionSort _).mpr hitem)
    exact ((Till.sellLine_net_pos hproduct hmade).mpr hworth).trans_le
      (List.single_le_sum hnonneg _ (List.mem_map_of_mem hline))

/-- A cost that is kept with six decimals, and then posted with four. -/
theorem HingesOn.kept {value : ℚ} {kept : UnitCost} {debitCode creditCode : String} {e : Entry}
    (hkept : kept = roundHalfEven (value * 10 ^ 6)) (hfits : |kept| < 10 ^ 18)
    (hlines : e.lines = [.ofDebit debitCode (kept / 10 ^ 6), .ofCredit creditCode (kept / 10 ^ 6)]) :
    HingesOn (value * 10 ^ 6 ≤ 1 / 2 ∨ 99 / 2 ≤ value * 10 ^ 6) (if 0 < kept then [e] else []) := by
  have hsome : kept ≤ 0 ↔ value * 10 ^ 6 ≤ 1 / 2 := by
    rw [hkept, roundHalfEven_le_even_iff (by decide)]
    norm_num
  have hlarge : 50 ≤ kept ↔ 99 / 2 ≤ value * 10 ^ 6 := by
    rw [hkept, even_le_roundHalfEven_iff (by decide)]
    norm_num
  have hbookable : Bookable (kept / 10 ^ 6) ↔ 50 ≤ kept := by
    have hupper : (kept : ℚ) < 10 ^ 18 := by exact_mod_cast (le_abs_self kept).trans_lt hfits
    have hcast : (50 : ℚ) ≤ kept ↔ 50 ≤ kept := by exact_mod_cast Iff.rfl
    rw [Bookable, ← hcast]
    constructor
    · rintro ⟨hlower, -⟩
      linarith
    · intro hlower
      exact ⟨by linarith, by linarith⟩
  rw [← hsome, ← hlarge, ← hbookable]
  split
  next hpos =>
    have hnonneg : (0 : ℚ) ≤ kept / 10 ^ 6 := by
      have hcast : (0 : ℚ) < kept := by exact_mod_cast hpos
      positivity
    have hdigits : toContext ((kept : ℚ) / 10 ^ 6) = kept / 10 ^ 6 := by
      refine toContext_of_digits (n := kept) (k := -6) ?_ (hfits.trans (by norm_num))
      norm_num [div_eq_mul_inv]
    refine .single (fun h => ?_) fun hstorable => ?_
    · rw [hlines]
      exact accepted_of_bookable hnonneg hdigits (h.resolve_left (not_le.mpr hpos))
    · exact .inr (bookable_of_storable hnonneg (hlines ▸ hstorable))
  next hnot => exact .nil (.inl (not_lt.mp hnot))

theorem hingesOn_checkout {payload : CheckoutCreate} {claim : Except Err (Option Uuid)}
    (hcosted : db.inventory.Costed) (h : checkoutDraft request db payload claim = .ok draft) :
    HingesOn (replayed claim db.pos.sales.get = true ∨
      CheckoutCreate.HasPrice db payload ∧ CheckoutCreate.PostableCart db payload)
        draft.entries := by
  obtain ⟨stored, hclaim, h⟩ := bind_eq_ok.mp h
  split at h
  next existing hexisting =>
    obtain ⟨_, -, h⟩ := bind_eq_ok.mp h
    cases h
    exact .nil (.inl (by simp [replayed, hclaim, hexisting]))
  next hexisting =>
    have hnew : replayed claim db.pos.sales.get = false := by simp [replayed, hclaim, hexisting]
    obtain ⟨⟨session, terminal⟩, -, h⟩ := bind_eq_ok.mp h
    obtain ⟨_, -, h⟩ := bind_eq_ok.mp h
    obtain ⟨sale, hsale, h⟩ := bind_eq_ok.mp h
    obtain ⟨_, hstored, h⟩ := bind_eq_ok.mp h
    obtain ⟨inventory, -, h⟩ := bind_eq_ok.mp h
    obtain ⟨sales, -, h⟩ := bind_eq_ok.mp h
    obtain ⟨rows, -, h⟩ := bind_eq_ok.mp h
    cases h
    have hfits := storeCostAmount_eq_ok hstored
    obtain ⟨hlines, hnet, htax, hcost, -⟩ := Till.checkout_figures hsale
    have hfair := Till.checkout_fair hsale
    have hacc := costOf_accumulates (show (tillOf request db).product = db.inventory.product from rfl)
      hcosted (mapM_forall₂ hlines)
    rw [cartCost_sorted] at hacc
    rw [costOf_eq hacc (hcost ▸ hfits)] at hcost
    have hnonneg : 0 ≤ sale.taxAmount ∧ sale.taxAmount ≤ sale.netAmount := by
      rw [hnet, htax]
      refine ⟨List.sum_nonneg ?_, List.sum_le_sum fun line hline => (hfair.fair line hline).tax_le⟩
      simpa using fun line hline => (hfair.fair line hline).tax_nonneg
    have hlt : sale.netAmount + sale.taxAmount < 10 ^ 18 := by
      rw [hnet, htax, ← List.sum_map_add]
      exact hfair.total_lt
    have hrevenue : ∀ e : Entry, e.lines = debitSplit "CASH" "SALES_REVENUE" "VAT_OUTPUT"
        sale.netAmount sale.taxAmount → HingesOn (CheckoutCreate.HasPrice db payload) [e] := by
      intro e he
      rw [← Till.checkout_net_pos (by rfl) hsale]
      refine .single (fun hpos => ?_) fun hstorable => ?_
      · rw [he]
        exact debitSplit_accepted hpos hnonneg.1 hlt
      · exact net_pos_of_debitSplit (hnonneg.1.trans hnonneg.2) hnonneg.1 hlt (he ▸ hstorable)
    refine (HingesOn.append (hrevenue _ rfl) (.kept hcost hfits rfl)).congr ?_
    simp [hnew, CheckoutCreate.PostableCart]

/-! ## Requests -/

theorem Op.hingesOn {op : Op} (hdb : Costs db) (hfair : FairSales db)
    (h : op.drafted request db = some draft) : HingesOn (op.Postable db) draft.entries := by
  rw [Op.drafted_eq_some] at h
  cases op with
  | fulfil id lines => exact hingesOn_fulfil hdb.costed (Option.some.inj h)
  | issueInvoice id claim => exact .of_accepted trivial (accepted_issueInvoice (Option.some.inj h))
  | recordCustomerPayment payload claim =>
      exact .of_accepted trivial (accepted_customerPayment (Option.some.inj h))
  | receive id lines => exact hingesOn_receive (Option.some.inj h)
  | issueBill id => exact hingesOn_issueBill (Option.some.inj h)
  | recordSupplierPayment payload claim =>
      exact .of_accepted trivial (accepted_supplierPayment (Option.some.inj h))
  | checkout payload claim => exact hingesOn_checkout hdb.costed (Option.some.inj h)
  | refund payload claim =>
      exact hingesOn_refund (fun row hrow => ⟨hdb.sales row hrow, hfair.fair row hrow⟩)
        (Option.some.inj h)
  | _ => cases h

theorem HingesOn.accepted_iff {condition : Prop} {entries : List Entry}
    (h : HingesOn condition entries) : (∀ e ∈ entries, Accepted e.lines) ↔ condition :=
  ⟨fun hall => h.storable fun e he => (hall e he).toStorable, h.accepted⟩

theorem posts_lines (request : Request) (entries : List Entry) :
    (request.posts entries).map (·.lines) = entries.map (·.lines) := by
  conv_rhs => rw [← List.zipIdx_map_fst 0 entries, List.map_map]
  rw [Request.posts, List.map_map]
  rfl

/-- Where the books are open, a draft is booked exactly on the condition of its entries. -/
theorem HingesOn.book_iff {condition : Prop} (h : HingesOn condition draft.entries)
    (hopen : draft.tables.ledger.OpenFor request.env (request.posts draft.entries))
    (hregister : (insertRows draft.tables.register draft.rows).isOk = true) :
    (draft.book request).isOk = true ↔ condition := by
  have hlines : ∀ {P : List PostingLine → Prop}, (∀ r ∈ request.posts draft.entries, P r.lines) ↔
      ∀ e ∈ draft.entries, P e.lines := by
    intro P
    have hall : (∀ lines ∈ (request.posts draft.entries).map (·.lines), P lines) ↔
        ∀ lines ∈ draft.entries.map (·.lines), P lines := by rw [posts_lines]
    simpa only [List.forall_mem_map] using hall
  constructor
  · intro hok
    cases hbook : draft.book request with
    | error e =>
        rw [hbook] at hok
        cases hok
    | ok db' =>
        obtain ⟨ledger, hledger, -⟩ := bind_eq_ok.mp hbook
        exact h.storable (hlines.mp (LedgerDb.request_storable hledger))
  · intro hcondition
    obtain ⟨ledger, hledger⟩ := hopen.request (hlines.mpr (h.accepted hcondition))
    cases hrows : insertRows draft.tables.register draft.rows with
    | error e =>
        rw [hrows] at hregister
        cases hregister
    | ok register =>
        rw [Draft.book, TenantDb.book, hledger]
        show (insertRows draft.tables.register draft.rows >>= _).isOk = true
        rw [hrows]
        rfl

end Documents

/-- After any run of requests, the entries of a document whose own checks pass are accepted
exactly when its amounts are postable, and where the books are open the request goes through
exactly then. -/
theorem documents_postable_iff (configuration : Configuration) (calls : List Call) (call : Call)
    {draft : Draft}
    (h : call.op.drafted call.request ((TenantDb.start configuration).run calls) = some draft) :
    ((∀ e ∈ draft.entries, Accepted e.lines) ↔
        call.op.Postable ((TenantDb.start configuration).run calls)) ∧
      (draft.tables.ledger.OpenFor call.request.env (call.request.posts draft.entries) →
        (insertRows draft.tables.register draft.rows).isOk = true →
          (((TenantDb.start configuration).run calls).commits call = true ↔
            call.op.Postable ((TenantDb.start configuration).run calls))) := by
  have hinges := Op.hingesOn (TenantDb.run_costs configuration calls)
    (TenantDb.run_fair configuration calls) h
  refine ⟨hinges.accepted_iff, fun hopen hregister => ?_⟩
  have hbody := Op.body_eq (Op.drafted_eq_some.mp h)
  rw [← hinges.book_iff hopen hregister, TenantDb.commits, hbody]
  rfl

/-! ## A sale of a service -/

/-- The shop with its books set up, and its till open. -/
def openCorner : TenantDb :=
  (TenantDb.start corner).run
    [readBooks,
      ⟨cornerRequest 1, .openSession ⟨5, 0, Sample.zero_money⟩⟩]

/-- A service is sold at a discount, and paid in cash. -/
def cornerService (discountRate : Rate) (h : 0 ≤ discountRate ∧ discountRate ≤ 10 ^ 6)
    (payment : TenderInput) : Call where
  request := cornerRequest 2
  op := .checkout
    { sessionId := 1
      customerId := none
      lines := [⟨8, 1000000, discountRate, Sample.onePiece_pos, Sample.onePiece_lt,
        Sample.rate_nonneg h, Sample.rate_le h⟩]
      payments := [payment] } (.ok none)

/-- At its price. -/
def pricedService : Call := cornerService 0 Sample.zero_rate ⟨.cash, 57500, 0⟩

/-- For nothing: a coin is taken and given back. -/
def freeService : Call := cornerService 1000000 (by decide) ⟨.cash, 10000, 10000⟩

def Call.cornerDraft (call : Call) (h : (call.op.drafted call.request openCorner).isSome) : Draft :=
  (call.op.drafted call.request openCorner).get h

theorem pricedService_drafted :
    (pricedService.op.drafted pricedService.request openCorner).isSome := by decide +kernel

theorem freeService_drafted :
    (freeService.op.drafted freeService.request openCorner).isSome := by decide +kernel

theorem documents_postable_service :
    (∀ e ∈ (pricedService.cornerDraft pricedService_drafted).entries, Accepted e.lines) ∧
      openCorner.commits pricedService = true := by
  have hservice := documents_postable_iff corner
    [⟨cornerRequest 0, .ledger (.read Accounting.calendarYear) rfl⟩,
      ⟨cornerRequest 1, .openSession ⟨5, 0, by decide⟩⟩] pricedService
    (Option.some_get pricedService_drafted).symm
  have hpostable : pricedService.op.Postable openCorner := by decide +kernel
  have hopen : (pricedService.cornerDraft pricedService_drafted).tables.ledger.UnpostedFor
      pricedService.request.env (pricedService.request.posts
        (pricedService.cornerDraft pricedService_drafted).entries) := by decide +kernel
  exact ⟨hservice.1.mpr hpostable,
    (hservice.2 hopen.openFor (by decide +kernel)).mpr hpostable⟩

/-- The service that is given away passes every check of the till, and the journal refuses it. -/
theorem documents_not_always_postable :
    ¬∀ (configuration : Configuration) (calls : List Call) (call : Call) (draft : Draft),
      call.op.drafted call.request ((TenantDb.start configuration).run calls) = some draft →
      draft.tables.ledger.OpenFor call.request.env (call.request.posts draft.entries) →
      (insertRows draft.tables.register draft.rows).isOk = true →
        (∀ e ∈ draft.entries, Accepted e.lines) ∧
          ((TenantDb.start configuration).run calls).commits call = true := by
  intro haccepted
  have hopen : (freeService.cornerDraft freeService_drafted).tables.ledger.UnpostedFor
      freeService.request.env (freeService.request.posts
        (freeService.cornerDraft freeService_drafted).entries) := by decide +kernel
  have hfree := haccepted corner
    [⟨cornerRequest 0, .ledger (.read Accounting.calendarYear) rfl⟩,
      ⟨cornerRequest 1, .openSession ⟨5, 0, by decide⟩⟩] freeService
    (freeService.cornerDraft freeService_drafted) (Option.some_get freeService_drafted).symm
    hopen.openFor (by decide +kernel)
  exact absurd hfree.2 (by decide +kernel)

end Nexora.Tenant
