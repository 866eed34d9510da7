import Nexora.Pos.Sales

/-!
# Refunds

`PosService.refund` of `app/modules/pos/service.py`, over any sequence of refund
requests on one sale.

A refund prorates the total of each line by the quantity it takes back and rounds
the share to four decimals.  The shares of a line are rounded one refund at a time,
so the sum depends on how the quantity is split.  Three refunds of one unit each of
a line of three units at 200.0000 come to 200.0001, and the third is refused by the
constraint `refund_within_total`.

`refunds_compose_iff` says for which sales no split does that: those whose lines
have a total that is a whole number of ten-thousandths for the smallest quantity
that can be refunded.
-/

namespace Nexora.Pos

open Nexora Nexora.Catalog Nexora.Sales Foundations
open Nexora.Accounting (Money)

/-! ## The service -/

/-- `RefundLine`, with the bounds of its schema. -/
structure RefundLine where
  saleLineId : Uuid
  quantity : Quantity
  quantity_pos : 0 < quantity

/-- A refund request on the sale, and what the other modules do with it. -/
structure RefundRequest where
  lines : List RefundLine
  elsewhere : Elsewhere

/-- Where the loop of `refund` stands. -/
structure RefundState where
  lines : List SaleLine
  total : Money
  booking : Booking

/-- `amount * quantity / line.quantity`. -/
def SaleLine.share (line : SaleLine) (amount : Money) (quantity : Quantity) : ℚ :=
  toContext (toContext (amount / 10 ^ 4 * (quantity / 10 ^ 6)) / (line.quantity / 10 ^ 6))

/-- `round_money(amount * quantity / line.quantity)`. -/
def SaleLine.prorate (line : SaleLine) (amount : Money) (quantity : Quantity) : Except Err Money :=
  roundMoney (line.share amount quantity)

def SaleLine.requireRemaining (line : SaleLine) (quantity : Quantity) : Except Err Unit :=
  if quantity > line.quantity - line.refundedQuantity then
    .error (.conflict "REFUND_EXCEEDS_SALE" "Refund exceeds sold quantity.")
  else .ok ()

/-- `line.refunded_quantity += quantity`. -/
def addRefunded (lines : List SaleLine) (id : Uuid) (quantity : Quantity) : List SaleLine :=
  lines.map fun line =>
    if line.id = id then { line with refundedQuantity := line.refundedQuantity + quantity }
    else line

/-- One pass of the loop of `refund`. -/
def refundItem (product : Uuid → Option Product) (elsewhere : Elsewhere) (state : RefundState)
    (item : RefundLine) : Except Err RefundState := do
  let line ← orRaise .notFound (state.lines.find? (·.id = item.saleLineId))
  line.requireRemaining item.quantity
  let product ← orRaise .notFound (product line.productId)
  let amount ← line.prorate line.totalAmount item.quantity
  let net ← line.prorate line.netAmount item.quantity
  let tax ← line.prorate line.taxAmount item.quantity
  moveStock elsewhere product item.quantity
  .ok
    { lines := addRefunded state.lines line.id item.quantity
      total := state.total + amount
      booking :=
        { net := state.booking.net + net
          tax := state.booking.tax + tax
          cost := toContext (state.booking.cost +
            toContext (line.unitCost / 10 ^ 6 * (item.quantity / 10 ^ 6)))
          rateLines := state.booking.rateLines ++ [(line.taxRate, net, tax)] } }

/-- `by_id[item.sale_line_id].product_id`. -/
def productOf (lines : List SaleLine) (item : RefundLine) : Uuid :=
  ((lines.find? (·.id = item.saleLineId)).map SaleLine.productId).getD 0

def requireLines (lines : List SaleLine) (items : List RefundLine) : Except Err Unit :=
  if items.all fun item => item.saleLineId ∈ lines.map SaleLine.id then .ok ()
  else .error .notFound

/-- The sale with the return, under its constraint. -/
def Sale.storeRefund (sale : Sale) (state : RefundState) : Except Err Sale :=
  if 0 ≤ sale.refundedAmount + state.total ∧
      sale.refundedAmount + state.total ≤ sale.totalAmount then
    .ok { sale with
      lines := state.lines
      refundedAmount := sale.refundedAmount + state.total
      returns := sale.returns ++ [state.total] }
  else .error refundWithinTotal

/-- `PosService.refund`. -/
def Sale.refund (product : Uuid → Option Product) (sale : Sale) (request : RefundRequest) :
    Except Err Sale := do
  request.elsewhere.run .enter
  requireDistinct (request.lines.map RefundLine.saleLineId) "A sale line may appear only once."
  requireLines sale.lines request.lines
  let state ← (request.lines.insertionSort
    fun a b => productOf sale.lines a ≤ productOf sale.lines b).foldlM
      (refundItem product request.elsewhere) ⟨sale.lines, 0, ⟨0, 0, 0, []⟩⟩
  let refunded ← sale.storeRefund state
  request.elsewhere.run (.book state.booking)
  .ok refunded

/-- A sequence of requests, each its own transaction. -/
def Sale.refunds (product : Uuid → Option Product) (sale : Sale) (requests : List RefundRequest) :
    Sale :=
  requests.foldl (fun sale request =>
    (serviceTransaction sale fun sale => (sale.refund product request).map fun s => (s, ())).1) sale

/-! ## The law -/

/-- The quantity of a line that the items of requests ask back. -/
def requested (items : List RefundLine) (id : Uuid) : Quantity :=
  (items.map fun item => if item.saleLineId = id then item.quantity else 0).sum

/-- What the refunds of a sale should come to. -/
structure Sale.Composes (product : Uuid → Option Product) (sale : Sale)
    (requests : List RefundRequest) : Prop where
  /-- No refund is refused by the constraint of the table. -/
  notRefused : ∀ before request after, requests = before ++ request :: after →
    (sale.refunds product before).refund product request ≠ .error refundWithinTotal
  /-- The refunded amount is the sum of the returns. -/
  sum : (sale.refunds product requests).refundedAmount = (sale.refunds product requests).returns.sum
  /-- When every line is back, so is the whole total. -/
  full : (∀ line ∈ (sale.refunds product requests).lines, line.refundedQuantity = line.quantity) →
    (sale.refunds product requests).refundedAmount = (sale.refunds product requests).totalAmount

/-! ## Shares of a line -/

/-- The amount `prorate` rounds to. -/
def SaleLine.prorated (line : SaleLine) (amount : Money) (quantity : Quantity) : Int :=
  roundHalfUp (line.share amount quantity * 10 ^ 4)

namespace SaleLine

variable {line : SaleLine} {amount : Money} {quantity : Quantity}

theorem prorate_eq_ok {m : Money} (h : line.prorate amount quantity = .ok m) :
    m = line.prorated amount quantity :=
  roundMoney_eq_ok h

/-- Before it is rounded to four decimals, a share is off by less than a millionth
of a ten-thousandth. -/
theorem abs_share_sub_lt (hline : 0 < line.quantity) (hamount : |amount| < 10 ^ 18)
    (hq : 0 ≤ quantity) (hle : quantity ≤ line.quantity) :
    |line.share amount quantity * 10 ^ 4 - amount * quantity / line.quantity| < 1 / 10 ^ 6 ∧
      |(amount : ℚ) * quantity / line.quantity| ≤ 10 ^ 18 := by
  have hline' : (0 : ℚ) < line.quantity := by exact_mod_cast hline
  have hq' : (0 : ℚ) ≤ quantity := by exact_mod_cast hq
  have hle' : (quantity : ℚ) ≤ line.quantity := by exact_mod_cast hle
  have hamount' : |(amount : ℚ)| ≤ 10 ^ 18 := by exact_mod_cast hamount.le
  have hsize : |(amount : ℚ) * quantity / line.quantity| ≤ 10 ^ 18 := by
    rw [mul_div_assoc, abs_mul, abs_of_nonneg (div_nonneg hq' hline'.le)]
    calc |(amount : ℚ)| * (quantity / line.quantity)
        ≤ 10 ^ 18 * 1 := by
          gcongr
          exact (div_le_one hline').mpr hle'
      _ = 10 ^ 18 := mul_one _
  refine ⟨?_, hsize⟩
  have hround := abs_toContext_div_sub_le ((amount : ℚ) / 10 ^ 4 * (quantity / 10 ^ 6))
    ((line.quantity : ℚ) / 10 ^ 6)
  have hexact : (amount : ℚ) / 10 ^ 4 * (quantity / 10 ^ 6) / (line.quantity / 10 ^ 6) =
      amount * quantity / line.quantity / 10 ^ 4 := by
    field_simp
  rw [hexact, abs_div, abs_of_pos (by norm_num : (0 : ℚ) < 10 ^ 4)] at hround
  have hscale : ∀ x y : ℚ, |x * 10 ^ 4 - y| = |x - y / 10 ^ 4| * 10 ^ 4 := by
    intro x y
    rw [← abs_of_pos (by norm_num : (0 : ℚ) < 10 ^ 4), ← abs_mul]
    congr 1
    rw [abs_of_pos (by norm_num : (0 : ℚ) < 10 ^ 4)]
    ring
  rw [hscale]
  calc |line.share amount quantity - amount * quantity / line.quantity / 10 ^ 4| * 10 ^ 4
      ≤ 2 * (|(amount : ℚ) * quantity / line.quantity| / 10 ^ 4) / 10 ^ 27 * 10 ^ 4 := by
        gcongr
        exact hround
    _ ≤ 2 * (10 ^ 18 / 10 ^ 4) / 10 ^ 27 * 10 ^ 4 := by gcongr
    _ < 1 / 10 ^ 6 := by norm_num

/-- A share that is a whole number of ten-thousandths is computed exactly. -/
theorem prorated_of_dvd (hline : 0 < line.quantity) (hamount : |amount| < 10 ^ 18)
    (hq : 0 ≤ quantity) (hle : quantity ≤ line.quantity)
    (hdvd : line.quantity ∣ amount * quantity) :
    (line.prorated amount quantity : ℚ) = amount * quantity / line.quantity := by
  obtain ⟨m, hm⟩ := hdvd
  have hexact : (amount : ℚ) * quantity / line.quantity = m := by
    have hline' : (line.quantity : ℚ) ≠ 0 := by exact_mod_cast hline.ne'
    rw [div_eq_iff hline', mul_comm (m : ℚ)]
    exact_mod_cast hm
  have hclose := (abs_share_sub_lt hline hamount hq hle).1
  rw [hexact] at hclose ⊢
  have hround : line.prorated amount quantity = m :=
    roundHalfUp_eq (hclose.trans (by norm_num))
  rw [hround]

/-- Shares of the amounts of a line never overflow the context. -/
theorem prorate_ok (hline : 0 < line.quantity) (hamount : |amount| < 10 ^ 18)
    (hq : 0 ≤ quantity) (hle : quantity ≤ line.quantity) :
    line.prorate amount quantity = .ok (line.prorated amount quantity) := by
  obtain ⟨hclose, hsize⟩ := abs_share_sub_lt hline hamount hq hle
  have hround := abs_roundHalfUp_sub_le (line.share amount quantity * 10 ^ 4)
  have hshare := abs_add_le
    (line.share amount quantity * 10 ^ 4 - (amount : ℚ) * quantity / line.quantity)
    ((amount : ℚ) * quantity / line.quantity)
  have hprorated := abs_add_le ((line.prorated amount quantity : ℚ) -
    line.share amount quantity * 10 ^ 4) (line.share amount quantity * 10 ^ 4)
  rw [sub_add_cancel] at hshare hprorated
  have hlt : |(line.prorated amount quantity : ℚ)| < 10 ^ 28 := by
    calc |(line.prorated amount quantity : ℚ)|
        ≤ 1 / 2 + (1 / 10 ^ 6 + 10 ^ 18) := by
          refine hprorated.trans (add_le_add hround (hshare.trans ?_))
          exact add_le_add hclose.le hsize
      _ < 10 ^ 28 := by norm_num
  exact if_pos (by exact_mod_cast hlt)

end SaleLine

/-! ## A sale and how much of it is back -/

/-- The line once `back` of it is refunded. -/
def SaleLine.refundedBy (back : Uuid → Quantity) (line : SaleLine) : SaleLine :=
  { line with refundedQuantity := back line.id }

/-- The sale once `back` is refunded in returns of the given amounts. -/
def Sale.after (sale : Sale) (back : Uuid → Quantity) (amounts : List Money) : Sale :=
  { sale with
    lines := sale.lines.map (SaleLine.refundedBy back)
    refundedAmount := amounts.sum
    returns := amounts }

theorem addRefunded_refundedBy (lines : List SaleLine) (back : Uuid → Quantity) (id : Uuid)
    (quantity : Quantity) :
    addRefunded (lines.map (SaleLine.refundedBy back)) id quantity =
      lines.map (SaleLine.refundedBy (Function.update back id (back id + quantity))) := by
  unfold addRefunded
  rw [List.map_map]
  refine List.map_congr_left fun line _ => ?_
  by_cases hid : line.id = id
  · simp [SaleLine.refundedBy, hid]
  · simp [SaleLine.refundedBy, hid]

theorem find_refundedBy {lines : List SaleLine} {back : Uuid → Quantity} {id : Uuid}
    {found : SaleLine}
    (h : (lines.map (SaleLine.refundedBy back)).find? (·.id = id) = some found) :
    ∃ line ∈ lines, line.id = id ∧ found = line.refundedBy back := by
  have hid : found.id = id := by simpa using List.find?_some h
  obtain ⟨line, hline, rfl⟩ := List.mem_map.mp (List.mem_of_find?_eq_some h)
  exact ⟨line, hline, hid, rfl⟩

/-- What one pass of the loop adds. -/
theorem refundItem_eq_ok {product : Uuid → Option Product} {elsewhere : Elsewhere}
    {lines : List SaleLine} {back : Uuid → Quantity} {state state' : RefundState}
    {item : RefundLine} (hlines : state.lines = lines.map (SaleLine.refundedBy back))
    (h : refundItem product elsewhere state item = .ok state') :
    ∃ line ∈ lines, ∃ p, line.id = item.saleLineId ∧
      item.quantity ≤ line.quantity - back line.id ∧ product line.productId = some p ∧
      p.step ∣ item.quantity ∧
      state'.lines = lines.map (SaleLine.refundedBy
        (Function.update back line.id (back line.id + item.quantity))) ∧
      state'.total = state.total + line.prorated line.totalAmount item.quantity := by
  obtain ⟨found, hfound, h⟩ := bind_eq_ok.mp h
  rw [orRaise_eq_ok, hlines] at hfound
  obtain ⟨line, hline, hid, rfl⟩ := find_refundedBy hfound
  obtain ⟨_, hremaining, h⟩ := bind_eq_ok.mp h
  obtain ⟨p, hp, h⟩ := bind_eq_ok.mp h
  obtain ⟨amount, hamount, h⟩ := bind_eq_ok.mp h
  obtain ⟨net, -, h⟩ := bind_eq_ok.mp h
  obtain ⟨tax, -, h⟩ := bind_eq_ok.mp h
  obtain ⟨_, hmove, h⟩ := bind_eq_ok.mp h
  cases h
  obtain ⟨hle, -⟩ := ite_error_eq_ok.mp hremaining
  refine ⟨line, hline, p, hid, not_lt.mp hle, orRaise_eq_ok.mp hp, moveStock_eq_ok hmove, ?_, ?_⟩
  · show addRefunded state.lines line.id item.quantity = _
    rw [hlines, addRefunded_refundedBy]
  · show state.total + amount = _
    rw [SaleLine.prorate_eq_ok hamount]
    rfl

/-! ## Sales whose shares are exact -/

/-- The exact share of a line that is back. -/
def SaleLine.exactShare (back : Uuid → Quantity) (line : SaleLine) : ℚ :=
  line.totalAmount * back line.id / line.quantity

def exactShares (lines : List SaleLine) (back : Uuid → Quantity) : ℚ :=
  (lines.map (SaleLine.exactShare back)).sum

theorem exactShares_update {lines : List SaleLine} (hnodup : (lines.map SaleLine.id).Nodup)
    {line : SaleLine} (hline : line ∈ lines) (back : Uuid → Quantity) (quantity : Quantity) :
    exactShares lines (Function.update back line.id (back line.id + quantity)) =
      exactShares lines back + line.totalAmount * quantity / line.quantity := by
  induction lines with
  | nil => cases hline
  | cons first rest ih =>
      rw [List.map_cons, List.nodup_cons] at hnodup
      unfold exactShares at ih ⊢
      rw [List.map_cons, List.sum_cons, List.map_cons, List.sum_cons]
      rcases List.mem_cons.mp hline with rfl | hrest
      · have hsame : rest.map (SaleLine.exactShare
            (Function.update back line.id (back line.id + quantity))) =
            rest.map (SaleLine.exactShare back) := by
          refine List.map_congr_left fun other hother => ?_
          have hne : other.id ≠ line.id := fun heq =>
            hnodup.1 (heq ▸ List.mem_map_of_mem hother)
          simp [SaleLine.exactShare, hne]
        rw [hsame]
        simp only [SaleLine.exactShare, Function.update_self]
        push_cast
        ring
      · have hne : first.id ≠ line.id := fun heq =>
          hnodup.1 (heq ▸ List.mem_map_of_mem hrest)
        rw [ih hnodup.2 hrest]
        simp only [SaleLine.exactShare, Function.update_of_ne hne]
        ring

/-- Every line is between not refunded and fully refunded. -/
def Sale.Within (sale : Sale) (back : Uuid → Quantity) : Prop :=
  ∀ line ∈ sale.lines, 0 ≤ back line.id ∧ back line.id ≤ line.quantity

/-- The total of every line is a whole number of ten-thousandths for the smallest
quantity that can be refunded. -/
def Sale.Even (product : Uuid → Option Product) (sale : Sale) : Prop :=
  ∀ line ∈ sale.lines, ∀ p, product line.productId = some p →
    line.quantity / p.step ∣ line.totalAmount

/-- The exact shares stay between nothing and the total of the sale. -/
theorem exactShares_bounds {product : Uuid → Option Product} {lines : List SaleLine}
    {back : Uuid → Quantity} (hsold : ∀ line ∈ lines, line.Sold product)
    (hback : ∀ line ∈ lines, 0 ≤ back line.id ∧ back line.id ≤ line.quantity) :
    0 ≤ exactShares lines back ∧
      exactShares lines back ≤ ((lines.map SaleLine.totalAmount).sum : Int) := by
  induction lines with
  | nil => simp [exactShares]
  | cons line rest ih =>
      obtain ⟨ih₀, ih₁⟩ := ih (fun l hl => hsold l (List.mem_cons_of_mem _ hl))
        fun l hl => hback l (List.mem_cons_of_mem _ hl)
      obtain ⟨hback₀, hback₁⟩ := hback line List.mem_cons_self
      have hline := hsold line List.mem_cons_self
      have hquantity : (0 : ℚ) < line.quantity := by exact_mod_cast hline.quantity_pos
      have htotal : (0 : ℚ) ≤ line.totalAmount := by exact_mod_cast hline.total_nonneg
      have hback₀' : (0 : ℚ) ≤ back line.id := by exact_mod_cast hback₀
      have hback₁' : (back line.id : ℚ) ≤ line.quantity := by exact_mod_cast hback₁
      have hshare₀ : 0 ≤ line.exactShare back := by
        unfold SaleLine.exactShare
        positivity
      have hshare₁ : line.exactShare back ≤ line.totalAmount := by
        unfold SaleLine.exactShare
        rw [div_le_iff₀ hquantity]
        gcongr
      unfold exactShares at ih₀ ih₁ ⊢
      rw [List.map_cons, List.sum_cons, List.map_cons, List.sum_cons, Int.cast_add]
      exact ⟨add_nonneg hshare₀ ih₀, add_le_add hshare₁ ih₁⟩

theorem exactShares_full {product : Uuid → Option Product} {lines : List SaleLine}
    {back : Uuid → Quantity} (hsold : ∀ line ∈ lines, line.Sold product)
    (hfull : ∀ line ∈ lines, back line.id = line.quantity) :
    exactShares lines back = ((lines.map SaleLine.totalAmount).sum : Int) := by
  induction lines with
  | nil => rfl
  | cons line rest ih =>
      have ih := ih (fun l hl => hsold l (List.mem_cons_of_mem _ hl))
        fun l hl => hfull l (List.mem_cons_of_mem _ hl)
      have hquantity : (line.quantity : ℚ) ≠ 0 := by
        exact_mod_cast (hsold line List.mem_cons_self).quantity_pos.ne'
      have hshare : line.exactShare back = line.totalAmount := by
        unfold SaleLine.exactShare
        rw [hfull line List.mem_cons_self]
        field_simp
      unfold exactShares at ih ⊢
      rw [List.map_cons, List.sum_cons, List.map_cons, List.sum_cons, ih, hshare]
      push_cast
      rfl

/-- The share of a quantity that can be refunded is a whole number. -/
theorem SaleLine.Sold.dvd_share {product : Uuid → Option Product} {line : SaleLine} {p : Product}
    {quantity : Quantity} (h : line.Sold product) (hp : product line.productId = some p)
    (heven : line.quantity / p.step ∣ line.totalAmount) (hq : p.step ∣ quantity) :
    line.quantity ∣ line.totalAmount * quantity := by
  obtain ⟨p', hp', hstep⟩ := h.unit
  rw [hp] at hp'
  cases hp'
  obtain ⟨n, hn⟩ := hstep
  obtain ⟨k, rfl⟩ := hq
  have hdiv : line.quantity / p.step = n := by
    rw [hn]
    exact Int.mul_ediv_cancel_left n p.step_pos.ne'
  rw [hdiv] at heven
  obtain ⟨c, hc⟩ := heven
  rw [hn, hc]
  exact ⟨c * k, by ring⟩

/-- The sale so far: the amounts of its returns are the exact shares of what is back. -/
def Sale.Exact (sale now : Sale) : Prop :=
  ∃ back amounts, now = sale.after back amounts ∧ sale.Within back ∧
    ((amounts.sum : Int) : ℚ) = exactShares sale.lines back

section Even

variable {product : Uuid → Option Product} {sale now : Sale} {request : RefundRequest}

/-- The loop of one refund on an even sale. -/
theorem refundItems_exact (hsale : sale.Completed product) (heven : sale.Even product)
    {elsewhere : Elsewhere} {items : List RefundLine} {base : Money}
    {start state : RefundState} {back : Uuid → Quantity}
    (hlines : start.lines = sale.lines.map (SaleLine.refundedBy back)) (hback : sale.Within back)
    (hstart : ((base + start.total : Int) : ℚ) = exactShares sale.lines back)
    (h : items.foldlM (refundItem product elsewhere) start = .ok state) :
    ∃ back', state.lines = sale.lines.map (SaleLine.refundedBy back') ∧ sale.Within back' ∧
      ((base + state.total : Int) : ℚ) = exactShares sale.lines back' := by
  refine foldlM_invariant (I := fun state : RefundState => ∃ back',
    state.lines = sale.lines.map (SaleLine.refundedBy back') ∧ sale.Within back' ∧
      ((base + state.total : Int) : ℚ) = exactShares sale.lines back') ?_ h
    ⟨back, hlines, hback, hstart⟩
  rintro item - state state' ⟨back', hlines', hback', hsum⟩ hitem
  obtain ⟨line, hline, p, -, hle, hp, hstep, hnew, htotal⟩ := refundItem_eq_ok hlines' hitem
  have hsold := hsale.sold line hline
  obtain ⟨hback₀, hback₁⟩ := hback' line hline
  refine ⟨_, hnew, ?_, ?_⟩
  · intro other hother
    by_cases hid : other.id = line.id
    · have heq : other = line := List.inj_on_of_nodup_map hsale.nodup hother hline hid
      subst heq
      rw [Function.update_self]
      exact ⟨add_nonneg hback₀ item.quantity_pos.le, by linarith⟩
    · rw [Function.update_of_ne hid]
      exact hback' other hother
  · rw [exactShares_update hsale.nodup hline, ← hsum, htotal]
    have habs : |line.totalAmount| < 10 ^ 18 := by
      rw [abs_of_nonneg hsold.total_nonneg]
      exact hsold.total_lt
    have hshare := SaleLine.prorated_of_dvd hsold.quantity_pos habs item.quantity_pos.le
      (by linarith : item.quantity ≤ line.quantity)
      (hsold.dvd_share hp (heven line hline p hp) hstep)
    push_cast
    rw [hshare]
    ring

/-- Only the constraint of the table raises its error. -/
theorem refundItem_ne_refundWithinTotal (elsewhere : Elsewhere) (state : RefundState)
    (item : RefundLine) : refundItem product elsewhere state item ≠ .error refundWithinTotal := by
  have hprorate : ∀ (line : SaleLine) amount quantity,
      line.prorate amount quantity ≠ .error refundWithinTotal := by
    intro line amount quantity h
    unfold SaleLine.prorate roundMoney at h
    split at h <;> cases h
  have hmove : ∀ (p : Product) quantity,
      moveStock elsewhere p quantity ≠ .error refundWithinTotal := by
    intro p quantity h
    unfold moveStock at h
    split at h
    next =>
      rcases bind_eq_error.mp h with h | ⟨_, -, h⟩
      · unfold Product.validateQuantity at h
        split at h <;> cases h
      · exact elsewhere.ne_refundWithinTotal _ h
    next => cases h
  have hraise : ∀ {α : Type} (x : Option α), orRaise Err.notFound x ≠ .error refundWithinTotal := by
    intro α x h
    cases x <;> cases h
  intro h
  rcases bind_eq_error.mp h with h | ⟨line, -, h⟩
  · exact hraise _ h
  rcases bind_eq_error.mp h with h | ⟨_, -, h⟩
  · unfold SaleLine.requireRemaining at h
    split at h <;> cases h
  rcases bind_eq_error.mp h with h | ⟨p, -, h⟩
  · exact hraise _ h
  rcases bind_eq_error.mp h with h | ⟨_, -, h⟩
  · exact hprorate _ _ _ h
  rcases bind_eq_error.mp h with h | ⟨_, -, h⟩
  · exact hprorate _ _ _ h
  rcases bind_eq_error.mp h with h | ⟨_, -, h⟩
  · exact hprorate _ _ _ h
  rcases bind_eq_error.mp h with h | ⟨_, -, h⟩
  · exact hmove _ _ h
  cases h

/-- A refund refused by the constraint got as far as storing the sale. -/
theorem Sale.refund_eq_refundWithinTotal
    (h : now.refund product request = .error refundWithinTotal) :
    ∃ items state, List.foldlM (refundItem product request.elsewhere) ⟨now.lines, 0, ⟨0, 0, 0, []⟩⟩
        items = .ok state ∧ now.storeRefund state = .error refundWithinTotal := by
  rcases bind_eq_error.mp h with h | ⟨_, -, h⟩
  · exact absurd h (request.elsewhere.ne_refundWithinTotal _)
  rcases bind_eq_error.mp h with h | ⟨_, -, h⟩
  · unfold requireDistinct at h
    split at h <;> cases h
  rcases bind_eq_error.mp h with h | ⟨_, -, h⟩
  · unfold requireLines at h
    split at h <;> cases h
  rcases bind_eq_error.mp h with h | ⟨state, hstate, h⟩
  · exact absurd h (foldlM_ne_error (refundItem_ne_refundWithinTotal _) _)
  rcases bind_eq_error.mp h with h | ⟨refunded, -, h⟩
  · exact ⟨_, state, hstate, h⟩
  rcases bind_eq_error.mp h with h | ⟨_, -, h⟩
  · exact absurd h (request.elsewhere.ne_refundWithinTotal _)
  cases h

theorem Sale.refund_eq_ok {refunded : Sale} (h : now.refund product request = .ok refunded) :
    ∃ items state, List.foldlM (refundItem product request.elsewhere) ⟨now.lines, 0, ⟨0, 0, 0, []⟩⟩
        items = .ok state ∧ now.storeRefund state = .ok refunded := by
  obtain ⟨_, -, h⟩ := bind_eq_ok.mp h
  obtain ⟨_, -, h⟩ := bind_eq_ok.mp h
  obtain ⟨_, -, h⟩ := bind_eq_ok.mp h
  obtain ⟨state, hstate, h⟩ := bind_eq_ok.mp h
  obtain ⟨_, hstore, h⟩ := bind_eq_ok.mp h
  obtain ⟨_, -, h⟩ := bind_eq_ok.mp h
  cases h
  exact ⟨_, state, hstate, hstore⟩

/-- What the loop of a refund leaves of an even sale passes the constraint. -/
theorem Sale.Exact.storeRefund (hsale : sale.Completed product) (heven : sale.Even product)
    (h : sale.Exact now) {elsewhere : Elsewhere} {items : List RefundLine} {state : RefundState}
    (hstate : items.foldlM (refundItem product elsewhere) ⟨now.lines, 0, ⟨0, 0, 0, []⟩⟩ =
      .ok state) :
    ∃ refunded, now.storeRefund state = .ok refunded ∧ sale.Exact refunded := by
  obtain ⟨back, amounts, rfl, hback, hsum⟩ := h
  have hstart : ((amounts.sum + 0 : Int) : ℚ) = exactShares sale.lines back := by
    rw [add_zero]
    exact hsum
  obtain ⟨back', hlines, hback', hsum'⟩ :=
    refundItems_exact hsale heven rfl hback hstart hstate
  obtain ⟨hnonneg, hle⟩ := exactShares_bounds hsale.sold hback'
  rw [← hsum'] at hnonneg hle
  have hwithin : 0 ≤ amounts.sum + state.total ∧ amounts.sum + state.total ≤ sale.totalAmount := by
    rw [hsale.total]
    exact ⟨by exact_mod_cast hnonneg, by exact_mod_cast hle⟩
  refine ⟨_, if_pos hwithin, back', amounts ++ [state.total], ?_, hback', ?_⟩
  · simp only [Sale.after, hlines, List.sum_append, List.sum_singleton]
  · rw [List.sum_append, List.sum_singleton]
    exact hsum'

theorem Sale.Exact.refund_ne (hsale : sale.Completed product) (heven : sale.Even product)
    (h : sale.Exact now) : now.refund product request ≠ .error refundWithinTotal := by
  intro herror
  obtain ⟨items, state, hstate, hstore⟩ := Sale.refund_eq_refundWithinTotal herror
  obtain ⟨refunded, hok, -⟩ := h.storeRefund hsale heven hstate
  rw [hok] at hstore
  cases hstore

theorem Sale.Exact.refunds (hsale : sale.Completed product) (heven : sale.Even product)
    (h : sale.Exact now) (requests : List RefundRequest) :
    sale.Exact (now.refunds product requests) := by
  induction requests generalizing now with
  | nil => exact h
  | cons request requests ih =>
      refine ih (serviceTransaction_preserves h fun refunded result hbody => ?_)
      cases hrefund : now.refund product request with
      | error e =>
          rw [hrefund] at hbody
          cases hbody
      | ok s =>
          rw [hrefund] at hbody
          cases hbody
          obtain ⟨items, state, hstate, hstore⟩ := Sale.refund_eq_ok hrefund
          obtain ⟨refunded', hok, hexact⟩ := h.storeRefund hsale heven hstate
          rw [hok] at hstore
          cases hstore
          exact hexact

/-- A completed sale starts with nothing back. -/
theorem Sale.Completed.after_zero (hsale : sale.Completed product) :
    sale = sale.after (fun _ => 0) [] := by
  have hlines : sale.lines.map (SaleLine.refundedBy fun _ => 0) = sale.lines := by
    conv_rhs => rw [← List.map_id sale.lines]
    refine List.map_congr_left fun line hline => ?_
    show { line with refundedQuantity := 0 } = line
    rw [← (hsale.sold line hline).notRefunded]
  obtain ⟨hrefunded, hreturns⟩ := hsale.notRefunded
  show sale = { sale with
    lines := sale.lines.map (SaleLine.refundedBy fun _ => 0)
    refundedAmount := 0
    returns := [] }
  rw [hlines, ← hrefunded, ← hreturns]

theorem Sale.Completed.exact (hsale : sale.Completed product) : sale.Exact sale := by
  refine ⟨fun _ => 0, [], hsale.after_zero, ?_, ?_⟩
  · exact fun line hline => ⟨le_rfl, (hsale.sold line hline).quantity_pos.le⟩
  · refine Eq.symm (List.sum_eq_zero fun x hx => ?_)
    obtain ⟨line, -, rfl⟩ := List.mem_map.mp hx
    simp [SaleLine.exactShare]

/-- On an even sale the law holds for every sequence of requests. -/
theorem Sale.Even.composes (hsale : sale.Completed product) (heven : sale.Even product)
    (requests : List RefundRequest) : sale.Composes product requests where
  notRefused := by
    rintro before request after -
    exact (hsale.exact.refunds hsale heven before).refund_ne hsale heven
  sum := by
    obtain ⟨back, amounts, heq, -, -⟩ := hsale.exact.refunds hsale heven requests
    rw [heq]
    rfl
  full := by
    intro hfull
    obtain ⟨back, amounts, heq, -, hsum⟩ := hsale.exact.refunds hsale heven requests
    rw [heq] at hfull ⊢
    have hfull' : ∀ line ∈ sale.lines, back line.id = line.quantity :=
      fun line hline => hfull _ (List.mem_map_of_mem hline)
    rw [exactShares_full hsale.sold hfull', ← hsale.total] at hsum
    exact_mod_cast hsum

end Even

/-! ## A split that shows the rounding -/

/-- The other modules raise nothing. -/
def Elsewhere.fine : Elsewhere := ⟨fun _ => .ok (), fun _ => nofun⟩

/-- A request for one line. -/
def RefundRequest.single (item : RefundLine) : RefundRequest := ⟨[item], .fine⟩

section Split

variable {product : Uuid → Option Product} {sale : Sale}

theorem find_refundedBy_self (hnodup : (sale.lines.map SaleLine.id).Nodup) {line : SaleLine}
    (hline : line ∈ sale.lines) (back : Uuid → Quantity) :
    (sale.lines.map (SaleLine.refundedBy back)).find? (·.id = line.id) =
      some (line.refundedBy back) := by
  cases hfind : (sale.lines.map (SaleLine.refundedBy back)).find? (·.id = line.id) with
  | none =>
      have hnot := List.find?_eq_none.mp hfind (line.refundedBy back) (List.mem_map_of_mem hline)
      exact absurd (by simp [SaleLine.refundedBy]) hnot
  | some found =>
      obtain ⟨other, hother, hid, rfl⟩ := find_refundedBy hfind
      rw [List.inj_on_of_nodup_map hnodup hother hline hid]

/-- The loop on a request for one line with a quantity that can be refunded. -/
theorem refundItem_single (hsale : sale.Completed product) {line : SaleLine}
    (hline : line ∈ sale.lines) {p : Product} (hp : product line.productId = some p)
    {item : RefundLine} (hid : item.saleLineId = line.id) (hstep : p.step ∣ item.quantity)
    {back : Uuid → Quantity} (hback : 0 ≤ back line.id)
    (hle : back line.id + item.quantity ≤ line.quantity) (booking : Booking) :
    ∃ state, refundItem product .fine
        ⟨sale.lines.map (SaleLine.refundedBy back), 0, booking⟩ item = .ok state ∧
      state.lines = sale.lines.map (SaleLine.refundedBy
        (Function.update back line.id (back line.id + item.quantity))) ∧
      state.total = line.prorated line.totalAmount item.quantity := by
  have hsold := hsale.sold line hline
  have hq : item.quantity ≤ line.quantity := by linarith
  have hfind := find_refundedBy_self hsale.nodup hline back
  rw [← hid] at hfind
  have hremaining : (line.refundedBy back).requireRemaining item.quantity = .ok () := by
    refine if_neg ?_
    show ¬(item.quantity > line.quantity - back line.id)
    linarith
  have hprorate : ∀ amount : Money, |amount| < 10 ^ 18 →
      (line.refundedBy back).prorate amount item.quantity =
        .ok (line.prorated amount item.quantity) := by
    intro amount hamount
    have hpos : 0 < (line.refundedBy back).quantity := hsold.quantity_pos
    exact SaleLine.prorate_ok hpos hamount item.quantity_pos.le hq
  have habs : |line.totalAmount| < 10 ^ 18 := by
    rw [abs_of_nonneg hsold.total_nonneg]
    exact hsold.total_lt
  have hmove : moveStock .fine p item.quantity = .ok () := by
    unfold moveStock Product.validateQuantity
    unfold Product.step at hstep
    split
    next htracked =>
      rw [if_pos htracked] at hstep
      rw [if_pos hstep]
      rfl
    next => rfl
  obtain ⟨state, hstate⟩ : ∃ state, refundItem product .fine
      ⟨sale.lines.map (SaleLine.refundedBy back), 0, booking⟩ item = .ok state :=
    ⟨_, bind_eq_ok.mpr ⟨_, orRaise_eq_ok.mpr hfind, bind_eq_ok.mpr ⟨_, hremaining,
      bind_eq_ok.mpr ⟨p, orRaise_eq_ok.mpr hp, bind_eq_ok.mpr ⟨_, hprorate _ habs,
      bind_eq_ok.mpr ⟨_, hprorate _ hsold.net, bind_eq_ok.mpr ⟨_, hprorate _ hsold.tax,
      bind_eq_ok.mpr ⟨_, hmove, rfl⟩⟩⟩⟩⟩⟩⟩⟩
  obtain ⟨other, hother, -, hid', -, -, -, hlines, htotal⟩ := refundItem_eq_ok rfl hstate
  have heq : other = line :=
    List.inj_on_of_nodup_map hsale.nodup hother hline (hid'.trans hid)
  subst heq
  exact ⟨state, hstate, hlines, htotal.trans (zero_add _)⟩

/-- A request for one line is stored or refused by the constraint. -/
theorem Sale.refund_single (hsale : sale.Completed product) {line : SaleLine}
    (hline : line ∈ sale.lines) {p : Product} (hp : product line.productId = some p)
    {item : RefundLine} (hid : item.saleLineId = line.id) (hstep : p.step ∣ item.quantity)
    {back : Uuid → Quantity} (hback : 0 ≤ back line.id)
    (hle : back line.id + item.quantity ≤ line.quantity) {amounts : List Money}
    (hne : (sale.after back amounts).refund product (.single item) ≠ .error refundWithinTotal) :
    (sale.after back amounts).refund product (.single item) =
      .ok (sale.after (Function.update back line.id (back line.id + item.quantity))
        (amounts ++ [line.prorated line.totalAmount item.quantity])) := by
  obtain ⟨state, hstate, hlines, htotal⟩ :=
    refundItem_single hsale hline hp hid hstep hback hle ⟨0, 0, 0, []⟩
  have hmem : requireLines (sale.after back amounts).lines [item] = .ok () := by
    refine if_pos ?_
    simp only [List.all_cons, List.all_nil, Bool.and_true, decide_eq_true_eq]
    rw [hid]
    exact List.mem_map.mpr ⟨line.refundedBy back, List.mem_map_of_mem hline, rfl⟩
  have hdistinct : requireDistinct [item.saleLineId] "A sale line may appear only once." =
      .ok () := if_pos (List.nodup_singleton _)
  have hloop : ([item].insertionSort fun a b =>
      productOf (sale.after back amounts).lines a ≤
        productOf (sale.after back amounts).lines b).foldlM
        (refundItem product .fine) ⟨(sale.after back amounts).lines, 0, ⟨0, 0, 0, []⟩⟩ =
      .ok state := by
    refine (List.foldlM_cons ..).trans ?_
    exact bind_eq_ok.mpr ⟨state, hstate, rfl⟩
  by_cases hwithin : 0 ≤ amounts.sum + state.total ∧ amounts.sum + state.total ≤ sale.totalAmount
  · have hstore : (sale.after back amounts).storeRefund state =
        .ok (sale.after (Function.update back line.id (back line.id + item.quantity))
          (amounts ++ [line.prorated line.totalAmount item.quantity])) := by
      refine (if_pos hwithin).trans ?_
      rw [hlines, htotal]
      simp only [Sale.after, List.sum_append, List.sum_singleton]
    exact bind_eq_ok.mpr ⟨_, rfl, bind_eq_ok.mpr ⟨_, hdistinct, bind_eq_ok.mpr ⟨_, hmem,
      bind_eq_ok.mpr ⟨_, hloop, bind_eq_ok.mpr ⟨_, hstore, rfl⟩⟩⟩⟩⟩
  · have hstore : (sale.after back amounts).storeRefund state = .error refundWithinTotal :=
      if_neg hwithin
    refine absurd ?_ hne
    exact bind_eq_error.mpr (.inr ⟨_, rfl, bind_eq_error.mpr (.inr ⟨_, hdistinct,
      bind_eq_error.mpr (.inr ⟨_, hmem, bind_eq_error.mpr (.inr ⟨_, hloop,
      bind_eq_error.mpr (.inl hstore)⟩)⟩)⟩)⟩)

theorem requested_append (items items' : List RefundLine) (id : Uuid) :
    requested (items ++ items') id = requested items id + requested items' id := by
  simp [requested]

theorem requested_nonneg (items : List RefundLine) (id : Uuid) : 0 ≤ requested items id := by
  refine List.sum_nonneg fun x hx => ?_
  obtain ⟨item, -, rfl⟩ := List.mem_map.mp hx
  show 0 ≤ if item.saleLineId = id then item.quantity else 0
  split
  · exact item.quantity_pos.le
  · exact le_rfl

/-- The amount the refund of an item comes to. -/
def Sale.amountOf (sale : Sale) (item : RefundLine) : Money :=
  ((sale.lines.find? (·.id = item.saleLineId)).map fun line =>
    line.prorated line.totalAmount item.quantity).getD 0

theorem Sale.Completed.amountOf_eq (hsale : sale.Completed product) {line : SaleLine}
    (hline : line ∈ sale.lines) {item : RefundLine} (hid : item.saleLineId = line.id) :
    sale.amountOf item = line.prorated line.totalAmount item.quantity := by
  have hfind := find_refundedBy_self hsale.nodup hline fun _ => 0
  have hlines : sale.lines.map (SaleLine.refundedBy fun _ => 0) = sale.lines :=
    (congrArg Sale.lines hsale.after_zero).symm
  rw [hlines] at hfind
  unfold amountOf
  rw [hid, hfind]
  rfl

theorem Sale.refunds_append (requests : List RefundRequest) (request : RefundRequest) :
    sale.refunds product (requests ++ [request]) =
      (serviceTransaction (sale.refunds product requests) fun sale =>
        (sale.refund product request).map fun s => (s, ())).1 := by
  unfold refunds
  rw [List.foldl_append]
  rfl

/-- Requests for one line each, none refused, refund all they ask for. -/
theorem Sale.refunds_singles (hsale : sale.Completed product) (items : List RefundLine)
    (hitems : ∀ item ∈ items, ∃ line ∈ sale.lines, ∃ p, item.saleLineId = line.id ∧
      product line.productId = some p ∧ p.step ∣ item.quantity)
    (hwithin : ∀ line ∈ sale.lines, requested items line.id ≤ line.quantity)
    (hne : ∀ before request after, items.map RefundRequest.single = before ++ request :: after →
      (sale.refunds product before).refund product request ≠ .error refundWithinTotal) :
    sale.refunds product (items.map RefundRequest.single) =
      sale.after (requested items) (items.map sale.amountOf) := by
  induction items using List.reverseRecOn with
  | nil => exact hsale.after_zero
  | append_singleton items item ih =>
      obtain ⟨line, hline, p, hid, hp, hstep⟩ :=
        hitems item (List.mem_append_right _ List.mem_cons_self)
      have hsum : ∀ id, requested (items ++ [item]) id =
          requested items id + if item.saleLineId = id then item.quantity else 0 := by
        intro id
        rw [requested_append]
        simp [requested]
      have hbefore : ∀ line ∈ sale.lines, requested items line.id ≤ line.quantity := by
        intro other hother
        have hnonneg := requested_nonneg [item] other.id
        have hle := hwithin other hother
        rw [requested_append] at hle
        linarith
      have ih := ih (fun i hi => hitems i (List.mem_append_left _ hi)) hbefore
        fun before request after heq => hne before request (after ++ [.single item])
          (by rw [List.map_append, heq]; simp)
      have hle : requested items line.id + item.quantity ≤ line.quantity := by
        have hle := hwithin line hline
        rwa [hsum, if_pos hid] at hle
      have hrefused := hne (items.map RefundRequest.single) (.single item) [] (by simp)
      rw [ih] at hrefused
      have hrefund := refund_single hsale hline hp hid hstep (requested_nonneg items line.id) hle
        hrefused
      have hback : requested (items ++ [item]) =
          Function.update (requested items) line.id (requested items line.id + item.quantity) := by
        funext id
        rw [hsum, Function.update_apply, hid]
        by_cases h : id = line.id
        · simp [h]
        · simp [h, Ne.symm h]
      rw [List.map_append, List.map_singleton, refunds_append, ih, hback, List.map_append,
        List.map_singleton, hsale.amountOf_eq hline hid]
      simp only [serviceTransaction, hrefund]
      rfl

/-- The whole of a line in one item. -/
def SaleLine.whole (line : SaleLine) (h : 0 < line.quantity) : RefundLine :=
  ⟨line.id, line.quantity, h⟩

/-- The wholes of lines that were sold. -/
def wholes (product : Uuid → Option Product) (lines : List SaleLine)
    (h : ∀ line ∈ lines, line.Sold product) : List RefundLine :=
  lines.attach.map fun line => line.1.whole (h line.1 line.2).quantity_pos

theorem requested_wholes_of_notMem {lines : List SaleLine}
    {h : ∀ line ∈ lines, line.Sold product} {id : Uuid} (hid : id ∉ lines.map SaleLine.id) :
    requested (wholes product lines h) id = 0 := by
  refine List.sum_eq_zero fun x hx => ?_
  obtain ⟨item, hitem, rfl⟩ := List.mem_map.mp hx
  obtain ⟨⟨line, hline⟩, -, rfl⟩ := List.mem_map.mp hitem
  exact if_neg fun heq : line.id = id => hid (heq ▸ List.mem_map_of_mem hline)

theorem requested_wholes {lines : List SaleLine} (hnodup : (lines.map SaleLine.id).Nodup)
    {h : ∀ line ∈ lines, line.Sold product} {line : SaleLine} (hline : line ∈ lines) :
    requested (wholes product lines h) line.id = line.quantity := by
  induction lines with
  | nil => cases hline
  | cons first rest ih =>
      rw [List.map_cons, List.nodup_cons] at hnodup
      have hrest : ∀ l ∈ rest, l.Sold product := fun l hl => h l (List.mem_cons_of_mem _ hl)
      have hcons : wholes product (first :: rest) h =
          first.whole (h first List.mem_cons_self).quantity_pos :: wholes product rest hrest := by
        simp [wholes, List.attach_cons, Function.comp_def]
      have hsplit := requested_append [first.whole (h first List.mem_cons_self).quantity_pos]
        (wholes product rest hrest) line.id
      rw [List.singleton_append] at hsplit
      rw [hcons, hsplit]
      rcases List.mem_cons.mp hline with rfl | hmem
      · rw [requested_wholes_of_notMem hnodup.1]
        simp [requested, SaleLine.whole]
      · have hne : first.id ≠ line.id := fun heq => hnodup.1 (heq ▸ List.mem_map_of_mem hmem)
        rw [ih hnodup.2 hmem]
        simp [requested, SaleLine.whole, hne]

theorem Sale.Completed.amountOf_whole (hsale : sale.Completed product) {line : SaleLine}
    (hline : line ∈ sale.lines) :
    sale.amountOf (line.whole (hsale.sold line hline).quantity_pos) = line.totalAmount := by
  have hsold := hsale.sold line hline
  have habs : |line.totalAmount| < 10 ^ 18 := by
    rw [abs_of_nonneg hsold.total_nonneg]
    exact hsold.total_lt
  have hquantity : (line.quantity : ℚ) ≠ 0 := by exact_mod_cast hsold.quantity_pos.ne'
  have hshare := SaleLine.prorated_of_dvd hsold.quantity_pos habs hsold.quantity_pos.le le_rfl
    (Dvd.intro_left line.totalAmount rfl)
  rw [mul_div_cancel_right₀ _ hquantity] at hshare
  rw [hsale.amountOf_eq hline rfl]
  exact_mod_cast hshare

theorem Sale.Completed.sum_amountOf_wholes (hsale : sale.Completed product)
    {lines : List SaleLine} (hmem : ∀ line ∈ lines, line ∈ sale.lines) :
    ((wholes product lines fun line hline => hsale.sold line (hmem line hline)).map
      sale.amountOf).sum = (lines.map SaleLine.totalAmount).sum := by
  unfold wholes
  rw [List.map_map]
  conv_rhs => rw [← List.attach_map_subtype_val lines, List.map_map]
  refine congrArg List.sum (List.map_congr_left fun line _ => ?_)
  exact hsale.amountOf_whole (hmem line.1 line.2)

theorem requested_replicate (count : Nat) (item : RefundLine) (id : Uuid) :
    requested (List.replicate count item) id =
      if item.saleLineId = id then count * item.quantity else 0 := by
  simp [requested, List.map_replicate, List.sum_replicate]

/-- If the law holds for every split, it holds for the split of one line into the
smallest quantities, and then that line is even. -/
theorem Sale.Completed.even_of_composes (hsale : sale.Completed product)
    (h : ∀ requests : List RefundRequest,
      (∀ line ∈ sale.lines,
        requested (requests.flatMap RefundRequest.lines) line.id ≤ line.quantity) →
      sale.Composes product requests) : sale.Even product := by
  intro line hline p hp
  have hsold := hsale.sold line hline
  obtain ⟨p', hp', n, hn⟩ := hsold.unit
  rw [hp] at hp'
  cases hp'
  have hstep := p.step_pos
  have hpos : 0 < n := by
    have hquantity := hsold.quantity_pos
    rw [hn] at hquantity
    exact pos_of_mul_pos_right hquantity hstep.le
  obtain ⟨count, rfl⟩ := Int.eq_ofNat_of_zero_le hpos.le
  -- one step of the line at a time, and every other line at once
  set rest := sale.lines.erase line with hrest
  have hperm : sale.lines.Perm (line :: rest) := List.perm_cons_erase hline
  have hmem : ∀ l ∈ rest, l ∈ sale.lines := fun l hl => List.mem_of_mem_erase hl
  have hsoldRest : ∀ l ∈ rest, l.Sold product := fun l hl => hsale.sold l (hmem l hl)
  have hnodup : ((line :: rest).map SaleLine.id).Nodup :=
    ((hperm.map SaleLine.id).nodup_iff).mp hsale.nodup
  rw [List.map_cons, List.nodup_cons] at hnodup
  set items := List.replicate count ⟨line.id, p.step, hstep⟩ ++ wholes product rest hsoldRest
    with hitems
  have hrequested : ∀ l ∈ sale.lines, requested items l.id = l.quantity := by
    intro l hl
    rw [hitems, requested_append, requested_replicate]
    rcases List.mem_cons.mp (hperm.mem_iff.mp hl) with rfl | hl
    · rw [if_pos rfl, requested_wholes_of_notMem hnodup.1, hn]
      ring
    · have hne : line.id ≠ l.id := fun heq => hnodup.1 (heq ▸ List.mem_map_of_mem hl)
      rw [if_neg hne, requested_wholes hnodup.2 hl, zero_add]
  have hflat : (items.map RefundRequest.single).flatMap RefundRequest.lines = items := by
    rw [List.flatMap_map]
    exact List.flatMap_singleton' items
  have hcomposes := h (items.map RefundRequest.single) fun l hl => by
    rw [hflat, hrequested l hl]
  have hrefunds := refunds_singles hsale items ?_ (fun l hl => (hrequested l hl).le)
    hcomposes.notRefused
  · have hfull := hcomposes.full
    rw [hrefunds] at hfull
    have htotal : (items.map sale.amountOf).sum = sale.totalAmount := by
      refine hfull fun l hl => ?_
      obtain ⟨l', hl', rfl⟩ := List.mem_map.mp hl
      exact hrequested l' hl'
    rw [hitems, List.map_append, List.sum_append, hsale.sum_amountOf_wholes hmem, hsale.total,
      (hperm.map SaleLine.totalAmount).sum_eq, List.map_cons, List.sum_cons,
      List.map_replicate, List.sum_replicate, add_left_inj, nsmul_eq_mul] at htotal
    have hdiv : line.quantity / p.step = count := by
      rw [hn]
      exact Int.mul_ediv_cancel_left _ hstep.ne'
    rw [hdiv]
    exact ⟨_, htotal.symm⟩
  · intro item hitem
    rcases List.mem_append.mp hitem with hitem | hitem
    · obtain ⟨-, rfl⟩ := List.mem_replicate.mp hitem
      exact ⟨line, hline, p, rfl, hp, dvd_rfl⟩
    · obtain ⟨⟨l, hl⟩, -, rfl⟩ := List.mem_map.mp hitem
      obtain ⟨p', hp', hdvd⟩ := (hsoldRest l hl).unit
      exact ⟨l, hmem l hl, p', rfl, hp', hdvd⟩

end Split

/-- The law of refunds holds for every split of a completed sale exactly when the
total of each line is a whole number of ten-thousandths for the smallest quantity of
it that can be refunded. -/
theorem Till.refunds_compose_iff {till : Till} {items : List CartLine}
    {payments : List TenderInput} {sale : Sale} (h : till.checkout items payments = .ok sale) :
    (∀ requests : List RefundRequest,
      (∀ line ∈ sale.lines,
        requested (requests.flatMap RefundRequest.lines) line.id ≤ line.quantity) →
      sale.Composes till.product requests) ↔
    ∀ line ∈ sale.lines, ∀ p, till.product line.productId = some p →
      line.quantity / p.step ∣ line.totalAmount := by
  have hsale := till.checkout_completed h
  constructor
  · exact hsale.even_of_composes
  · exact fun heven requests _ => Sale.Even.composes hsale heven requests

/-- A till that sells product `1` by the piece, with 7.5% tax. -/
def pieceTill (price : Money) (h : 0 ≤ price) : Till where
  product := fun id =>
    if id = 1 then some ⟨1, 4000000, price, 75000, true, 0, h, by decide, by decide⟩ else none
  newId := id
  elsewhere := .fine

/-- Two pieces at 10.0000. -/
def twoPieces : Sale :=
  { lines := [⟨1, 1, 2000000, 100000, 0, 75000, 200000, 15000, 215000, 4000000, 0⟩]
    netAmount := 200000
    discountAmount := 0
    taxAmount := 15000
    totalAmount := 215000
    costAmount := 8000000
    refundedAmount := 0
    returns := [] }

/-- Each of the two pieces comes to 10.7500, so any split is refunded in full. -/
theorem Till.refunds_compose_two_pieces :
    (pieceTill 100000 (by decide)).checkout
        [⟨1, 2000000, 0, by decide, by decide, by decide, by decide⟩] [⟨.cash, 215000, 0⟩] =
      .ok twoPieces ∧
    ∀ requests : List RefundRequest,
      (∀ line ∈ twoPieces.lines,
        requested (requests.flatMap RefundRequest.lines) line.id ≤ line.quantity) →
      twoPieces.Composes (pieceTill 100000 (by decide)).product requests := by
  have hcheckout : (pieceTill 100000 (by decide)).checkout
      [⟨1, 2000000, 0, by decide, by decide, by decide, by decide⟩] [⟨.cash, 215000, 0⟩] =
      .ok twoPieces := by decide +kernel
  refine ⟨hcheckout, (refunds_compose_iff hcheckout).mpr ?_⟩
  intro line hline p hp
  rcases List.mem_singleton.mp hline with rfl
  cases hp
  decide

/-- Three pieces at 9.9900 come to 32.2178 with tax. -/
def threePieces : Sale :=
  { lines := [⟨1, 1, 3000000, 99900, 0, 75000, 299700, 22478, 322178, 4000000, 0⟩]
    netAmount := 299700
    discountAmount := 0
    taxAmount := 22478
    totalAmount := 322178
    costAmount := 12000000
    refundedAmount := 0
    returns := [] }

def onePiece : RefundRequest := .single ⟨1, 1000000, by decide⟩

/-- One piece of the three is refunded 10.7393.  The third such refund would bring
the refunds to 32.2179 and is refused. -/
theorem Till.third_piece_refused :
    (pieceTill 99900 (by decide)).checkout
        [⟨1, 3000000, 0, by decide, by decide, by decide, by decide⟩] [⟨.cash, 322178, 0⟩] =
      .ok threePieces ∧
    ∃ requests : List RefundRequest,
      (∀ line ∈ threePieces.lines,
        requested (requests.flatMap RefundRequest.lines) line.id ≤ line.quantity) ∧
      ¬threePieces.Composes (pieceTill 99900 (by decide)).product requests := by
  refine ⟨by decide +kernel, [onePiece, onePiece, onePiece], by decide +kernel, fun h => ?_⟩
  refine h.notRefused [onePiece, onePiece] onePiece [] rfl ?_
  decide +kernel

end Nexora.Pos
