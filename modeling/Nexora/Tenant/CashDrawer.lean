import Nexora.Accounting.Acceptance
import Nexora.Tenant.Grni
import Nexora.Tenant.TillRuns

/-!
# The cash drawer

When a session closes, the drawer should hold its opening float, with the cash that was tendered
and without the change and the refunds.  The ledger says the same of `CASH`: a sale debits it and
a refund credits it.  `cash_net` adds up the payments of the sales and knows nothing of refunds.

So the expectation is right exactly for the sessions that refunded nothing
(`cash_drawer_iff`).  Nothing goes into a session once it is closed (`TillWrites.closed_kept`), so
what its documents say later they said when it closed.
-/

namespace Nexora.Tenant

open Nexora Nexora.Catalog Nexora.Sales Nexora.Pos Foundations
open Nexora.Accounting (Money money anySource toContext_split)
open Nexora.Accounting.PostingRules (cashSale posRefund)
open Nexora.Inventory (InventoryDb)

/-! ## Sessions and their documents -/

def TillState.salesOf (till : TillState) (sessionId : Uuid) : List SaleRow :=
  till.sales.rows.filter (·.sessionId = sessionId)

def TillState.returnsOf (till : TillState) (sessionId : Uuid) : List SaleReturn :=
  till.returns.rows.filter (·.sessionId = sessionId)

/-- The cash payments of a sale. -/
def cashPayments (row : SaleRow) : List TenderInput := row.payments.filter (·.tender = .cash)

def TillState.tendered (till : TillState) (sessionId : Uuid) : Money :=
  ((till.salesOf sessionId).map fun row => ((cashPayments row).map (·.amount)).sum).sum

def TillState.changeGiven (till : TillState) (sessionId : Uuid) : Money :=
  ((till.salesOf sessionId).map fun row => ((cashPayments row).map (·.changeGiven)).sum).sum

def TillState.refunded (till : TillState) (sessionId : Uuid) : Money :=
  ((till.returnsOf sessionId).map (·.amount)).sum

/-- What a document has posted on `CASH`, debits minus credits. -/
def TillState.cashFrom (till : TillState) (sourceType : String) (id : Uuid) : Money :=
  (entryPostings (fun t i => t = sourceType && i = id) "CASH" till.entries).sum

/-- The net debit to `CASH` of the documents of a session. -/
def TillState.cashDebit (till : TillState) (sessionId : Uuid) : Money :=
  ((till.salesOf sessionId).map fun row => till.cashFrom "pos_sale" row.id).sum +
    ((till.returnsOf sessionId).map fun r => till.cashFrom "pos_return" r.id).sum

/-- All sales of the session were paid in cash. -/
def TillState.PaidInCash (till : TillState) (sessionId : Uuid) : Prop :=
  ∀ row ∈ till.salesOf sessionId, ∀ payment ∈ row.payments, payment.tender = .cash

/-- The session expects the cash that its documents, and the ledger, say is there. -/
structure TillState.Matches (till : TillState) (session : PosSession) : Prop where
  documents : session.expectedCash = some (session.openingFloat + till.tendered session.id -
    till.changeGiven session.id - till.refunded session.id)
  ledger : session.expectedCash = some (session.openingFloat + till.cashDebit session.id)

instance (till : TillState) (sessionId : Uuid) : Decidable (till.PaidInCash sessionId) :=
  inferInstanceAs (Decidable (∀ row ∈ till.salesOf sessionId, _))

variable {till till' : TillState} {op : Op}

theorem sum_map_sub {α : Type} (f g : α → Money) (l : List α) :
    (l.map fun a => f a - g a).sum = (l.map f).sum - (l.map g).sum := by
  induction l with
  | nil => rfl
  | cons a l ih =>
      simp only [List.map_cons, List.sum_cons, ih]
      ring

theorem TillState.cashNet_eq (till : TillState) (sessionId : Uuid) :
    till.cashNet sessionId = till.tendered sessionId - till.changeGiven sessionId := by
  rw [tendered, changeGiven, ← sum_map_sub]
  refine congrArg List.sum (List.map_congr_left fun row _ => ?_)
  rw [← sum_map_sub]
  rfl

/-! ## Postings of the till -/

/-- The figures of a sale are in the range of the journal. -/
theorem Rung.amounts {row : SaleRow} (h : Rung row) : 0 ≤ row.sale.taxAmount ∧
    row.sale.taxAmount ≤ row.sale.netAmount ∧ row.sale.netAmount + row.sale.taxAmount < 10 ^ 18 := by
  rw [h.netAmount, h.taxAmount]
  refine ⟨List.sum_nonneg ?_, List.sum_le_sum fun line hline => (h.fair.fair line hline).tax_le, ?_⟩
  · simpa using fun line hline => (h.fair.fair line hline).tax_nonneg
  · rw [← List.sum_map_add]
    exact h.fair.total_lt

theorem roundHalfUp_split {net tax : Money} (htax : 0 ≤ tax) (hle : tax ≤ net)
    (hlt : net + tax < 10 ^ 18) :
    roundHalfUp (toContext (money net + money tax) * 10 ^ 4) = net + tax := by
  rw [toContext_split (htax.trans hle) htax hlt, Accounting.roundHalfUp_money]

/-- Entries of one document. -/
theorem entryPostings_of_source {sourceType : String} {sourceId : Uuid} {entries : List Entry}
    (h : ∀ e ∈ entries, e.sourceType = sourceType ∧ e.sourceId = sourceId)
    (p : String → Uuid → Bool) (code : String) :
    entryPostings p code entries =
      if p sourceType sourceId then entryPostings anySource code entries else [] := by
  induction entries with
  | nil => simp
  | cons e entries ih =>
      obtain ⟨htype, hid⟩ := h e List.mem_cons_self
      rw [entryPostings_cons, entryPostings_cons, ih fun e he => h e (List.mem_cons_of_mem _ he),
        htype, hid]
      split
      · rfl
      · rfl

/-- A document adds what it posts to its own figure, and to no other. -/
theorem TillState.cashFrom_append {sourceType : String} {sourceId : Uuid} {entries : List Entry}
    (h : ∀ e ∈ entries, e.sourceType = sourceType ∧ e.sourceId = sourceId) (till : TillState)
    (sessions : Table PosSession.id) (sales : Table SaleRow.id) (returns : Table SaleReturn.id)
    (t : String) (id : Uuid) :
    TillState.cashFrom ⟨sessions, sales, returns, till.entries ++ entries⟩ t id =
      till.cashFrom t id + if sourceType = t ∧ sourceId = id then
        (entryPostings anySource "CASH" entries).sum else 0 := by
  have hsplit : TillState.cashFrom ⟨sessions, sales, returns, till.entries ++ entries⟩ t id =
      till.cashFrom t id +
        (entryPostings (fun t' id' => t' = t && id' = id) "CASH" entries).sum := by
    simp [cashFrom, entryPostings]
  rw [hsplit, entryPostings_of_source h]
  simp only [Bool.and_eq_true, decide_eq_true_eq]
  split
  · rfl
  · rfl

theorem SaleRow.sources (row : SaleRow) :
    ∀ e ∈ row.entries, e.sourceType = "pos_sale" ∧ e.sourceId = row.id := by
  intro e he
  rcases List.mem_cons.mp he with rfl | he
  · exact ⟨rfl, rfl⟩
  · split at he
    · rw [List.mem_singleton.mp he]
      exact ⟨rfl, rfl⟩
    · cases he

theorem SaleReturn.sources (row : SaleReturn) (booking : Booking) :
    ∀ e ∈ row.entries booking, e.sourceType = "pos_return" ∧ e.sourceId = row.id := by
  intro e he
  rcases List.mem_append.mp he with he | he
  · split at he
    · rw [List.mem_singleton.mp he]
      exact ⟨rfl, rfl⟩
    · cases he
  · obtain ⟨lines, -, rfl⟩ := List.mem_map.mp he
    exact ⟨rfl, rfl⟩

/-- A sale debits `CASH` with its total, in one line. -/
theorem Rung.cashPostings {row : SaleRow} (h : Rung row) :
    entryPostings anySource "CASH" row.entries = [row.sale.netAmount + row.sale.taxAmount] := by
  obtain ⟨htax, hle, hlt⟩ := h.amounts
  have hsum := roundHalfUp_split htax hle hlt
  by_cases hcost : 0 < row.sale.costAmount
  · simp [anySource, SaleRow.entries, cashSale, hcost, hsum]
  · simp [anySource, SaleRow.entries, cashSale, hcost, hsum]

theorem Rung.cash {row : SaleRow} (h : Rung row) :
    (entryPostings anySource "CASH" row.entries).sum = row.sale.netAmount + row.sale.taxAmount := by
  rw [h.cashPostings, List.sum_singleton]

/-- A refund credits `CASH` with what it books. -/
theorem cash_refund {row : SaleReturn} {booking : Booking} (htax : 0 ≤ booking.tax)
    (hle : booking.tax ≤ booking.net) (hlt : booking.net + booking.tax < 10 ^ 18) :
    (entryPostings anySource "CASH" (row.entries booking)).sum = -(booking.net + booking.tax) := by
  have hsum := roundHalfUp_split htax hle hlt
  have hcost : ((posRefund (money booking.net) (money booking.tax) booking.cost true).2.toList.flatMap
      fun lines => linePostings "CASH" lines) = [] := by
    by_cases hzero : booking.cost = 0
    · simp [posRefund, hzero]
    · simp [posRefund, hzero]
  rcases (add_nonneg (htax.trans hle) htax).eq_or_lt with hzero | hpos
  · simp [entryPostings_anySource, SaleReturn.entries, List.flatMap_map, hcost, ← hzero]
  · simp [entryPostings_anySource, SaleReturn.entries, List.flatMap_map, hcost, hpos]
    simp [posRefund, hsum, anySource]

/-! ## Figures of a refund -/

/-- What the loop of `refund` has taken back: the amount covers each of its two parts. -/
structure Covers (state : RefundState) : Prop where
  net_nonneg : 0 ≤ state.booking.net
  net_le : state.booking.net ≤ state.total
  tax_nonneg : 0 ≤ state.booking.tax
  tax_le : state.booking.tax ≤ state.total

theorem refundItem_covers {product : Uuid → Option Product} {elsewhere : Elsewhere}
    {state state' : RefundState} {item : RefundLine} (hlines : ∀ line ∈ state.lines, Priced line)
    (h : Covers state) (hitem : refundItem product elsewhere state item = .ok state') :
    Covers state' := by
  obtain ⟨line, hfound, hitem⟩ := bind_eq_ok.mp hitem
  obtain ⟨_, -, hitem⟩ := bind_eq_ok.mp hitem
  obtain ⟨_, -, hitem⟩ := bind_eq_ok.mp hitem
  obtain ⟨amount, hamount, hitem⟩ := bind_eq_ok.mp hitem
  obtain ⟨net, hnet, hitem⟩ := bind_eq_ok.mp hitem
  obtain ⟨tax, htax, hitem⟩ := bind_eq_ok.mp hitem
  obtain ⟨_, -, hitem⟩ := bind_eq_ok.mp hitem
  cases hitem
  have hline := hlines line (List.mem_of_find?_eq_some (orRaise_eq_ok.mp hfound))
  have hnonneg := hline.tax_nonneg.trans hline.tax_le
  have hnetLe : line.netAmount ≤ line.totalAmount := by
    rw [hline.total]
    exact le_add_of_nonneg_right hline.tax_nonneg
  have htaxLe : line.taxAmount ≤ line.totalAmount := hline.tax_le.trans hnetLe
  have hnets := share_mono hline.quantity_pos hnonneg hnetLe item.quantity_pos.le le_rfl
  have htaxes := share_mono hline.quantity_pos hline.tax_nonneg htaxLe item.quantity_pos.le le_rfl
  rw [← SaleLine.prorate_eq_ok hnet, ← SaleLine.prorate_eq_ok hamount] at hnets
  rw [← SaleLine.prorate_eq_ok htax, ← SaleLine.prorate_eq_ok hamount] at htaxes
  exact ⟨add_nonneg h.net_nonneg hnets.1, add_le_add h.net_le hnets.2,
    add_nonneg h.tax_nonneg htaxes.1, add_le_add h.tax_le htaxes.2⟩

theorem refundItems_covers {product : Uuid → Option Product} {elsewhere : Elsewhere}
    {items : List RefundLine} {lines : List SaleLine} {state' : RefundState}
    (hlines : ∀ line ∈ lines, Priced line)
    (h : items.foldlM (refundItem product elsewhere) ⟨lines, 0, ⟨0, 0, 0, []⟩⟩ = .ok state') :
    Covers state' := by
  refine (foldlM_invariant (I := fun state : RefundState =>
    (∀ line ∈ state.lines, Priced line) ∧ Covers state) ?_ h ⟨hlines, le_rfl, le_rfl, le_rfl, le_rfl⟩).2
  intro item _ state₁ state₂ hstate hitem
  have hsingle : [item].foldlM (refundItem product elsewhere) state₁ = .ok state₂ :=
    bind_eq_ok.mpr ⟨state₂, hitem, rfl⟩
  have hsold : state₂.lines.map soldLine = state₁.lines.map soldLine := refundItems_sold hsingle
  exact ⟨.of_sold hsold hstate.1, refundItem_covers hstate.1 hstate.2 hitem⟩

theorem Rung.priced {row : SaleRow} (h : Rung row) : ∀ line ∈ row.sale.lines, Priced line := by
  intro line hline
  have hfair := h.fair.fair line hline
  exact ⟨hfair.quantity_pos, hfair.tax_nonneg, hfair.tax_le, h.totals line hline⟩

section Refund

variable {row : SaleRow} {sale : Sale} {saleReturn : SaleReturn} {state : RefundState}

/-- A sale stays as it was rung up. -/
theorem TakesBack.rung (h : TakesBack row sale saleReturn state) (hrung : Rung row) :
    Rung { row with sale := sale } := by
  obtain ⟨inventory, items, hnodup, hitems, hloop⟩ := h.loop
  have hsold : state.lines.map soldLine = row.sale.lines.map soldLine := refundItems_sold hloop
  have hsums : ∀ f : SaleLine → Money, (∀ line, f (soldLine line) = f line) →
      (state.lines.map f).sum = (row.sale.lines.map f).sum := by
    intro f hf
    have hcomp : f ∘ soldLine = f := funext hf
    rw [← hcomp, ← List.map_map, ← List.map_map, hsold]
  refine ⟨?_, fun line hline => ?_, ?_, ?_, ?_⟩
  · show FairSale sale.lines
    rw [h.lines]
    exact (refundItems_fair hrung.fair hnodup hitems hloop).1
  · rw [show (({ row with sale := sale } : SaleRow).sale.lines) = state.lines from h.lines] at hline
    exact (Priced.of_sold hsold hrung.priced line hline).total
  · show sale.netAmount = (sale.lines.map SaleLine.netAmount).sum
    rw [h.lines, h.netAmount, hsums _ fun _ => rfl, hrung.netAmount]
  · show sale.taxAmount = (sale.lines.map SaleLine.taxAmount).sum
    rw [h.lines, h.taxAmount, hsums _ fun _ => rfl, hrung.taxAmount]
  · show _ = sale.netAmount + sale.taxAmount
    rw [h.netAmount, h.taxAmount]
    exact hrung.tendered

theorem TakesBack.covers (h : TakesBack row sale saleReturn state) (hrung : Rung row) :
    Covers state := by
  obtain ⟨inventory, items, -, -, hloop⟩ := h.loop
  exact refundItems_covers hrung.priced hloop

theorem TakesBack.cash (h : TakesBack row sale saleReturn state) (hrung : Rung row) :
    (entryPostings anySource "CASH" (saleReturn.entries state.booking)).sum =
      -(state.booking.net + state.booking.tax) := by
  obtain ⟨inventory, items, hnodup, hitems, hloop⟩ := h.loop
  obtain ⟨-, htax, hle, hlt⟩ := refundItems_fair hrung.fair hnodup hitems hloop
  exact cash_refund htax hle hlt

end Refund

/-! ## Closed sessions -/

/-- A request holds the row of a session only while that is open. -/
theorem TillWrites.holds_open {sessionId : Uuid} (h : TillWrites till op till')
    (hrow : .session sessionId ∈ op.tillRows) :
    ∃ session, till.sessions.get sessionId = some session ∧ session.status = .opened := by
  cases h with
  | openSession => cases hrow
  | closeSession hget hopen =>
      cases List.mem_singleton.mp hrow
      exact ⟨_, hget, hopen⟩
  | checkout _ hget hopen =>
      cases List.mem_singleton.mp hrow
      exact ⟨_, hget, hopen⟩
  | refund _ hget hopen =>
      rcases List.mem_cons.mp hrow with hrow | hrow
      · cases hrow
        exact ⟨_, hget, hopen⟩
      · cases List.mem_singleton.mp hrow

theorem TillWrites.notMem_of_closed {session : PosSession} {sessionId : Uuid}
    (h : TillWrites till op till') (hget : till.sessions.get sessionId = some session)
    (hclosed : session.status = .closed) : .session sessionId ∉ op.tillRows := by
  intro hrow
  obtain ⟨_, hget', hopen⟩ := h.holds_open hrow
  cases hget.symm.trans hget'
  rw [hclosed] at hopen
  cases hopen

/-- No sale and no refund goes into a closed session. -/
theorem TillWrites.closed_kept {session : PosSession} {sessionId : Uuid}
    (h : TillWrites till op till') (hget : till.sessions.get sessionId = some session)
    (hclosed : session.status = .closed) :
    till'.sessions.get sessionId = some session ∧
      (till'.salesOf sessionId).map SaleRow.id = (till.salesOf sessionId).map SaleRow.id ∧
        till'.returnsOf sessionId = till.returnsOf sessionId := by
  have hrow := h.notMem_of_closed hget hclosed
  have hread := h.frame hrow (show till.read (.session sessionId) = some (.session session) by
    simp [TillState.read, hget])
  obtain ⟨session', hget', heq⟩ := Option.map_eq_some_iff.mp hread
  cases heq
  refine ⟨hget', ?_⟩
  cases h with
  | openSession | closeSession => exact ⟨rfl, rfl⟩
  | checkout _ _ _ hsession _ hinsert =>
      have hne : ¬_ = sessionId := fun heq => hrow (heq ▸ List.mem_singleton_self _)
      rw [← hsession] at hne
      exact ⟨by simp [TillState.salesOf, (Table.insert_eq_some hinsert).1, hne], rfl⟩
  | refund _ _ _ hsale hsession _ hinsert hreplace =>
      have hne : ¬_ = sessionId := fun heq => hrow (heq ▸ List.mem_cons_self)
      rw [← hsession] at hne
      obtain ⟨before, after, hold, hnew⟩ :=
        Table.replace_eq_some (Table.get_self hsale) hreplace
      refine ⟨?_, by simp [TillState.returnsOf, (Table.insert_eq_some hinsert).1, hne]⟩
      simp only [TillState.salesOf, hold, hnew, List.filter_append, List.filter_cons,
        List.map_append]
      split
      · rfl
      · rfl

/-! ## The invariant -/

/-- What the documents of the till have posted on `CASH`, and what closed sessions expect. -/
structure Drawers (till : TillState) : Prop where
  rung : ∀ row ∈ till.sales.rows, Rung row
  sales : ∀ id, till.cashFrom "pos_sale" id =
    ((till.sales.get id).map fun row => row.sale.netAmount + row.sale.taxAmount).getD 0
  returns : ∀ r ∈ till.returns.rows, 0 ≤ r.amount ∧
    (r.amount = 0 → till.cashFrom "pos_return" r.id = 0)
  unknown : ∀ id, till.returns.get id = none → till.cashFrom "pos_return" id = 0
  closed : ∀ session ∈ till.sessions.rows, session.status = .closed →
    session.expectedCash = some (session.openingFloat + till.cashNet session.id)

theorem Drawers.empty : Drawers .empty where
  rung := by simp [TillState.empty, Table.empty]
  sales _ := rfl
  returns := by simp [TillState.empty, Table.empty]
  unknown _ _ := rfl
  closed := by simp [TillState.empty, Table.empty]

theorem Drawers.closed_writes (h : Drawers till) (hwrites : TillWrites till op till') :
    ∀ session ∈ till'.sessions.rows, session.status = .closed →
      session.expectedCash = some (session.openingFloat + till'.cashNet session.id) := by
  have hold : ∀ session ∈ till.sessions.rows, session.status = .closed →
      session.expectedCash = some (session.openingFloat + till'.cashNet session.id) := by
    intro session hsession hclosed
    have hget : till.sessions.get session.id = some session := Table.get_eq_some.mpr ⟨hsession, rfl⟩
    rw [hwrites.cashNet_eq (hwrites.notMem_of_closed hget hclosed)]
    exact h.closed session hsession hclosed
  cases hwrites with
  | openSession hopen hinsert =>
      refine Table.forall_insert hinsert hold fun hclosed => ?_
      rw [hopen] at hclosed
      cases hclosed
  | closeSession hget _ hid hfloat _ hexpected hreplace =>
      refine Table.forall_replace (Table.get_self hget) hreplace hold fun _ => ?_
      rw [hexpected, hfloat, hid, (Table.get_mem hget).2]
      rfl
  | checkout | refund => exact hold

theorem Drawers.writes (h : Drawers till) (hwrites : TillWrites till op till') : Drawers till' := by
  have hclosed := h.closed_writes hwrites
  cases hwrites with
  | openSession | closeSession => exact ⟨h.rung, h.sales, h.returns, h.unknown, hclosed⟩
  | @checkout _ _ _ row sales _ _ _ _ hrung hinsert =>
      have hreturn : ∀ id, TillState.cashFrom ⟨till.sessions, sales, till.returns,
          till.entries ++ row.entries⟩ "pos_return" id = till.cashFrom "pos_return" id := by
        intro id
        rw [TillState.cashFrom_append (SaleRow.sources row)]
        exact add_zero _
      refine ⟨Table.forall_insert hinsert h.rung hrung, fun id => ?_, ?_, ?_, hclosed⟩
      · rw [TillState.cashFrom_append (SaleRow.sources row), hrung.cash,
          Table.map_get_insert _ hinsert]
        have hbefore := h.sales id
        split_ifs with hsame hid hid
        · rw [hid, (Table.insert_eq_some hinsert).2] at hbefore
          rw [hid]
          simpa using hbefore
        · exact absurd hsame.2.symm hid
        · exact absurd ⟨rfl, hid.symm⟩ hsame
        · simpa using hbefore
      · intro r hr
        rw [hreturn]
        exact h.returns r hr
      · intro id hid
        rw [hreturn]
        exact h.unknown id hid
  | @refund _ _ _ row sale saleReturn state _ _ _ _ _ hsale _ htakes hinsert hreplace =>
      have hrung := h.rung row (Table.get_mem hsale).1
      refine ⟨Table.forall_replace (Table.get_self hsale) hreplace h.rung (htakes.rung hrung),
        fun id => ?_, ?_, ?_, hclosed⟩
      · rw [TillState.cashFrom_append (SaleReturn.sources saleReturn state.booking),
          if_neg (by simp), add_zero, Table.map_get_same hsale hreplace rfl]
        · exact h.sales id
        · show sale.netAmount + sale.taxAmount = row.sale.netAmount + row.sale.taxAmount
          rw [htakes.netAmount, htakes.taxAmount]
      · have hfresh := (Table.insert_eq_some hinsert).2
        refine Table.forall_insert hinsert (fun r hr => ?_) ?_
        · rw [TillState.cashFrom_append (SaleReturn.sources saleReturn state.booking),
            if_neg, add_zero]
          · exact h.returns r hr
          · rintro ⟨-, heq⟩
            rw [heq, Table.get_eq_some.mpr ⟨hr, rfl⟩] at hfresh
            cases hfresh
        · have hcovers := htakes.covers hrung
          rw [htakes.amount]
          refine ⟨hcovers.net_nonneg.trans hcovers.net_le, fun hzero => ?_⟩
          rw [TillState.cashFrom_append (SaleReturn.sources saleReturn state.booking),
            if_pos ⟨rfl, rfl⟩, htakes.cash hrung]
          have hnet := le_antisymm (hzero ▸ hcovers.net_le) hcovers.net_nonneg
          have htax := le_antisymm (hzero ▸ hcovers.tax_le) hcovers.tax_nonneg
          rw [hnet, htax]
          simpa using h.unknown _ hfresh
      · intro id hid
        rw [Table.get_insert hinsert] at hid
        split at hid
        next => cases hid
        next hne =>
          rw [TillState.cashFrom_append (SaleReturn.sources saleReturn state.booking),
            if_neg fun h => hne h.2.symm, add_zero]
          exact h.unknown id hid

/-! ## What a session expects -/

section Expected

variable {sessionId : Uuid}

theorem PaidInCash.cashPayments_eq {row : SaleRow}
    (h : ∀ payment ∈ row.payments, payment.tender = .cash) : cashPayments row = row.payments :=
  List.filter_eq_self.mpr fun payment hpayment => decide_eq_true (h payment hpayment)

/-- The ledger has the cash of the sales, and takes off that of the refunds. -/
theorem Drawers.sales_cash (h : Drawers till) (hpaid : till.PaidInCash sessionId) :
    ((till.salesOf sessionId).map fun row => till.cashFrom "pos_sale" row.id).sum =
      till.cashNet sessionId := by
  refine congrArg List.sum (List.map_congr_left fun row hrow => ?_)
  have hmem : row ∈ till.sales.rows := (List.mem_filter.mp hrow).1
  have hcash := PaidInCash.cashPayments_eq (hpaid row hrow)
  rw [h.sales, Table.get_eq_some.mpr ⟨hmem, rfl⟩]
  show row.sale.netAmount + row.sale.taxAmount =
    ((cashPayments row).map fun payment => payment.amount - payment.changeGiven).sum
  rw [hcash, (h.rung row hmem).tendered]

theorem sum_eq_zero_iff {l : List Money} (h : ∀ a ∈ l, 0 ≤ a) : l.sum = 0 ↔ ∀ a ∈ l, a = 0 := by
  induction l with
  | nil => simp
  | cons a l ih =>
      have hhead := h a List.mem_cons_self
      have htail := fun b hb => h b (List.mem_cons_of_mem _ hb)
      rw [List.sum_cons, List.forall_mem_cons, ← ih htail]
      exact add_eq_zero_iff_of_nonneg hhead (List.sum_nonneg htail)

theorem Drawers.refunded_eq_zero_iff (h : Drawers till) :
    till.refunded sessionId = 0 ↔ ∀ r ∈ till.returnsOf sessionId, r.amount = 0 := by
  rw [TillState.refunded, sum_eq_zero_iff]
  · simp
  · simp only [List.mem_map]
    rintro _ ⟨r, hr, rfl⟩
    exact (h.returns r (List.mem_filter.mp hr).1).1

/-- The session expects what is there exactly when it has given nothing back. -/
theorem Drawers.matches_iff (h : Drawers till) {session : PosSession}
    (hsession : session ∈ till.sessions.rows) (hclosed : session.status = .closed)
    (hpaid : till.PaidInCash session.id) :
    till.Matches session ↔ ∀ r ∈ till.returnsOf session.id, r.amount = 0 := by
  have hexpected := h.closed session hsession hclosed
  rw [← h.refunded_eq_zero_iff]
  constructor
  · intro hmatches
    have hdocuments := Option.some.inj (hexpected.symm.trans hmatches.documents)
    rw [till.cashNet_eq] at hdocuments
    linarith
  · intro hzero
    have hreturns : ((till.returnsOf session.id).map fun r =>
        till.cashFrom "pos_return" r.id).sum = 0 := by
      refine List.sum_eq_zero ?_
      simp only [List.mem_map]
      rintro _ ⟨r, hr, rfl⟩
      exact (h.returns r (List.mem_filter.mp hr).1).2 (h.refunded_eq_zero_iff.mp hzero r hr)
    refine ⟨?_, ?_⟩
    · rw [hexpected, hzero, till.cashNet_eq]
      congr 1
      ring
    · rw [hexpected, TillState.cashDebit, h.sales_cash hpaid, hreturns, add_zero]

end Expected

/-! ## Every interleaving -/

/-- A closed session, with its documents. -/
structure ClosedWith (session : PosSession) (saleIds : List Uuid) (returns : List SaleReturn)
    (till : TillState) : Prop where
  get : till.sessions.get session.id = some session
  sales : (till.salesOf session.id).map SaleRow.id = saleIds
  returns : till.returnsOf session.id = returns

theorem ClosedWith.writes {session : PosSession} {saleIds : List Uuid} {returns : List SaleReturn}
    (hclosed : session.status = .closed) (h : ClosedWith session saleIds returns till)
    (hwrites : TillWrites till op till') : ClosedWith session saleIds returns till' := by
  obtain ⟨hget, hsales, hreturns⟩ := hwrites.closed_kept h.get hclosed
  exact ⟨hget, hsales.trans h.sales, hreturns.trans h.returns⟩

abbrev TillRun : Type := Interleaved TillState (LockedPhase TillCall TillRow SeenRow Money TenantDb)

theorem cash_drawer_iff {s : TillRun} {session : PosSession}
    (h : tillService.protocol.Reaches (Protocol.init .empty) s)
    (hsession : session ∈ s.committed.sessions.rows) (hclosed : session.status = .closed) :
    (∀ s', tillService.protocol.Reaches s s' → session ∈ s'.committed.sessions.rows ∧
      (s'.committed.salesOf session.id).map SaleRow.id =
        (s.committed.salesOf session.id).map SaleRow.id ∧
      s'.committed.returnsOf session.id = s.committed.returnsOf session.id) ∧
    (s.committed.PaidInCash session.id →
      (s.committed.Matches session ↔ ∀ r ∈ s.committed.returnsOf session.id, r.amount = 0)) := by
  have hinv := (tillService_rules.sound fun _ _ _ hdrawers hwrites =>
    Drawers.writes hdrawers hwrites).runs h (.init .empty)
  refine ⟨fun s' hreaches => ?_, hinv.committed.matches_iff hsession hclosed⟩
  obtain ⟨hget, hsales, hreturns⟩ := tillService_rules.reaches
    (fun _ _ _ => ClosedWith.writes hclosed) hinv
    ⟨Table.get_eq_some.mpr ⟨hsession, rfl⟩, rfl, rfl⟩ hreaches
  exact ⟨(Table.get_mem hget).1, hsales, hreturns⟩

/-! ## A day at the till -/

def openDrawer : TillCall := ⟨cornerRequest 1, .openSession ⟨5, 1000000, by decide⟩, rfl⟩

/-- A service is sold, and paid with a larger note. -/
def serviceSale : TillCall where
  request := cornerRequest 2
  op := .checkout
    { sessionId := 1
      customerId := none
      lines := [⟨8, 1000000, 0, Sample.onePiece_pos, Sample.onePiece_lt, Sample.zero_le,
        Sample.zero_le_rate⟩]
      payments := [⟨.cash, 60000, 2500⟩] } (.ok none)
  isTill := rfl

def serviceRefund : TillCall where
  request := cornerRequest 3
  op := .refund
    { saleId := 2
      sessionId := 1
      lines := [⟨2008, 1000000, Sample.onePiece_pos, Sample.onePiece_lt⟩] } (.ok none)
  isTill := rfl

def closeDrawer (countedCash : Money) : TillCall :=
  ⟨cornerRequest 4, .closeSession 1 countedCash, rfl⟩

def TillCall.toCall (call : TillCall) : Call := ⟨call.request, call.op⟩

/-- The shop with its books set up, after some requests of the till. -/
def TenantDb.tillDay (calls : List TillCall) : TenantDb :=
  (TenantDb.start corner).run
    (readBooks :: calls.map TillCall.toCall)

/-- A request runs to its end while no other does, and locks some rows. -/
def TillCall.alone (t : Nat) (call : TillCall) (rows : Nat) (around : TenantDb) :
    List (TxAction TillCall TenantDb) :=
  .begin t call :: (List.replicate (rows + 1) (.run t around) ++ [.finish t])

/-- The close begins while the sale is in progress, and has to wait for the row of the session. -/
def closedAfterSale : List (TxAction TillCall TenantDb) :=
  openDrawer.alone 1 0 (.tillDay []) ++
  [.begin 2 serviceSale, .run 2 (.tillDay [openDrawer]), .begin 4 (closeDrawer 1057500),
   .run 2 (.tillDay [openDrawer]), .finish 2,
   .run 4 (.tillDay [openDrawer, serviceSale]), .run 4 (.tillDay [openDrawer, serviceSale]),
   .finish 4]

def closedAfterRefund : List (TxAction TillCall TenantDb) :=
  openDrawer.alone 1 0 (.tillDay []) ++
  serviceSale.alone 2 1 (.tillDay [openDrawer]) ++
  serviceRefund.alone 3 2 (.tillDay [openDrawer, serviceSale]) ++
  (closeDrawer 1000000).alone 4 1 (.tillDay [openDrawer, serviceSale, serviceRefund])

theorem cash_drawer_sale : ∃ (s : TillRun) (session : PosSession),
    tillService.protocol.Reaches (Protocol.init .empty) s ∧
      session ∈ s.committed.sessions.rows ∧ session.status = .closed ∧
      session.expectedCash = some 1057500 ∧ s.committed.PaidInCash session.id ∧
      (s.committed.Matches session ↔ ∀ r ∈ s.committed.returnsOf session.id, r.amount = 0) := by
  have hsome : (closedAfterSale.foldlM tillService.protocol.step (Protocol.init .empty)).isSome := by
    decide +kernel
  obtain ⟨s, hs⟩ := Option.isSome_iff_exists.mp hsome
  have hfacts : (closedAfterSale.foldlM tillService.protocol.step (Protocol.init .empty)).all
      fun s => ∃ session ∈ s.committed.sessions.rows, session.status = .closed ∧
        session.expectedCash = some 1057500 ∧ s.committed.PaidInCash session.id := by
    decide +kernel
  rw [hs, Option.all_some, decide_eq_true_eq] at hfacts
  obtain ⟨session, hsession, hclosed, hexpected, hpaid⟩ := hfacts
  have hreaches := Protocol.Reaches.of_foldlM closedAfterSale hs
  exact ⟨s, session, hreaches, hsession, hclosed, hexpected, hpaid,
    (cash_drawer_iff hreaches hsession hclosed).2 hpaid⟩

/-- The cash of the sale went back to the customer, and the close still expects it. -/
theorem cash_drawer_refund :
    ¬∀ (s : TillRun) (session : PosSession),
      tillService.protocol.Reaches (Protocol.init .empty) s →
      session ∈ s.committed.sessions.rows → session.status = .closed →
      s.committed.PaidInCash session.id → s.committed.Matches session := by
  intro hmatches
  have hsome : (closedAfterRefund.foldlM tillService.protocol.step (Protocol.init .empty)).isSome := by
    decide +kernel
  obtain ⟨s, hs⟩ := Option.isSome_iff_exists.mp hsome
  have hfacts : (closedAfterRefund.foldlM tillService.protocol.step (Protocol.init .empty)).all
      fun s => ∃ session ∈ s.committed.sessions.rows, session.status = .closed ∧
        s.committed.PaidInCash session.id ∧ session.expectedCash = some 1057500 ∧
          session.openingFloat + s.committed.cashDebit session.id = 1000000 := by
    decide +kernel
  rw [hs, Option.all_some, decide_eq_true_eq] at hfacts
  obtain ⟨session, hsession, hclosed, hpaid, hexpected, hcash⟩ := hfacts
  have hledger := (hmatches s session (Protocol.Reaches.of_foldlM closedAfterRefund hs) hsession
    hclosed hpaid).ledger
  rw [hexpected, hcash] at hledger
  exact absurd hledger (by decide)

end Nexora.Tenant
