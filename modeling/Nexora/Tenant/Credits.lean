import Nexora.Foundations.Amounts
import Nexora.Tenant.Receivables

/-!
# Credit notes on an invoice

A credit note prices the quantity that it takes back of a line and rounds it, as if that
quantity had been sold on its own.  The service bounds the quantities and not the amounts, so
what the notes come to depends on how a line is split (`halves_over_total`).

Where the prices of the parts add up (`Op.CreditsAddUp`), the notes come to the price of what
they took back (`Credited`).  Prices grow with the quantity, so that is at most the total of
the invoice, and all of it when everything is back (`credits_within_total`).
-/

namespace Nexora.Sales

open Nexora Nexora.Catalog Nexora.Tenant Foundations
open Nexora.Accounting (Money)

variable {request : Request} {db db' : TenantDb}

/-! ## The price of a quantity -/

/-- `line_totals` without its last rounding: the net amount of a quantity of a line. -/
def LineInput.netAt (line : LineInput) (quantity : Quantity) : ℚ :=
  toContext (toContext (quantity / 10 ^ 6 * (line.unitPrice / 10 ^ 4)) *
    toContext (1 - line.discountRate / 10 ^ 6))

/-- What `line_totals` makes of a quantity of a line. -/
def LineInput.totalAt (line : LineInput) (quantity : Quantity) : Money :=
  roundHalfUp (line.netAt quantity * 10 ^ 4) +
    roundHalfUp (toContext (line.netAt quantity * (line.taxRate / 10 ^ 6)) * 10 ^ 4)

@[simp] theorem LineInput.totalAt_zero (line : LineInput) : line.totalAt 0 = 0 := by
  simp [totalAt, netAt]

/-- A line that is priced costs what its quantity does. -/
theorem PricedLine.total_eq (line : PricedLine) :
    line.amounts.totalAmount = line.toLineInput.totalAt line.quantity := by
  obtain ⟨net, hnet, h⟩ := bind_eq_ok.mp line.amounts_eq
  obtain ⟨tax, htax, h⟩ := bind_eq_ok.mp h
  simp only [Except.ok.injEq, Prod.mk.injEq] at h
  rw [← h.2.2, roundMoney_eq_ok hnet, roundMoney_eq_ok htax]
  rfl

theorem LineInput.price_eq_ok {line : LineInput} {priced : PricedLine}
    (h : line.price = .ok priced) : priced.toLineInput = line := by
  unfold LineInput.price at h
  split at h
  next => cases h
  next =>
    cases h
    rfl

/-- More of a line does not cost less. -/
theorem LineInput.totalAt_mono (line : LineInput) {quantity quantity' : Quantity}
    (hquantity : 0 ≤ quantity) (h : quantity ≤ quantity') :
    line.totalAt quantity ≤ line.totalAt quantity' := by
  have hq : (0 : ℚ) ≤ quantity := by exact_mod_cast hquantity
  have hle : (quantity : ℚ) ≤ quantity' := by exact_mod_cast h
  have hprice : (0 : ℚ) ≤ line.unitPrice := by exact_mod_cast line.unitPrice_nonneg
  have htax : (0 : ℚ) ≤ line.taxRate := by exact_mod_cast line.taxRate_range.1
  have hdiscount : (0 : ℚ) ≤ toContext (1 - line.discountRate / 10 ^ 6) := by
    have hle : (line.discountRate : ℚ) ≤ 10 ^ 6 := by exact_mod_cast line.discountRate_range.2
    refine toContext_nonneg ?_
    rw [sub_nonneg, div_le_one (by positivity)]
    exact hle
  have hgross : 0 ≤ toContext ((quantity : ℚ) / 10 ^ 6 * (line.unitPrice / 10 ^ 4)) :=
    toContext_nonneg (by positivity)
  have hnet : 0 ≤ line.netAt quantity := toContext_nonneg (mul_nonneg hgross hdiscount)
  have hnet' : line.netAt quantity ≤ line.netAt quantity' := by
    refine toContext_mono (mul_nonneg hgross hdiscount) (mul_le_mul_of_nonneg_right ?_ hdiscount)
    exact toContext_mono (by positivity) (by gcongr)
  refine add_le_add (roundHalfUp_mono (by positivity) (by gcongr)) ?_
  refine roundHalfUp_mono ?_ ?_
  · exact mul_nonneg (toContext_nonneg (by positivity)) (by norm_num)
  · refine mul_le_mul_of_nonneg_right (toContext_mono (by positivity) ?_) (by norm_num)
    gcongr

/-! ## What a note takes back -/

/-- The quantity that items take back of a line. -/
def takenBack (items : List RequestedLine) (lineId : Uuid) : Quantity :=
  amountFor (items.map fun item => (item.lineId, item.quantity)) lineId

/-- What items come to on a line. -/
def InvoiceLine.creditedBy (line : InvoiceLine) (items : List RequestedLine) : Money :=
  amountFor (items.map fun item => (item.lineId, line.toLineInput.totalAt item.quantity)) line.id

/-- The identifier and the prices of a line, and how much of it is back. -/
def InvoiceLine.creditFace (line : InvoiceLine) : Uuid × PricedLine × Quantity :=
  (line.id, line.toPricedLine, line.creditedQuantity)

theorem takenBack_singleton (item : RequestedLine) (lineId : Uuid) :
    takenBack [item] lineId = if item.lineId = lineId then item.quantity else 0 := by
  rw [takenBack, List.map_singleton, amountFor_cons]
  exact add_zero _

theorem InvoiceLine.creditedBy_singleton (line : InvoiceLine) (item : RequestedLine) :
    line.creditedBy [item] = if item.lineId = line.id then line.totalAt item.quantity else 0 := by
  rw [creditedBy, List.map_singleton, amountFor_cons]
  exact add_zero _

theorem takenBack_cons (item : RequestedLine) (items : List RequestedLine) (lineId : Uuid) :
    takenBack (item :: items) lineId = takenBack [item] lineId + takenBack items lineId := by
  rw [takenBack_singleton, takenBack, List.map_cons, amountFor_cons]
  rfl

theorem InvoiceLine.creditedBy_cons (line : InvoiceLine) (item : RequestedLine)
    (items : List RequestedLine) :
    line.creditedBy (item :: items) = line.creditedBy [item] + line.creditedBy items := by
  rw [creditedBy_singleton, creditedBy, List.map_cons, amountFor_cons]
  rfl

theorem takenBack_perm {items items' : List RequestedLine} (h : items'.Perm items)
    (lineId : Uuid) : takenBack items' lineId = takenBack items lineId :=
  (((h.map _).filter _).map _).sum_eq

theorem InvoiceLine.creditedBy_perm {items items' : List RequestedLine} (h : items'.Perm items)
    (line : InvoiceLine) : line.creditedBy items' = line.creditedBy items :=
  (((h.map _).filter _).map _).sum_eq

/-- An item takes back of its own line. -/
theorem sum_creditedBy {lines : List InvoiceLine} (hnodup : (lines.map InvoiceLine.id).Nodup)
    {line : InvoiceLine} (hline : line ∈ lines) {item : RequestedLine} (hid : item.lineId = line.id) :
    (lines.map (·.creditedBy [item])).sum = line.totalAt item.quantity := by
  simp only [InvoiceLine.creditedBy_singleton, hid]
  induction lines with
  | nil => cases hline
  | cons first rest ih =>
      rw [List.map_cons, List.nodup_cons] at hnodup
      rw [List.map_cons, List.sum_cons]
      rcases List.mem_cons.mp hline with rfl | hmem
      · have hnone : (rest.map fun l =>
            if line.id = l.id then l.totalAt item.quantity else 0).sum = 0 := by
          refine List.sum_eq_zero fun x hx => ?_
          obtain ⟨l, hl, rfl⟩ := List.mem_map.mp hx
          exact if_neg fun heq : line.id = l.id => hnodup.1 (heq ▸ List.mem_map_of_mem hl)
        rw [if_pos rfl, hnone, add_zero]
      · have hne : line.id ≠ first.id := fun heq => hnodup.1 (heq ▸ List.mem_map_of_mem hmem)
        rw [if_neg hne, zero_add, ih hnodup.2 hmem]

/-- One pass of the loop: the quantity is counted on the line, and its price goes on the note. -/
theorem creditLine_part {restocks : Option Uuid} {state state' : CreditState}
    {row : RequestedLine × Nat} (h : creditLine request restocks state row = .ok state') :
    state'.invoice.lines.map (·.creditFace) = state.invoice.lines.map (fun l =>
        (l.id, l.toPricedLine, l.creditedQuantity + takenBack [row.1] l.id)) ∧
      (state'.lines.map (·.amounts.totalAmount)).sum =
        (state.lines.map (·.amounts.totalAmount)).sum +
          (state.invoice.lines.map (·.creditedBy [row.1])).sum := by
  obtain ⟨line, hline, h⟩ := bind_eq_ok.mp h
  have hid : line.1.id = row.1.lineId := by simpa using List.find?_some (orRaise_eq_ok.mp hline)
  clear hline
  split at h
  next hle =>
    obtain ⟨priced, hpriced, h⟩ := bind_eq_ok.mp h
    obtain ⟨⟨inventory, cost⟩, -, h⟩ := bind_eq_ok.mp h
    cases h
    have hinput := LineInput.price_eq_ok hpriced
    constructor
    · show (state.invoice.lines.map fun l => if l.id = line.1.id then line.1.credit row.1 hle else l).map
        (·.creditFace) = _
      rw [List.map_map]
      refine List.map_congr_left fun l hl => ?_
      rw [Function.comp_apply, takenBack_singleton, ← hid]
      by_cases hsame : l.id = line.1.id
      · rw [if_pos hsame, if_pos hsame.symm,
          List.inj_on_of_nodup_map state.invoice.unique_lines hl line.2 hsame]
        rfl
      · rw [if_neg hsame, if_neg (Ne.symm hsame), add_zero, InvoiceLine.creditFace]
    · rw [sum_creditedBy state.invoice.unique_lines line.2 hid.symm, List.map_append,
        List.sum_append, List.map_singleton, List.sum_singleton, PricedLine.total_eq, hinput]
      rfl
  next => cases h

/-- A note counts its quantities on the lines, and comes to their prices. -/
theorem creditLines_part {restocks : Option Uuid} {rows : List (RequestedLine × Nat)}
    {state state' : CreditState}
    (h : rows.foldlM (creditLine request restocks) state = .ok state') :
    state'.invoice.lines.map (·.creditFace) = state.invoice.lines.map (fun l =>
        (l.id, l.toPricedLine, l.creditedQuantity + takenBack (rows.map Prod.fst) l.id)) ∧
      (state'.lines.map (·.amounts.totalAmount)).sum =
        (state.lines.map (·.amounts.totalAmount)).sum +
          (state.invoice.lines.map (·.creditedBy (rows.map Prod.fst))).sum := by
  induction rows generalizing state with
  | nil =>
      cases h
      refine ⟨List.map_congr_left fun l _ => ?_, ?_⟩
      · exact congrArg (fun q => (l.id, l.toPricedLine, q)) (add_zero l.creditedQuantity).symm
      · have hnone : (state'.invoice.lines.map (·.creditedBy [])).sum = 0 :=
          List.sum_eq_zero fun x hx => by
            obtain ⟨l, -, rfl⟩ := List.mem_map.mp hx
            rfl
        rw [List.map_nil, hnone, add_zero]
  | cons row rows ih =>
      rw [List.foldlM_cons] at h
      obtain ⟨state₁, hpass, h⟩ := bind_eq_ok.mp h
      obtain ⟨hfaces, hsum⟩ := creditLine_part hpass
      obtain ⟨hfaces', hsum'⟩ := ih h
      constructor
      · have hmap := congrArg (List.map fun face : Uuid × PricedLine × Quantity =>
          (face.1, face.2.1, face.2.2 + takenBack (rows.map Prod.fst) face.1)) hfaces
        rw [List.map_map, List.map_map] at hmap
        rw [hfaces', List.map_cons]
        refine hmap.trans (List.map_congr_left fun l _ => ?_)
        simp only [Function.comp_apply]
        rw [takenBack_cons row.1 (rows.map Prod.fst), add_assoc]
      · have hmap := congrArg (List.map fun face : Uuid × PricedLine × Quantity =>
          amountFor ((rows.map Prod.fst).map fun item =>
            (item.lineId, face.2.1.toLineInput.totalAt item.quantity)) face.1) hfaces
        rw [List.map_map, List.map_map] at hmap
        have hrest : (state₁.invoice.lines.map (·.creditedBy (rows.map Prod.fst))).sum =
            (state.invoice.lines.map (·.creditedBy (rows.map Prod.fst))).sum :=
          congrArg List.sum hmap
        rw [hsum', hsum, hrest, add_assoc, ← List.sum_map_add, List.map_cons]
        refine congrArg _ (congrArg List.sum (List.map_congr_left fun l _ => ?_))
        exact (l.creditedBy_cons row.1 (rows.map Prod.fst)).symm

/-- A line is credited so far for the price of what is back of it. -/
def Invoice.takenValue (invoice : Invoice) : Money :=
  (invoice.lines.map fun line => line.totalAt line.creditedQuantity).sum

/-- The prices of what items take back of a line add up to the price of all that is back then. -/
def InvoiceLine.AddsUp (line : InvoiceLine) (items : List RequestedLine) : Prop :=
  line.totalAt line.creditedQuantity + line.creditedBy items =
    line.totalAt (line.creditedQuantity + takenBack items line.id)

instance (line : InvoiceLine) (items : List RequestedLine) : Decidable (line.AddsUp items) :=
  inferInstanceAs (Decidable (_ = _))

/-- A credit note whose prices add up. -/
theorem issueCreditNote_takenValue {payload : CreditNoteCreate}
    (h : issueCreditNote request db payload = .ok db')
    (hadds : ∀ invoice ∈ db.sales.invoices.get payload.invoiceId, ∀ line ∈ invoice.lines,
      line.AddsUp payload.lines) :
    ∃ invoice credited note, db.sales.invoices.get payload.invoiceId = some invoice ∧
      (∀ id, db'.sales.invoices.get id =
        if id = invoice.id then some credited else db.sales.invoices.get id) ∧
      note.invoiceId = invoice.id ∧
      credited.takenValue = invoice.takenValue + note.amounts.totalAmount ∧
      db.sales.creditNotes.insert note = some db'.sales.creditNotes := by
  obtain ⟨invoice, credited, state, note, hget, hloop, rfl, htotal, -, -, -, hgets, hinvoice, -,
    hinsert⟩ := issueCreditNote_credits h
  refine ⟨invoice, state.invoice, note, hget, hgets, hinvoice, ?_, hinsert⟩
  have hperm : (sortedItems payload.lines).Perm payload.lines := List.perm_insertionSort _ _
  obtain ⟨hfaces, hsum⟩ := creditLines_part hloop
  rw [List.zipIdx_map_fst] at hfaces hsum
  have hmap := congrArg (List.map fun face : Uuid × PricedLine × Quantity =>
    face.2.1.toLineInput.totalAt face.2.2) hfaces
  rw [List.map_map, List.map_map] at hmap
  have hvalue : state.invoice.takenValue = (invoice.lines.map fun line =>
      line.totalAt (line.creditedQuantity + takenBack payload.lines line.id)).sum := by
    refine (congrArg List.sum hmap).trans (congrArg List.sum (List.map_congr_left fun l _ => ?_))
    simp only [Function.comp_apply, takenBack_perm hperm]
  have hnote : note.amounts.totalAmount =
      (invoice.lines.map (·.creditedBy payload.lines)).sum := by
    rw [htotal, hsum]
    simp only [InvoiceLine.creditedBy_perm hperm, List.map_nil, List.sum_nil, zero_add]
  rw [hvalue, hnote, Invoice.takenValue, ← List.sum_map_add]
  exact congrArg List.sum (List.map_congr_left fun line hline => (hadds invoice hget line hline).symm)

/-! ## Other requests -/

theorem Invoice.pay_lines {invoice paid : Invoice} {item : PaymentAllocation}
    (h : invoice.pay item = .ok paid) : paid.lines = invoice.lines := by
  unfold pay at h
  split at h
  next =>
    cases h
    rfl
  next => cases h

/-- Nothing of a new invoice is back. -/
theorem createInvoice_uncredited {payload : InvoiceCreate}
    (h : createInvoice request db payload = .ok db') :
    ∃ invoice, db.sales.invoices.insert invoice = some db'.sales.invoices ∧
      db'.sales.creditNotes = db.sales.creditNotes ∧ db'.ledger = db.ledger ∧
      ∀ line ∈ invoice.lines, line.creditedQuantity = 0 := by
  obtain ⟨order, -, h⟩ := bind_eq_ok.mp h
  obtain ⟨_, -, h⟩ := bind_eq_ok.mp h
  obtain ⟨state, hloop, h⟩ := bind_eq_ok.mp h
  obtain ⟨_, -, h⟩ := bind_eq_ok.mp h
  obtain ⟨invoice, hdraft, h⟩ := bind_eq_ok.mp h
  obtain ⟨db₁, hsave, h⟩ := bind_eq_ok.mp h
  obtain ⟨orders, -, rfl⟩ := saveOrder_eq_ok hsave
  obtain ⟨invoices, hinsert, h⟩ := bind_eq_ok.mp h
  cases h
  refine ⟨invoice, orRaise_eq_ok.mp hinsert, rfl, rfl, ?_⟩
  rw [(draftInvoice_eq_ok hdraft).2.2]
  refine foldlM_invariant
    (I := fun state : InvoiceState => ∀ line ∈ state.invoiced, line.creditedQuantity = 0) ?_ hloop
    (fun line hline => by cases hline)
  intro row _ state state' hstate hpass
  unfold invoiceLine at hpass
  split at hpass
  next =>
    obtain ⟨priced, -, hpass⟩ := bind_eq_ok.mp hpass
    cases hpass
    intro line hline
    rcases List.mem_append.mp hline with hline | hline
    · exact hstate line hline
    · rw [List.mem_singleton.mp hline]
  next =>
    cases hpass
    exact hstate

end Nexora.Sales

namespace Nexora.Tenant

open Nexora Nexora.Catalog Nexora.Sales Nexora.Purchasing Nexora.Pos Foundations
open Nexora.Accounting (Money)

variable {request : Request} {db db' : TenantDb} {invoiceId : Uuid}

/-! ## An invoice -/

/-- The parts that a credit note on the invoice takes back are priced so that they add up. -/
def Op.CreditsAddUp (invoiceId : Uuid) (db : TenantDb) (op : Op) : Prop :=
  ∀ payload ∈ op.creditNote, payload.invoiceId = invoiceId →
    ∀ invoice ∈ db.sales.invoices.get invoiceId, ∀ line ∈ invoice.lines, line.AddsUp payload.lines

instance (invoiceId : Uuid) (db : TenantDb) (op : Op) : Decidable (op.CreditsAddUp invoiceId db) :=
  inferInstanceAs (Decidable (∀ payload ∈ op.creditNote, payload.invoiceId = invoiceId →
    ∀ invoice ∈ db.sales.invoices.get invoiceId, ∀ line ∈ invoice.lines, line.AddsUp payload.lines))

/-- The credit notes on the invoice come to the price of what is back of it. -/
structure Credited (invoiceId : Uuid) (db : TenantDb) : Prop where
  linked : db.ledger.Linked
  unknown : db.sales.invoices.get invoiceId = none → db.sales.creditedOn invoiceId = 0
  credited : ∀ invoice ∈ db.sales.invoices.get invoiceId,
    db.sales.creditedOn invoiceId = invoice.takenValue

/-- The row of the invoice keeps its lines, and no credit note is added. -/
theorem Credited.of_lines (h : Credited invoiceId db) (hlinked : db'.ledger.Linked)
    (hnotes : db'.sales.creditNotes = db.sales.creditNotes)
    (hnone : db'.sales.invoices.get invoiceId = none → db.sales.invoices.get invoiceId = none)
    (hlines : ∀ invoice' ∈ db'.sales.invoices.get invoiceId,
      ∃ invoice ∈ db.sales.invoices.get invoiceId, invoice'.lines = invoice.lines) :
    Credited invoiceId db' where
  linked := hlinked
  unknown hget := by
    rw [SalesDb.creditedOn, hnotes]
    exact h.unknown (hnone hget)
  credited invoice' hget' := by
    obtain ⟨invoice, hget, hsame⟩ := hlines invoice' hget'
    rw [SalesDb.creditedOn, hnotes, Invoice.takenValue, hsame]
    exact h.credited invoice hget

theorem Credited.createInvoice {payload : InvoiceCreate} (h : Credited invoiceId db)
    (hok : Sales.createInvoice request db payload = .ok db') : Credited invoiceId db' := by
  obtain ⟨invoice, hinsert, hnotes, hledger, hlines⟩ := createInvoice_uncredited hok
  have hlinked : db'.ledger.Linked := hledger ▸ h.linked
  have hget := Table.get_insert hinsert invoiceId
  by_cases hid : invoiceId = invoice.id
  · subst hid
    rw [if_pos rfl] at hget
    have hcredited : db'.sales.creditedOn invoice.id = 0 := by
      rw [SalesDb.creditedOn, hnotes]
      exact h.unknown (Table.insert_eq_some hinsert).2
    refine ⟨hlinked, fun _ => hcredited, fun found hfound => ?_⟩
    cases hget.symm.trans hfound
    rw [hcredited]
    refine (List.sum_eq_zero fun x hx => ?_).symm
    obtain ⟨line, hline, rfl⟩ := List.mem_map.mp hx
    rw [hlines line hline, LineInput.totalAt_zero]
  · rw [if_neg hid] at hget
    refine h.of_lines hlinked hnotes (fun hnone => hget.symm.trans hnone) fun found hfound => ?_
    exact ⟨found, hget.symm.trans hfound, rfl⟩

theorem Credited.issueInvoice {id : Uuid} {claim : Except Err (Option Uuid)}
    (h : Credited invoiceId db) (hok : Sales.issueInvoice request db id claim = .ok db') :
    Credited invoiceId db' := by
  obtain rfl | ⟨invoice, number, invoices, rows, hget, -, hreplace, -, hbooks, htables⟩ :=
    issueInvoice_eq_ok h.linked hok
  · exact h
  have hkey : ({ invoice with status := .issued, invoiceNumber := some number } : Invoice).id =
      invoice.id := rfl
  have hgets := Table.get_replace (Table.get_self hget) hkey hreplace invoiceId
  have hinvoices : db'.sales.invoices = invoices := by rw [htables]
  have hnotes : db'.sales.creditNotes = db.sales.creditNotes := by rw [htables]
  rw [← hinvoices] at hgets
  by_cases hid : invoiceId = invoice.id
  · rw [if_pos hid] at hgets
    refine h.of_lines hbooks.linked hnotes (fun hnone => ?_) fun found hfound => ?_
    · rw [hgets] at hnone
      cases hnone
    · cases hgets.symm.trans hfound
      exact ⟨invoice, hid ▸ Table.get_self hget, rfl⟩
  · rw [if_neg hid] at hgets
    refine h.of_lines hbooks.linked hnotes (fun hnone => hgets.symm.trans hnone)
      fun found hfound => ?_
    exact ⟨found, hgets.symm.trans hfound, rfl⟩

theorem Credited.recordPayment {payload : PaymentCreate} {claim : Except Err (Option Uuid)}
    (h : Credited invoiceId db) (hlinked : db'.ledger.Linked)
    (hok : Sales.recordPayment request db payload claim = .ok db') : Credited invoiceId db' := by
  rcases Sales.recordPayment_pays hok with ⟨-, rfl⟩ |
    ⟨-, _, invoices, payments, -, -, -, hpays, -, hdocs⟩
  · exact h
  have hsales : db'.sales = { db.sales with invoices := invoices, payments := payments } :=
    congrArg Documents.sales hdocs
  have hinvoices : db'.sales.invoices = invoices := congrArg SalesDb.invoices hsales
  have hnotes : db'.sales.creditNotes = db.sales.creditNotes := by rw [hsales]
  rw [← hinvoices] at hpays
  by_cases hnamed : ∃ item ∈ payload.allocations, item.targetId = invoiceId
  · obtain ⟨item, hitem, rfl⟩ := hnamed
    obtain ⟨invoice, paid, hget, -, hpay, hpaid⟩ := hpays.named item hitem
    refine h.of_lines hlinked hnotes (fun hnone => ?_) fun found hfound => ?_
    · rw [hpaid] at hnone
      cases hnone
    · cases hpaid.symm.trans hfound
      exact ⟨invoice, hget, Invoice.pay_lines hpay⟩
  · have hsame := hpays.others invoiceId fun item hitem heq => hnamed ⟨item, hitem, heq⟩
    refine h.of_lines hlinked hnotes (fun hnone => hsame.symm.trans hnone) fun found hfound => ?_
    exact ⟨found, hsame.symm.trans hfound, rfl⟩

theorem Credited.issueCreditNote {payload : CreditNoteCreate} (h : Credited invoiceId db)
    (hop : Op.CreditsAddUp invoiceId db (.issueCreditNote payload)) (hlinked : db'.ledger.Linked)
    (hok : Sales.issueCreditNote request db payload = .ok db') : Credited invoiceId db' := by
  by_cases hsame : payload.invoiceId = invoiceId
  · subst hsame
    obtain ⟨invoice, credited, note, hget, hgets, hnote, hvalue, hinsert⟩ :=
      issueCreditNote_takenValue hok (hop _ rfl rfl)
    have hid := (Table.get_mem hget).2
    have hfound := hgets payload.invoiceId
    rw [if_pos hid.symm] at hfound
    refine ⟨hlinked, fun hnone => ?_, fun found hfound' => ?_⟩
    · rw [hfound] at hnone
      cases hnone
    · cases hfound.symm.trans hfound'
      rw [creditedOn_insert hinsert, if_pos (hnote.trans hid), h.credited invoice hget, hvalue]
  · obtain ⟨invoice, credited, _, note, hget, -, -, -, -, -, -, hgets, hnote, -, hinsert⟩ :=
      issueCreditNote_credits hok
    have hid := (Table.get_mem hget).2
    have hother := hgets invoiceId
    rw [if_neg fun heq => hsame (hid.symm.trans heq.symm)] at hother
    have hsum := creditedOn_insert hinsert invoiceId
    rw [if_neg fun heq => hsame (hid.symm.trans (hnote.symm.trans heq)), add_zero] at hsum
    refine ⟨hlinked, fun hnone => ?_, fun found hfound => ?_⟩
    · rw [hsum]
      exact h.unknown (hother.symm.trans hnone)
    · rw [hsum]
      exact h.credited found (hother.symm.trans hfound)

/-- A request whose credit note adds up keeps what the notes come to. -/
theorem Credited.body {op : Op} (h : Credited invoiceId db) (hop : op.CreditsAddUp invoiceId db)
    (hok : op.body request db = .ok db') : Credited invoiceId db' := by
  have hlinked : db'.ledger.Linked := by
    obtain ⟨_, _, hbooks, -⟩ := Op.books h.linked hok
    exact hbooks.linked
  cases op with
  | createInvoice payload => exact h.createInvoice hok
  | issueInvoice id claim => exact h.issueInvoice hok
  | recordCustomerPayment payload claim => exact h.recordPayment hlinked hok
  | issueCreditNote payload => exact h.issueCreditNote hop hlinked hok
  | _ =>
      obtain ⟨hinvoices, hnotes⟩ := Op.keeps_invoices h.linked rfl hok
      refine h.of_lines hlinked hnotes (fun hnone => hinvoices ▸ hnone) fun found hfound => ?_
      exact ⟨found, hinvoices ▸ hfound, rfl⟩

/-! ## Runs -/

theorem Credited.start (configuration : Configuration) (invoiceId : Uuid) :
    Credited invoiceId (.start configuration) where
  linked := Accounting.LedgerDb.linked_empty
  unknown _ := rfl
  credited invoice hget := by
    have hnone : (TenantDb.start configuration).sales.invoices.get invoiceId = none := rfl
    rw [hnone] at hget
    cases hget

theorem Credited.run {calls : List Call} (h : Credited invoiceId db)
    (hcalls : db.AllOver (Op.CreditsAddUp invoiceId) calls) : Credited invoiceId (db.run calls) := by
  induction calls generalizing db with
  | nil => exact h
  | cons call calls ih =>
      obtain ⟨hcall, hrest⟩ := hcalls
      refine ih ?_ hrest
      rcases db.step_cases call with ⟨-, hstep⟩ | ⟨db', hok, hcommits, hstep⟩
      · rw [hstep]
        exact h
      · rw [hstep]
        exact h.body (hcall hcommits) hok

/-- What is back of an invoice is worth no more than the invoice, and as much when all is back. -/
theorem Invoice.takenValue_le (invoice : Invoice) :
    invoice.takenValue ≤ invoice.amounts.totalAmount ∧
      ((∀ line ∈ invoice.lines, line.creditedQuantity = line.quantity) →
        invoice.takenValue = invoice.amounts.totalAmount) := by
  have htotal : invoice.amounts.totalAmount =
      (invoice.lines.map fun line => line.totalAt line.quantity).sum := by
    rw [Amounts.total_totalAmount invoice.totals_eq, List.map_map]
    exact congrArg List.sum (List.map_congr_left fun line _ => line.toPricedLine.total_eq)
  rw [htotal]
  constructor
  · refine List.sum_le_sum fun line _ => ?_
    exact line.totalAt_mono line.credited_within_invoiced.1 line.credited_within_invoiced.2
  · intro hall
    exact congrArg List.sum (List.map_congr_left fun line hline => by rw [hall line hline])

/-- In every run in which the parts that the credit notes on an invoice take back are priced so
that they add up, the notes come to at most the total of the invoice, and to all of it when
every line is credited in full. -/
theorem credits_within_total (configuration : Configuration) (calls : List Call) (invoiceId : Uuid)
    (hcalls : (TenantDb.start configuration).AllOver (Op.CreditsAddUp invoiceId) calls) :
    ∀ invoice ∈ ((TenantDb.start configuration).run calls).sales.invoices.get invoiceId,
      ((TenantDb.start configuration).run calls).sales.creditedOn invoiceId ≤
          invoice.amounts.totalAmount ∧
        ((∀ line ∈ invoice.lines, line.creditedQuantity = line.quantity) →
          ((TenantDb.start configuration).run calls).sales.creditedOn invoiceId =
            invoice.amounts.totalAmount) := by
  intro invoice hget
  rw [((Credited.start configuration invoiceId).run hcalls).credited invoice hget]
  exact Invoice.takenValue_le invoice

/-- Two pieces at `5` are credited one by one. -/
theorem credits_within_total_two_pieces :
    ∃ invoice ∈ ((TenantDb.start corner).run (cornerInvoice 2000000 50000 (by decide) (by decide) ++
        [cornerCredit 5 1000000 (by decide),
          cornerCredit 6 1000000 (by decide)])).sales.invoices.get 3,
      ((TenantDb.start corner).run (cornerInvoice 2000000 50000 (by decide) (by decide) ++
        [cornerCredit 5 1000000 (by decide),
          cornerCredit 6 1000000 (by decide)])).sales.creditedOn 3 ≤ invoice.amounts.totalAmount ∧
        ((∀ line ∈ invoice.lines, line.creditedQuantity = line.quantity) →
          ((TenantDb.start corner).run (cornerInvoice 2000000 50000 (by decide) (by decide) ++
            [cornerCredit 5 1000000 (by decide),
              cornerCredit 6 1000000 (by decide)])).sales.creditedOn 3 =
            invoice.amounts.totalAmount) := by
  have hissued : (((TenantDb.start corner).run (cornerInvoice 2000000 50000 (by decide) (by decide) ++
      [cornerCredit 5 1000000 (by decide),
        cornerCredit 6 1000000 (by decide)])).sales.invoices.get 3).isSome = true := by
    decide +kernel
  obtain ⟨invoice, hinvoice⟩ := Option.isSome_iff_exists.mp hissued
  exact ⟨invoice, hinvoice, credits_within_total corner _ 3 (by decide +kernel) invoice hinvoice⟩

/-- An invoice of `0.0001` is credited in two halves, and each of them is rounded to `0.0001`. -/
theorem halves_over_total :
    ¬∀ (configuration : Configuration) (calls : List Call) (invoiceId : Uuid),
      ∀ invoice ∈ ((TenantDb.start configuration).run calls).sales.invoices.get invoiceId,
        ((TenantDb.start configuration).run calls).sales.creditedOn invoiceId ≤
            invoice.amounts.totalAmount ∧
          ((∀ line ∈ invoice.lines, line.creditedQuantity = line.quantity) →
            ((TenantDb.start configuration).run calls).sales.creditedOn invoiceId =
              invoice.amounts.totalAmount) := by
  intro hwithin
  have hcorner := hwithin corner (cornerInvoice 1000000 1 (by decide) (by decide) ++
    [cornerCredit 5 500000 (by decide), cornerCredit 6 500000 (by decide)]) 3
  revert hcorner
  decide +kernel

end Nexora.Tenant
