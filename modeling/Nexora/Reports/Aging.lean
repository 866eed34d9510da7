import Nexora.Sales.Tables
import Nexora.Foundations.Amounts
import Nexora.Foundations.Calendar

/-!
# Outstanding balances and their age

`receivables` and `ar_aging` of `app/modules/sales/repository.py` and `payables` and `ap_aging` of
`app/modules/purchasing/repository.py`, for one tenant.  All four read the documents that were
issued and group them by customer or supplier.  The first of each two reports adds up what was
billed and what was paid, and the second the balances, and those again by the days they are overdue.

The five filters of the ages are written one by one, but a document passes exactly one of them
(`Bucket.unique`), so the figures of a row add up to its total.  Both reports of a side add up the
same balances (`aging_agrees`).
-/

namespace Nexora.Reports

open Nexora Nexora.Sales Foundations
open Nexora.Accounting (Money Date)

/-! ## What the reports read -/

/-- `Customer`, and `Supplier`. -/
structure Party where
  id : Uuid
  name : String
deriving DecidableEq

/-- A value of a column `DATE`. -/
structure CalendarDate extends Date where
  isCalendarDay : IsCalendarDay year month day
deriving DecidableEq

/-- The days since another date, `date - date`. -/
def CalendarDate.since (date other : CalendarDate) : ℤ :=
  ordinal date.year date.month date.day - ordinal other.year other.month other.day

/-- `Invoice`, and `SupplierBill`. -/
structure Document where
  id : Uuid
  /-- The customer or the supplier. -/
  partyId : Uuid
  branchId : Uuid
  status : InvoiceStatus
  dueDate : Option CalendarDate
  totalAmount : Money
  paidAmount : Money
deriving DecidableEq

inductive CreditNoteStatus where
  | draft
  | issued
  | cancelled
deriving DecidableEq, Repr

/-- `CreditNote`. -/
structure CreditNote where
  invoiceId : Uuid
  status : CreditNoteStatus
  totalAmount : Money
deriving DecidableEq

/-- `credited`: what is credited of an invoice. -/
def credited (creditNotes : List CreditNote) (invoiceId : Uuid) : Money :=
  ((creditNotes.filter fun note => note.status = .issued ∧ note.invoiceId = invoiceId).map
    (·.totalAmount)).sum

/-- The documents a report is about. -/
def Document.isReported (branchIds : Option (Finset Uuid)) (document : Document) : Bool :=
  document.status.isIssued && branchIds.all (document.branchId ∈ ·)

/-! ## What is billed and paid -/

/-- A document of `receivables` or `payables`. -/
structure Charge where
  partyId : Uuid
  billed : Money
  paid : Money

/-- `ReceivableRow`, and `PayableRow`. -/
structure OwedRow where
  party : Party
  billed : Money
  paid : Money
deriving DecidableEq

/-- The outstanding amount, a difference of decimals. -/
def OwedRow.outstanding (row : OwedRow) : ℚ := toContext (row.billed / 10 ^ 4 - row.paid / 10 ^ 4)

/-- What a party was billed and what it paid. -/
def owedRow (charges : List Charge) (party : Party) : OwedRow where
  party := party
  billed := ((charges.filter (·.partyId = party.id)).map (·.billed)).sum
  paid := ((charges.filter (·.partyId = party.id)).map (·.paid)).sum

/-- One row for each party of which something is outstanding.  A party without a document has no
group, and nothing to add up. -/
def owedBy (collate : String → String → Bool) (parties : Table Party.id) (charges : List Charge) :
    List OwedRow :=
  ((parties.rows.map (owedRow charges)).filter fun row => row.billed - row.paid ≠ 0).mergeSort
    fun a b => collate a.party.name b.party.name

def receivables (collate : String → String → Bool) (customers : Table Party.id)
    (invoices : List Document) (creditNotes : List CreditNote) (branchIds : Option (Finset Uuid)) :
    List OwedRow :=
  owedBy collate customers ((invoices.filter (·.isReported branchIds)).map fun i =>
    ⟨i.partyId, i.totalAmount - credited creditNotes i.id, i.paidAmount⟩)

def payables (collate : String → String → Bool) (suppliers : Table Party.id) (bills : List Document)
    (branchIds : Option (Finset Uuid)) : List OwedRow :=
  owedBy collate suppliers ((bills.filter (·.isReported branchIds)).map fun b =>
    ⟨b.partyId, b.totalAmount, b.paidAmount⟩)

/-! ## Ages -/

/-- A row of `outstanding`. -/
structure Outstanding where
  partyId : Uuid
  dueDate : Option CalendarDate
  balance : Money

/-- The columns of the ages. -/
inductive Bucket where
  | current
  | days1To30
  | days31To60
  | days61To90
  | days90Plus
deriving DecidableEq, Repr

/-- The filters of the columns.  A comparison with a missing date does not hold. -/
def Bucket.holds (asOf : CalendarDate) (dueDate : Option CalendarDate) : Bucket → Bool
  | .current => dueDate.all fun due => asOf.toDate ≤ due.toDate
  | .days1To30 => dueDate.any fun due => 1 ≤ asOf.since due ∧ asOf.since due ≤ 30
  | .days31To60 => dueDate.any fun due => 31 ≤ asOf.since due ∧ asOf.since due ≤ 60
  | .days61To90 => dueDate.any fun due => 61 ≤ asOf.since due ∧ asOf.since due ≤ 90
  | .days90Plus => dueDate.any fun due => 90 < asOf.since due

/-- `AgingRow`. -/
structure AgingRow where
  party : Party
  current : Money
  days1To30 : Money
  days31To60 : Money
  days61To90 : Money
  days90Plus : Money
  total : Money
deriving DecidableEq

/-- What a party owes. -/
def owes (outstanding : List Outstanding) (party : Party) : Money :=
  ((outstanding.filter (·.partyId = party.id)).map (·.balance)).sum

/-- What a party owes of an age. -/
def owesIn (asOf : CalendarDate) (outstanding : List Outstanding) (party : Party)
    (bucket : Bucket) : Money :=
  (((outstanding.filter (·.partyId = party.id)).filter fun o => bucket.holds asOf o.dueDate).map
    (·.balance)).sum

/-- The figures of a party, each rounded on its own. -/
def agingRow (asOf : CalendarDate) (outstanding : List Outstanding) (party : Party) :
    Except Err AgingRow := do
  let current ← roundMoney (owesIn asOf outstanding party .current / 10 ^ 4)
  let days1To30 ← roundMoney (owesIn asOf outstanding party .days1To30 / 10 ^ 4)
  let days31To60 ← roundMoney (owesIn asOf outstanding party .days31To60 / 10 ^ 4)
  let days61To90 ← roundMoney (owesIn asOf outstanding party .days61To90 / 10 ^ 4)
  let days90Plus ← roundMoney (owesIn asOf outstanding party .days90Plus / 10 ^ 4)
  let total ← roundMoney (owes outstanding party / 10 ^ 4)
  .ok ⟨party, current, days1To30, days31To60, days61To90, days90Plus, total⟩

/-- One row for each party that owes something. -/
def agingOf (collate : String → String → Bool) (parties : Table Party.id) (asOf : CalendarDate)
    (outstanding : List Outstanding) : Except Err (List AgingRow) :=
  ((parties.rows.filter fun party => owes outstanding party ≠ 0).mergeSort fun a b =>
    collate a.name b.name).mapM (agingRow asOf outstanding)

/-- `outstanding` of `ar_aging`. -/
def invoicesOutstanding (invoices : List Document) (creditNotes : List CreditNote)
    (branchIds : Option (Finset Uuid)) : List Outstanding :=
  (invoices.filter (·.isReported branchIds)).map fun i =>
    ⟨i.partyId, i.dueDate, i.totalAmount - credited creditNotes i.id - i.paidAmount⟩

def arAging (collate : String → String → Bool) (customers : Table Party.id)
    (invoices : List Document) (creditNotes : List CreditNote) (asOf : CalendarDate)
    (branchIds : Option (Finset Uuid)) : Except Err (List AgingRow) :=
  agingOf collate customers asOf (invoicesOutstanding invoices creditNotes branchIds)

/-- `outstanding` of `ap_aging`. -/
def billsOutstanding (bills : List Document) (branchIds : Option (Finset Uuid)) :
    List Outstanding :=
  (bills.filter (·.isReported branchIds)).map fun b =>
    ⟨b.partyId, b.dueDate, b.totalAmount - b.paidAmount⟩

def apAging (collate : String → String → Bool) (suppliers : Table Party.id) (bills : List Document)
    (asOf : CalendarDate) (branchIds : Option (Finset Uuid)) : Except Err (List AgingRow) :=
  agingOf collate suppliers asOf (billsOutstanding bills branchIds)

/-! ## Exactly one age -/

theorem CalendarDate.since_pos {date other : CalendarDate} (h : other.toDate < date.toDate) :
    0 < date.since other := by
  obtain ⟨hle, hnot⟩ := h
  change _ ∨ _ at hle
  change ¬(_ ∨ _) at hnot
  have hlt := ordinal_lt other.isCalendarDay date.isCalendarDay (by omega)
  unfold CalendarDate.since
  omega

/-- The current documents are those that are not overdue for a day. -/
theorem CalendarDate.since_nonpos_iff {date other : CalendarDate} :
    date.since other ≤ 0 ↔ date.toDate ≤ other.toDate := by
  refine ⟨fun hle => not_lt.mp fun hlt => ?_, fun hle => ?_⟩
  · exact absurd (CalendarDate.since_pos hlt) hle.not_gt
  · rcases hle.lt_or_eq with hlt | heq
    · have hpos := CalendarDate.since_pos hlt
      unfold CalendarDate.since at hpos ⊢
      omega
    · unfold CalendarDate.since
      rw [heq]
      omega

/-- The age of a document that is overdue for some days. -/
def Bucket.ofDays (days : ℤ) : Bucket :=
  if days ≤ 0 then .current
  else if days ≤ 30 then .days1To30
  else if days ≤ 60 then .days31To60
  else if days ≤ 90 then .days61To90
  else .days90Plus

/-- The age of a document. -/
def Bucket.ofDue (asOf : CalendarDate) (dueDate : Option CalendarDate) : Bucket :=
  dueDate.elim .current fun due => .ofDays (asOf.since due)

/-- A document passes the filter of its age, and no other. -/
theorem Bucket.holds_iff {asOf : CalendarDate} {dueDate : Option CalendarDate} {bucket : Bucket} :
    bucket.holds asOf dueDate = true ↔ bucket = .ofDue asOf dueDate := by
  cases dueDate with
  | none => cases bucket <;> simp [holds, ofDue]
  | some due =>
      have hcurrent : asOf.toDate ≤ due.toDate ↔ asOf.since due ≤ 0 :=
        CalendarDate.since_nonpos_iff.symm
      simp only [ofDue, Option.elim_some, ofDays]
      cases bucket <;> simp only [holds, Option.all_some, Option.any_some, decide_eq_true_eq, hcurrent] <;>
        split_ifs <;> simp <;> omega

/-- A document is in exactly one column. -/
theorem Bucket.unique (asOf : CalendarDate) (dueDate : Option CalendarDate) :
    ∃! bucket : Bucket, bucket.holds asOf dueDate = true :=
  ⟨.ofDue asOf dueDate, holds_iff.mpr rfl, fun _ h => holds_iff.mp h⟩

example : Bucket.days1To30.holds ⟨⟨2026, 3, 1⟩, by decide⟩ (some ⟨⟨2026, 1, 30⟩, by decide⟩) = true := by
  decide

/-- The columns of the ages. -/
def Bucket.all : List Bucket := [.current, .days1To30, .days31To60, .days61To90, .days90Plus]

/-- The figures of the ages add up to the total. -/
theorem owesIn_sum (asOf : CalendarDate) (outstanding : List Outstanding) (party : Party) :
    (Bucket.all.map (owesIn asOf outstanding party)).sum = owes outstanding party := by
  refine sum_classes Outstanding.balance fun o _ => ?_
  have hcount : (fun bucket : Bucket => bucket.holds asOf o.dueDate) =
      fun bucket => bucket == .ofDue asOf o.dueDate := by
    funext bucket
    rw [Bool.eq_iff_iff, Bucket.holds_iff, beq_iff_eq]
  rw [hcount]
  generalize Bucket.ofDue asOf o.dueDate = bucket
  cases bucket <;> decide

/-! ## Rows -/

/-- Sums of a column are exact, as long as they have 28 digits. -/
theorem roundMoney_eq_ok_iff {amount rounded : Money} :
    roundMoney (amount / 10 ^ 4) = .ok rounded ↔ rounded = amount ∧ |amount| < 10 ^ 28 := by
  have hexact : roundHalfUp ((amount : ℚ) / 10 ^ 4 * 10 ^ 4) = amount := by
    rw [div_mul_cancel₀ _ (by norm_num), roundHalfUp_intCast]
  unfold roundMoney
  rw [hexact]
  split
  next hlt => exact ⟨fun h => ⟨(Except.ok.inj h).symm, hlt⟩, fun h => congrArg Except.ok h.1.symm⟩
  next hge => exact ⟨nofun, fun h => absurd h.2 hge⟩

/-- The figure of an age. -/
def AgingRow.figure (row : AgingRow) : Bucket → Money
  | .current => row.current
  | .days1To30 => row.days1To30
  | .days31To60 => row.days31To60
  | .days61To90 => row.days61To90
  | .days90Plus => row.days90Plus

/-- The figures of a party. -/
def exactRow (asOf : CalendarDate) (outstanding : List Outstanding) (party : Party) : AgingRow where
  party := party
  current := owesIn asOf outstanding party .current
  days1To30 := owesIn asOf outstanding party .days1To30
  days31To60 := owesIn asOf outstanding party .days31To60
  days61To90 := owesIn asOf outstanding party .days61To90
  days90Plus := owesIn asOf outstanding party .days90Plus
  total := owes outstanding party

theorem exactRow_figure (asOf : CalendarDate) (outstanding : List Outstanding) (party : Party)
    (bucket : Bucket) :
    (exactRow asOf outstanding party).figure bucket = owesIn asOf outstanding party bucket := by
  cases bucket with
  | _ => rfl

/-- The figures of a party that have 28 digits. -/
def Representable (asOf : CalendarDate) (outstanding : List Outstanding) (party : Party) : Prop :=
  (∀ bucket, |owesIn asOf outstanding party bucket| < 10 ^ 28) ∧ |owes outstanding party| < 10 ^ 28

theorem agingRow_eq_ok {asOf : CalendarDate} {outstanding : List Outstanding} {party : Party}
    {row : AgingRow} : agingRow asOf outstanding party = .ok row ↔
      row = exactRow asOf outstanding party ∧ Representable asOf outstanding party := by
  constructor
  · intro h
    obtain ⟨current, hcurrent, h⟩ := bind_eq_ok.mp h
    obtain ⟨days1To30, h1To30, h⟩ := bind_eq_ok.mp h
    obtain ⟨days31To60, h31To60, h⟩ := bind_eq_ok.mp h
    obtain ⟨days61To90, h61To90, h⟩ := bind_eq_ok.mp h
    obtain ⟨days90Plus, h90Plus, h⟩ := bind_eq_ok.mp h
    obtain ⟨total, htotal, h⟩ := bind_eq_ok.mp h
    cases h
    obtain ⟨rfl, hcurrentDigits⟩ := roundMoney_eq_ok_iff.mp hcurrent
    obtain ⟨rfl, h1To30Digits⟩ := roundMoney_eq_ok_iff.mp h1To30
    obtain ⟨rfl, h31To60Digits⟩ := roundMoney_eq_ok_iff.mp h31To60
    obtain ⟨rfl, h61To90Digits⟩ := roundMoney_eq_ok_iff.mp h61To90
    obtain ⟨rfl, h90PlusDigits⟩ := roundMoney_eq_ok_iff.mp h90Plus
    obtain ⟨rfl, htotalDigits⟩ := roundMoney_eq_ok_iff.mp htotal
    refine ⟨rfl, fun bucket => ?_, htotalDigits⟩
    cases bucket with
    | current => exact hcurrentDigits
    | days1To30 => exact h1To30Digits
    | days31To60 => exact h31To60Digits
    | days61To90 => exact h61To90Digits
    | days90Plus => exact h90PlusDigits
  · rintro ⟨rfl, hages, htotal⟩
    have hround : ∀ bucket, roundMoney (owesIn asOf outstanding party bucket / 10 ^ 4) =
        .ok (owesIn asOf outstanding party bucket) := by
      intro bucket
      exact roundMoney_eq_ok_iff.mpr ⟨rfl, hages bucket⟩
    unfold agingRow
    rw [hround, hround, hround, hround, hround, roundMoney_eq_ok_iff.mpr ⟨rfl, htotal⟩]
    rfl

/-! ## The two reports -/

/-- What the aging of some outstanding documents says, and what it has to do with the totals of the
other report. -/
structure Agree (parties : Table Party.id) (asOf : CalendarDate) (outstanding : List Outstanding)
    (owed : List OwedRow) (aging : Except Err (List AgingRow)) : Prop where
  /-- Every document is in one column. -/
  unique : ∀ o ∈ outstanding, ∃! bucket : Bucket, bucket.holds asOf o.dueDate = true
  /-- A column has the documents that are in it. -/
  figure : ∀ rows, aging = .ok rows → ∀ row ∈ rows, ∀ bucket,
    row.figure bucket = owesIn asOf outstanding row.party bucket
  /-- The columns add up to the total. -/
  total : ∀ rows, aging = .ok rows → ∀ row ∈ rows,
    row.current + row.days1To30 + row.days31To60 + row.days61To90 + row.days90Plus = row.total
  /-- The total is the outstanding amount of the other report. -/
  settles : ∀ rows, aging = .ok rows → ∀ row ∈ rows, ∀ owedRow ∈ owed,
    owedRow.party = row.party → owedRow.outstanding = row.total / 10 ^ 4
  /-- Both reports list the same parties. -/
  listed : ∀ rows, aging = .ok rows → (rows.map (·.party)).Perm (owed.map (·.party))
  /-- The report is there when its figures have 28 digits. -/
  returns : (∃ rows, aging = .ok rows) ↔
    ∀ party ∈ parties.rows, owes outstanding party ≠ 0 → Representable asOf outstanding party

section Agree

variable {collate : String → String → Bool} {parties : Table Party.id} {asOf : CalendarDate}
  {documents : List Document} {charge : Document → Charge} {balance : Document → Outstanding}

/-- Balances add up to the difference of what is billed and paid. -/
theorem owes_eq (hparty : ∀ document, (balance document).partyId = (charge document).partyId)
    (hbalance : ∀ document,
      (balance document).balance = (charge document).billed - (charge document).paid)
    (party : Party) : owes (documents.map balance) party =
      (owedRow (documents.map charge) party).billed -
        (owedRow (documents.map charge) party).paid := by
  simp only [owes, owedRow, List.filter_map, List.map_map, Function.comp_def, hparty, hbalance]
  induction documents.filter fun document => decide ((charge document).partyId = party.id) with
  | nil => rfl
  | cons document rest ih =>
      simp only [List.map_cons, List.sum_cons, ih]
      ring

/-- The parties of the totals are those that owe something. -/
theorem owedBy_perm (hparty : ∀ document, (balance document).partyId = (charge document).partyId)
    (hbalance : ∀ document,
      (balance document).balance = (charge document).billed - (charge document).paid) :
    (owedBy collate parties (documents.map charge)).Perm
      ((parties.rows.filter fun party => owes (documents.map balance) party ≠ 0).map
        (owedRow (documents.map charge))) := by
  refine (List.mergeSort_perm _ _).trans (.of_eq ?_)
  rw [List.filter_map]
  congr 2
  funext party
  rw [owes_eq hparty hbalance]
  rfl

/-- A report that returns has the row of each party that owes something. -/
theorem agingOf_perm {outstanding : List Outstanding} {rows : List AgingRow}
    (h : agingOf collate parties asOf outstanding = .ok rows) :
    rows.Perm ((parties.rows.filter fun party => owes outstanding party ≠ 0).map
      (exactRow asOf outstanding)) := by
  rw [mapM_eq_ok_map (fun _ _ hrow => (agingRow_eq_ok.mp hrow).1) h]
  exact (List.mergeSort_perm _ _).map _

theorem agingOf_returns {outstanding : List Outstanding} :
    (∃ rows, agingOf collate parties asOf outstanding = .ok rows) ↔
      ∀ party ∈ parties.rows, owes outstanding party ≠ 0 →
        Representable asOf outstanding party := by
  have hmem : ∀ party, party ∈ (parties.rows.filter fun party =>
      owes outstanding party ≠ 0).mergeSort (fun a b => collate a.name b.name) ↔
        party ∈ parties.rows ∧ owes outstanding party ≠ 0 := by
    intro party
    rw [(List.mergeSort_perm _ _).mem_iff, List.mem_filter, decide_eq_true_eq]
  constructor
  · rintro ⟨rows, h⟩ party hparty howes
    obtain ⟨row, -, hrow⟩ := exists_of_forall₂ (mapM_forall₂ h).flip
      ((hmem party).mpr ⟨hparty, howes⟩)
    exact (agingRow_eq_ok.mp hrow).2
  · intro hall
    refine ⟨_, mapM_eq_map fun party hparty => agingRow_eq_ok.mpr ⟨rfl, ?_⟩⟩
    exact hall party ((hmem party).mp hparty).1 ((hmem party).mp hparty).2

/-- Two reports agree when their rows have the same parties and balances. -/
theorem aging_agree (hparty : ∀ document, (balance document).partyId = (charge document).partyId)
    (hbalance : ∀ document,
      (balance document).balance = (charge document).billed - (charge document).paid) :
    Agree parties asOf (documents.map balance) (owedBy collate parties (documents.map charge))
      (agingOf collate parties asOf (documents.map balance)) where
  unique o _ := Bucket.unique asOf o.dueDate
  figure rows h row hrow bucket := by
    obtain ⟨party, -, rfl⟩ := List.mem_map.mp ((agingOf_perm h).mem_iff.mp hrow)
    exact exactRow_figure asOf _ party bucket
  total rows h row hrow := by
    obtain ⟨party, -, rfl⟩ := List.mem_map.mp ((agingOf_perm h).mem_iff.mp hrow)
    have hsum := owesIn_sum asOf (documents.map balance) party
    simp only [Bucket.all, List.map_cons, List.map_nil, List.sum_cons, List.sum_nil] at hsum
    simp only [exactRow]
    linarith
  settles rows h row hrow owed howed hsame := by
    obtain ⟨party, hmem, rfl⟩ := List.mem_map.mp ((agingOf_perm h).mem_iff.mp hrow)
    obtain ⟨hparties, howes⟩ := List.mem_filter.mp hmem
    obtain ⟨-, hdigits⟩ := agingOf_returns.mp ⟨rows, h⟩ party hparties (of_decide_eq_true howes)
    obtain ⟨other, -, rfl⟩ := List.mem_map.mp ((owedBy_perm hparty hbalance).mem_iff.mp howed)
    obtain rfl : other = party := hsame
    have hdifference : owes (documents.map balance) other = _ := owes_eq hparty hbalance other
    rw [OwedRow.outstanding, ← sub_div, ← Int.cast_sub, ← hdifference]
    exact toContext_of_digits (k := -4) (by rw [zpow_neg, ← div_eq_mul_inv]; rfl) hdigits
  listed rows h := by
    have haging := (agingOf_perm h).map AgingRow.party
    have hperm : (owedBy collate parties (documents.map charge)).Perm _ := owedBy_perm hparty hbalance
    have howed := hperm.map OwedRow.party
    rw [List.map_map] at haging howed
    exact haging.trans howed.symm
  returns := agingOf_returns

end Agree

/-- For all invoices, credit notes and bills, on every date and in every branch scope: the columns
of `ar_aging` and of `ap_aging` are a partition of what each party owes, which is what `receivables`
and `payables` say that it owes, and the two reports of a side list the same parties. -/
theorem aging_partitions (collate : String → String → Bool) (customers suppliers : Table Party.id)
    (invoices bills : List Document) (creditNotes : List CreditNote) (asOf : CalendarDate)
    (branchIds : Option (Finset Uuid)) :
    Agree customers asOf (invoicesOutstanding invoices creditNotes branchIds)
      (receivables collate customers invoices creditNotes branchIds)
      (arAging collate customers invoices creditNotes asOf branchIds) ∧
    Agree suppliers asOf (billsOutstanding bills branchIds)
      (payables collate suppliers bills branchIds) (apAging collate suppliers bills asOf branchIds) :=
  ⟨aging_agree (fun _ => rfl) fun _ => rfl, aging_agree (fun _ => rfl) fun _ => rfl⟩

end Nexora.Reports
