import Nexora.Catalog.Products
import Nexora.Foundations.Runs

/-!
# The VAT register

`vat_transactions` and `VatService.record` of `app/modules/vat`.  A document records one
row for each tax rate on its lines.  A row carries the amounts as they were charged, and a
reversal carries its tax as a negative amount.

Rates whose lines net to nothing get no row, so what a document adds to the register is the
tax of its lines whatever rates they have (`recordLines_sum`).
-/

namespace Nexora.Vat

open Nexora Nexora.Catalog Foundations
open Nexora.Accounting (Money Date)

/-! ## Rows -/

inductive VatDirection where
  | output
  | input
deriving DecidableEq, Repr

/-- `VatTransaction`.  The bounds and the sign are the checks of the table. -/
structure VatTransaction where
  id : Uuid
  direction : VatDirection
  occurredOn : Date
  sourceType : String
  sourceId : Uuid
  rate : Rate
  taxableAmount : Money
  vatAmount : Money
  isReversal : Bool
  /-- Set when a return is filed. -/
  vatReturnId : Option Uuid
  taxable_nonnegative : 0 ≤ taxableAmount
  rate_range : 0 ≤ rate ∧ rate ≤ 10 ^ 6
  reversal_sign : 0 ≤ vatAmount ∧ isReversal = false ∨ vatAmount ≤ 0 ∧ isReversal = true

/-- A rate with the net amount and the tax of its lines. -/
abbrev RateTotal := Rate × Money × Money

/-- `grouped.setdefault(rate, [ZERO, ZERO])` and the two additions. -/
def addTaxableLine : List RateTotal → RateTotal → List RateTotal
  | [], line => [line]
  | bucket :: grouped, line =>
      if bucket.1 = line.1 then
        (bucket.1, bucket.2.1 + line.2.1, bucket.2.2 + line.2.2) :: grouped
      else bucket :: addTaxableLine grouped line

/-- `group_taxable_lines`. -/
def groupTaxableLines (lines : List RateTotal) : List RateTotal :=
  (lines.foldl addTaxableLine []).filter fun bucket => bucket.2.1 ≠ 0 ∨ bucket.2.2 ≠ 0

/-! ## Recording -/

/-- The document whose lines are recorded. -/
structure TaxableEvent where
  direction : VatDirection
  occurredOn : Date
  sourceType : String
  sourceId : Uuid
  isReversal : Bool

/-- `-abs(vat_amount) if is_reversal else abs(vat_amount)`. -/
def TaxableEvent.signed (event : TaxableEvent) (vatAmount : Money) : Money :=
  if event.isReversal then -|vatAmount| else |vatAmount|

theorem TaxableEvent.reversal_sign (event : TaxableEvent) (vatAmount : Money) :
    0 ≤ event.signed vatAmount ∧ event.isReversal = false ∨
      event.signed vatAmount ≤ 0 ∧ event.isReversal = true := by
  cases h : event.isReversal with
  | false => simp [signed, h]
  | true => simp [signed, h]

/-- `VatService.record`.  Amounts with four decimals are quantized already. -/
def TaxableEvent.record (event : TaxableEvent) (id : Uuid) (total : RateTotal) :
    Except Err VatTransaction :=
  if h : 0 ≤ total.1 ∧ total.1 ≤ 10 ^ 6 then
    if 10 ^ 18 ≤ |total.2.1| then .error (.outOfRange "taxable_amount")
    else if 10 ^ 18 ≤ |total.2.2| then .error (.outOfRange "vat_amount")
    else
      .ok
        { id := id
          direction := event.direction
          occurredOn := event.occurredOn
          sourceType := event.sourceType
          sourceId := event.sourceId
          rate := total.1
          taxableAmount := |total.2.1|
          vatAmount := event.signed total.2.2
          isReversal := event.isReversal
          vatReturnId := none
          taxable_nonnegative := abs_nonneg _
          rate_range := h
          reversal_sign := event.reversal_sign _ }
  else .error (.integrity "rate_range")

/-- The rows of a document, with the identifiers drawn for them. -/
def TaxableEvent.recordLines (event : TaxableEvent) (newId : Nat → Uuid)
    (lines : List RateTotal) : Except Err (List VatTransaction) :=
  (groupTaxableLines lines).zipIdx.mapM fun row => event.record (newId row.2) row.1

/-- The register with the rows. -/
def insertRows (register : Table VatTransaction.id) (rows : List VatTransaction) :
    Except Err (Table VatTransaction.id) :=
  rows.foldlM (fun register row =>
    orRaise (.integrity "vat_transactions_pkey") (register.insert row)) register

/-- `SUM(vat_amount)` of one direction. -/
def registerVat (direction : VatDirection) (rows : List VatTransaction) : Money :=
  ((rows.filter (·.direction = direction)).map (·.vatAmount)).sum

/-! ## Sums -/

theorem insertRows_eq_ok {register register' : Table VatTransaction.id}
    {rows : List VatTransaction} (h : insertRows register rows = .ok register') :
    register'.rows = register.rows ++ rows := by
  induction rows generalizing register with
  | nil =>
      cases h
      simp
  | cons row rows ih =>
      simp only [insertRows, List.foldlM_cons] at h
      obtain ⟨register₁, hinsert, h⟩ := bind_eq_ok.mp h
      have hrows := (Table.insert_eq_some (orRaise_eq_ok.mp hinsert)).1
      rw [ih h, hrows, List.append_assoc]
      rfl

@[simp] theorem registerVat_append (direction : VatDirection) (rows rows' : List VatTransaction) :
    registerVat direction (rows ++ rows') =
      registerVat direction rows + registerVat direction rows' := by
  simp [registerVat]

section Grouping

variable {M : Type*} [AddCommMonoid M] (f : Rate → Money × Money →+ M)

theorem sum_addTaxableLine (grouped : List RateTotal) (line : RateTotal) :
    ((addTaxableLine grouped line).map fun bucket => f bucket.1 bucket.2).sum =
      (grouped.map fun bucket => f bucket.1 bucket.2).sum + f line.1 line.2 := by
  induction grouped with
  | nil => simp [addTaxableLine]
  | cons bucket grouped ih =>
      simp only [addTaxableLine]
      split
      next hrate =>
        have hadd : f bucket.1 (bucket.2.1 + line.2.1, bucket.2.2 + line.2.2) =
            f bucket.1 bucket.2 + f line.1 line.2 := by
          rw [← hrate]
          exact map_add (f bucket.1) bucket.2 line.2
        simp only [List.map_cons, List.sum_cons, hadd, add_right_comm]
      next => simp only [List.map_cons, List.sum_cons, ih, add_assoc]

/-- Grouping keeps every sum over the lines.  Buckets without an amount may be left out. -/
theorem sum_groupTaxableLines (lines : List RateTotal) :
    ((groupTaxableLines lines).map fun bucket => f bucket.1 bucket.2).sum =
      (lines.map fun line => f line.1 line.2).sum := by
  have hfold : ∀ grouped : List RateTotal,
      ((lines.foldl addTaxableLine grouped).map fun bucket => f bucket.1 bucket.2).sum =
        (grouped.map fun bucket => f bucket.1 bucket.2).sum +
          (lines.map fun line => f line.1 line.2).sum := by
    induction lines with
    | nil => exact fun grouped => (add_zero _).symm
    | cons line lines ih =>
        intro grouped
        rw [List.foldl_cons, ih, sum_addTaxableLine, List.map_cons, List.sum_cons, add_assoc]
  have hall := hfold []
  rw [List.map_nil, List.sum_nil, zero_add] at hall
  rw [← hall, groupTaxableLines, Table.sum_filter]
  congr 1
  refine List.map_congr_left fun bucket _ => ?_
  by_cases h : bucket.2.1 ≠ 0 ∨ bucket.2.2 ≠ 0
  · simp [h]
  · obtain ⟨hnet, htax⟩ := not_or.mp h
    have hzero : bucket.2 = 0 := Prod.ext (not_not.mp hnet) (not_not.mp htax)
    simp [hzero]

/-- What holds of the amounts of all lines, and of sums of such amounts, holds of the buckets. -/
theorem forall_groupTaxableLines {P : Money × Money → Prop} (hadd : ∀ a b, P a → P b → P (a + b))
    {lines : List RateTotal} (h : ∀ line ∈ lines, P line.2) :
    ∀ bucket ∈ groupTaxableLines lines, P bucket.2 := by
  have hstep : ∀ (grouped : List RateTotal) (line : RateTotal), (∀ bucket ∈ grouped, P bucket.2) →
      P line.2 → ∀ bucket ∈ addTaxableLine grouped line, P bucket.2 := by
    intro grouped line hgrouped hline
    induction grouped with
    | nil => simpa [addTaxableLine] using hline
    | cons first grouped ih =>
        rw [List.forall_mem_cons] at hgrouped
        simp only [addTaxableLine]
        split
        · exact List.forall_mem_cons.mpr ⟨hadd _ _ hgrouped.1 hline, hgrouped.2⟩
        · exact List.forall_mem_cons.mpr ⟨hgrouped.1, ih hgrouped.2⟩
  have hfold : ∀ grouped : List RateTotal, (∀ bucket ∈ grouped, P bucket.2) →
      ∀ bucket ∈ lines.foldl addTaxableLine grouped, P bucket.2 := by
    induction lines with
    | nil => exact fun _ hgrouped => hgrouped
    | cons line lines ih =>
        rw [List.forall_mem_cons] at h
        exact fun grouped hgrouped => ih h.2 _ (hstep grouped line hgrouped h.1)
  exact fun bucket hbucket => hfold [] (List.forall_mem_nil _) bucket (List.mem_of_mem_filter hbucket)

end Grouping

/-- The tax of the lines with certain rates. -/
def rateSum (p : Rate → Bool) (lines : List RateTotal) : Money :=
  (lines.map fun line => if p line.1 then line.2.2 else 0).sum

@[simp] theorem rateSum_cons (p : Rate → Bool) (line : RateTotal) (lines : List RateTotal) :
    rateSum p (line :: lines) = (if p line.1 then line.2.2 else 0) + rateSum p lines := rfl

theorem rateSum_all (lines : List RateTotal) :
    rateSum (fun _ => true) lines = (lines.map (·.2.2)).sum := rfl

theorem rateSum_groupTaxableLines (p : Rate → Bool) (lines : List RateTotal) :
    rateSum p (groupTaxableLines lines) = rateSum p lines := by
  have hrate : ∀ line : RateTotal, (if p line.1 then line.2.2 else 0) =
      (if p line.1 then AddMonoidHom.snd Money Money else 0) line.2 := by
    intro line
    split
    · rfl
    · rfl
  simp only [rateSum, hrate]
  exact sum_groupTaxableLines (fun rate => if p rate then AddMonoidHom.snd Money Money else 0) lines

theorem groupTaxableLines_nonneg {lines : List RateTotal} (h : ∀ line ∈ lines, 0 ≤ line.2.2) :
    ∀ bucket ∈ groupTaxableLines lines, 0 ≤ bucket.2.2 := by
  exact forall_groupTaxableLines (P := fun amounts => 0 ≤ amounts.2) (fun _ _ => add_nonneg) h

theorem TaxableEvent.record_eq_ok {event : TaxableEvent} {id : Uuid} {total : RateTotal}
    {row : VatTransaction} (h : event.record id total = .ok row) :
    row.direction = event.direction ∧ row.rate = total.1 ∧
      row.vatAmount = event.signed total.2.2 := by
  simp only [record] at h
  split at h
  next =>
    simp only [ite_error_eq_ok] at h
    cases h.2.2
    exact ⟨rfl, rfl, rfl⟩
  next => cases h

/-- The document of a row, and what it is taxed on. -/
theorem TaxableEvent.record_source {event : TaxableEvent} {id : Uuid} {total : RateTotal}
    {row : VatTransaction} (h : event.record id total = .ok row) :
    (row.sourceType = event.sourceType ∧ row.sourceId = event.sourceId) ∧
      row.taxableAmount = |total.2.1| ∧ |row.vatAmount| = |total.2.2| := by
  have hvat := (record_eq_ok h).2.2
  simp only [record] at h
  split at h
  next =>
    simp only [ite_error_eq_ok] at h
    cases h.2.2
    refine ⟨⟨rfl, rfl⟩, rfl, ?_⟩
    rw [hvat, signed]
    split
    · rw [abs_neg, abs_abs]
    · rw [abs_abs]
  next => cases h

theorem TaxableEvent.signed_of_nonneg {event : TaxableEvent} {vatAmount : Money}
    (h : 0 ≤ vatAmount) :
    event.signed vatAmount = if event.isReversal then -vatAmount else vatAmount := by
  rw [signed, abs_of_nonneg h]

/-- The tax that rows carry for certain rates. -/
def rowSum (p : Rate → Bool) (rows : List VatTransaction) : Money :=
  (rows.map fun row => if p row.rate then row.vatAmount else 0).sum

@[simp] theorem rowSum_append (p : Rate → Bool) (rows rows' : List VatTransaction) :
    rowSum p (rows ++ rows') = rowSum p rows + rowSum p rows' := by
  simp [rowSum]

/-- What a document adds to the register at certain rates is the tax of its lines with them. -/
theorem TaxableEvent.recordLines_sum {event : TaxableEvent} {newId : Nat → Uuid}
    {lines : List RateTotal} {rows : List VatTransaction} (hnonneg : ∀ line ∈ lines, 0 ≤ line.2.2)
    (h : event.recordLines newId lines = .ok rows) (p : Rate → Bool) :
    rowSum p rows = if event.isReversal then -rateSum p lines else rateSum p lines := by
  have hrows := mapM_forall₂ h
  clear h
  have hgroups := groupTaxableLines_nonneg hnonneg
  rw [← rateSum_groupTaxableLines]
  rw [← List.zipIdx_map_fst 0 (groupTaxableLines lines)] at hgroups ⊢
  generalize (groupTaxableLines lines).zipIdx = groups at hrows hgroups
  induction hrows with
  | nil => simp [rowSum, rateSum]
  | @cons group row groups rows hrow _ ih =>
      obtain ⟨-, hrate, hvat⟩ := record_eq_ok hrow
      have ih := ih fun bucket hb => hgroups bucket (List.mem_cons_of_mem _ hb)
      have hgroup : 0 ≤ group.1.2.2 := hgroups _ List.mem_cons_self
      have hcons : rowSum p (row :: rows) =
          (if p row.rate then row.vatAmount else 0) + rowSum p rows := rfl
      rw [hcons, ih, hrate, hvat, signed_of_nonneg hgroup, List.map_cons, rateSum_cons]
      split
      · split
        · abel
        · abel
      · rw [zero_add, zero_add]

theorem TaxableEvent.recordLines_source {event : TaxableEvent} {newId : Nat → Uuid}
    {lines : List RateTotal} {rows : List VatTransaction}
    (h : event.recordLines newId lines = .ok rows) :
    ∀ row ∈ rows, row.sourceType = event.sourceType ∧ row.sourceId = event.sourceId :=
  mapM_forall (fun _ _ hrow => (record_source hrow).1) h

/-- The net amounts and the taxes that rows record. -/
def recorded (rows : List VatTransaction) : Money :=
  (rows.map fun row => row.taxableAmount + |row.vatAmount|).sum

/-- A document records the net amounts and the taxes of its lines. -/
theorem TaxableEvent.recordLines_recorded {event : TaxableEvent} {newId : Nat → Uuid}
    {lines : List RateTotal} {rows : List VatTransaction}
    (hnonneg : ∀ line ∈ lines, 0 ≤ line.2.1 ∧ 0 ≤ line.2.2)
    (h : event.recordLines newId lines = .ok rows) :
    recorded rows = (lines.map fun line => line.2.1 + line.2.2).sum := by
  have hrows := mapM_forall₂ h
  have hgroups := forall_groupTaxableLines (P := fun amounts => 0 ≤ amounts.1 ∧ 0 ≤ amounts.2)
    (fun _ _ ha hb => ⟨add_nonneg ha.1 hb.1, add_nonneg ha.2 hb.2⟩) hnonneg
  have hsum := sum_groupTaxableLines
    (fun _ => AddMonoidHom.fst Money Money + AddMonoidHom.snd Money Money) lines
  simp only [AddMonoidHom.add_apply, AddMonoidHom.coe_fst, AddMonoidHom.coe_snd] at hsum
  rw [← hsum]
  rw [← List.zipIdx_map_fst 0 (groupTaxableLines lines)] at hgroups ⊢
  generalize (groupTaxableLines lines).zipIdx = groups at hrows hgroups
  clear h hsum
  induction hrows with
  | nil => rfl
  | @cons group row groups rows hrow _ ih =>
      rw [List.map_cons, List.forall_mem_cons] at hgroups
      obtain ⟨-, hnet, htax⟩ := record_source hrow
      rw [abs_of_nonneg hgroups.1.1] at hnet
      rw [abs_of_nonneg hgroups.1.2] at htax
      simp only [recorded, List.map_cons, List.sum_cons, hnet, htax] at ih ⊢
      rw [ih hgroups.2]

theorem TaxableEvent.recordLines_direction {event : TaxableEvent} {newId : Nat → Uuid}
    {lines : List RateTotal} {rows : List VatTransaction}
    (h : event.recordLines newId lines = .ok rows) : ∀ row ∈ rows, row.direction = event.direction :=
  mapM_forall (fun _ _ hrow => (record_eq_ok hrow).1) h

/-- What a document adds to the register is the tax of its lines. -/
theorem TaxableEvent.recordLines_vat {event : TaxableEvent} {newId : Nat → Uuid}
    {lines : List RateTotal} {rows : List VatTransaction} (hnonneg : ∀ line ∈ lines, 0 ≤ line.2.2)
    (h : event.recordLines newId lines = .ok rows) (direction : VatDirection) :
    registerVat direction rows =
      if direction = event.direction then
        if event.isReversal then -(lines.map (·.2.2)).sum else (lines.map (·.2.2)).sum
      else 0 := by
  have hdirection := recordLines_direction h
  split
  next heq =>
    have hall : rows.filter (·.direction = direction) = rows :=
      List.filter_eq_self.mpr fun row hrow => by simp [hdirection row hrow, heq]
    rw [registerVat, hall, ← rateSum_all, ← recordLines_sum hnonneg h]
    simp [rowSum]
  next hne =>
    have hnone : rows.filter (·.direction = direction) = [] :=
      List.filter_eq_nil_iff.mpr fun row hrow => by simp [hdirection row hrow, Ne.symm hne]
    simp [registerVat, hnone]

end Nexora.Vat
