import Nexora.Vat.Register
import Mathlib.Algebra.Order.BigOperators.Group.List
import Mathlib.Tactic.Linarith
import Mathlib.Tactic.Ring

/-!
# VAT returns

`vat_returns`, `prepare_return` and `file_return` of `app/modules/vat/service.py`.  A return
totals the rows of the register that fall in its period and that no return has claimed.  A draft
is a preview, and filing claims the rows and totals them again.

The register carries the tax of a reversal as a negative amount, and the taxable amount as a
positive one.  So the tax of a document and of its reversal cancel in the totals, and the taxable
amounts add up (`taxable_sales_nets`).
-/

namespace Nexora.Vat

open Nexora Foundations
open Nexora.Accounting (Money Date)

/-! ## Tables -/

inductive VatReturnStatus where
  | draft
  | filed
deriving DecidableEq, Repr

/-- The amounts of a return. -/
structure Totals where
  outputVat : Money
  inputVat : Money
  taxableSales : Money
  taxablePurchases : Money
deriving DecidableEq

def Totals.netVat (totals : Totals) : Money := totals.outputVat - totals.inputVat

/-- `VatReturn`, under the checks of the table. -/
structure VatReturn where
  id : Uuid
  periodStart : Date
  periodEnd : Date
  status : VatReturnStatus
  totals : Totals
  netVat : Money
  filedAt : Option Int
  filedByMembershipId : Option Uuid
  period_range : periodStart ≤ periodEnd
  totals_nonnegative : 0 ≤ totals.outputVat ∧ 0 ≤ totals.inputVat
  filed_return_has_timestamp : status = .filed → filedAt ≠ none

structure VatDb where
  register : Table VatTransaction.id
  returns : Table VatReturn.id

def VatDb.new : VatDb := ⟨.empty _, .empty _⟩

/-! ## Totals -/

/-- `occurred_on BETWEEN :start AND :end AND vat_return_id IS NULL`. -/
def VatTransaction.unfiledIn (periodStart periodEnd : Date) (row : VatTransaction) : Bool :=
  periodStart ≤ row.occurredOn ∧ row.occurredOn ≤ periodEnd ∧ row.vatReturnId = none

/-- The rows that a return of the period would count. -/
def VatDb.unfiled (db : VatDb) (periodStart periodEnd : Date) : List VatTransaction :=
  db.register.rows.filter (·.unfiledIn periodStart periodEnd)

/-- The rows that a return has claimed. -/
def claimedBy (register : Table VatTransaction.id) (returnId : Uuid) : List VatTransaction :=
  register.rows.filter fun row => row.vatReturnId = some returnId

/-- `SUM(taxable_amount)` of one direction. -/
def registerTaxable (direction : VatDirection) (rows : List VatTransaction) : Money :=
  ((rows.filter (·.direction = direction)).map (·.taxableAmount)).sum

/-- The sums of the statement that both operations run. -/
def totals (rows : List VatTransaction) : Totals :=
  { outputVat := registerVat .output rows
    inputVat := registerVat .input rows
    taxableSales := registerTaxable .output rows
    taxablePurchases := registerTaxable .input rows }

/-- The columns are `NUMERIC(18, 4)`. -/
def Totals.fits (totals : Totals) : Bool :=
  [totals.outputVat, totals.inputVat, totals.netVat, totals.taxableSales,
    totals.taxablePurchases].all fun amount => |amount| < 10 ^ 18

/-- `CHECK (output_vat >= 0 AND input_vat >= 0)`. -/
def Totals.Nonnegative (totals : Totals) : Prop := 0 ≤ totals.outputVat ∧ 0 ≤ totals.inputVat

instance (totals : Totals) : Decidable totals.Nonnegative :=
  inferInstanceAs (Decidable (_ ∧ _))

/-- What the database says of the totals. -/
def Totals.check (totals : Totals) : Except Err (PLift totals.Nonnegative) :=
  if totals.fits = false then .error (.outOfRange "vat_returns")
  else if h : totals.Nonnegative then .ok ⟨h⟩
  else .error (.integrity "ck_vat_returns_totals_nonnegative")

/-! ## Preparing -/

/-- `ReturnPrepare`, with the identifier drawn for the return. -/
structure ReturnPrepare where
  id : Uuid
  periodStart : Date
  periodEnd : Date

def invalidDateRange : Err :=
  .domainValidation "INVALID_DATE_RANGE" "Return period end must not precede its start."

def returnExists : Err := .conflict "RETURN_EXISTS" "A return already exists for that period."

/-- The return of a period. -/
def VatDb.returnOf (db : VatDb) (periodStart periodEnd : Date) : Option VatReturn :=
  db.returns.rows.find? fun ret => ret.periodStart = periodStart ∧ ret.periodEnd = periodEnd

/-- The draft, as the database takes it. -/
def ReturnPrepare.draft (request : ReturnPrepare) (totals : Totals) : Except Err VatReturn :=
  if h : request.periodStart ≤ request.periodEnd then do
    let ⟨hnonnegative⟩ ← totals.check
    .ok
      { id := request.id
        periodStart := request.periodStart
        periodEnd := request.periodEnd
        status := .draft
        totals := totals
        netVat := totals.netVat
        filedAt := none
        filedByMembershipId := none
        period_range := h
        totals_nonnegative := hnonnegative
        filed_return_has_timestamp := nofun }
  else .error invalidDateRange

/-- The `INSERT`, under the primary key and `UNIQUE (tenant_id, period_start, period_end)`. -/
def VatDb.insertReturn (db : VatDb) (ret : VatReturn) : Except Err VatDb :=
  if db.returnOf ret.periodStart ret.periodEnd ≠ none then
    .error (.integrity "uq_vat_returns_tenant_id_period_start_period_end")
  else do
    let returns ← orRaise (.integrity "pk_vat_returns") (db.returns.insert ret)
    .ok { db with returns := returns }

/-- `prepare_return`. -/
def prepareReturn (db : VatDb) (request : ReturnPrepare) : Except Err (VatDb × VatReturn) :=
  if request.periodEnd < request.periodStart then .error invalidDateRange
  else if db.returnOf request.periodStart request.periodEnd ≠ none then .error returnExists
  else do
    let ret ← request.draft (totals (db.unfiled request.periodStart request.periodEnd))
    let db' ← db.insertReturn ret
    .ok (db', ret)

/-! ## Filing -/

/-- A call of `file_return`, with the membership of the caller and the time. -/
structure ReturnFile where
  returnId : Uuid
  membershipId : Uuid
  now : Int

def returnAlreadyFiled : Err := .conflict "RETURN_ALREADY_FILED" "This return was already filed."

/-- `vat_return_id = :return_id` on the rows that the `UPDATE` comes to. -/
def claimRow (returnId : Uuid) (ids : List Uuid) (row : VatTransaction) : VatTransaction :=
  if row.id ∈ ids then { row with vatReturnId := some returnId } else row

theorem claimRow_id (returnId : Uuid) (ids : List Uuid) (row : VatTransaction) :
    (claimRow returnId ids row).id = row.id := by
  unfold claimRow
  split
  · rfl
  · rfl

def claim (register : Table VatTransaction.id) (returnId : Uuid) (ids : List Uuid) :
    Table VatTransaction.id :=
  register.modify (claimRow returnId ids) (claimRow_id returnId ids)

/-- The return as it is filed, as the database takes it. -/
def ReturnFile.filed (request : ReturnFile) (ret : VatReturn) (totals : Totals) :
    Except Err VatReturn := do
  let ⟨hnonnegative⟩ ← totals.check
  .ok
    { ret with
      status := .filed
      totals := totals
      netVat := totals.netVat
      filedAt := some request.now
      filedByMembershipId := some request.membershipId
      totals_nonnegative := hnonnegative
      filed_return_has_timestamp := nofun }

/-- The row of the return is written back. -/
def VatDb.saveReturn (db : VatDb) (ret : VatReturn) : VatDb :=
  { db with returns := db.returns.put ret }

/-- `file_return`. -/
def fileReturn (db : VatDb) (request : ReturnFile) : Except Err (VatDb × VatReturn) :=
  match db.returns.get request.returnId with
  | none => .error .notFound
  | some ret =>
      if ret.status = .filed then .error returnAlreadyFiled
      else do
        let ids := (db.unfiled ret.periodStart ret.periodEnd).map VatTransaction.id
        let register := claim db.register ret.id ids
        let filed ← request.filed ret (totals (claimedBy register ret.id))
        .ok ({ db with register := register }.saveReturn filed, filed)

/-! ## What the operations store -/

theorem Totals.check_eq_ok {totals : Totals} {proof : PLift totals.Nonnegative} :
    totals.check = .ok proof ↔ totals.fits ∧ totals.Nonnegative := by
  unfold check
  split
  next hfits => simp [hfits]
  next hfits =>
    split
    next h => simpa [h] using hfits
    next h => simp [h]

theorem ReturnPrepare.draft_eq_ok {request : ReturnPrepare} {totals : Totals} {ret : VatReturn}
    (h : request.draft totals = .ok ret) :
    ret.id = request.id ∧ ret.periodStart = request.periodStart ∧
      ret.periodEnd = request.periodEnd ∧ ret.status = .draft ∧ ret.totals = totals ∧
      ret.netVat = totals.netVat := by
  unfold draft at h
  split at h
  next =>
    obtain ⟨⟨_⟩, -, h⟩ := bind_eq_ok.mp h
    cases h
    exact ⟨rfl, rfl, rfl, rfl, rfl, rfl⟩
  next => cases h

theorem ReturnFile.filed_eq_ok {request : ReturnFile} {ret filed : VatReturn} {totals : Totals}
    (h : request.filed ret totals = .ok filed) :
    filed.id = ret.id ∧ filed.periodStart = ret.periodStart ∧ filed.periodEnd = ret.periodEnd ∧
      filed.status = .filed ∧ filed.totals = totals ∧ filed.netVat = totals.netVat := by
  obtain ⟨⟨_⟩, -, h⟩ := bind_eq_ok.mp h
  cases h
  exact ⟨rfl, rfl, rfl, rfl, rfl, rfl⟩

/-- A draft stores the totals of the rows that it would claim. -/
theorem prepareReturn_totals {db db' : VatDb} {request : ReturnPrepare} {ret : VatReturn}
    (h : prepareReturn db request = .ok (db', ret)) :
    ret.totals = totals (db.unfiled request.periodStart request.periodEnd) := by
  simp only [prepareReturn, ite_error_eq_ok] at h
  obtain ⟨-, -, h⟩ := h
  obtain ⟨ret', hdraft, h⟩ := bind_eq_ok.mp h
  obtain ⟨db₁, -, h⟩ := bind_eq_ok.mp h
  cases h
  exact (ReturnPrepare.draft_eq_ok hdraft).2.2.2.2.1

/-- A filed return stores the totals of the rows that it has claimed. -/
theorem fileReturn_totals {db db' : VatDb} {request : ReturnFile} {ret : VatReturn}
    (h : fileReturn db request = .ok (db', ret)) :
    ret.totals = totals (claimedBy db'.register ret.id) := by
  unfold fileReturn at h
  split at h
  next => cases h
  next row _ =>
    simp only [ite_error_eq_ok] at h
    obtain ⟨-, h⟩ := h
    obtain ⟨filed, hfiled, h⟩ := bind_eq_ok.mp h
    cases h
    obtain ⟨hid, -, -, -, htotals, -⟩ := ReturnFile.filed_eq_ok hfiled
    rw [htotals, hid]
    rfl

/-! ## Sales and reversals -/

/-- The row is a sale. -/
def VatTransaction.isSale (row : VatTransaction) : Bool :=
  row.direction = .output ∧ row.isReversal = false

/-- The row reverses a sale. -/
def VatTransaction.isSaleReversal (row : VatTransaction) : Bool :=
  row.direction = .output ∧ row.isReversal = true

/-- The tax, or the net amount, of the rows of a kind, as the documents carry it. -/
def sumOf (p : VatTransaction → Bool) (amount : VatTransaction → Money)
    (rows : List VatTransaction) : Money :=
  ((rows.filter p).map fun row => |amount row|).sum

/-- A sale and the rows that reverse it in full, in one document or several. -/
structure FullReversal (sale reversal : List VatTransaction) : Prop where
  sold : ∀ row ∈ sale, row.isSale
  returned : ∀ row ∈ reversal, row.isSaleReversal
  net : sumOf VatTransaction.isSale VatTransaction.taxableAmount sale =
    sumOf VatTransaction.isSaleReversal VatTransaction.taxableAmount reversal
  vat : sumOf VatTransaction.isSale VatTransaction.vatAmount sale =
    sumOf VatTransaction.isSaleReversal VatTransaction.vatAmount reversal

section Sums

variable {p : VatTransaction → Bool} {amount : VatTransaction → Money}
  {rows : List VatTransaction} {row : VatTransaction}

@[simp] theorem sumOf_nil : sumOf p amount [] = 0 := rfl

@[simp] theorem sumOf_cons :
    sumOf p amount (row :: rows) = (if p row then |amount row| else 0) + sumOf p amount rows := by
  simp only [sumOf, List.filter_cons]
  split
  · rw [List.map_cons, List.sum_cons]
  · rw [zero_add]

theorem sumOf_append (rows rows' : List VatTransaction) :
    sumOf p amount (rows ++ rows') = sumOf p amount rows + sumOf p amount rows' := by
  simp [sumOf]

theorem sumOf_nonneg : 0 ≤ sumOf p amount rows := by
  induction rows with
  | nil => exact le_refl 0
  | cons row rows ih =>
      rw [sumOf_cons]
      split
      · exact add_nonneg (abs_nonneg _) ih
      · rwa [zero_add]

theorem sumOf_eq_zero : sumOf p amount rows = 0 ↔ ∀ row ∈ rows, p row → amount row = 0 := by
  induction rows with
  | nil => simp
  | cons row rows ih =>
      have hnonneg : 0 ≤ sumOf p amount rows := sumOf_nonneg
      rw [sumOf_cons, List.forall_mem_cons, ← ih]
      split
      next hp =>
        have habs := abs_nonneg (amount row)
        rw [add_eq_zero_iff_of_nonneg habs hnonneg, abs_eq_zero]
        exact and_congr_left fun _ => ⟨fun h _ => h, fun h => h hp⟩
      next hp => simp [hp]

/-- A kind that none of the rows has. -/
theorem sumOf_of_forall_not (h : ∀ row ∈ rows, p row = false) : sumOf p amount rows = 0 :=
  sumOf_eq_zero.mpr fun row hrow hp => by
    rw [h row hrow] at hp
    cases hp

theorem registerVat_cons (direction : VatDirection) :
    registerVat direction (row :: rows) =
      (if row.direction = direction then row.vatAmount else 0) + registerVat direction rows := by
  simp only [registerVat, List.filter_cons, decide_eq_true_eq]
  split
  · rw [List.map_cons, List.sum_cons]
  · rw [zero_add]

theorem registerTaxable_cons (direction : VatDirection) :
    registerTaxable direction (row :: rows) =
      (if row.direction = direction then row.taxableAmount else 0) +
        registerTaxable direction rows := by
  simp only [registerTaxable, List.filter_cons, decide_eq_true_eq]
  split
  · rw [List.map_cons, List.sum_cons]
  · rw [zero_add]

/-- A reversal counts against the tax. -/
theorem VatTransaction.vat_of_output (h : row.direction = .output) :
    row.vatAmount = (if row.isSale then |row.vatAmount| else 0) -
      if row.isSaleReversal then |row.vatAmount| else 0 := by
  rcases row.reversal_sign with ⟨hsign, hkind⟩ | ⟨hsign, hkind⟩
  · simp [isSale, isSaleReversal, h, hkind, abs_of_nonneg hsign]
  · simp [isSale, isSaleReversal, h, hkind, abs_of_nonpos hsign]

/-- A reversal counts with the taxable amounts. -/
theorem VatTransaction.taxable_of_output (h : row.direction = .output) :
    row.taxableAmount = (if row.isSale then |row.taxableAmount| else 0) +
      if row.isSaleReversal then |row.taxableAmount| else 0 := by
  cases hkind : row.isReversal with
  | false => simp [isSale, isSaleReversal, h, hkind, abs_of_nonneg row.taxable_nonnegative]
  | true => simp [isSale, isSaleReversal, h, hkind, abs_of_nonneg row.taxable_nonnegative]

/-- Rows of the other direction are neither. -/
theorem VatTransaction.kind_of_input (h : row.direction ≠ .output) :
    row.isSale = false ∧ row.isSaleReversal = false := by
  simp [isSale, isSaleReversal, h]

theorem outputVat_eq (rows : List VatTransaction) :
    (totals rows).outputVat = sumOf VatTransaction.isSale VatTransaction.vatAmount rows -
      sumOf VatTransaction.isSaleReversal VatTransaction.vatAmount rows := by
  show registerVat .output rows = _
  induction rows with
  | nil => rfl
  | cons row rows ih =>
      rw [registerVat_cons, ih, sumOf_cons, sumOf_cons]
      split
      next h =>
        have hrow := row.vat_of_output h
        linarith
      next h =>
        rw [(VatTransaction.kind_of_input h).1, (VatTransaction.kind_of_input h).2]
        simp

theorem taxableSales_eq (rows : List VatTransaction) :
    (totals rows).taxableSales = sumOf VatTransaction.isSale VatTransaction.taxableAmount rows +
      sumOf VatTransaction.isSaleReversal VatTransaction.taxableAmount rows := by
  show registerTaxable .output rows = _
  induction rows with
  | nil => rfl
  | cons row rows ih =>
      rw [registerTaxable_cons, ih, sumOf_cons, sumOf_cons]
      split
      next h =>
        have hrow := row.taxable_of_output h
        linarith
      next h =>
        rw [(VatTransaction.kind_of_input h).1, (VatTransaction.kind_of_input h).2]
        simp

end Sums

/-- The tax of a return is the tax of the sales less the tax of the reversals.  The taxable sales
are the net amounts of the sales less those of the reversals exactly when no reversal has a net
amount; and a sale that is reversed in full adds nothing to the tax, and nothing to the taxable
sales exactly when its reversal has no net amount. -/
theorem taxable_sales_nets (rows : List VatTransaction) :
    (totals rows).outputVat = sumOf VatTransaction.isSale VatTransaction.vatAmount rows -
        sumOf VatTransaction.isSaleReversal VatTransaction.vatAmount rows ∧
      ((totals rows).taxableSales =
          sumOf VatTransaction.isSale VatTransaction.taxableAmount rows -
            sumOf VatTransaction.isSaleReversal VatTransaction.taxableAmount rows ↔
        ∀ row ∈ rows, row.isSaleReversal → row.taxableAmount = 0) ∧
      ∀ sale reversal, FullReversal sale reversal →
        (totals (rows ++ sale ++ reversal)).outputVat = (totals rows).outputVat ∧
        ((totals (rows ++ sale ++ reversal)).taxableSales = (totals rows).taxableSales ↔
          ∀ row ∈ reversal, row.taxableAmount = 0) := by
  refine ⟨outputVat_eq rows, ?_, fun sale reversal h => ?_⟩
  · rw [← sumOf_eq_zero, taxableSales_eq]
    constructor
    · intro h
      linarith
    · intro h
      rw [h, add_zero, sub_zero]
  · have hsale : ∀ row ∈ sale, row.isSaleReversal = false := by
      intro row hrow
      have hkind := h.sold row hrow
      simp only [VatTransaction.isSale, decide_eq_true_eq] at hkind
      simp [VatTransaction.isSaleReversal, hkind.2]
    have hreversal : ∀ row ∈ reversal, row.isSale = false := by
      intro row hrow
      have hkind := h.returned row hrow
      simp only [VatTransaction.isSaleReversal, decide_eq_true_eq] at hkind
      simp [VatTransaction.isSale, hkind.2]
    constructor
    · simp only [outputVat_eq, sumOf_append, sumOf_of_forall_not hsale,
        sumOf_of_forall_not hreversal, h.vat]
      ring
    · -- Both halves have the same net amount, so together they add it twice.
      simp only [taxableSales_eq, sumOf_append, sumOf_of_forall_not hsale,
        sumOf_of_forall_not hreversal, h.net]
      have hzero : sumOf VatTransaction.isSaleReversal VatTransaction.taxableAmount reversal = 0 ↔
          ∀ row ∈ reversal, row.taxableAmount = 0 := by
        rw [sumOf_eq_zero]
        exact forall₂_congr fun row hrow => ⟨fun h' => h' (h.returned row hrow), fun h' _ => h'⟩
      rw [← hzero]
      constructor
      · intro heq
        linarith
      · intro heq
        rw [heq]
        ring

/-! ## An invoice and its credit note -/

/-- An invoice over 2,000 at 15 %. -/
def invoiceEvent : TaxableEvent := ⟨.output, ⟨2026, 1, 10⟩, "invoice", 1, false⟩

/-- A credit note over the whole of it. -/
def creditNoteEvent : TaxableEvent := ⟨.output, ⟨2026, 1, 20⟩, "credit_note", 2, true⟩

def invoiceLines : List RateTotal := [(150000, 20000000, 3000000)]

def invoiceRow : VatTransaction where
  id := 11
  direction := .output
  occurredOn := ⟨2026, 1, 10⟩
  sourceType := "invoice"
  sourceId := 1
  rate := 150000
  taxableAmount := 20000000
  vatAmount := 3000000
  isReversal := false
  vatReturnId := none
  taxable_nonnegative := by decide
  rate_range := Sample.fifteenPercent
  reversal_sign := by decide

def creditNoteRow : VatTransaction where
  id := 12
  direction := .output
  occurredOn := ⟨2026, 1, 20⟩
  sourceType := "credit_note"
  sourceId := 2
  rate := 150000
  taxableAmount := 20000000
  vatAmount := -3000000
  isReversal := true
  vatReturnId := none
  taxable_nonnegative := by decide
  rate_range := Sample.fifteenPercent
  reversal_sign := by decide

/-- The register with both. -/
def creditedRegister : VatDb := ⟨⟨[invoiceRow, creditNoteRow], by decide⟩, .empty _⟩

/-- The return of the month has no tax, and sales of 4,000. -/
theorem taxable_sales_doubled :
    invoiceEvent.recordLines (fun _ => 11) invoiceLines = .ok [invoiceRow] ∧
      creditNoteEvent.recordLines (fun _ => 12) invoiceLines = .ok [creditNoteRow] ∧
      FullReversal [invoiceRow] [creditNoteRow] ∧
      ∃ db ret, prepareReturn creditedRegister ⟨21, ⟨2026, 1, 1⟩, ⟨2026, 1, 31⟩⟩ = .ok (db, ret) ∧
        ret.totals.outputVat = 0 ∧ ret.totals.taxableSales = 40000000 ∧
        ret.totals.taxableSales ≠
          sumOf VatTransaction.isSale VatTransaction.taxableAmount creditedRegister.register.rows -
            sumOf VatTransaction.isSaleReversal VatTransaction.taxableAmount
              creditedRegister.register.rows := by
  refine ⟨rfl, rfl, ⟨by decide, by decide, by decide, by decide⟩, ?_⟩
  exact ⟨_, _, rfl, by decide, by decide, by decide⟩

end Nexora.Vat
