import Nexora.Accounting.Service
import Mathlib.Tactic.Abel
import Mathlib.Tactic.Linarith

/-!
# Trial balance and balance sheet

`trial_balance` sums the posted lines of each account between two dates.
`balance_sheet` takes asset, liability and equity balances from 1970-01-01 on, and
adds the earnings of the fiscal period that contains the date of the sheet.

Over any window the debits and credits of posted entries cancel
(`sum_typeTotal`), so the sheet balances exactly when the earnings it adds are all
the earnings of the ledger up to its date.  Earnings of earlier periods are moved
to equity by a closing entry only if somebody posts one, and a date outside every
period has no earnings at all.  `balanceSheet_balances_iff` is the exact
condition.
-/

namespace Nexora.Accounting

open Nexora

/-! ## The reports -/

/-- The entry of a line is posted and dated as `p` says. -/
def JournalDb.isPostedOn (db : JournalDb) (p : Date → Bool) (l : JournalEntryLine) : Bool :=
  (db.entries.get l.journalEntryId).any fun e => e.status = .posted && p e.entryDate

/-- `BETWEEN`. -/
def between (first last : Date) (d : Date) : Bool := first ≤ d && d ≤ last

/-- `AccountingRepository.trial_balance`: accounts with lines, debits and credits.
The sums have four decimals, so `_money` leaves them as they are. -/
def LedgerDb.trialBalance (db : LedgerDb) (first last : Date) : List (Account × Money × Money) :=
  (db.accounts.rows.mergeSort (·.code ≤ ·.code)).filterMap fun a =>
    let lines := db.books.lines.rows.filter fun l =>
      db.books.isPostedOn (between first last) l && l.accountId = a.id
    if lines.isEmpty then none else some (a, sumDebit lines, sumCredit lines)

/-- Debits minus credits of the rows of one account type. -/
def typeTotal (rows : List (Account × Money × Money)) (t : AccountType) : Money :=
  ((rows.filter (·.1.accountType = t)).map fun r => r.2.1 - r.2.2).sum

/-- What `balance_sheet` returns. -/
structure BalanceSheet where
  assets : List (Account × Money)
  liabilities : List (Account × Money)
  equity : List (Account × Money)
  currentYearEarnings : Money

/-- The rows of one account type, with the balance `side` makes of debit and credit. -/
def sheetRows (rows : List (Account × Money × Money)) (t : AccountType)
    (side : Money → Money → Money) : List (Account × Money) :=
  (rows.filter (·.1.accountType = t)).map fun r => (r.1, side r.2.1 r.2.2)

/-- The total of a column of the sheet. -/
def total (rows : List (Account × Money)) : Money := (rows.map (·.2)).sum

/-- `date(1970, 1, 1)`. -/
def epoch : Date := ⟨1970, 1, 1⟩

/-- The rows the earnings are computed from. -/
def LedgerDb.earningsRows (db : LedgerDb) (asOf : Date) : List (Account × Money × Money) :=
  match db.periodForDate asOf with
  | some period => db.trialBalance period.startDate asOf
  | none => []

/-- `AccountingService.balance_sheet`. -/
def LedgerDb.balanceSheet (db : LedgerDb) (env : Env) (asOf : Date) :
    Except Err (LedgerDb × BalanceSheet) := do
  let db ← db.bootstrap env
  let cumulative := db.trialBalance epoch asOf
  let earnings := db.earningsRows asOf
  let revenue := total (sheetRows earnings .revenue fun debit credit => credit - debit)
  let expense := total (sheetRows earnings .expense fun debit credit => debit - credit)
  return (db,
    { assets := sheetRows cumulative .asset fun debit credit => debit - credit
      liabilities := sheetRows cumulative .liability fun debit credit => credit - debit
      equity := sheetRows cumulative .equity fun debit credit => credit - debit
      currentYearEarnings := revenue - expense })

/-- Total assets equal total liabilities, total equity and earnings. -/
def BalanceSheet.Balances (sheet : BalanceSheet) : Prop :=
  total sheet.assets = total sheet.liabilities + total sheet.equity + sheet.currentYearEarnings

/-! ## Sums over lines -/

/-- A line's contribution, debit positive. -/
def JournalEntryLine.amount (l : JournalEntryLine) : Money := l.debit - l.credit

theorem sum_amount (lines : List JournalEntryLine) :
    (lines.map (·.amount)).sum = sumDebit lines - sumCredit lines := by
  induction lines with
  | nil => rfl
  | cons l lines ih =>
      simp only [List.map_cons, List.sum_cons, ih]
      simp only [sumDebit, sumCredit, List.map_cons, List.sum_cons, JournalEntryLine.amount]
      abel

/-- The lines that `p` dates cancel out when posted entries balance. -/
theorem JournalDb.Balanced.sum_amount_eq_zero {db : JournalDb} (h : db.Balanced)
    (p : Date → Bool) :
    ((db.lines.rows.filter (db.isPostedOn p)).map (·.amount)).sum = 0 := by
  have hgroup := db.entries.sum_group (fun e => e.status = .posted && p e.entryDate)
    JournalEntryLine.journalEntryId JournalEntryLine.amount db.lines.rows
  show ((db.lines.rows.filter fun l => (db.entries.get l.journalEntryId).any fun e =>
    e.status = .posted && p e.entryDate).map (·.amount)).sum = 0
  rw [← hgroup]
  refine List.sum_eq_zero fun x hx => ?_
  obtain ⟨e, he, rfl⟩ := List.mem_map.mp hx
  simp only [List.mem_filter, Bool.and_eq_true, decide_eq_true_eq] at he
  show ((db.linesOf e.id).map (·.amount)).sum = 0
  rw [sum_amount, (h e he.1 he.2.1).1, sub_self]

/-- A line is on an account of the type. -/
def LedgerDb.isOfType (db : LedgerDb) (t : AccountType) (l : JournalEntryLine) : Bool :=
  (db.accounts.get l.accountId).any (·.accountType = t)

/-- The lines of one account in the window. -/
def LedgerDb.accountLines (db : LedgerDb) (p : Date → Bool) (accountId : Uuid) :
    List JournalEntryLine :=
  (db.books.lines.rows.filter (db.books.isPostedOn p)).filter (·.accountId = accountId)

/-- Accounts without lines are left out of the trial balance and would add zero. -/
theorem LedgerDb.typeTotal_trialBalance_accounts (db : LedgerDb) (first last : Date)
    (t : AccountType) :
    typeTotal (db.trialBalance first last) t =
      ((db.accounts.rows.filter (·.accountType = t)).map fun a =>
        ((db.accountLines (between first last) a.id).map (·.amount)).sum).sum := by
  have hlines : ∀ a : Account, (db.books.lines.rows.filter fun l =>
      db.books.isPostedOn (between first last) l && l.accountId = a.id) =
      db.accountLines (between first last) a.id := by
    intro a
    rw [accountLines, List.filter_filter]
    refine List.filter_congr fun l _ => ?_
    rw [Bool.and_comm]
  have hperm := List.mergeSort_perm db.accounts.rows fun a b => decide (a.code ≤ b.code)
  rw [← ((hperm.filter fun a => decide (a.accountType = t)).map fun a =>
    ((db.accountLines (between first last) a.id).map (·.amount)).sum).sum_eq]
  unfold typeTotal trialBalance
  simp only [hlines]
  induction db.accounts.rows.mergeSort fun a b => decide (a.code ≤ b.code) with
  | nil => rfl
  | cons a rows ih =>
      simp only [List.filterMap_cons]
      by_cases hempty : (db.accountLines (between first last) a.id).isEmpty = true
      · rw [if_pos hempty]
        simp only [ih, List.filter_cons]
        split
        · rw [List.map_cons, List.sum_cons, List.isEmpty_iff.mp hempty]
          simp
        · rfl
      · rw [if_neg hempty]
        simp only [List.filter_cons]
        split
        · simp only [List.map_cons, List.sum_cons, ih, sum_amount]
        · exact ih

/-- The total of an account type in the trial balance, read off the lines. -/
theorem LedgerDb.typeTotal_trialBalance (db : LedgerDb) (first last : Date) (t : AccountType) :
    typeTotal (db.trialBalance first last) t =
      (((db.books.lines.rows.filter (db.books.isPostedOn (between first last))).filter
        (db.isOfType t)).map (·.amount)).sum := by
  rw [typeTotal_trialBalance_accounts]
  exact db.accounts.sum_group (fun a => a.accountType = t) JournalEntryLine.accountId
    JournalEntryLine.amount _

/-- The five account types cover the lines of a sound ledger. -/
theorem LedgerDb.Sound.sum_types {db : LedgerDb} (hs : db.Sound) (lines : List JournalEntryLine)
    (hlines : ∀ l ∈ lines, l ∈ db.books.lines.rows) :
    ((lines.filter (db.isOfType .asset)).map (·.amount)).sum +
      ((lines.filter (db.isOfType .liability)).map (·.amount)).sum +
      ((lines.filter (db.isOfType .equity)).map (·.amount)).sum +
      ((lines.filter (db.isOfType .revenue)).map (·.amount)).sum +
      ((lines.filter (db.isOfType .expense)).map (·.amount)).sum =
      (lines.map (·.amount)).sum := by
  induction lines with
  | nil => rfl
  | cons l lines ih =>
      have ih := ih fun l' hl' => hlines l' (List.mem_cons_of_mem _ hl')
      obtain ⟨a, ha⟩ := Option.isSome_iff_exists.mp
        (hs.known l (hlines l List.mem_cons_self))
      rw [List.map_cons, List.sum_cons, ← ih]
      cases ht : a.accountType with
      | asset => simp [isOfType, ha, ht]; abel
      | liability => simp [isOfType, ha, ht]; abel
      | equity => simp [isOfType, ha, ht]; abel
      | revenue => simp [isOfType, ha, ht]; abel
      | expense => simp [isOfType, ha, ht]; abel

/-- Over any window the five account types cancel. -/
theorem LedgerDb.Sound.sum_typeTotal {db : LedgerDb} (hs : db.Sound) (first last : Date) :
    typeTotal (db.trialBalance first last) .asset +
      typeTotal (db.trialBalance first last) .liability +
      typeTotal (db.trialBalance first last) .equity +
      typeTotal (db.trialBalance first last) .revenue +
      typeTotal (db.trialBalance first last) .expense = 0 := by
  simp only [typeTotal_trialBalance]
  rw [hs.sum_types _ fun l hl => List.mem_of_mem_filter hl]
  exact hs.balanced.sum_amount_eq_zero _

/-! ## Earnings -/

/-- Revenue minus expense of the posted entries that `p` dates. -/
def LedgerDb.income (db : LedgerDb) (p : Date → Bool) : Money :=
  ((db.books.lines.rows.filter fun l => db.books.isPostedOn p l &&
    (db.isOfType .revenue l || db.isOfType .expense l)).map fun l => l.credit - l.debit).sum

/-- The dates whose earnings the sheet adds: the fiscal period that contains
`asOf`, up to it. -/
def LedgerDb.inCurrentYear (db : LedgerDb) (asOf d : Date) : Bool :=
  match db.periodForDate asOf with
  | some period => between period.startDate asOf d
  | none => false

theorem LedgerDb.income_none (db : LedgerDb) : db.income (fun _ => false) = 0 := by
  have hnone : ∀ l, db.books.isPostedOn (fun _ => false) l = false := by
    intro l
    cases h : db.books.entries.get l.journalEntryId with
    | none => simp [JournalDb.isPostedOn, h]
    | some e => simp [JournalDb.isPostedOn, h]
  simp [income, hnone]

/-- Revenue and expense have no line in common. -/
theorem LedgerDb.income_eq_types (db : LedgerDb) (p : Date → Bool) :
    db.income p =
      -((((db.books.lines.rows.filter (db.books.isPostedOn p)).filter
          (db.isOfType .revenue)).map (·.amount)).sum +
        (((db.books.lines.rows.filter (db.books.isPostedOn p)).filter
          (db.isOfType .expense)).map (·.amount)).sum) := by
  rw [eq_neg_iff_add_eq_zero, income]
  simp only [List.filter_filter, Foundations.Table.sum_filter]
  rw [← List.sum_map_add, ← List.sum_map_add]
  refine List.sum_eq_zero fun x hx => ?_
  obtain ⟨l, -, rfl⟩ := List.mem_map.mp hx
  cases db.books.isPostedOn p l with
  | false => simp
  | true =>
      cases ha : db.accounts.get l.accountId with
      | none => simp [isOfType, ha]
      | some a =>
          cases ht : a.accountType with
          | asset => simp [isOfType, ha, ht]
          | liability => simp [isOfType, ha, ht]
          | equity => simp [isOfType, ha, ht]
          | revenue => simp [isOfType, ha, ht, JournalEntryLine.amount]
          | expense => simp [isOfType, ha, ht, JournalEntryLine.amount]

theorem LedgerDb.income_between (db : LedgerDb) (first last : Date) :
    db.income (between first last) = -(typeTotal (db.trialBalance first last) .revenue +
      typeTotal (db.trialBalance first last) .expense) := by
  rw [income_eq_types, typeTotal_trialBalance, typeTotal_trialBalance]

/-- Earnings inside and outside any set of dates. -/
theorem LedgerDb.income_split (db : LedgerDb) (p q : Date → Bool) :
    db.income p = db.income (fun d => p d && q d) + db.income (fun d => p d && !q d) := by
  simp only [income, Foundations.Table.sum_filter]
  rw [← List.sum_map_add]
  congr 1
  refine List.map_congr_left fun l _ => ?_
  cases h : db.books.entries.get l.journalEntryId with
  | none => simp [JournalDb.isPostedOn, h]
  | some e =>
      cases hp : p e.entryDate with
      | false => simp [JournalDb.isPostedOn, h, hp]
      | true =>
          cases hq : q e.entryDate with
          | false => simp [JournalDb.isPostedOn, h, hp, hq]
          | true => simp [JournalDb.isPostedOn, h, hp, hq]

/-! ## When the sheet balances -/

/-- Earnings from 1970-01-01 to `asOf` that are not in the fiscal period
containing `asOf`: what no closing entry has moved to equity, and what the sheet
leaves out. -/
def LedgerDb.earlierEarnings (db : LedgerDb) (asOf : Date) : Money :=
  db.income fun d => between epoch asOf d && !db.inCurrentYear asOf d

/-- Earnings of the current period that are dated before 1970-01-01. -/
def LedgerDb.earningsBeforeEpoch (db : LedgerDb) (asOf : Date) : Money :=
  db.income fun d => db.inCurrentYear asOf d && !between epoch asOf d

theorem total_sheetRows_debit (rows : List (Account × Money × Money)) (t : AccountType) :
    total (sheetRows rows t fun debit credit => debit - credit) = typeTotal rows t := by
  simp [total, sheetRows, typeTotal, Function.comp_def]

theorem total_sheetRows_credit (rows : List (Account × Money × Money)) (t : AccountType) :
    total (sheetRows rows t fun debit credit => credit - debit) = -typeTotal rows t := by
  rw [← total_sheetRows_debit, eq_neg_iff_add_eq_zero]
  simp only [total, sheetRows, List.map_map]
  rw [← List.sum_map_add]
  refine List.sum_eq_zero fun x hx => ?_
  obtain ⟨r, -, rfl⟩ := List.mem_map.mp hx
  simp

/-- The earnings on the sheet are those of the current period. -/
theorem LedgerDb.earnings_eq_income (db : LedgerDb) (asOf : Date) :
    -typeTotal (db.earningsRows asOf) .revenue - typeTotal (db.earningsRows asOf) .expense =
      db.income (db.inCurrentYear asOf) := by
  unfold earningsRows
  cases hperiod : db.periodForDate asOf with
  | some period =>
      have hyear : db.inCurrentYear asOf = between period.startDate asOf := by
        funext d
        simp [inCurrentYear, hperiod]
      rw [hyear, income_between]
      abel
  | none =>
      have hyear : db.inCurrentYear asOf = fun _ => false := by
        funext d
        simp [inCurrentYear, hperiod]
      rw [hyear, income_none]
      rfl

theorem LedgerDb.Sound.balances_iff {db db' : LedgerDb} {env : Env} {asOf : Date}
    {sheet : BalanceSheet} (hs : db.Sound) (h : db.balanceSheet env asOf = .ok (db', sheet)) :
    sheet.Balances ↔ db'.earlierEarnings asOf = db'.earningsBeforeEpoch asOf := by
  obtain ⟨db₁, hboot, h⟩ := Foundations.bind_eq_ok.mp h
  cases h
  have hzero := ((Extends.bootstrap hboot).sound hs).sum_typeTotal epoch asOf
  have hcumulative := db'.income_between epoch asOf
  have hearnings := db'.earnings_eq_income asOf
  have houtside := db'.income_split (between epoch asOf) (db'.inCurrentYear asOf)
  have hinside := db'.income_split (db'.inCurrentYear asOf) (between epoch asOf)
  have hboth : (fun d => db'.inCurrentYear asOf d && between epoch asOf d) =
      fun d => between epoch asOf d && db'.inCurrentYear asOf d := by
    funext d
    rw [Bool.and_comm]
  rw [hboth] at hinside
  simp only [BalanceSheet.Balances, total_sheetRows_debit, total_sheetRows_credit,
    earlierEarnings, earningsBeforeEpoch]
  constructor
  · intro hbal
    linarith
  · intro heq
    linarith

/-- For every ledger the service reaches and every date, the balance sheet
balances exactly when the earnings before the current fiscal period net to zero
(up to earnings of the current period dated before 1970-01-01). -/
theorem balanceSheet_balances_iff (ops : List LedgerOp) {env : Env} {asOf : Date}
    {db : LedgerDb} {sheet : BalanceSheet}
    (h : (LedgerDb.empty.run ops).balanceSheet env asOf = .ok (db, sheet)) :
    sheet.Balances ↔ db.earlierEarnings asOf = db.earningsBeforeEpoch asOf :=
  (LedgerDb.sound_run ops).balances_iff h

/-- A tenant whose fiscal year is the calendar year 2026. -/
def calendarYear : Env where
  context := ⟨0, 1, 1, ∅, ∅, none⟩
  baseCurrency := "USD"
  fiscalYearStartMonth := 1
  today := ⟨2026, 1, 15⟩
  now := 0
  accountId := fun n => n
  journalId := 0
  periodId := 0

/-- A cash sale of `100.0000` on 2026-01-10. -/
def cashSale : LedgerOp :=
  .operational calendarYear
    [{ entryDate := ⟨2026, 1, 10⟩, description := "Sale", sourceType := "pos_sale",
       sourceId := 1, eventType := "revenue",
       lines := [⟨"CASH", 100, 0, none⟩, ⟨"SALES_REVENUE", 0, 100, none⟩],
       allowClosed := false, metadata := "\x7b\x7d", accountMap := [], entryId := 1,
       placeholder := 2, lineId := fun n => n }] (.ok ())

/-- The ledger a report on `cashSale` reads satisfies `P`. -/
def afterCashSale (P : LedgerDb → Bool) : Bool :=
  match (LedgerDb.empty.run [cashSale]).bootstrap calendarYear with
  | .ok db => P db
  | .error _ => false

theorem afterCashSale_sheet {P : LedgerDb → Bool} (h : afterCashSale P = true) (asOf : Date) :
    ∃ db sheet, (LedgerDb.empty.run [cashSale]).balanceSheet calendarYear asOf = .ok (db, sheet) ∧
      P db = true := by
  unfold afterCashSale at h
  split at h
  next db hboot => exact ⟨db, _, Foundations.bind_eq_ok.mpr ⟨db, hboot, rfl⟩, h⟩
  next => cases h

/-- Within the year of the sale the sheet balances. -/
theorem balanceSheet_balances_within_year :
    ∃ db sheet,
      (LedgerDb.empty.run [cashSale]).balanceSheet calendarYear ⟨2026, 12, 1⟩ = .ok (db, sheet) ∧
        sheet.Balances := by
  obtain ⟨db, sheet, hsheet, hearnings⟩ := afterCashSale_sheet
    (P := fun db => decide (db.earlierEarnings ⟨2026, 12, 1⟩ =
      db.earningsBeforeEpoch ⟨2026, 12, 1⟩)) (by decide +kernel) ⟨2026, 12, 1⟩
  exact ⟨db, sheet, hsheet, (balanceSheet_balances_iff [cashSale] hsheet).mpr
    (of_decide_eq_true hearnings)⟩

/-- On the first day of the next year no period contains the date, and the sheet
shows assets of `100.0000` against nothing. -/
theorem balanceSheet_unbalanced_next_year :
    ∃ db sheet,
      (LedgerDb.empty.run [cashSale]).balanceSheet calendarYear ⟨2027, 1, 1⟩ = .ok (db, sheet) ∧
        ¬sheet.Balances := by
  obtain ⟨db, sheet, hsheet, hearnings⟩ := afterCashSale_sheet
    (P := fun db => decide (db.earlierEarnings ⟨2027, 1, 1⟩ ≠
      db.earningsBeforeEpoch ⟨2027, 1, 1⟩)) (by decide +kernel) ⟨2027, 1, 1⟩
  refine ⟨db, sheet, hsheet, fun hbal => of_decide_eq_true hearnings ?_⟩
  exact ((LedgerDb.sound_run [cashSale]).balances_iff hsheet).mp hbal

end Nexora.Accounting
