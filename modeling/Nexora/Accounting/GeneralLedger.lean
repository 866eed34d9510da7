import Nexora.Accounting.Chart
import Nexora.Accounting.Reports
import Nexora.Foundations.Calendar
import Mathlib.Algebra.BigOperators.Ring.List
import Mathlib.Data.Prod.Lex
import Mathlib.Order.Basic

/-!
# The general ledger of an account

`general_ledger` lists the posted lines of an account between two dates, each with the balance up to
it.  Three queries make the report: the opening balance sums what is dated before the first day, a
window function sums the lines in the order of their dates and identifiers, and the service turns
the sign of both for the accounts whose normal balance is a credit.

The dates before a day and the dates up to the day before are the same dates, so the reports of
adjacent ranges fit together (`general_ledger_continuity`).
-/

namespace Nexora.Accounting

open Nexora Foundations

/-! ## The queries -/

/-- A row of `journal_entry_lines JOIN journal_entries`. -/
abbrev JoinedLine := JournalEntryLine × JournalEntry

/-- The join. -/
def JournalDb.ledgerRows (db : JournalDb) : List JoinedLine :=
  db.lines.rows.filterMap fun l => (db.entries.get l.journalEntryId).map (l, ·)

/-- The posted lines of an account that are dated as `p` says. -/
def JournalDb.ledgerRowsOf (db : JournalDb) (accountId : Uuid) (p : Date → Bool) :
    List JoinedLine :=
  db.ledgerRows.filter fun row =>
    row.1.accountId = accountId && row.2.status = .posted && p row.2.entryDate

/-- `general_ledger_opening_balance`.  The sum has four decimals, so `_money` leaves it as it is. -/
def JournalDb.generalLedgerOpeningBalance (db : JournalDb) (accountId : Uuid) (before : Date) :
    Money :=
  ((db.ledgerRowsOf accountId fun d => d < before).map (·.1.amount)).sum

/-- `ORDER BY je.entry_date, jel.id`. -/
def byDate (row row' : JoinedLine) : Bool :=
  toLex (row.2.entryDate, row.1.id) ≤ toLex (row'.2.entryDate, row'.1.id)

/-- `SUM(jel.debit - jel.credit) OVER (… ROWS BETWEEN UNBOUNDED PRECEDING AND CURRENT ROW)` over
rows that are in the order of the window. -/
def windowSums (before : Money) : List JoinedLine → List (JoinedLine × Money)
  | [] => []
  | row :: rows => (row, before + row.1.amount) :: windowSums (before + row.1.amount) rows

/-- A line of the report. -/
structure GeneralLedgerLine where
  id : Uuid
  entryNumber : String
  entryDate : Date
  description : Option String
  debit : Money
  credit : Money
  running : Money
deriving DecidableEq, Repr

/-- The columns of a line, with its running balance. -/
def JoinedLine.line (row : JoinedLine) (running : Money) : GeneralLedgerLine where
  id := row.1.id
  entryNumber := row.2.entryNumber
  entryDate := row.2.entryDate
  description := row.1.description <|> some row.2.description
  debit := row.1.debit
  credit := row.1.credit
  running := running

/-- `general_ledger_lines`. -/
def JournalDb.generalLedgerLines (db : JournalDb) (accountId : Uuid) (start stop : Date)
    (opening : Money) : List GeneralLedgerLine :=
  let window := windowSums 0 ((db.ledgerRowsOf accountId (between start stop)).mergeSort byDate)
  (window.mergeSort fun a b => byDate a.1 b.1).map fun r => JoinedLine.line r.1 (opening + r.2)

/-! ## The report -/

/-- The sign of the accounts' normal balance. -/
def Account.sign (account : Account) : Int :=
  match account.accountType with
  | .liability | .equity | .revenue => -1
  | .asset | .expense => 1

/-- `signed`. -/
def signed (sign : Int) (value : Money) : Money :=
  let result := sign * value
  if result = 0 then |result| else result

/-- What `general_ledger` returns. -/
structure GeneralLedger where
  account : Account
  opening : Money
  lines : List GeneralLedgerLine

/-- `AccountingService.general_ledger`, past the account. -/
def JournalDb.generalLedger (db : JournalDb) (account : Account) (start stop : Date) :
    GeneralLedger :=
  let opening := db.generalLedgerOpeningBalance account.id start
  let lines := db.generalLedgerLines account.id start stop opening
  { account
    opening := signed account.sign opening
    lines := lines.map fun line => { line with running := signed account.sign line.running } }

/-- `AccountingService.general_ledger`. -/
def LedgerDb.generalLedger (db : LedgerDb) (env : Env) (accountId : Uuid) (start stop : Date) :
    Except Err (LedgerDb × GeneralLedger) := do
  let db ← db.bootstrap env
  match db.accounts.get accountId with
  | none => .error .notFound
  | some account => return (db, db.books.generalLedger account start stop)

/-- The balance after the last line. -/
def GeneralLedger.closing (report : GeneralLedger) : Money :=
  (report.lines.getLast?.map (·.running)).getD report.opening

/-- A line's amount in the natural sign of the account. -/
def GeneralLedger.amount (report : GeneralLedger) (line : GeneralLedgerLine) : Money :=
  report.account.sign * (line.debit - line.credit)

/-- The line stands before another one. -/
def GeneralLedgerLine.Before (line line' : GeneralLedgerLine) : Prop :=
  line.entryDate < line'.entryDate ∨ line.entryDate = line'.entryDate ∧ line.id < line'.id

/-! ## Days -/

/-- The calendar has this date. -/
def Date.IsDay (d : Date) : Prop := IsCalendarDay d.year d.month d.day

instance (d : Date) : Decidable d.IsDay :=
  inferInstanceAs (Decidable (IsCalendarDay d.year d.month d.day))

/-- The day after. -/
def Date.next (d : Date) : Date :=
  if d.day < daysInMonth d.year d.month then { d with day := d.day + 1 }
  else if d.month < 12 then ⟨d.year, d.month + 1, 1⟩
  else ⟨d.year + 1, 1, 1⟩

theorem Date.le_iff {d d' : Date} : d ≤ d' ↔ d.year < d'.year ∨ d.year = d'.year ∧
    (d.month < d'.month ∨ d.month = d'.month ∧ d.day ≤ d'.day) := Iff.rfl

/-- No day of the calendar stands between a day and the next one. -/
theorem Date.lt_next_iff {d d' : Date} (hd : d.IsDay) (hd' : d'.IsDay) : d < d'.next ↔ d ≤ d' := by
  obtain ⟨⟨hyear, hmonth⟩, htwelve, hone, hday⟩ := hd
  obtain ⟨⟨hyear', hmonth'⟩, htwelve', hone', hday'⟩ := hd'
  have hsame : d.year = d'.year → d.month = d'.month →
      daysInMonth d.year d.month = daysInMonth d'.year d'.month := by
    rintro hy hm
    rw [hy, hm]
  rw [← not_le, next]
  split_ifs with hlast hdecember
  · simp only [Date.le_iff]
    omega
  · simp only [Date.le_iff]
    omega
  · simp only [Date.le_iff]
    omega

theorem Date.lt_next {d : Date} (hd : d.IsDay) : d < d.next := (lt_next_iff hd hd).mpr le_rfl

/-! ## Rows in order -/

variable {db : JournalDb} {accountId : Uuid}

/-- Every entry is dated on a day of the calendar, as the values of a column `DATE` are. -/
def JournalDb.Dated (db : JournalDb) : Prop := ∀ e ∈ db.entries.rows, e.entryDate.IsDay

theorem JournalDb.mem_ledgerRows {row : JoinedLine} (h : row ∈ db.ledgerRows) :
    row.1 ∈ db.lines.rows ∧ db.entries.get row.1.journalEntryId = some row.2 := by
  obtain ⟨l, hl, hrow⟩ := List.mem_filterMap.mp h
  obtain ⟨e, he, rfl⟩ := Option.map_eq_some_iff.mp hrow
  exact ⟨hl, he⟩

/-- The rows have the identifiers of their lines. -/
theorem JournalDb.ledgerRows_nodup (db : JournalDb) : (db.ledgerRows.map (·.1.id)).Nodup := by
  refine List.Nodup.sublist ?_ db.lines.nodup
  rw [ledgerRows, List.map_filterMap]
  have hids : (fun l => ((db.entries.get l.journalEntryId).map (l, ·)).map
      fun row : JoinedLine => row.1.id)
      = fun l : JournalEntryLine => (db.entries.get l.journalEntryId).bind fun _ => some l.id := by
    funext l
    cases db.entries.get l.journalEntryId <;> rfl
  rw [hids]
  induction db.lines.rows with
  | nil => exact List.Sublist.slnil
  | cons l lines ih =>
      cases hget : db.entries.get l.journalEntryId with
      | none => simpa [hget] using ih.cons l.id
      | some e => simpa [hget] using ih.cons_cons l.id

theorem JournalDb.ledgerRowsOf_nodup (db : JournalDb) (accountId : Uuid) (p : Date → Bool) :
    ((db.ledgerRowsOf accountId p).map (·.1.id)).Nodup :=
  db.ledgerRows_nodup.sublist (List.filter_sublist.map _)

/-- Rows are asked for by the days they are dated on. -/
theorem JournalDb.ledgerRowsOf_congr (hdb : db.Dated) {p q : Date → Bool}
    (h : ∀ d : Date, d.IsDay → p d = q d) :
    db.ledgerRowsOf accountId p = db.ledgerRowsOf accountId q := by
  refine List.filter_congr fun row hrow => ?_
  rw [h _ (hdb _ (Table.get_mem (mem_ledgerRows hrow).2).1)]

/-- The rows on some of the days, and on the others. -/
theorem JournalDb.ledgerRowsOf_split (db : JournalDb) (accountId : Uuid) (p q : Date → Bool) :
    (db.ledgerRowsOf accountId (fun d => p d && q d) ++
      db.ledgerRowsOf accountId (fun d => p d && !q d)).Perm (db.ledgerRowsOf accountId p) := by
  have hpart (q : Date → Bool) : db.ledgerRowsOf accountId (fun d => p d && q d)
      = (db.ledgerRowsOf accountId p).filter fun row => q row.2.entryDate := by
    rw [ledgerRowsOf, ledgerRowsOf, List.filter_filter]
    refine List.filter_congr fun row _ => ?_
    rw [Bool.and_comm (q _)]
    simp only [Bool.and_assoc]
  rw [hpart, hpart]
  exact List.filter_append_perm _ _

theorem byDate_trans (a b c : JoinedLine) (hab : byDate a b) (hbc : byDate b c) : byDate a c := by
  simp only [byDate, decide_eq_true_eq] at *
  exact hab.trans hbc

theorem byDate_total (a b : JoinedLine) : (byDate a b || byDate b a) = true := by
  simp only [byDate, Bool.or_eq_true, decide_eq_true_eq]
  exact le_total _ _

/-- The rows of the window in its order. -/
def JournalDb.windowRows (db : JournalDb) (accountId : Uuid) (p : Date → Bool) : List JoinedLine :=
  (db.ledgerRowsOf accountId p).mergeSort byDate

theorem JournalDb.windowRows_perm (db : JournalDb) (accountId : Uuid) (p : Date → Bool) :
    (db.windowRows accountId p).Perm (db.ledgerRowsOf accountId p) := List.mergeSort_perm ..

theorem JournalDb.windowRows_sorted (db : JournalDb) (accountId : Uuid) (p : Date → Bool) :
    (db.windowRows accountId p).Pairwise fun a b => byDate a b :=
  List.pairwise_mergeSort byDate_trans byDate_total _

/-- A list of the same rows in the same order is the same list. -/
theorem JournalDb.windowRows_eq {p : Date → Bool} {rows : List JoinedLine}
    (hperm : rows.Perm (db.ledgerRowsOf accountId p))
    (hsorted : rows.Pairwise fun a b => byDate a b) :
    db.windowRows accountId p = rows := by
  refine List.Perm.eq_of_pairwise (fun a b ha hb hab hba => ?_) (db.windowRows_sorted accountId p)
    hsorted ((db.windowRows_perm accountId p).trans hperm.symm)
  have ha := (db.windowRows_perm accountId p).subset ha
  have hb := hperm.subset hb
  have hid : a.1.id = b.1.id := by
    simp only [byDate, decide_eq_true_eq] at hab hba
    exact (Prod.mk.inj (toLex.injective (le_antisymm hab hba))).2
  exact List.inj_on_of_nodup_map (db.ledgerRowsOf_nodup accountId p) ha hb hid

/-- The rows up to a day come before the rows after it. -/
theorem JournalDb.windowRows_append {p q r : Date → Bool} {mid : Date}
    (hperm : (db.ledgerRowsOf accountId q ++ db.ledgerRowsOf accountId r).Perm
      (db.ledgerRowsOf accountId p)) (hq : ∀ d, q d → d ≤ mid) (hr : ∀ d, r d → mid < d) :
    db.windowRows accountId p = db.windowRows accountId q ++ db.windowRows accountId r := by
  refine windowRows_eq (((db.windowRows_perm accountId q).append
    (db.windowRows_perm accountId r)).trans hperm) ?_
  refine List.pairwise_append.mpr
    ⟨db.windowRows_sorted accountId q, db.windowRows_sorted accountId r, fun a ha b hb => ?_⟩
  have ha := (List.mem_filter.mp ((db.windowRows_perm accountId q).subset ha)).2
  have hb := (List.mem_filter.mp ((db.windowRows_perm accountId r).subset hb)).2
  simp only [Bool.and_eq_true] at ha hb
  simp only [byDate, decide_eq_true_eq]
  exact Prod.Lex.toLex_le_toLex.mpr (.inl ((hq _ ha.2).trans_lt (hr _ hb.2)))

/-! ## Running balances -/

/-- The amounts of some rows together. -/
def totalAmount (rows : List JoinedLine) : Money := (rows.map (·.1.amount)).sum

theorem windowSums_fst (before : Money) (rows : List JoinedLine) :
    (windowSums before rows).map Prod.fst = rows := by
  induction rows generalizing before with
  | nil => rfl
  | cons row rows ih => rw [windowSums, List.map_cons, ih]

theorem windowSums_append (before : Money) (rows rows' : List JoinedLine) :
    windowSums before (rows ++ rows')
      = windowSums before rows ++ windowSums (before + totalAmount rows) rows' := by
  induction rows generalizing before with
  | nil => simp [windowSums, totalAmount]
  | cons row rows ih =>
      rw [List.cons_append, windowSums, windowSums, ih, List.cons_append, totalAmount, totalAmount,
        List.map_cons, List.sum_cons, add_assoc]

/-- The sums from a balance on. -/
theorem windowSums_add (balance before : Money) (rows : List JoinedLine) :
    (windowSums before rows).map (fun r => (r.1, balance + r.2))
      = windowSums (balance + before) rows := by
  induction rows generalizing before with
  | nil => rfl
  | cons row rows ih => simp [windowSums, ih, add_assoc]

/-- The sum at a row is the sum up to it. -/
theorem windowSums_getElem? (before : Money) (rows : List JoinedLine) (n : ℕ) :
    ((windowSums before rows)[n]?).map Prod.snd
      = if n < rows.length then some (before + totalAmount (rows.take (n + 1))) else none := by
  induction rows generalizing before n with
  | nil => simp [windowSums]
  | cons row rows ih =>
      cases n with
      | zero => simp [windowSums, totalAmount]
      | succ n =>
          rw [windowSums, List.getElem?_cons_succ, ih]
          simp [totalAmount, add_assoc]

theorem windowSums_getLast? (before : Money) (rows : List JoinedLine) :
    ((windowSums before rows).getLast?.map Prod.snd).getD before = before + totalAmount rows := by
  rcases List.eq_nil_or_concat rows with rfl | ⟨init, last, rfl⟩
  · simp [windowSums, totalAmount]
  · simp [windowSums_append, windowSums, totalAmount, add_assoc]

/-- A negative zero is a zero. -/
theorem signed_eq (sign : Int) (value : Money) : signed sign value = sign * value := by
  simp only [signed]
  split
  · rename_i hzero
    rw [hzero, abs_zero]
  · rfl

/-- The report, by the rows of its window. -/
theorem JournalDb.generalLedger_eq (db : JournalDb) (account : Account) (start stop : Date) :
    db.generalLedger account start stop =
      { account
        opening := account.sign * db.generalLedgerOpeningBalance account.id start
        lines := (windowSums (db.generalLedgerOpeningBalance account.id start)
          (db.windowRows account.id (between start stop))).map fun r =>
            JoinedLine.line r.1 (account.sign * r.2) } := by
  have hsorted : (windowSums 0 (db.windowRows account.id (between start stop))).Pairwise
      fun a b => byDate a.1 b.1 := by
    have hrows := db.windowRows_sorted account.id (between start stop)
    rw [← windowSums_fst 0 (db.windowRows account.id (between start stop)), List.pairwise_map]
      at hrows
    exact hrows
  rw [generalLedger, generalLedgerLines]
  simp only [signed_eq]
  rw [← windowRows, List.mergeSort_of_pairwise hsorted]
  rw [← add_zero (db.generalLedgerOpeningBalance account.id start), ← windowSums_add]
  simp [JoinedLine.line, Function.comp_def]

/-! ## Continuity -/

namespace JournalDb

variable {account : Account} {start stop : Date}

/-- The lines of the report are those of the window. -/
theorem generalLedger_map {X : Type} (f : JoinedLine → X) (g : GeneralLedgerLine → X)
    (hg : ∀ row running, g (JoinedLine.line row running) = f row) :
    (db.generalLedger account start stop).lines.map g
      = (db.windowRows account.id (between start stop)).map f := by
  rw [generalLedger_eq, List.map_map]
  rw [← windowSums_fst (db.generalLedgerOpeningBalance account.id start)
    (db.windowRows account.id (between start stop)), List.map_map, windowSums_fst]
  refine List.map_congr_left fun r _ => ?_
  exact hg r.1 _

theorem generalLedger_opening :
    (db.generalLedger account start stop).opening =
      account.sign * totalAmount (db.ledgerRowsOf account.id fun d => d < start) := by
  rw [generalLedger_eq]
  rfl

/-- The amounts of the lines, in the account's natural sign. -/
theorem generalLedger_amounts :
    (db.generalLedger account start stop).lines.map (db.generalLedger account start stop).amount
      = (db.windowRows account.id (between start stop)).map fun row =>
          account.sign * row.1.amount :=
  generalLedger_map _ _ fun _ _ => rfl

theorem sum_map_sign (sign : Int) (rows : List JoinedLine) :
    (rows.map fun row => (sign : Money) * row.1.amount).sum = sign * totalAmount rows := by
  rw [totalAmount, List.sum_map_mul_left]

/-- Every line has the opening balance and the amounts up to it. -/
theorem generalLedger_running {n : ℕ} {line : GeneralLedgerLine}
    (h : (db.generalLedger account start stop).lines[n]? = some line) :
    line.running = (db.generalLedger account start stop).opening +
      (((db.generalLedger account start stop).lines.take (n + 1)).map
        (db.generalLedger account start stop).amount).sum := by
  rw [List.map_take, generalLedger_amounts, ← List.map_take, sum_map_sign, generalLedger_opening,
    ← mul_add]
  rw [generalLedger_eq, List.getElem?_map, Option.map_eq_some_iff] at h
  obtain ⟨r, hr, rfl⟩ := h
  have hsum := windowSums_getElem? (db.generalLedgerOpeningBalance account.id start)
    (db.windowRows account.id (between start stop)) n
  rw [hr] at hsum
  split at hsum
  next => rw [JoinedLine.line, Option.some.inj hsum]; rfl
  next => cases hsum

/-- The closing balance is the balance of all lines up to the last day. -/
theorem generalLedger_closing :
    (db.generalLedger account start stop).closing = account.sign *
      (totalAmount (db.ledgerRowsOf account.id fun d => d < start) +
        totalAmount (db.windowRows account.id (between start stop))) := by
  have hlast := windowSums_getLast? (db.generalLedgerOpeningBalance account.id start)
    (db.windowRows account.id (between start stop))
  rw [GeneralLedger.closing, generalLedger_eq, List.getLast?_map]
  cases hsums : (windowSums (db.generalLedgerOpeningBalance account.id start)
      (db.windowRows account.id (between start stop))).getLast? with
  | none =>
      rw [hsums] at hlast
      exact congrArg (account.sign * ·) hlast
  | some r =>
      rw [hsums] at hlast
      exact congrArg (account.sign * ·) hlast

/-- The lines stand in the order of their dates and identifiers. -/
theorem generalLedger_pairwise :
    (db.generalLedger account start stop).lines.Pairwise GeneralLedgerLine.Before := by
  have hrows : (db.windowRows account.id (between start stop)).Pairwise fun a b =>
      (a.line 0).Before (b.line 0) := by
    have hids : ((db.windowRows account.id (between start stop)).map (·.1.id)).Nodup :=
      ((db.windowRows_perm account.id (between start stop)).map _).nodup_iff.mpr
        (db.ledgerRowsOf_nodup account.id (between start stop))
    refine ((db.windowRows_sorted account.id (between start stop)).and
      (List.pairwise_map.mp hids)).imp fun {a b} h => ?_
    obtain ⟨hle, hne⟩ := h
    simp only [byDate, decide_eq_true_eq] at hle
    rcases Prod.Lex.toLex_le_toLex.mp hle with hdate | ⟨hdate, hid⟩
    · exact .inl hdate
    · exact .inr ⟨hdate, lt_of_le_of_ne hid hne⟩
  have hlines := @generalLedger_map db account start stop _
    (fun row => row.line 0) (fun line => { line with running := 0 }) fun _ _ => rfl
  have hpairs := List.pairwise_map.mp
    (hlines ▸ List.pairwise_map.mpr hrows : List.Pairwise GeneralLedgerLine.Before
      ((db.generalLedger account start stop).lines.map fun line => { line with running := 0 }))
  exact hpairs

/-- What is dated before a day, and from that day to another one, is what is dated before the day
after. -/
theorem ledgerRowsOf_before_next (hdb : db.Dated) (hstop : stop.IsDay) (hle : start ≤ stop) :
    (db.ledgerRowsOf accountId (fun d => d < start) ++
      db.ledgerRowsOf accountId (between start stop)).Perm
      (db.ledgerRowsOf accountId fun d => d < stop.next) := by
  have hsplit := db.ledgerRowsOf_split accountId (fun d => d < stop.next) fun d => d < start
  have hbefore : db.ledgerRowsOf accountId (fun d => decide (d < stop.next) && decide (d < start))
      = db.ledgerRowsOf accountId fun d => d < start := by
    refine ledgerRowsOf_congr hdb fun d hd => ?_
    rw [← Bool.decide_and, decide_eq_decide, Date.lt_next_iff hd hstop]
    exact and_iff_right_of_imp fun h => h.le.trans hle
  have hwindow : db.ledgerRowsOf accountId (fun d => decide (d < stop.next) && !decide (d < start))
      = db.ledgerRowsOf accountId (between start stop) := by
    refine ledgerRowsOf_congr hdb fun d hd => ?_
    rw [between, Bool.eq_iff_iff]
    simp only [Bool.and_eq_true, decide_eq_true_eq, Bool.not_eq_true', decide_eq_false_iff_not,
      not_lt, Date.lt_next_iff hd hstop, and_comm]
  rwa [hbefore, hwindow] at hsplit

/-- The windows of adjacent ranges make the window of both. -/
theorem windowRows_adjacent (hdb : db.Dated) {mid : Date} (hmid : mid.IsDay) (hstart : start ≤ mid)
    (hstop : mid.next ≤ stop) :
    db.windowRows accountId (between start stop)
      = db.windowRows accountId (between start mid)
          ++ db.windowRows accountId (between mid.next stop) := by
  refine @windowRows_append _ _ _ _ _ mid ?_ ?_ ?_
  · have hsplit := db.ledgerRowsOf_split accountId (between start stop) fun d => d ≤ mid
    have hfirst : db.ledgerRowsOf accountId (fun d => between start stop d && decide (d ≤ mid))
        = db.ledgerRowsOf accountId (between start mid) := by
      refine ledgerRowsOf_congr hdb fun d _ => ?_
      rw [between, between, Bool.eq_iff_iff]
      simp only [Bool.and_eq_true, decide_eq_true_eq]
      exact ⟨fun h => ⟨h.1.1, h.2⟩, fun h =>
        ⟨⟨h.1, (h.2.trans (Date.lt_next hmid).le).trans hstop⟩, h.2⟩⟩
    have hsecond : db.ledgerRowsOf accountId (fun d => between start stop d && !decide (d ≤ mid))
        = db.ledgerRowsOf accountId (between mid.next stop) := by
      refine ledgerRowsOf_congr hdb fun d hd => ?_
      rw [between, between, Bool.eq_iff_iff]
      simp only [Bool.and_eq_true, decide_eq_true_eq, Bool.not_eq_true', decide_eq_false_iff_not,
        ← Date.lt_next_iff hd hmid, not_lt]
      exact ⟨fun h => ⟨h.2, h.1.2⟩, fun h =>
        ⟨⟨hstart.trans ((Date.lt_next hmid).le.trans h.1), h.2⟩, h.1⟩⟩
    rwa [hfirst, hsecond] at hsplit
  · intro d hd
    simp only [between, Bool.and_eq_true, decide_eq_true_eq] at hd
    exact hd.2
  · intro d hd
    simp only [between, Bool.and_eq_true, decide_eq_true_eq] at hd
    exact (Date.lt_next hmid).trans_le hd.1

end JournalDb

/-! ## The report of a request -/

/-- `_bootstrap` keeps the accounts that are there. -/
theorem LedgerDb.bootstrap_get {db db' : LedgerDb} {env : Env} {id : Uuid} {a : Account}
    (h : db.bootstrap env = .ok db') (ha : db.accounts.get id = some a) :
    db'.accounts.get id = some a := by
  obtain ⟨⟨db₁, parents⟩, hloop, h⟩ := bind_eq_ok.mp h
  rw [LedgerDb.bootstrapJournal_accounts h]
  refine foldlM_invariant
    (I := fun state : LedgerDb × List (String × Uuid) => state.1.accounts.get id = some a)
    ?_ hloop ha
  rintro row - state state' hstate hrow
  unfold Accounting.bootstrapAccount at hrow
  dsimp only at hrow
  split at hrow
  next =>
    cases hrow
    exact hstate
  next =>
    obtain ⟨db, hadd, hrow⟩ := bind_eq_ok.mp hrow
    cases hrow
    exact addAccount_get hadd hstate

/-- `report` answers a request for the account between the dates. -/
def LedgerDb.Reports (db : LedgerDb) (accountId : Uuid) (start stop : Date)
    (report : GeneralLedger) : Prop :=
  ∃ env db', db.generalLedger env accountId start stop = .ok (db', report)

/-- The report is made from the journal as it stood. -/
theorem LedgerDb.Reports.eq {db : LedgerDb} {account : Account} {start stop : Date}
    {report : GeneralLedger} (haccount : db.accounts.get accountId = some account)
    (h : db.Reports accountId start stop report) :
    report = db.books.generalLedger account start stop := by
  obtain ⟨env, db', h⟩ := h
  obtain ⟨db₁, hboot, h⟩ := bind_eq_ok.mp h
  rw [bootstrap_get hboot haccount] at h
  cases h
  rw [(Extends.bootstrap hboot).books]

/-- For every ledger, account and range of days, the running balances of the general ledger are the
opening balance and the amounts of the lines so far, in the account's natural sign and in the order
of dates and identifiers; it closes at what the report from the next day on opens with, and the
reports of two adjacent ranges, one after the other, are the report of the joined range. -/
theorem general_ledger_continuity {db : LedgerDb} (hdb : db.books.Dated) {account : Account}
    (haccount : db.accounts.get account.id = some account) {start stop : Date}
    (hstop : stop.IsDay) (hle : start ≤ stop) {report : GeneralLedger}
    (h : db.Reports account.id start stop report) :
    report.opening = account.sign *
        totalAmount (db.books.ledgerRowsOf account.id fun d => d < start) ∧
      (report.lines.map (·.id)).Perm
        ((db.books.ledgerRowsOf account.id (between start stop)).map (·.1.id)) ∧
      (∀ line ∈ report.lines, ∃ row ∈ db.books.ledgerRowsOf account.id (between start stop),
        line = row.line line.running) ∧
      report.lines.Pairwise GeneralLedgerLine.Before ∧
      (∀ (n : ℕ) (line : GeneralLedgerLine), report.lines[n]? = some line → line.running =
        report.opening +
          ((report.lines.take (n + 1)).map fun l => account.sign * (l.debit - l.credit)).sum) ∧
      (∀ (last : Date) (after : GeneralLedger), db.Reports account.id stop.next last after →
        report.closing = after.opening) ∧
      ∀ (mid : Date) (first second : GeneralLedger), mid.IsDay → start ≤ mid → mid.next ≤ stop →
        db.Reports account.id start mid first → db.Reports account.id mid.next stop second →
          report.opening = first.opening ∧ report.lines = first.lines ++ second.lines := by
  obtain rfl := h.eq haccount
  refine ⟨JournalDb.generalLedger_opening, ?_, ?_, JournalDb.generalLedger_pairwise, ?_, ?_, ?_⟩
  · rw [JournalDb.generalLedger_map (·.1.id) (·.id) fun _ _ => rfl]
    exact (db.books.windowRows_perm account.id (between start stop)).map _
  · intro line hline
    have hmem : (line.id, { line with running := 0 }) ∈
        (db.books.generalLedger account start stop).lines.map
          fun l => (l.id, { l with running := 0 }) :=
      List.mem_map_of_mem hline
    rw [JournalDb.generalLedger_map (fun row => (row.1.id, row.line 0)) _ fun _ _ => rfl] at hmem
    obtain ⟨row, hrow, hline⟩ := List.mem_map.mp hmem
    refine ⟨row, (db.books.windowRows_perm account.id (between start stop)).subset hrow, ?_⟩
    exact congrArg (fun l : Uuid × GeneralLedgerLine => { l.2 with running := line.running })
      hline.symm
  · intro n line hline
    exact JournalDb.generalLedger_running hline
  · intro last after hafter
    rw [hafter.eq haccount, JournalDb.generalLedger_opening, JournalDb.generalLedger_closing,
      totalAmount, totalAmount, ← List.sum_append, ← List.map_append]
    refine congrArg (account.sign * ·) (List.Perm.sum_eq (List.Perm.map _ ?_))
    exact ((List.Perm.refl _).append (db.books.windowRows_perm _ _)).trans
      (JournalDb.ledgerRowsOf_before_next hdb hstop hle)
  · intro mid first second hmid hfirst hsecond hr₁ hr₂
    have hclose := @JournalDb.ledgerRowsOf_before_next _ account.id _ _ hdb hmid hfirst
    rw [hr₁.eq haccount, hr₂.eq haccount]
    refine ⟨by rw [JournalDb.generalLedger_opening, JournalDb.generalLedger_opening], ?_⟩
    have hopening : db.books.generalLedgerOpeningBalance account.id mid.next
        = db.books.generalLedgerOpeningBalance account.id start
          + totalAmount (db.books.windowRows account.id (between start mid)) := by
      have hsum := (((List.Perm.refl _).append (db.books.windowRows_perm account.id
        (between start mid))).trans hclose).map fun row => row.1.amount
      rw [JournalDb.generalLedgerOpeningBalance, ← hsum.sum_eq, List.map_append, List.sum_append]
      rfl
    rw [JournalDb.generalLedger_eq, JournalDb.generalLedger_eq, JournalDb.generalLedger_eq,
      JournalDb.windowRows_adjacent hdb hmid hfirst hsecond, windowSums_append, List.map_append,
      hopening]

/-- The January of a cash sale closes at what February opens with. -/
theorem general_ledger_continuity_sale : ∃ (account : Account) (report : GeneralLedger),
    (LedgerDb.empty.run [cashSale]).Reports account.id ⟨2026, 1, 1⟩ ⟨2026, 1, 31⟩ report ∧
      report.lines.length = 1 ∧
      ∀ (last : Date) (after : GeneralLedger),
        (LedgerDb.empty.run [cashSale]).Reports account.id ⟨2026, 2, 1⟩ last after →
          report.closing = after.opening := by
  have hdated : (LedgerDb.empty.run [cashSale]).books.Dated := by
    unfold JournalDb.Dated
    decide +kernel
  have hcash : ((LedgerDb.empty.run [cashSale]).accounts.get 2).any (·.id = 2) = true := by
    decide +kernel
  have hreport : ((LedgerDb.empty.run [cashSale]).generalLedger calendarYear 2 ⟨2026, 1, 1⟩
      ⟨2026, 1, 31⟩).toOption.any (·.2.lines.length = 1) = true := by decide +kernel
  obtain ⟨account, haccount, hid⟩ := (Option.any_eq_true _ _).mp hcash
  obtain ⟨⟨db', report⟩, hrun, hlines⟩ := (Option.any_eq_true _ _).mp hreport
  have hid : account.id = 2 := of_decide_eq_true hid
  rw [← hid] at haccount hrun
  have hreport : (LedgerDb.empty.run [cashSale]).Reports account.id ⟨2026, 1, 1⟩ ⟨2026, 1, 31⟩
      report := ⟨calendarYear, db', toOption_eq_some.mp hrun⟩
  have hclose := (general_ledger_continuity hdated haccount (by decide) (by decide)
    hreport).2.2.2.2.2.1
  exact ⟨account, report, hreport, of_decide_eq_true hlines, hclose⟩

end Nexora.Accounting
