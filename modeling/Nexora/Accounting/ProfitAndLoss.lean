import Nexora.Accounting.Chart
import Nexora.Accounting.Reports

/-!
# Profit and loss

`profit_and_loss` takes the rows of the trial balance apart by the type of their account.  Its result,
revenue less expense, is the income of the posted lines between the two dates.

The operational modules post by system code, and an account with a system code has the type that
`_bootstrap` gave it.  So in a ledger that only these modules post to, the income is what stands on five
accounts (`LedgerDb.Systematic.income_eq`).
-/

namespace Nexora.Accounting

open Nexora Foundations

variable {db db' : LedgerDb} {env : Env}

/-! ## The report -/

/-- `AccountingService.profit_and_loss`: the revenue and the expense accounts with their amounts. -/
def LedgerDb.profitAndLoss (db : LedgerDb) (env : Env) (first last : Date) :
    Except Err (LedgerDb × List (Account × Money) × List (Account × Money)) := do
  let db ← db.bootstrap env
  let rows := db.trialBalance first last
  return (db, sheetRows rows .revenue fun debit credit => credit - debit,
    sheetRows rows .expense fun debit credit => debit - credit)

theorem LedgerDb.profitAndLoss_eq_ok {first last : Date} {revenue expense : List (Account × Money)}
    (h : db.profitAndLoss env first last = .ok (db', revenue, expense)) :
    db.bootstrap env = .ok db' ∧ total revenue - total expense = db'.income (between first last) := by
  obtain ⟨db₁, hboot, h⟩ := bind_eq_ok.mp h
  cases h
  refine ⟨hboot, ?_⟩
  rw [total_sheetRows_credit, total_sheetRows_debit, db'.income_between]
  abel

/-- The report is there whenever the chart is. -/
theorem LedgerDb.profitAndLoss_of_bootstrap (h : db.bootstrap env = .ok db') (first last : Date) :
    ∃ revenue expense, db.profitAndLoss env first last = .ok (db', revenue, expense) :=
  ⟨_, _, bind_eq_ok.mpr ⟨db', h, rfl⟩⟩

/-! ## Accounts with a system code -/

/-- The type that `_bootstrap` gives to the account with a system code. -/
def systemType (code : String) : Option AccountType :=
  (defaultAccounts.find? (·.2.2.2.2.2 = some code)).map (·.2.2.1)

theorem systemType_default : ∀ row ∈ defaultAccounts, ∀ code, row.2.2.2.2.2 = some code →
    systemType code = some row.2.2.1 := by
  have hall : ∀ row ∈ defaultAccounts, ∀ code ∈ row.2.2.2.2.2,
      systemType code = some row.2.2.1 := by decide +kernel
  exact fun row hrow code hcode => hall row hrow code hcode

/-- An account with a system code has its type. -/
def LedgerDb.Typed (db : LedgerDb) : Prop :=
  ∀ a ∈ db.accounts.rows, ∀ code, a.systemCode = some code → systemType code = some a.accountType

theorem LedgerDb.Typed.addAccount {account : Account} (hdb : db.Typed)
    (haccount : ∀ code, account.systemCode = some code → systemType code = some account.accountType)
    (h : db.addAccount account = .ok db') : db'.Typed := by
  intro a ha
  rw [addAccount_rows h, List.mem_append, List.mem_singleton] at ha
  rcases ha with ha | rfl
  · exact hdb a ha
  · exact haccount

theorem LedgerDb.Typed.bootstrap (hdb : db.Typed) (h : db.bootstrap env = .ok db') : db'.Typed := by
  obtain ⟨⟨db₁, parents⟩, hloop, h⟩ := bind_eq_ok.mp h
  have hloop' : db₁.Typed := by
    refine foldlM_invariant (I := fun state : LedgerDb × List (String × Uuid) => state.1.Typed)
      ?_ hloop hdb
    rintro ⟨row, index⟩ hrow state state' hstate hstep
    simp only [bootstrapAccount] at hstep
    split at hstep
    next =>
      cases hstep
      exact hstate
    next =>
      obtain ⟨db₂, hadd, hstep⟩ := bind_eq_ok.mp hstep
      cases hstep
      exact hstate.addAccount (systemType_default row (List.fst_mem_of_mem_zipIdx hrow)) hadd
  unfold Typed
  rw [bootstrapJournal_accounts h]
  exact hloop'

theorem LedgerDb.Typed.createAccount {id : Uuid} {payload : AccountCreate} (hdb : db.Typed)
    (h : db.createAccount env id payload = .ok db') : db'.Typed := by
  obtain ⟨db₁, hboot, h⟩ := bind_eq_ok.mp (Extends.of_orConflict h)
  obtain ⟨db₂, hparent, h⟩ := bind_eq_ok.mp h
  have hclaimed : db₂.Typed := by
    intro a ha
    rw [claimParent_rows hparent] at ha
    obtain ⟨old, hold, rfl⟩ := List.mem_map.mp ha
    have htyped := hdb.bootstrap hboot old hold
    unfold Account.claimedBy
    split
    · exact htyped
    · exact htyped
  refine hclaimed.addAccount (fun code hcode => ?_) h
  cases hcode

/-! ## Ledgers of the operational modules -/

/-- Every line is on an account with a system code, and every entry has a date of `P`. -/
structure LedgerDb.Systematic (P : Date → Prop) (db : LedgerDb) : Prop where
  typed : db.Typed
  coded : ∀ l ∈ db.books.lines.rows, ∃ a code, db.accounts.get l.accountId = some a ∧
    a.systemCode = some code
  dated : ∀ e ∈ db.books.entries.rows, P e.entryDate

namespace LedgerDb.Systematic

variable {P Q : Date → Prop}

theorem empty : LedgerDb.empty.Systematic P :=
  ⟨List.forall_mem_nil _, List.forall_mem_nil _, List.forall_mem_nil _⟩

theorem mono (h : db.Systematic P) (himp : ∀ d, P d → Q d) : db.Systematic Q :=
  ⟨h.typed, h.coded, fun e he => himp _ (h.dated e he)⟩

/-- Requests that post nothing and leave the types of the accounts. -/
theorem sameCodes (h : db.Systematic P) (hsame : db.SameCodes db') (htyped : db'.Typed) :
    db'.Systematic P := by
  refine ⟨htyped, fun l hl => ?_, ?_⟩
  · rw [hsame.books] at hl
    obtain ⟨a, code, ha, hcode⟩ := h.coded l hl
    obtain ⟨a', ha', hcode'⟩ := hsame.codes _ a ha
    exact ⟨a', code, ha', hcode'.trans hcode⟩
  · rw [hsame.books]
    exact h.dated

theorem bootstrap (h : db.Systematic P) (hboot : db.bootstrap env = .ok db') : db'.Systematic P :=
  h.sameCodes (.bootstrap hboot) (h.typed.bootstrap hboot)

theorem post {tx tx₁ tx' : LedgerTx} {r : PostRequest} {posting : Posting}
    (h : tx.db.Systematic P) (hmap : r.accountMap = []) (hdate : P r.entryDate)
    (hpost : tx.post env r = .ok (tx₁, posting)) (hflush : tx₁.flush posting = .ok tx') :
    tx'.db.Systematic P := by
  obtain ⟨hadds, ⟨e, hentries, hentryDate⟩, db₁, hboot, haccounts⟩ :=
    LedgerTx.post_adds hmap hpost hflush
  obtain ⟨ls, hlines, hstored⟩ := hadds.lines
  refine ⟨?_, fun l hl => ?_, fun e' he' => ?_⟩
  · unfold Typed
    rw [haccounts]
    exact h.typed.bootstrap hboot
  · rw [hlines, List.mem_append] at hl
    rcases hl with hl | hl
    · obtain ⟨a, code, ha, hcode⟩ := h.coded l hl
      obtain ⟨a', ha', hcode'⟩ := hadds.codes _ a ha
      exact ⟨a', code, ha', hcode'.trans hcode⟩
    · obtain ⟨line, -, hline⟩ := exists_of_forall₂ hstored hl
      obtain ⟨a, ha, hcode⟩ := hline.account
      exact ⟨a, _, ha, hcode⟩
  · rw [hentries, List.mem_append, List.mem_singleton] at he'
    rcases he' with he' | rfl
    · exact h.dated e' he'
    · exact hentryDate ▸ hdate

theorem postAll {tx tx' : LedgerTx} {requests : List PostRequest} (h : tx.db.Systematic P)
    (hrequests : ∀ r ∈ requests, r.accountMap = [] ∧ P r.entryDate)
    (hok : tx.postAll env requests = .ok tx') : tx'.db.Systematic P := by
  refine foldlM_invariant (I := fun tx : LedgerTx => tx.db.Systematic P) ?_ hok h
  intro r hr tx tx' htx hstep
  obtain ⟨⟨tx₁, posting⟩, hpost, hflush⟩ := bind_eq_ok.mp hstep
  exact htx.post (hrequests r hr).1 (hrequests r hr).2 hpost hflush

/-- A request of an operational module. -/
theorem operational {requests : List PostRequest} {own : Except Err Unit} (h : db.Systematic P)
    (hrequests : ∀ r ∈ requests, r.accountMap = [] ∧ P r.entryDate)
    (hok : db.request (.operational env requests own) = .ok db') : db'.Systematic P := by
  obtain ⟨tx, hpost, hok⟩ := bind_eq_ok.mp hok
  obtain ⟨-, -, hok⟩ := bind_eq_ok.mp hok
  obtain ⟨-, -, hok⟩ := bind_eq_ok.mp hok
  cases hok
  exact postAll h hrequests hpost

end LedgerDb.Systematic

/-! ## Income by code -/

/-- The accounts that the result is made of. -/
def incomeCodes : List String :=
  ["SALES_REVENUE", "SALES_RETURNS", "SALES_DISCOUNTS", "COGS", "ROUNDING"]

theorem mem_incomeCodes_iff {code : String} {t : AccountType} (h : systemType code = some t) :
    code ∈ incomeCodes ↔ t = .revenue ∨ t = .expense := by
  have hall : ∀ row ∈ defaultAccounts, ∀ code ∈ row.2.2.2.2.2,
      (code ∈ incomeCodes ↔ row.2.2.1 = .revenue ∨ row.2.2.1 = .expense) := by decide +kernel
  obtain ⟨row, hfind, rfl⟩ := Option.map_eq_some_iff.mp h
  exact hall row (List.mem_of_find?_eq_some hfind) code (by simpa using List.find?_some hfind)

/-- The income is what stands on these accounts, where all entries have dates of `p`. -/
theorem LedgerDb.Systematic.income_eq {P : Date → Prop} {p : Date → Bool} (h : db.Systematic P)
    (hdates : ∀ d, P d → p d = true) : db.income p = -(incomeCodes.map db.net).sum := by
  have hposted : ∀ l, db.books.isPostedOn p l = db.isPostedFrom anySource l := by
    intro l
    unfold JournalDb.isPostedOn isPostedFrom anySource
    cases hget : db.books.entries.get l.journalEntryId with
    | none => rfl
    | some e => simp [hdates _ (h.dated e (Table.get_mem hget).1)]
  rw [eq_neg_iff_add_eq_zero]
  simp only [income, incomeCodes, net, postings, List.map_cons, List.map_nil, List.sum_cons,
    List.sum_nil, add_zero, Table.sum_filter, hposted]
  rw [← List.sum_map_add, ← List.sum_map_add, ← List.sum_map_add, ← List.sum_map_add,
    ← List.sum_map_add]
  refine List.sum_eq_zero fun x hx => ?_
  obtain ⟨l, hl, rfl⟩ := List.mem_map.mp hx
  obtain ⟨a, code, ha, hcode⟩ := h.coded l hl
  have htype := mem_incomeCodes_iff (h.typed a (Table.get_mem ha).1 code hcode)
  have hline : (db.isOfType .revenue l || db.isOfType .expense l) = decide (code ∈ incomeCodes) := by
    rw [decide_eq_decide.mpr htype, Bool.decide_or]
    simp [isOfType, ha]
  have haccount : ∀ other, db.isOnAccount other l = decide (code = other) := by
    intro other
    simp [isOnAccount, ha, hcode]
  simp only [hline, haccount]
  cases db.isPostedFrom anySource l with
  | false => simp
  | true =>
      by_cases hmem : code ∈ incomeCodes
      · have hcodes := hmem
        simp only [incomeCodes, List.mem_cons, List.not_mem_nil, or_false] at hcodes
        rcases hcodes with rfl | rfl | rfl | rfl | rfl
        all_goals simp [hmem, JournalEntryLine.amount]
      · have hother := hmem
        simp only [incomeCodes, List.mem_cons, List.not_mem_nil, or_false, not_or] at hother
        simp [hmem, hother]

end Nexora.Accounting
