import Nexora.Accounting.JournalTriggers
import Nexora.Foundations.Decimal

/-!
# The accounting service

`AccountingService` of `app/modules/accounting/service.py`: the chart of accounts
and the first fiscal period (`_bootstrap`), periods and their status, and the
three ways an entry reaches the ledger (`post` for the operational modules,
`post_manual` and `reverse`).

A request works on a `LedgerTx`.  What it writes to the journal goes through
`JournalTx.execute`, so through the triggers and constraints of the database, and
`LedgerTx.commit` runs the deferred balance check.  `LedgerDb.Sound` is what every
request keeps: posted entries balance, and every line is on an account.
-/

namespace Nexora.Accounting

open Nexora

/-! ## State -/

/-- The tables of the service, for one tenant. -/
structure LedgerDb where
  books : JournalDb
  accounts : Foundations.Table Account.id
  journals : List Journal
  periods : Foundations.Table FiscalPeriod.id
  /-- `document_sequences`: the next number of a series and period. -/
  sequences : String → String → Nat

/-- A tenant before its first accounting request. -/
def LedgerDb.empty : LedgerDb := ⟨.empty, .empty _, [], .empty _, fun _ _ => 1⟩

/-- An open transaction of the service. -/
structure LedgerTx where
  db : LedgerDb
  pending : List JournalEntry

/-- The journal as the transaction sees it. -/
def LedgerTx.journal (tx : LedgerTx) : JournalTx := ⟨tx.db.books, tx.pending⟩

/-- What a request carries besides its payload: the caller, the tenant's
settings, the clock, and the identifiers `_bootstrap` draws. -/
structure Env where
  context : TenantContext
  baseCurrency : String
  fiscalYearStartMonth : Nat
  today : Date
  now : Nat
  accountId : Nat → Uuid
  journalId : Uuid
  periodId : Uuid

/-- The foreign keys from the journal to accounts, journals and periods. -/
def LedgerDb.foreignKeys (db : LedgerDb) : Except Err Unit :=
  if (∀ l ∈ db.books.lines.rows, (db.accounts.get l.accountId).isSome) ∧
      (∀ e ∈ db.books.entries.rows, db.journals.any (·.id = e.journalId)) ∧
      (∀ e ∈ db.books.entries.rows, (db.periods.get e.fiscalPeriodId).isSome)
  then .ok () else .error (.integrity "foreign_key")

/-- A statement on the journal. -/
def LedgerTx.execute (tx : LedgerTx) (statement : Statement) : Except Err LedgerTx := do
  let journal ← tx.journal.execute statement
  let db := { tx.db with books := journal.db }
  db.foreignKeys
  return ⟨db, journal.pending⟩

/-- `COMMIT` with the deferred balance trigger. -/
def LedgerTx.commit (tx : LedgerTx) : Except Err LedgerDb := do
  tx.pending.forM (checkJournalBalanced tx.db.books)
  return tx.db

/-! ## Accounts and periods -/

/-- `DEFAULT_ACCOUNTS`: code, name, type, parent, postable, system code. -/
def defaultAccounts :
    List (String × String × AccountType × Option String × Bool × Option String) := [
  ("1000", "Assets", .asset, none, false, none),
  ("1100", "Current Assets", .asset, some "1000", false, none),
  ("1110", "Cash on Hand", .asset, some "1100", true, some "CASH"),
  ("1120", "Bank Accounts", .asset, some "1100", true, some "BANK"),
  ("1130", "Accounts Receivable", .asset, some "1100", true, some "AR_CONTROL"),
  ("1140", "Inventory", .asset, some "1100", true, some "INVENTORY"),
  ("1150", "Input VAT Receivable", .asset, some "1100", true, some "VAT_INPUT"),
  ("1500", "Fixed Assets", .asset, some "1000", false, none),
  ("2000", "Liabilities", .liability, none, false, none),
  ("2100", "Accounts Payable", .liability, some "2000", true, some "AP_CONTROL"),
  ("2150", "Goods Received Not Invoiced", .liability, some "2000", true, some "GRNI"),
  ("2200", "Output VAT Payable", .liability, some "2000", true, some "VAT_OUTPUT"),
  ("2300", "Accrued Liabilities", .liability, some "2000", true, none),
  ("3000", "Equity", .equity, none, false, none),
  ("3100", "Owner's Capital", .equity, some "3000", true, none),
  ("3200", "Retained Earnings", .equity, some "3000", true, some "RETAINED_EARNINGS"),
  ("4000", "Revenue", .revenue, none, false, none),
  ("4100", "Sales Revenue", .revenue, some "4000", true, some "SALES_REVENUE"),
  ("4200", "Sales Returns & Allowances", .revenue, some "4000", true, some "SALES_RETURNS"),
  ("4300", "Sales Discounts", .revenue, some "4000", true, some "SALES_DISCOUNTS"),
  ("5000", "Expenses", .expense, none, false, none),
  ("5100", "Cost of Goods Sold", .expense, some "5000", true, some "COGS"),
  ("5200", "Operating Expenses", .expense, some "5000", true, none),
  ("5900", "Rounding Difference", .expense, some "5000", true, some "ROUNDING")]

/-- `INSERT` of an account, with the unique code and system code. -/
def LedgerDb.addAccount (db : LedgerDb) (account : Account) : Except Err LedgerDb := do
  let accounts ← Foundations.orRaise (.integrity "accounts_pkey") (db.accounts.insert account)
  if (accounts.rows.map (·.code)).Nodup ∧ (accounts.rows.filterMap (·.systemCode)).Nodup then
    .ok { db with accounts := accounts }
  else .error (.integrity "accounts_unique")

/-- The accounts loop of `_bootstrap`: `existing` are the codes at its start, and
`parents` the identifiers by code so far. -/
def bootstrapAccount (env : Env) (existing : List String)
    (state : LedgerDb × List (String × Uuid))
    (row : (String × String × AccountType × Option String × Bool × Option String) × Nat) :
    Except Err (LedgerDb × List (String × Uuid)) :=
  let ((code, name, kind, parentCode, postable, systemCode), index) := row
  if code ∈ existing then .ok state
  else do
    let db ← state.1.addAccount
      { id := env.accountId index
        code := code
        name := name
        accountType := kind
        parentId := state.2.lookup (parentCode.getD "")
        isPostable := postable
        isSystem := systemCode.isSome
        systemCode := systemCode
        currency := env.baseCurrency
        isActive := true }
    return (db, (code, env.accountId index) :: state.2)

/-- The days of a month. -/
def monthDays (year month : Nat) : Nat :=
  if month = 2 then
    if year % 4 = 0 ∧ (year % 100 ≠ 0 ∨ year % 400 = 0) then 29 else 28
  else if month = 4 ∨ month = 6 ∨ month = 9 ∨ month = 11 then 30 else 31

/-- The fiscal year that contains today. -/
def firstPeriod (env : Env) : FiscalPeriod :=
  let month := env.fiscalYearStartMonth
  let year := if month ≤ env.today.month then env.today.year else env.today.year - 1
  let endMonth := if month - 1 = 0 then 12 else month - 1
  let endYear := if 1 < month then year + 1 else year
  { id := env.periodId
    name := "FY " ++ toString year ++ "/" ++ toString endYear
    startDate := ⟨year, month, 1⟩
    endDate := ⟨endYear, endMonth, monthDays endYear endMonth⟩
    status := .opened }

/-- `INSERT` of a period, with `valid_date_range` and `ex_fiscal_periods_no_overlap`. -/
def LedgerDb.addPeriod (db : LedgerDb) (period : FiscalPeriod) : Except Err LedgerDb :=
  if ¬period.startDate ≤ period.endDate then .error (.integrity "valid_date_range")
  else if db.periods.rows.any fun q =>
      q.startDate ≤ period.endDate && period.startDate ≤ q.endDate then
    .error (.integrity "ex_fiscal_periods_no_overlap")
  else do
    let periods ← Foundations.orRaise (.integrity "fiscal_periods_pkey") (db.periods.insert period)
    return { db with periods := periods }

/-- The journal and the first period, made once. -/
def LedgerDb.bootstrapJournal (db : LedgerDb) (env : Env) : Except Err LedgerDb :=
  if db.journals.any (·.code = "GENERAL") then .ok db
  else
    let journal : Journal := ⟨env.journalId, "GENERAL", "General Journal", true, true⟩
    { db with journals := db.journals ++ [journal] }.addPeriod (firstPeriod env)

/-- `AccountingService._bootstrap`. -/
def LedgerDb.bootstrap (db : LedgerDb) (env : Env) : Except Err LedgerDb := do
  let existing := db.accounts.rows.map fun a => (a.code, a.id)
  let (db, _) ← defaultAccounts.zipIdx.foldlM (bootstrapAccount env (existing.map Prod.fst))
    (db, existing)
  db.bootstrapJournal env

/-- `AccountCreate`. -/
structure AccountCreate where
  code : String
  name : String
  accountType : AccountType
  parentId : Option Uuid
  isPostable : Bool

/-- The parent of a new account stops being postable. -/
def LedgerDb.claimParent (db : LedgerDb) (payload : AccountCreate) : Except Err LedgerDb :=
  match payload.parentId with
  | none => .ok db
  | some parentId =>
      match db.accounts.get parentId with
      | none => .error .notFound
      | some parent =>
          if parent.accountType ≠ payload.accountType then
            .error (.domainValidation "ACCOUNT_TYPE_MISMATCH"
              "A child account must use its parent's type.")
          else do
            let accounts ← Foundations.orRaise (.integrity "accounts_pkey")
              (db.accounts.replace parentId { parent with isPostable := false })
            return { db with accounts := accounts }

/-- `IntegrityError` turned into a conflict. -/
def orConflict {α : Type} (code message : String) : Except Err α → Except Err α
  | .error (.integrity _) => .error (.conflict code message)
  | outcome => outcome

/-- `AccountingService.create_account`. -/
def LedgerDb.createAccount (db : LedgerDb) (env : Env) (id : Uuid) (payload : AccountCreate) :
    Except Err LedgerDb :=
  orConflict "DUPLICATE_RESOURCE" "Account code already exists." do
    let db ← db.bootstrap env
    let db ← db.claimParent payload
    db.addAccount
      { id := id
        code := payload.code
        name := payload.name
        accountType := payload.accountType
        parentId := payload.parentId
        isPostable := payload.isPostable
        isSystem := false
        systemCode := none
        currency := env.baseCurrency
        isActive := true }

/-- `AccountingService.create_period`. -/
def LedgerDb.createPeriod (db : LedgerDb) (env : Env) (id : Uuid) (name : String)
    (startDate endDate : Date) : Except Err LedgerDb :=
  if ¬startDate ≤ endDate then
    .error (.domainValidation "INVALID_DATE_RANGE" "Period end must not precede start.")
  else
    orConflict "PERIOD_OVERLAP" "Fiscal periods may not overlap." do
      let db ← db.bootstrap env
      db.addPeriod ⟨id, name, startDate, endDate, .opened⟩

/-- The one status a period may move to. -/
def PeriodStatus.legal : PeriodStatus → Option PeriodStatus
  | .opened => some .closed
  | .closed => some .locked
  | .locked => none

/-- `AccountingService.change_period_status`. -/
def LedgerDb.changePeriodStatus (db : LedgerDb) (periodId : Uuid) (status : PeriodStatus) :
    Except Err LedgerDb :=
  match db.periods.get periodId with
  | none => .error .notFound
  | some period =>
      if period.status.legal ≠ some status then
        .error (.conflict "ILLEGAL_STATUS_TRANSITION"
          "Fiscal periods move OPEN to CLOSED to LOCKED.")
      else do
        let periods ← Foundations.orRaise (.integrity "fiscal_periods_pkey")
          (db.periods.replace periodId { period with status := status })
        return { db with periods := periods }

/-! ## Posting -/

/-- `PostingLine`: a system code, or a key of the account map. -/
structure PostingLine where
  systemCode : String
  debit : ℚ
  credit : ℚ
  description : Option String

/-- The arguments of `post`, with the identifiers it draws. -/
structure PostRequest where
  entryDate : Date
  description : String
  sourceType : String
  sourceId : Uuid
  eventType : String
  lines : List PostingLine
  allowClosed : Bool
  metadata : String
  /-- `account_map`; an absent map and an empty one both fall back to the system
  accounts. -/
  accountMap : List (String × Account)
  entryId : Uuid
  placeholder : Uuid
  lineId : Nat → Uuid

/-- `NumberAllocator.allocate` for the series `journal`. -/
def LedgerDb.allocate (db : LedgerDb) (period : String) : String × LedgerDb :=
  let allocated := db.sequences "journal" period
  let digits := toString allocated
  let counters := Function.update (db.sequences "journal") period (allocated + 1)
  ("JE-" ++ period ++ "-" ++ "".pushn '0' (6 - digits.length) ++ digits,
    { db with sequences := Function.update db.sequences "journal" counters })

/-- `AccountingRepository.period_for_date`. -/
def LedgerDb.periodForDate (db : LedgerDb) (value : Date) : Option FiscalPeriod :=
  db.periods.rows.find? fun p => p.startDate ≤ value && value ≤ p.endDate

/-- `not lines or debit != credit or debit == ZERO`. -/
def requireBalanced (noLines : Bool) (debit credit : ℚ) : Except Err Unit :=
  if noLines ∨ debit ≠ credit ∨ debit = 0 then
    .error (.domainValidation "UNBALANCED_JOURNAL"
      "Journal debits and credits must be equal and non-zero.")
  else .ok ()

/-- The period a posting goes into. -/
def LedgerDb.postingPeriod (db : LedgerDb) (env : Env) (r : PostRequest) :
    Except Err FiscalPeriod :=
  match db.periodForDate r.entryDate with
  | none => .error (.conflict "PERIOD_CLOSED" "No open fiscal period contains the posting date.")
  | some period =>
      if period.status = .locked then
        .error (.conflict "PERIOD_CLOSED" "The fiscal period is locked.")
      else if period.status = .closed ∧
          ¬(r.allowClosed ∧ "accounting.post_closed" ∈ env.context.permissions) then
        .error (.conflict "PERIOD_CLOSED" "The fiscal period is closed.")
      else .ok period

/-- `AccountingRepository.system_accounts`. -/
def LedgerDb.systemAccounts (db : LedgerDb) (codes : List String) : List (String × Account) :=
  db.accounts.rows.filterMap fun a =>
    match a.systemCode with
    | some code => if code ∈ codes then some (code, a) else none
    | none => none

/-- The accounts an entry posts to, by code. -/
def LedgerDb.postingAccounts (db : LedgerDb) (r : PostRequest) :
    Except Err (List (String × Account)) :=
  let required := (r.lines.map (·.systemCode)).dedup
  let accounts := if r.accountMap.isEmpty then db.systemAccounts required else r.accountMap
  let missing := required.filter fun code => (accounts.lookup code).isNone
  if ¬missing.isEmpty then
    .error (.runtime ("Required system account is missing: [" ++
      ", ".intercalate ((missing.mergeSort).map fun c => "'" ++ c ++ "'") ++ "]"))
  else
    let accounts := required.filterMap fun code => (accounts.lookup code).map (code, ·)
    if accounts.any fun a => !a.2.isPostable || !a.2.isActive then
      .error (.domainValidation "ACCOUNT_NOT_POSTABLE"
        "Journal lines require active leaf accounts.")
    else .ok accounts

/-- An amount as `NUMERIC(18,4)` stores it. -/
def storeMoney (x : ℚ) : Except Err Money :=
  Foundations.orRaise (.outOfRange "NUMERIC(18,4)") (Foundations.numeric 18 4 x)

/-- A line of an entry, as it is stored. -/
def storeLine (env : Env) (r : PostRequest) (accounts : List (String × Account))
    (row : PostingLine × Nat) : Except Err JournalEntryLine := do
  let account ← Foundations.orRaise (.runtime "KeyError") (accounts.lookup row.1.systemCode)
  let debit ← storeMoney row.1.debit
  let credit ← storeMoney row.1.credit
  return { id := r.lineId row.2, tenantId := env.context.tenantId, journalEntryId := r.entryId,
           accountId := account.id, description := row.1.description, debit := debit,
           credit := credit }

/-- An entry that is in the tables as a draft, and as it will be flushed. -/
structure Posting where
  draft : JournalEntry
  entry : JournalEntry

/-- `AccountingService.post`.  The numbered, posted row is flushed by the caller's
transaction, together with what the caller sets on it. -/
def LedgerTx.post (tx : LedgerTx) (env : Env) (r : PostRequest) :
    Except Err (LedgerTx × Posting) := do
  let db ← tx.db.bootstrap env
  let debit := Foundations.decimalSum (r.lines.map (·.debit))
  let credit := Foundations.decimalSum (r.lines.map (·.credit))
  requireBalanced r.lines.isEmpty debit credit
  let period ← db.postingPeriod env r
  let accounts ← db.postingAccounts r
  let journal ← Foundations.orRaise (.runtime "General journal is missing")
    (db.journals.find? (·.code = "GENERAL"))
  let totalDebit ← storeMoney debit
  let totalCredit ← storeMoney credit
  let draft : JournalEntry :=
    { id := r.entryId
      tenantId := env.context.tenantId
      entryNumber := "PENDING-" ++ toString r.placeholder
      journalId := journal.id
      fiscalPeriodId := period.id
      entryDate := r.entryDate
      status := .draft
      description := r.description
      sourceType := r.sourceType
      sourceId := r.sourceId
      eventType := r.eventType
      currency := env.baseCurrency
      totalDebit := totalDebit
      totalCredit := totalCredit
      postedAt := env.now
      postedByMembershipId := env.context.membershipId
      reversalOfEntryId := none
      reversedByEntryId := none
      entryMetadata := r.metadata }
  let tx ← { tx with db := db }.execute [.insertEntry draft]
  let lines ← r.lines.zipIdx.mapM (storeLine env r accounts)
  let tx ← tx.execute (lines.map .insertLine)
  let (number, db) := tx.db.allocate (toString r.entryDate.year)
  return ({ tx with db := db }, ⟨draft, { draft with entryNumber := number, status := .posted }⟩)

/-- The flush of a posted entry as `post` left it. -/
def LedgerTx.flush (tx : LedgerTx) (posting : Posting) : Except Err LedgerTx :=
  tx.execute [.updateEntry posting.draft posting.entry]

/-- `ManualLine`. -/
structure ManualLine where
  accountId : Uuid
  description : Option String
  debit : ℚ
  credit : ℚ

/-- `ManualEntryCreate`, with the identifiers the request draws. -/
structure ManualEntryCreate where
  entryDate : Date
  description : String
  lines : List ManualLine
  sourceId : Uuid
  entryId : Uuid
  placeholder : Uuid
  lineId : Nat → Uuid

/-- The accounts a manual entry names, all of them active leaves. -/
def LedgerDb.manualAccounts (db : LedgerDb) (payload : ManualEntryCreate) :
    Except Err (List Account) :=
  let accountIds := (payload.lines.map (·.accountId)).dedup
  let accounts := db.accounts.rows.filter (·.id ∈ accountIds)
  if accounts.length ≠ accountIds.length then .error .notFound
  else if accounts.any fun a => !a.isPostable || !a.isActive then
    .error (.domainValidation "ACCOUNT_NOT_POSTABLE" "Journal lines require active leaf accounts.")
  else .ok accounts

/-- The request `post_manual` makes of `post`. -/
def ManualEntryCreate.toPost (payload : ManualEntryCreate) (accounts : List Account) :
    PostRequest where
  entryDate := payload.entryDate
  description := payload.description
  sourceType := "manual"
  sourceId := payload.sourceId
  eventType := "manual"
  lines := payload.lines.map fun l =>
    ⟨"MANUAL:" ++ toString l.accountId, l.debit, l.credit, l.description⟩
  allowClosed := true
  metadata := "\x7b\x7d"
  accountMap := accounts.map fun a => ("MANUAL:" ++ toString a.id, a)
  entryId := payload.entryId
  placeholder := payload.placeholder
  lineId := payload.lineId

/-- `AccountingService.post_manual`. -/
def LedgerTx.postManual (tx : LedgerTx) (env : Env) (payload : ManualEntryCreate) :
    Except Err LedgerTx := do
  let db ← tx.db.bootstrap env
  let accounts ← db.manualAccounts payload
  let debit := Foundations.decimalSum (payload.lines.map (·.debit))
  let credit := Foundations.decimalSum (payload.lines.map (·.credit))
  requireBalanced false debit credit
  let (tx, posting) ← { tx with db := db }.post env (payload.toPost accounts)
  tx.flush posting

/-- `POST /entries/{id}/reverse`, with the identifiers the request draws. -/
structure ReversalRequest where
  entryId : Uuid
  reversalDate : Date
  reversalId : Uuid
  placeholder : Uuid
  lineId : Nat → Uuid

/-- The entry to reverse, with the checks `reverse` makes on it. -/
def LedgerDb.reversible (db : LedgerDb) (r : ReversalRequest) : Except Err JournalEntry :=
  match db.books.entries.get r.entryId with
  | none => .error .notFound
  | some original =>
      if original.reversedByEntryId.isSome then
        .error (.conflict "ENTRY_ALREADY_REVERSED" "Journal entry was already reversed.")
      else if ¬original.entryDate ≤ r.reversalDate then
        .error (.domainValidation "INVALID_REVERSAL_DATE"
          "A reversal cannot predate its original entry.")
      else .ok original

/-- `f"Reversal: {line.description or original.description}"`. -/
def reversalDescription (original : JournalEntry) (description : Option String) : String :=
  "Reversal: " ++ match description with
    | some text => if text = "" then original.description else text
    | none => original.description

/-- `isoformat`. -/
def Date.isoformat (d : Date) : String :=
  let pad (width n : Nat) := "".pushn '0' (width - (toString n).length) ++ toString n
  pad 4 d.year ++ "-" ++ pad 2 d.month ++ "-" ++ pad 2 d.day

/-- The request `reverse` makes of `post`: debits and credits swapped. -/
def ReversalRequest.toPost (r : ReversalRequest) (db : LedgerDb) (original : JournalEntry) :
    PostRequest where
  entryDate := r.reversalDate
  description := "Reversal of " ++ original.entryNumber
  sourceType := "journal_entry"
  sourceId := original.id
  eventType := "reversal"
  lines := ((db.books.linesOf original.id).mergeSort (·.id ≤ ·.id)).map fun l =>
    ⟨"REV:" ++ toString l.accountId, (l.credit : ℚ) / 10 ^ 4, (l.debit : ℚ) / 10 ^ 4,
      some (reversalDescription original l.description)⟩
  allowClosed := true
  metadata := "\x7b\"original_date\": \"" ++ original.entryDate.isoformat ++ "\"\x7d"
  accountMap := db.accounts.rows.map fun a => ("REV:" ++ toString a.id, a)
  entryId := r.reversalId
  placeholder := r.placeholder
  lineId := r.lineId

/-- `AccountingService.reverse`. -/
def LedgerTx.reverse (tx : LedgerTx) (env : Env) (r : ReversalRequest) : Except Err LedgerTx := do
  let original ← tx.db.reversible r
  let (tx, posting) ← tx.post env (r.toPost tx.db original)
  tx.execute [
    .updateEntry posting.draft { posting.entry with reversalOfEntryId := some original.id },
    .updateEntry original { original with reversedByEntryId := some posting.entry.id }]

/-- The postings of one operational transaction, in order. -/
def LedgerTx.postAll (tx : LedgerTx) (env : Env) (requests : List PostRequest) :
    Except Err LedgerTx :=
  requests.foldlM (fun tx r => do
    let (tx, posting) ← tx.post env r
    tx.flush posting) tx

/-! ## Requests -/

inductive LedgerOp where
  /-- A read, which bootstraps first: accounts, periods and reports. -/
  | read (env : Env)
  | createAccount (env : Env) (id : Uuid) (payload : AccountCreate)
  | createPeriod (env : Env) (id : Uuid) (name : String) (startDate endDate : Date)
  | changePeriodStatus (periodId : Uuid) (status : PeriodStatus)
  /-- A sale, bill, payment or other document with its postings.  The document's
  own checks may still raise at the end. -/
  | operational (env : Env) (requests : List PostRequest) (own : Except Err Unit)
  | postManual (env : Env) (payload : ManualEntryCreate)
  | reverse (env : Env) (request : ReversalRequest)

/-- What a request does to the tables it finds. -/
def LedgerDb.request (db : LedgerDb) : LedgerOp → Except Err LedgerDb
  | .read env => db.bootstrap env
  | .createAccount env id payload => db.createAccount env id payload
  | .createPeriod env id name startDate endDate => db.createPeriod env id name startDate endDate
  | .changePeriodStatus periodId status => db.changePeriodStatus periodId status
  | .operational env requests own => do
      let tx ← LedgerTx.postAll ⟨db, []⟩ env requests
      own
      tx.commit
  | .postManual env payload => do
      let tx ← LedgerTx.postManual ⟨db, []⟩ env payload
      tx.commit
  | .reverse env r => do
      let tx ← LedgerTx.reverse ⟨db, []⟩ env r
      tx.commit

/-- The committed tables after a request. -/
def LedgerDb.step (db : LedgerDb) (op : LedgerOp) : LedgerDb :=
  (serviceTransaction db fun db => (db.request op).map (·, ())).1

/-- The committed tables after a sequence of requests. -/
def LedgerDb.run (db : LedgerDb) (ops : List LedgerOp) : LedgerDb := ops.foldl step db

/-! ## What requests keep -/

/-- Posted entries balance, and every line is on an account. -/
structure LedgerDb.Sound (db : LedgerDb) : Prop where
  balanced : db.books.Balanced
  known : ∀ l ∈ db.books.lines.rows, (db.accounts.get l.accountId).isSome

/-- An account that is there outlives the creation of another. -/
theorem LedgerDb.addAccount_get {db db' : LedgerDb} {account a : Account} {id : Uuid}
    (h : db.addAccount account = .ok db') (ha : db.accounts.get id = some a) :
    db'.accounts.get id = some a := by
  obtain ⟨accounts, hinsert, h⟩ := Foundations.bind_eq_ok.mp h
  split at h
  next =>
    cases h
    exact Foundations.Table.get_of_append ha
      (Foundations.Table.insert_eq_some (Foundations.orRaise_eq_ok.mp hinsert)).1
  next => cases h

/-- The journal is as it was, and no account is gone. -/
structure LedgerDb.Extends (db db' : LedgerDb) : Prop where
  books : db'.books = db.books
  accounts : ∀ id, (db.accounts.get id).isSome → (db'.accounts.get id).isSome

namespace LedgerDb.Extends

variable {db db' db'' : LedgerDb}

theorem refl (db : LedgerDb) : Extends db db := ⟨rfl, fun _ h => h⟩

theorem trans (h : Extends db db') (h' : Extends db' db'') : Extends db db'' :=
  ⟨h'.books.trans h.books, fun id hid => h'.accounts id (h.accounts id hid)⟩

theorem sound (h : Extends db db') (hs : db.Sound) : db'.Sound where
  balanced := h.books ▸ hs.balanced
  known := by
    rw [h.books]
    exact fun l hl => h.accounts l.accountId (hs.known l hl)

theorem addAccount {account : Account} (h : db.addAccount account = .ok db') :
    Extends db db' := by
  refine ⟨?_, fun id hid => ?_⟩
  · obtain ⟨accounts, -, h⟩ := Foundations.bind_eq_ok.mp h
    split at h
    next =>
      cases h
      rfl
    next => cases h
  · obtain ⟨a, ha⟩ := Option.isSome_iff_exists.mp hid
    rw [addAccount_get h ha]
    rfl

theorem addPeriod {period : FiscalPeriod} (h : db.addPeriod period = .ok db') :
    Extends db db' := by
  obtain ⟨-, h⟩ := Foundations.ite_error_eq_ok.mp h
  obtain ⟨-, h⟩ := Foundations.ite_error_eq_ok.mp h
  obtain ⟨periods, -, h⟩ := Foundations.bind_eq_ok.mp h
  cases h
  exact ⟨rfl, fun _ hid => hid⟩

theorem bootstrapJournal {env : Env} (h : db.bootstrapJournal env = .ok db') :
    Extends db db' := by
  unfold LedgerDb.bootstrapJournal at h
  split at h
  next =>
    cases h
    exact .refl _
  next => exact ⟨(addPeriod h).books, (addPeriod h).accounts⟩

theorem bootstrapAccount {env : Env} {existing : List String}
    {state state' : LedgerDb × List (String × Uuid)}
    {row : (String × String × AccountType × Option String × Bool × Option String) × Nat}
    (h : Accounting.bootstrapAccount env existing state row = .ok state') :
    Extends state.1 state'.1 := by
  unfold Accounting.bootstrapAccount at h
  dsimp only at h
  split at h
  next =>
    cases h
    exact .refl _
  next =>
    obtain ⟨db, hadd, h⟩ := Foundations.bind_eq_ok.mp h
    cases h
    exact addAccount hadd

theorem bootstrap {env : Env} (h : db.bootstrap env = .ok db') : Extends db db' := by
  obtain ⟨⟨db₁, parents⟩, hloop, h⟩ := Foundations.bind_eq_ok.mp h
  have haccounts : Extends db db₁ := Foundations.foldlM_invariant
    (I := fun state : LedgerDb × List (String × Uuid) => Extends db state.1)
    (fun _ _ _ _ hstate hrow => hstate.trans (bootstrapAccount hrow)) hloop (refl db)
  exact haccounts.trans (bootstrapJournal h)

theorem claimParent {payload : AccountCreate} (h : db.claimParent payload = .ok db') :
    Extends db db' := by
  unfold LedgerDb.claimParent at h
  split at h
  next =>
    cases h
    exact .refl _
  next parentId _ =>
    split at h
    next => cases h
    next parent hparent =>
      obtain ⟨-, h⟩ := Foundations.ite_error_eq_ok.mp h
      obtain ⟨accounts, hreplace, h⟩ := Foundations.bind_eq_ok.mp h
      cases h
      refine ⟨rfl, ?_⟩
      obtain ⟨l₁, l₂, hold, hrows⟩ := Foundations.Table.replace_eq_some hparent
        (Foundations.orRaise_eq_ok.mp hreplace)
      intro id hid
      rw [Option.isSome_iff_ne_none, Ne, Foundations.Table.get_eq_none] at hid ⊢
      intro hnone
      refine hid fun a ha => ?_
      rw [hold, List.mem_append, List.mem_cons] at ha
      rw [hrows] at hnone
      rcases ha with ha | rfl | ha
      · exact hnone a (List.mem_append_left _ ha)
      · exact hnone { a with isPostable := false } (by simp)
      · exact hnone a (List.mem_append_right _ (List.mem_cons_of_mem _ ha))

theorem of_orConflict {code message : String} {outcome : Except Err LedgerDb}
    (h : orConflict code message outcome = .ok db') : outcome = .ok db' := by
  unfold orConflict at h
  split at h
  next => cases h
  next => exact h

theorem createAccount {env : Env} {id : Uuid} {payload : AccountCreate}
    (h : db.createAccount env id payload = .ok db') : Extends db db' := by
  obtain ⟨db₁, hboot, h⟩ := Foundations.bind_eq_ok.mp (of_orConflict h)
  obtain ⟨db₂, hparent, h⟩ := Foundations.bind_eq_ok.mp h
  exact ((bootstrap hboot).trans (claimParent hparent)).trans (addAccount h)

theorem createPeriod {env : Env} {id : Uuid} {name : String} {startDate endDate : Date}
    (h : db.createPeriod env id name startDate endDate = .ok db') : Extends db db' := by
  obtain ⟨-, h⟩ := Foundations.ite_error_eq_ok.mp h
  obtain ⟨db₁, hboot, h⟩ := Foundations.bind_eq_ok.mp (of_orConflict h)
  exact (bootstrap hboot).trans (addPeriod h)

theorem changePeriodStatus {periodId : Uuid} {status : PeriodStatus}
    (h : db.changePeriodStatus periodId status = .ok db') : Extends db db' := by
  unfold LedgerDb.changePeriodStatus at h
  split at h
  next => cases h
  next =>
    obtain ⟨-, h⟩ := Foundations.ite_error_eq_ok.mp h
    obtain ⟨periods, -, h⟩ := Foundations.bind_eq_ok.mp h
    cases h
    exact ⟨rfl, fun _ hid => hid⟩

end LedgerDb.Extends

/-- An open transaction that has left the entries posted in `db` alone. -/
structure LedgerTx.Follows (db : LedgerDb) (tx : LedgerTx) : Prop where
  tracks : tx.journal.Tracks db.books
  known : ∀ l ∈ tx.db.books.lines.rows, (tx.db.accounts.get l.accountId).isSome

namespace LedgerTx.Follows

variable {db : LedgerDb} {tx tx' : LedgerTx}

theorem start (hs : db.Sound) : Follows db ⟨db, []⟩ := ⟨.refl _, hs.known⟩

theorem extend (h : Follows db tx) {db' : LedgerDb} (he : tx.db.Extends db') :
    Follows db { tx with db := db' } where
  tracks := by
    have hjournal : LedgerTx.journal { tx with db := db' } = tx.journal := by
      simp only [LedgerTx.journal, he.books]
    rw [hjournal]
    exact h.tracks
  known := by
    show ∀ l ∈ db'.books.lines.rows, (db'.accounts.get l.accountId).isSome
    rw [he.books]
    exact fun l hl => he.accounts l.accountId (h.known l hl)

theorem execute (h : Follows db tx) {statement : Statement} (hspares : db.books.Spares statement)
    (hexec : tx.execute statement = .ok tx') : Follows db tx' := by
  obtain ⟨journal, hjournal, hexec⟩ := Foundations.bind_eq_ok.mp hexec
  obtain ⟨_, hforeign, hexec⟩ := Foundations.bind_eq_ok.mp hexec
  cases hexec
  obtain ⟨journal', happly, hjournal⟩ := Foundations.bind_eq_ok.mp hjournal
  obtain ⟨-, -, hjournal⟩ := Foundations.bind_eq_ok.mp hjournal
  cases hjournal
  refine ⟨h.tracks.foldlM hspares happly, ?_⟩
  unfold LedgerDb.foreignKeys at hforeign
  split at hforeign
  next hkeys => exact hkeys.1
  next => cases hforeign

/-- The key of an entry that was just inserted belongs to no posted entry. -/
theorem not_isPosted_of_insert (h : Follows db tx) {new : JournalEntry}
    (hexec : tx.execute [.insertEntry new] = .ok tx') : ¬db.books.isPosted new.id := by
  obtain ⟨journal, hjournal, -⟩ := Foundations.bind_eq_ok.mp hexec
  obtain ⟨journal', happly, -⟩ := Foundations.bind_eq_ok.mp hjournal
  rw [List.foldlM_cons] at happly
  obtain ⟨journal₁, happly, -⟩ := Foundations.bind_eq_ok.mp happly
  cases JournalTx.apply_ok happly with
  | insertEntry _ hfresh => exact fun hposted => hfresh (h.tracks.posted new.id hposted)

/-- Changes of entries put no line anywhere. -/
theorem spares_of_target {statement : Statement} (hnone : ∀ c ∈ statement, c.target = none) :
    db.books.Spares statement := by
  intro c hc entryId htarget
  rw [hnone c hc] at htarget
  cases htarget

theorem storeLine_entry {env : Env} {r : PostRequest} {accounts : List (String × Account)}
    {row : PostingLine × Nat} {l : JournalEntryLine} (h : storeLine env r accounts row = .ok l) :
    l.journalEntryId = r.entryId := by
  obtain ⟨_, -, h⟩ := Foundations.bind_eq_ok.mp h
  obtain ⟨_, -, h⟩ := Foundations.bind_eq_ok.mp h
  obtain ⟨_, -, h⟩ := Foundations.bind_eq_ok.mp h
  cases h
  rfl

theorem post (h : Follows db tx) {env : Env} {r : PostRequest} {posting : Posting}
    (hpost : tx.post env r = .ok (tx', posting)) : Follows db tx' := by
  obtain ⟨db₁, hboot, hpost⟩ := Foundations.bind_eq_ok.mp hpost
  obtain ⟨-, -, hpost⟩ := Foundations.bind_eq_ok.mp hpost
  obtain ⟨period, -, hpost⟩ := Foundations.bind_eq_ok.mp hpost
  obtain ⟨accounts, -, hpost⟩ := Foundations.bind_eq_ok.mp hpost
  obtain ⟨journal, -, hpost⟩ := Foundations.bind_eq_ok.mp hpost
  obtain ⟨totalDebit, -, hpost⟩ := Foundations.bind_eq_ok.mp hpost
  obtain ⟨totalCredit, -, hpost⟩ := Foundations.bind_eq_ok.mp hpost
  obtain ⟨tx₁, hdraft, hpost⟩ := Foundations.bind_eq_ok.mp hpost
  obtain ⟨lines, hlines, hpost⟩ := Foundations.bind_eq_ok.mp hpost
  obtain ⟨tx₂, hinsert, hpost⟩ := Foundations.bind_eq_ok.mp hpost
  cases hpost
  have hstart := h.extend (LedgerDb.Extends.bootstrap hboot)
  have hfresh := hstart.not_isPosted_of_insert hdraft
  have hentry : ∀ l ∈ lines, l.journalEntryId = r.entryId :=
    Foundations.mapM_forall (fun _ _ => storeLine_entry) hlines
  have hdrafted := hstart.execute (spares_of_target (by simp [RowChange.target])) hdraft
  have hinserted : Follows db tx₂ := by
    refine hdrafted.execute ?_ hinsert
    intro c hc entryId htarget
    obtain ⟨l, hl, rfl⟩ := List.mem_map.mp hc
    cases htarget
    rw [hentry l hl]
    exact hfresh
  exact hinserted.extend ⟨rfl, fun _ hid => hid⟩

theorem flush (h : Follows db tx) {posting : Posting} (hflush : tx.flush posting = .ok tx') :
    Follows db tx' :=
  h.execute (spares_of_target (by simp [RowChange.target])) hflush

theorem postAll (h : Follows db tx) {env : Env} {requests : List PostRequest}
    (hpost : tx.postAll env requests = .ok tx') : Follows db tx' := by
  refine Foundations.foldlM_invariant (I := Follows db) ?_ hpost h
  intro r _ tx₁ tx₂ h₁ hstep
  obtain ⟨⟨tx₃, posting⟩, hpost, hflush⟩ := Foundations.bind_eq_ok.mp hstep
  exact (h₁.post hpost).flush hflush

theorem postManual (h : Follows db tx) {env : Env} {payload : ManualEntryCreate}
    (hpost : tx.postManual env payload = .ok tx') : Follows db tx' := by
  obtain ⟨db₁, hboot, hpost⟩ := Foundations.bind_eq_ok.mp hpost
  obtain ⟨accounts, -, hpost⟩ := Foundations.bind_eq_ok.mp hpost
  obtain ⟨-, -, hpost⟩ := Foundations.bind_eq_ok.mp hpost
  obtain ⟨⟨tx₁, posting⟩, hpost, hflush⟩ := Foundations.bind_eq_ok.mp hpost
  exact ((h.extend (LedgerDb.Extends.bootstrap hboot)).post hpost).flush hflush

theorem reverse (h : Follows db tx) {env : Env} {r : ReversalRequest}
    (hrev : tx.reverse env r = .ok tx') : Follows db tx' := by
  obtain ⟨original, -, hrev⟩ := Foundations.bind_eq_ok.mp hrev
  obtain ⟨⟨tx₁, posting⟩, hpost, hflush⟩ := Foundations.bind_eq_ok.mp hrev
  exact (h.post hpost).execute (spares_of_target (by simp [RowChange.target])) hflush

theorem commit (h : Follows db tx) (hs : db.Sound) {db' : LedgerDb}
    (hcommit : tx.commit = .ok db') : db'.Sound := by
  obtain ⟨_, hcheck, hcommit⟩ := Foundations.bind_eq_ok.mp hcommit
  cases hcommit
  exact ⟨h.tracks.balanced hs.balanced (Foundations.forM_eq_ok hcheck), h.known⟩

end LedgerTx.Follows

theorem LedgerDb.Sound.request {db db' : LedgerDb} {op : LedgerOp} (hs : db.Sound)
    (h : db.request op = .ok db') : db'.Sound := by
  cases op with
  | read env => exact (Extends.bootstrap h).sound hs
  | createAccount env id payload => exact (Extends.createAccount h).sound hs
  | createPeriod env id name startDate endDate => exact (Extends.createPeriod h).sound hs
  | changePeriodStatus periodId status => exact (Extends.changePeriodStatus h).sound hs
  | operational env requests own =>
      obtain ⟨tx, hpost, h⟩ := Foundations.bind_eq_ok.mp h
      obtain ⟨-, -, h⟩ := Foundations.bind_eq_ok.mp h
      exact ((LedgerTx.Follows.start hs).postAll hpost).commit hs h
  | postManual env payload =>
      obtain ⟨tx, hpost, h⟩ := Foundations.bind_eq_ok.mp h
      exact ((LedgerTx.Follows.start hs).postManual hpost).commit hs h
  | reverse env r =>
      obtain ⟨tx, hrev, h⟩ := Foundations.bind_eq_ok.mp h
      exact ((LedgerTx.Follows.start hs).reverse hrev).commit hs h

theorem LedgerDb.Sound.step {db : LedgerDb} (hs : db.Sound) (op : LedgerOp) :
    (db.step op).Sound := by
  refine serviceTransaction_preserves hs fun db' _ h => ?_
  cases hreq : db.request op with
  | error e => simp [hreq, Except.map] at h
  | ok db₁ =>
      simp only [hreq, Except.map, Except.ok.injEq, Prod.mk.injEq] at h
      exact h.1 ▸ hs.request hreq

theorem LedgerDb.sound_empty : LedgerDb.empty.Sound :=
  ⟨fun _ he => absurd he List.not_mem_nil, fun _ hl => absurd hl List.not_mem_nil⟩

/-- Every ledger the service reaches is sound. -/
theorem LedgerDb.sound_run (ops : List LedgerOp) : (LedgerDb.empty.run ops).Sound := by
  have h : ∀ db : LedgerDb, db.Sound → (db.run ops).Sound := by
    induction ops with
    | nil => exact fun _ hs => hs
    | cons op ops ih => exact fun db hs => ih (db.step op) (hs.step op)
  exact h _ sound_empty

end Nexora.Accounting
