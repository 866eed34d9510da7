import Mathlib.Data.List.Sort
import Nexora.Accounting.SystemAccounts
import Nexora.Foundations.Interleaving

/-!
# Concurrent accounting requests

The requests of `AccountingService`, statement by statement.  A statement reads the committed
tables with what its own transaction has written, so a transaction keeps its writes as a list
that is replayed on the tables as they are.  The reads that lock are those of the entry that is
reversed, of the period that is posted into or moved, of the parent of a new account, and the
upsert that draws a number.

`LedgerTx.post_eq` says that the statements of `post`, one after another, are the `post` of the
service.  `LedgerDb.Grows` is what a posting does to the journal: entries that are there keep
their columns and their lines.
-/

namespace Nexora.Accounting

open Nexora Foundations

/-! ## Statements -/

/-- `_bootstrap`, with the accounts and the journal that it has read. -/
def LedgerDb.bootstrapFrom (db seen : LedgerDb) (env : Env) : Except Err LedgerDb := do
  let existing := seen.accounts.rows.map fun a => (a.code, a.id)
  let (db, _) ← defaultAccounts.zipIdx.foldlM (bootstrapAccount env (existing.map Prod.fst))
    (db, existing)
  if seen.journals.any (·.code = "GENERAL") then return db
  else if db.journals.any (·.code = "GENERAL") then .error (.integrity "journals_tenant_id_code")
  else db.bootstrapJournal env

/-- The statements of `post` that write, once it has the period, the accounts and the journal. -/
def LedgerTx.enter (tx : LedgerTx) (env : Env) (r : PostRequest) (period : FiscalPeriod)
    (accounts : List (String × Account)) (journal : Journal) : Except Err (LedgerTx × Posting) := do
  let totalDebit ← storeMoney (decimalSum (r.lines.map (·.debit)))
  let totalCredit ← storeMoney (decimalSum (r.lines.map (·.credit)))
  let draft : JournalEntry :=
    { id := r.entryId
      tenantId := env.context.tenantId
      entryNumber := "PENDING-" ++ toString r.placeholder
      journalId := journal.id
      fiscalPeriodId := period.id
      entryDate := r.entryDate
      status := .draft
      description := r.description
      sourceType := r.sourceType
      sourceId := r.sourceId
      eventType := r.eventType
      currency := env.baseCurrency
      totalDebit := totalDebit
      totalCredit := totalCredit
      postedAt := env.now
      postedByMembershipId := env.context.membershipId
      reversalOfEntryId := none
      reversedByEntryId := none
      entryMetadata := r.metadata }
  let tx ← tx.execute [.insertEntry draft]
  let lines ← r.lines.zipIdx.mapM (storeLine env r accounts)
  let tx ← tx.execute (lines.map .insertLine)
  let (number, db) := tx.db.allocate (toString r.entryDate.year)
  return ({ tx with db := db }, ⟨draft, { draft with entryNumber := number, status := .posted }⟩)

/-- `post` is its reads and then its writes. -/
theorem LedgerTx.post_eq (tx : LedgerTx) (env : Env) (r : PostRequest) :
    tx.post env r = (do
      let db ← tx.db.bootstrap env
      requireBalanced r.lines.isEmpty (decimalSum (r.lines.map (·.debit)))
        (decimalSum (r.lines.map (·.credit)))
      let period ← db.postingPeriod env r
      let accounts ← db.postingAccounts r
      let journal ← orRaise (.runtime "General journal is missing")
        (db.journals.find? (·.code = "GENERAL"))
      LedgerTx.enter { tx with db := db } env r period accounts journal) := rfl

/-- The flush of a reversal and of the entry that it reverses. -/
def LedgerTx.stamp (tx : LedgerTx) (posting : Posting) (original : JournalEntry) :
    Except Err LedgerTx :=
  tx.execute [
    .updateEntry posting.draft { posting.entry with reversalOfEntryId := some original.id },
    .updateEntry original { original with reversedByEntryId := some posting.entry.id }]

/-- `reverse` is its reads, a posting and the links. -/
theorem LedgerTx.reverse_eq (tx : LedgerTx) (env : Env) (r : ReversalRequest) :
    tx.reverse env r = (do
      let original ← tx.db.reversible r
      let (tx, posting) ← tx.post env (r.toPost tx.db original)
      tx.stamp posting original) := rfl

/-- `lines`, in the order of their ids. -/
def JournalDb.orderedLines (db : JournalDb) (entryId : Uuid) : List JournalEntryLine :=
  (db.linesOf entryId).insertionSort (·.id ≤ ·.id)

/-- The request `reverse` makes of `post`, from the lines and the accounts that it has read. -/
def ReversalRequest.copy (r : ReversalRequest) (original : JournalEntry)
    (lines : List JournalEntryLine) (accounts : List Account) : PostRequest where
  entryDate := r.reversalDate
  description := "Reversal of " ++ original.entryNumber
  sourceType := "journal_entry"
  sourceId := original.id
  eventType := "reversal"
  lines := lines.map fun l =>
    ⟨"REV:" ++ toString l.accountId, (l.credit : ℚ) / 10 ^ 4, (l.debit : ℚ) / 10 ^ 4,
      some (reversalDescription original l.description)⟩
  allowClosed := true
  metadata := "\x7b\"original_date\": \"" ++ original.entryDate.isoformat ++ "\"\x7d"
  accountMap := accounts.map fun a => ("REV:" ++ toString a.id, a)
  entryId := r.reversalId
  placeholder := r.placeholder
  lineId := r.lineId

theorem JournalDb.mergeSort_linesOf (db : JournalDb) (entryId : Uuid) :
    (db.linesOf entryId).mergeSort (·.id ≤ ·.id) = db.orderedLines entryId := by
  let byId : JournalEntryLine → JournalEntryLine → Prop := fun l l' => l.id ≤ l'.id
  have htotal : Std.Total byId := ⟨fun l l' => le_total l.id l'.id⟩
  have htrans : IsTrans JournalEntryLine byId := ⟨fun _ _ _ => le_trans⟩
  have hmerge : ((db.linesOf entryId).mergeSort (·.id ≤ ·.id)).Pairwise byId :=
    List.pairwise_mergeSort' byId _
  have hinsertion : (db.orderedLines entryId).Pairwise byId := List.pairwise_insertionSort byId _
  refine List.Perm.eq_of_pairwise (fun l l' hl hl' hle hge => ?_) hmerge hinsertion
    ((List.mergeSort_perm _ _).trans (List.perm_insertionSort _ _).symm)
  -- Two lines of one id are one row.
  have hrow := List.mem_of_mem_filter (List.mem_mergeSort.mp hl)
  have hrow' := List.mem_of_mem_filter ((List.mem_insertionSort _).mp hl')
  exact Table.eq_of_mem hrow hrow' (le_antisymm hle hge)

theorem ReversalRequest.toPost_eq (r : ReversalRequest) (db : LedgerDb) (original : JournalEntry) :
    r.toPost db original =
      r.copy original (db.books.orderedLines original.id) db.accounts.rows := by
  rw [← JournalDb.mergeSort_linesOf]
  rfl

/-! ## Transactions -/

/-- The rows that the service locks. -/
inductive LedgerRow where
  | entry (id : Uuid)
  | period (id : Uuid)
  | account (id : Uuid)
  | counter (period : String)
deriving DecidableEq

/-- What a transaction has written. -/
inductive LedgerWrite where
  | bootstrap (env : Env) (seen : LedgerDb)
  | entry (env : Env) (r : PostRequest) (period : FiscalPeriod)
    (accounts : List (String × Account)) (journal : Journal)
  | account (parentId : Option Uuid) (account : Account)
  | period (period : FiscalPeriod)
  | status (periodId : Uuid) (status : PeriodStatus)

/-- `parent.is_postable = False`. -/
def LedgerDb.closeParent (db : LedgerDb) : Option Uuid → Except Err LedgerDb
  | none => .ok db
  | some parentId => do
      let parent ← orRaise (.runtime "StaleDataError") (db.accounts.get parentId)
      let accounts ← orRaise (.integrity "accounts_pkey")
        (db.accounts.replace parentId { parent with isPostable := false })
      return { db with accounts := accounts }

/-- `period.status = status`. -/
def LedgerDb.moveStatus (db : LedgerDb) (periodId : Uuid) (status : PeriodStatus) :
    Except Err LedgerDb := do
  let period ← orRaise (.runtime "StaleDataError") (db.periods.get periodId)
  let periods ← orRaise (.integrity "fiscal_periods_pkey")
    (db.periods.replace periodId { period with status := status })
  return { db with periods := periods }

def LedgerTx.write (tx : LedgerTx) : LedgerWrite → Except Err LedgerTx
  | .bootstrap env seen => do
      let db ← tx.db.bootstrapFrom seen env
      return { tx with db := db }
  | .entry env r period accounts journal => do
      let (tx, posting) ← tx.enter env r period accounts journal
      tx.flush posting
  | .account parentId account => do
      let db ← tx.db.closeParent parentId
      let db ← db.addAccount account
      return { tx with db := db }
  | .period period => do
      let db ← tx.db.addPeriod period
      return { tx with db := db }
  | .status periodId status => do
      let db ← tx.db.moveStatus periodId status
      return { tx with db := db }

/-- An open transaction: its writes and its locks. -/
structure LedgerSession where
  writes : List LedgerWrite
  locks : List (LedgerRow × LockMode)

def LedgerSession.replay (session : LedgerSession) (db : LedgerDb) : Except Err LedgerTx :=
  session.writes.foldlM LedgerTx.write ⟨db, []⟩

/-- The tables as the transaction sees them. -/
def LedgerSession.view (session : LedgerSession) (db : LedgerDb) : Except Err LedgerDb := do
  let tx ← session.replay db
  return tx.db

def LedgerSession.push (session : LedgerSession) (write : LedgerWrite)
    (locks : List (LedgerRow × LockMode)) : LedgerSession :=
  ⟨session.writes ++ [write], session.locks ++ locks⟩

/-- Where a transaction is in `post`. -/
inductive PostStage where
  | opening
  | bootstrapped
  | dated (period : FiscalPeriod)
  | charted (period : FiscalPeriod) (accounts : List (String × Account))

inductive LedgerPhase where
  | requested (op : LedgerOp)
  /-- `create_account` past `_bootstrap`. -/
  | parenting (session : LedgerSession) (env : Env) (id : Uuid) (payload : AccountCreate)
  /-- `post_manual` past `_bootstrap`. -/
  | manual (session : LedgerSession) (env : Env) (payload : ManualEntryCreate)
  /-- `reverse` has the entry locked. -/
  | locked (env : Env) (r : ReversalRequest) (original : JournalEntry)
  /-- `reverse` has read the lines of the entry. -/
  | copying (env : Env) (r : ReversalRequest) (original : JournalEntry)
    (lines : List JournalEntryLine)
  /-- In `post`, for the first of the postings to come; `original` is the entry that `reverse`
  reverses. -/
  | posting (session : LedgerSession) (env : Env) (original : Option JournalEntry)
    (stage : PostStage) (todo : List PostRequest) (own : Except Err Unit)
  /-- `reverse` is past `post`. -/
  | reversed (session : LedgerSession) (env : Env) (r : PostRequest) (period : FiscalPeriod)
    (accounts : List (String × Account)) (journal : Journal) (original : JournalEntry)
  /-- All written. -/
  | settled (session : LedgerSession)
  | raised (e : Err)

/-- The next statement of a posting. -/
def LedgerPhase.post (db : LedgerDb) (session : LedgerSession) (env : Env)
    (original : Option JournalEntry) (r : PostRequest) (todo : List PostRequest)
    (own : Except Err Unit) : PostStage → Except Err LedgerPhase
  | .opening => do
      let view ← session.view db
      requireBalanced r.lines.isEmpty (decimalSum (r.lines.map (·.debit)))
        (decimalSum (r.lines.map (·.credit)))
      return .posting (session.push (.bootstrap env view) []) env original .bootstrapped (r :: todo)
        own
  | .bootstrapped => do
      let view ← session.view db
      let period ← view.postingPeriod env r
      return .posting { session with locks := session.locks ++ [(.period period.id, .update)] } env
        original (.dated period) (r :: todo) own
  | .dated period => do
      let view ← session.view db
      let accounts ← view.postingAccounts r
      return .posting session env original (.charted period accounts) (r :: todo) own
  | .charted period accounts => do
      let view ← session.view db
      let journal ← orRaise (.runtime "General journal is missing")
        (view.journals.find? (·.code = "GENERAL"))
      let counter := (LedgerRow.counter (toString r.entryDate.year), LockMode.update)
      match original with
      | none =>
          return .posting (session.push (.entry env r period accounts journal) [counter]) env none
            .opening todo own
      | some original =>
          return .reversed { session with locks := session.locks ++ [counter] } env r period accounts
            journal original

/-- `create_account` past `_bootstrap`. -/
def LedgerPhase.parent (db : LedgerDb) (session : LedgerSession) (env : Env) (id : Uuid)
    (payload : AccountCreate) : Except Err LedgerPhase := do
  let view ← session.view db
  let account : Account :=
    { id := id
      code := payload.code
      name := payload.name
      accountType := payload.accountType
      parentId := payload.parentId
      isPostable := payload.isPostable
      isSystem := false
      systemCode := none
      currency := env.baseCurrency
      isActive := true }
  match payload.parentId with
  | none => return .settled (session.push (.account none account) [])
  | some parentId =>
      match view.accounts.get parentId with
      | none => .error .notFound
      | some parent =>
          if parent.accountType ≠ payload.accountType then
            .error (.domainValidation "ACCOUNT_TYPE_MISMATCH"
              "A child account must use its parent's type.")
          else
            return .settled (session.push (.account (some parentId) account)
              [(.account parentId, .update)])

/-- The first statement of a request. -/
def LedgerPhase.begin (db : LedgerDb) : LedgerOp → Except Err LedgerPhase
  | .read env => .ok (.settled ⟨[.bootstrap env db], []⟩)
  | .createAccount env id payload => .ok (.parenting ⟨[.bootstrap env db], []⟩ env id payload)
  | .createPeriod env id name startDate endDate =>
      if ¬startDate ≤ endDate then
        .error (.domainValidation "INVALID_DATE_RANGE" "Period end must not precede start.")
      else
        .ok (.settled ⟨[.bootstrap env db, .period ⟨id, name, startDate, endDate, .opened⟩], []⟩)
  | .changePeriodStatus periodId status =>
      match db.periods.get periodId with
      | none => .error .notFound
      | some period =>
          if period.status.legal ≠ some status then
            .error (.conflict "ILLEGAL_STATUS_TRANSITION"
              "Fiscal periods move OPEN to CLOSED to LOCKED.")
          else
            .ok (.settled ⟨[.status periodId status], [(.period periodId, .update)]⟩)
  | .operational env requests own => .ok (.posting ⟨[], []⟩ env none .opening requests own)
  | .postManual env payload => .ok (.manual ⟨[.bootstrap env db], []⟩ env payload)
  | .reverse env r => do
      let original ← db.reversible r
      return .locked env r original

/-- The next statement of a request, if there is one. -/
def LedgerPhase.next (db : LedgerDb) : LedgerPhase → Option (Except Err LedgerPhase)
  | .requested op => some (begin db op)
  | .parenting session env id payload => some (parent db session env id payload)
  | .manual session env payload => some do
      let view ← session.view db
      let accounts ← view.manualAccounts payload
      requireBalanced false (decimalSum (payload.lines.map (·.debit)))
        (decimalSum (payload.lines.map (·.credit)))
      return .posting session env none .opening [payload.toPost accounts] (.ok ())
  | .locked env r original =>
      some (.ok (.copying env r original (db.books.orderedLines original.id)))
  | .copying env r original lines =>
      some (.ok (.posting ⟨[], [(.entry original.id, .update)]⟩ env (some original) .opening
        [r.copy original lines db.accounts.rows] (.ok ())))
  | .posting session env original stage (r :: todo) own =>
      some (post db session env original r todo own stage)
  | _ => none

/-- `COMMIT`, or the rollback of a request that raised. -/
def LedgerPhase.finish (db : LedgerDb) : LedgerPhase → Option LedgerDb
  | .settled session => (do
      let tx ← session.replay db
      tx.commit).toOption
  | .posting session _ none .opening [] own =>
      match own with
      | .error _ => some db
      | .ok () => (do
          let tx ← session.replay db
          tx.commit).toOption
  | .reversed session env r period accounts journal original => (do
      let tx ← session.replay db
      let (tx, entered) ← tx.enter env r period accounts journal
      let tx ← tx.stamp entered original
      tx.commit).toOption
  | .raised _ => some db
  | _ => none

def LedgerPhase.locks : LedgerPhase → List (LedgerRow × LockMode)
  | .locked _ _ original | .copying _ _ original _ => [(.entry original.id, .update)]
  | .parenting session _ _ _ | .manual session _ _ | .posting session _ _ _ _ _
  | .reversed session _ _ _ _ _ _ | .settled session => session.locks
  | _ => []

/-- The requests of the service, interleaved. -/
def ledger : Protocol LedgerDb LedgerOp LedgerPhase Unit LedgerRow where
  start _ op := .requested op
  run db phase _ :=
    match phase.next db with
    | none => none
    | some (.ok phase) => some (db, phase)
    | some (.error e) => some (db, .raised e)
  finish := LedgerPhase.finish
  locks := LedgerPhase.locks

/-! ## What a posting writes -/

theorem LedgerTx.execute_linked {tx tx' : LedgerTx} {statement : Statement}
    (h : tx.execute statement = .ok tx') : tx'.db.Linked := by
  obtain ⟨journal, hjournal, h⟩ := bind_eq_ok.mp h
  obtain ⟨_, hforeign, h⟩ := bind_eq_ok.mp h
  cases h
  obtain ⟨journal', -, hjournal⟩ := bind_eq_ok.mp hjournal
  obtain ⟨_, hkeys, hjournal⟩ := bind_eq_ok.mp hjournal
  cases hjournal
  simp only [LedgerDb.foreignKeys] at hforeign
  simp only [JournalDb.foreignKeys] at hkeys
  split at hforeign
  next haccounts =>
    split at hkeys
    next hentries => exact ⟨hentries.1, haccounts.1⟩
    next => cases hkeys
  next => cases hforeign

/-- What `enter` leaves: the draft behind the entries, and its lines behind the lines. -/
structure LedgerTx.Entered (env : Env) (r : PostRequest) (accounts : List (String × Account))
    (tx tx' : LedgerTx) (posting : Posting) : Prop where
  entries : tx'.db.books.entries.rows = tx.db.books.entries.rows ++ [posting.draft]
  fresh : tx.db.books.entries.get r.entryId = none
  id : posting.draft.id = r.entryId
  date : posting.draft.entryDate = r.entryDate
  links : posting.draft.reversalOfEntryId = none ∧ posting.draft.reversedByEntryId = none
  entry : ∃ number, posting.entry = { posting.draft with entryNumber := number, status := .posted }
  lines : ∃ ls, tx'.db.books.lines.rows = tx.db.books.lines.rows ++ ls ∧
    List.Forall₂ (fun row l => storeLine env r accounts row = .ok l) r.lines.zipIdx ls

theorem LedgerTx.enter_entered {tx tx' : LedgerTx} {env : Env} {r : PostRequest}
    {period : FiscalPeriod} {accounts : List (String × Account)} {journal : Journal}
    {posting : Posting} (h : tx.enter env r period accounts journal = .ok (tx', posting)) :
    Entered env r accounts tx tx' posting := by
  obtain ⟨totalDebit, -, h⟩ := bind_eq_ok.mp h
  obtain ⟨totalCredit, -, h⟩ := bind_eq_ok.mp h
  obtain ⟨txDraft, hdraft, h⟩ := bind_eq_ok.mp h
  obtain ⟨ls, hls, h⟩ := bind_eq_ok.mp h
  obtain ⟨txLines, hlines, h⟩ := bind_eq_ok.mp h
  cases h
  obtain ⟨happlyDraft, -⟩ := LedgerTx.execute_eq_ok hdraft
  obtain ⟨happlyLines, -⟩ := LedgerTx.execute_eq_ok hlines
  simp only [List.foldlM_cons, List.foldlM_nil, bind_pure] at happlyDraft
  obtain ⟨hentriesDraft, hfresh, hlinesDraft⟩ := JournalTx.apply_insertEntry happlyDraft
  obtain ⟨hlinesLines, hentriesLines⟩ := JournalTx.apply_insertLines happlyLines
  have hadded : txLines.db.books.lines.rows = txDraft.db.books.lines.rows ++ ls := hlinesLines
  have hdrafted : txDraft.db.books.lines = tx.db.books.lines := hlinesDraft
  refine ⟨(congrArg Table.rows hentriesLines).trans hentriesDraft, hfresh, rfl, rfl, ⟨rfl, rfl⟩,
    ⟨_, rfl⟩, ls, ?_, mapM_forall₂ hls⟩
  show txLines.db.books.lines.rows = _
  rw [hadded, hdrafted]

/-- The lines of an entry that is there are not those of the new one. -/
theorem LedgerTx.Entered.linesOf {env : Env} {r : PostRequest} {accounts : List (String × Account)}
    {tx tx' : LedgerTx} {posting : Posting} (h : Entered env r accounts tx tx' posting) {id : Uuid}
    (hid : id ≠ r.entryId) : tx'.db.books.linesOf id = tx.db.books.linesOf id := by
  obtain ⟨ls, hrows, hstored⟩ := h.lines
  have hnone : ls.filter (fun l => decide (l.journalEntryId = id)) = [] := by
    refine List.filter_eq_nil_iff.mpr fun l hl => ?_
    obtain ⟨row, -, hline⟩ := exists_of_forall₂ hstored hl
    rw [Follows.storeLine_entry hline]
    simpa using hid.symm
  rw [JournalDb.linesOf, hrows, List.filter_append, hnone, List.append_nil]
  rfl

/-- A journal with more posted entries, none of them a reversal. -/
structure LedgerDb.Grows (db db' : LedgerDb) : Prop where
  kept : ∀ id e, db.books.entries.get id = some e → db'.books.entries.get id = some e
  added : ∀ id e, db'.books.entries.get id = some e → db.books.entries.get id = some e ∨
    e.status = .posted ∧ e.reversalOfEntryId = none ∧ e.reversedByEntryId = none
  lines : ∀ id, (db.books.entries.get id).isSome → db'.books.linesOf id = db.books.linesOf id
  linked : db.Linked → db'.Linked

namespace LedgerDb.Grows

variable {db db₁ db' : LedgerDb}

theorem refl (db : LedgerDb) : Grows db db :=
  ⟨fun _ _ h => h, fun _ _ h => .inl h, fun _ _ => rfl, fun h => h⟩

theorem trans (h : Grows db db₁) (h' : Grows db₁ db') : Grows db db' where
  kept id e he := h'.kept id e (h.kept id e he)
  added id e he := by
    rcases h'.added id e he with he | hnew
    · exact h.added id e he
    · exact .inr hnew
  lines id hid := by
    obtain ⟨e, he⟩ := Option.isSome_iff_exists.mp hid
    rw [h'.lines id (by rw [h.kept id e he]; rfl), h.lines id hid]
  linked hdb := h'.linked (h.linked hdb)

theorem of_sameCodes (h : SameCodes db db') : Grows db db' where
  kept id e he := by rwa [h.books]
  added id e he := by
    rw [h.books] at he
    exact .inl he
  lines id _ := by rw [h.books]
  linked := h.linked

theorem bootstrapFrom {seen : LedgerDb} {env : Env} (h : db.bootstrapFrom seen env = .ok db') :
    Grows db db' := by
  obtain ⟨⟨db₁, parents⟩, hloop, h⟩ := bind_eq_ok.mp h
  have haccounts : SameCodes db db₁ := foldlM_invariant
    (I := fun state : LedgerDb × List (String × Uuid) => SameCodes db state.1)
    (fun _ _ _ _ hstate hrow => hstate.trans (SameCodes.bootstrapAccount hrow)) hloop (.refl db)
  refine of_sameCodes (haccounts.trans ?_)
  dsimp only at h
  split_ifs at h with hseen hthere
  · cases h
    exact .refl _
  · simp only [LedgerDb.bootstrapJournal, if_neg hthere] at h
    exact ⟨(SameCodes.addPeriod h).books, (SameCodes.addPeriod h).codes⟩

theorem entry {tx tx₁ tx' : LedgerTx} {env : Env} {r : PostRequest} {period : FiscalPeriod}
    {accounts : List (String × Account)} {journal : Journal} {posting : Posting}
    (henter : tx.enter env r period accounts journal = .ok (tx₁, posting))
    (hflush : tx₁.flush posting = .ok tx') : Grows tx.db tx'.db := by
  have hentered := LedgerTx.enter_entered henter
  obtain ⟨happly, -⟩ := LedgerTx.execute_eq_ok hflush
  simp only [List.foldlM_cons, List.foldlM_nil, bind_pure] at happly
  obtain ⟨hentries, hlines⟩ := JournalTx.apply_updateEntry hentered.entries
    (by rw [hentered.id]; exact Table.get_eq_none.mp hentered.fresh) happly
  have hrows : tx'.db.books.entries.rows = tx.db.books.entries.rows ++ [posting.entry] := hentries
  have hlines : tx'.db.books.lines = tx₁.db.books.lines := hlines
  refine ⟨fun id e he => Table.get_of_append he hrows, fun id e he => ?_, fun id hid => ?_,
    fun _ => LedgerTx.execute_linked hflush⟩
  · obtain ⟨hmem, hkey⟩ := Table.get_mem he
    rw [hrows, List.mem_append, List.mem_singleton] at hmem
    rcases hmem with hmem | rfl
    · exact .inl (Table.get_eq_some.mpr ⟨hmem, hkey⟩)
    · obtain ⟨number, hentry⟩ := hentered.entry
      rw [hentry]
      exact .inr ⟨rfl, hentered.links⟩
  · have hne : id ≠ r.entryId := by
      rintro rfl
      rw [hentered.fresh] at hid
      cases hid
    rw [JournalDb.linesOf, hlines]
    exact hentered.linesOf hne

theorem closeParent {parentId : Option Uuid} (h : db.closeParent parentId = .ok db') :
    SameCodes db db' := by
  cases parentId with
  | none =>
      cases h
      exact .refl _
  | some parentId =>
      obtain ⟨parent, hparent, h⟩ := bind_eq_ok.mp h
      obtain ⟨accounts, hreplace, h⟩ := bind_eq_ok.mp h
      cases h
      refine ⟨rfl, fun id a ha => ?_⟩
      have hparent := orRaise_eq_ok.mp hparent
      -- Only the parent changed, and it keeps its key and its code.
      have hkey : ({ parent with isPostable := false } : Account).id = parentId :=
        (Table.get_mem hparent).2
      have hget := Table.get_replace hparent hkey (orRaise_eq_ok.mp hreplace) id
      by_cases hid : id = parentId
      · rw [if_pos hid] at hget
        rw [hid, hparent] at ha
        cases ha
        exact ⟨_, hget, rfl⟩
      · rw [if_neg hid] at hget
        exact ⟨a, hget.trans ha, rfl⟩

/-- Everything but the links of a reversal. -/
theorem write {tx tx' : LedgerTx} {w : LedgerWrite} (h : tx.write w = .ok tx') :
    Grows tx.db tx'.db := by
  cases w with
  | bootstrap env seen =>
      obtain ⟨db, hboot, h⟩ := bind_eq_ok.mp h
      cases h
      exact bootstrapFrom hboot
  | entry env r period accounts journal =>
      obtain ⟨⟨tx₁, posting⟩, henter, hflush⟩ := bind_eq_ok.mp h
      exact entry henter hflush
  | account parentId account =>
      obtain ⟨db₁, hparent, h⟩ := bind_eq_ok.mp h
      obtain ⟨db₂, hadd, h⟩ := bind_eq_ok.mp h
      cases h
      exact of_sameCodes ((closeParent hparent).trans (SameCodes.addAccount hadd))
  | period period =>
      obtain ⟨db, hadd, h⟩ := bind_eq_ok.mp h
      cases h
      exact of_sameCodes (SameCodes.addPeriod hadd)
  | status periodId status =>
      obtain ⟨db, hmove, h⟩ := bind_eq_ok.mp h
      cases h
      obtain ⟨period, -, hmove⟩ := bind_eq_ok.mp hmove
      obtain ⟨periods, -, hmove⟩ := bind_eq_ok.mp hmove
      cases hmove
      exact of_sameCodes ⟨rfl, fun _ a ha => ⟨a, ha, rfl⟩⟩

theorem replay {session : LedgerSession} {tx : LedgerTx} (h : session.replay db = .ok tx) :
    Grows db tx.db :=
  foldlM_invariant (I := fun tx : LedgerTx => Grows db tx.db)
    (fun _ _ _ _ htx hwrite => htx.trans (write hwrite)) h (refl db)

end LedgerDb.Grows

end Nexora.Accounting
