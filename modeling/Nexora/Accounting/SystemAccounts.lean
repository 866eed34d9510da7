import Nexora.Accounting.PostingRules

/-!
# System accounts

The operational modules post to accounts by system code.  `postings p code` are the
amounts on the account with a code, of the posted entries whose source `p` accepts, in the
order in which they were posted.

`LedgerDb.request_postings` says what a request of an operational module adds to them: the
amounts of its own lines with that code, each as its column stores it.  Requests that post
nothing leave every account as it was (`LedgerDb.SameCodes`), since accounts are neither
removed nor given another code.
-/

namespace Nexora.Accounting

open Nexora Foundations

/-! ## Postings on an account -/

/-- The line belongs to a posted entry whose source `p` accepts. -/
def LedgerDb.isPostedFrom (db : LedgerDb) (p : String → Uuid → Bool) (l : JournalEntryLine) :
    Bool :=
  (db.books.entries.get l.journalEntryId).any fun e =>
    e.status = .posted && p e.sourceType e.sourceId

/-- The line is on the account with a system code. -/
def LedgerDb.isOnAccount (db : LedgerDb) (code : String) (l : JournalEntryLine) : Bool :=
  (db.accounts.get l.accountId).any (·.systemCode = some code)

/-- The amounts, debit positive, on the account with a system code. -/
def LedgerDb.postings (db : LedgerDb) (p : String → Uuid → Bool) (code : String) : List Money :=
  (db.books.lines.rows.filter fun l => db.isPostedFrom p l && db.isOnAccount code l).map (·.amount)

/-- Every source. -/
def anySource (_ : String) (_ : Uuid) : Bool := true

/-- Debits minus credits on the account with a system code. -/
def LedgerDb.net (db : LedgerDb) (code : String) : Money := (db.postings anySource code).sum

/-- The amounts of the lines of a request with a system code, as they are stored. -/
def PostRequest.postings (r : PostRequest) (code : String) : List Money :=
  (r.lines.filter (·.systemCode = code)).map (·.amount)

/-- Every line has its entry and its account. -/
structure LedgerDb.Linked (db : LedgerDb) : Prop where
  entries : ∀ l ∈ db.books.lines.rows, (db.books.entries.get l.journalEntryId).isSome
  accounts : ∀ l ∈ db.books.lines.rows, (db.accounts.get l.accountId).isSome

theorem LedgerDb.linked_empty : LedgerDb.empty.Linked :=
  ⟨fun _ hl => absurd hl List.not_mem_nil, fun _ hl => absurd hl List.not_mem_nil⟩

/-! ## Requests that post nothing -/

/-- Every account keeps its code. -/
def LedgerDb.KeepsCodes (db db' : LedgerDb) : Prop :=
  ∀ id a, db.accounts.get id = some a →
    ∃ a', db'.accounts.get id = some a' ∧ a'.systemCode = a.systemCode

/-- The journal is the same, and every account keeps its code. -/
structure LedgerDb.SameCodes (db db' : LedgerDb) : Prop where
  books : db'.books = db.books
  codes : db.KeepsCodes db'

theorem LedgerDb.KeepsCodes.trans {db db₁ db' : LedgerDb} (h : db.KeepsCodes db₁)
    (h' : db₁.KeepsCodes db') : db.KeepsCodes db' := by
  intro id a ha
  obtain ⟨a₁, ha₁, hcode⟩ := h id a ha
  obtain ⟨a', ha', hcode'⟩ := h' id a₁ ha₁
  exact ⟨a', ha', hcode'.trans hcode⟩

/-- Lines that have an account stay on it. -/
theorem LedgerDb.KeepsCodes.isOnAccount {db db' : LedgerDb} (h : db.KeepsCodes db')
    {code : String} {l : JournalEntryLine} (hl : (db.accounts.get l.accountId).isSome) :
    db'.isOnAccount code l = db.isOnAccount code l := by
  obtain ⟨a, ha⟩ := Option.isSome_iff_exists.mp hl
  obtain ⟨a', ha', hcode⟩ := h _ _ ha
  simp [LedgerDb.isOnAccount, ha, ha', hcode]

theorem LedgerDb.KeepsCodes.isSome {db db' : LedgerDb} (h : db.KeepsCodes db') {id : Uuid}
    (hid : (db.accounts.get id).isSome) : (db'.accounts.get id).isSome := by
  obtain ⟨a, ha⟩ := Option.isSome_iff_exists.mp hid
  obtain ⟨a', ha', -⟩ := h _ _ ha
  simp [ha']

namespace LedgerDb.SameCodes

variable {db db₁ db' : LedgerDb}

theorem refl (db : LedgerDb) : SameCodes db db := ⟨rfl, fun _ a h => ⟨a, h, rfl⟩⟩

theorem trans (h : SameCodes db db₁) (h' : SameCodes db₁ db') : SameCodes db db' :=
  ⟨h'.books.trans h.books, h.codes.trans h'.codes⟩

theorem linked (h : SameCodes db db') (hdb : db.Linked) : db'.Linked := by
  refine ⟨?_, ?_⟩
  · rw [h.books]
    exact hdb.entries
  · rw [h.books]
    exact fun l hl => h.codes.isSome (hdb.accounts l hl)

theorem postings (h : SameCodes db db') (hdb : db.Linked) (p : String → Uuid → Bool)
    (code : String) : db'.postings p code = db.postings p code := by
  simp only [LedgerDb.postings, LedgerDb.isPostedFrom, h.books]
  congr 1
  refine List.filter_congr fun l hl => ?_
  rw [h.codes.isOnAccount (hdb.accounts l hl)]

theorem addAccount {account : Account} (h : db.addAccount account = .ok db') :
    SameCodes db db' := by
  obtain ⟨accounts, hinsert, h⟩ := bind_eq_ok.mp h
  split at h
  next =>
    cases h
    refine ⟨rfl, fun id a ha => ⟨a, ?_, rfl⟩⟩
    obtain ⟨hmem, hkey⟩ := Table.get_mem ha
    have hrows := (Table.insert_eq_some (orRaise_eq_ok.mp hinsert)).1
    refine Table.get_eq_some.mpr ⟨?_, hkey⟩
    simp [hrows, hmem]
  next => cases h

theorem addPeriod {period : FiscalPeriod} (h : db.addPeriod period = .ok db') :
    SameCodes db db' := by
  obtain ⟨-, h⟩ := ite_error_eq_ok.mp h
  obtain ⟨-, h⟩ := ite_error_eq_ok.mp h
  obtain ⟨periods, -, h⟩ := bind_eq_ok.mp h
  cases h
  exact ⟨rfl, fun _ a ha => ⟨a, ha, rfl⟩⟩

theorem bootstrapAccount {env : Env} {existing : List String}
    {state state' : LedgerDb × List (String × Uuid)}
    {row : (String × String × AccountType × Option String × Bool × Option String) × Nat}
    (h : Accounting.bootstrapAccount env existing state row = .ok state') :
    SameCodes state.1 state'.1 := by
  simp only [Accounting.bootstrapAccount] at h
  split at h
  next =>
    cases h
    exact .refl _
  next =>
    obtain ⟨db, hadd, h⟩ := bind_eq_ok.mp h
    cases h
    exact addAccount hadd

theorem bootstrap {env : Env} (h : db.bootstrap env = .ok db') : SameCodes db db' := by
  obtain ⟨⟨db₁, parents⟩, hloop, h⟩ := bind_eq_ok.mp h
  have haccounts : SameCodes db db₁ := foldlM_invariant
    (I := fun state : LedgerDb × List (String × Uuid) => SameCodes db state.1)
    (fun _ _ _ _ hstate hrow => hstate.trans (bootstrapAccount hrow)) hloop (refl db)
  refine haccounts.trans ?_
  simp only [LedgerDb.bootstrapJournal] at h
  split at h
  next =>
    cases h
    exact .refl _
  next => exact ⟨(addPeriod h).books, (addPeriod h).codes⟩

theorem claimParent {payload : AccountCreate} (h : db.claimParent payload = .ok db') :
    SameCodes db db' := by
  simp only [LedgerDb.claimParent] at h
  split at h
  next =>
    cases h
    exact .refl _
  next parentId _ =>
    split at h
    next => cases h
    next parent hparent =>
      obtain ⟨-, h⟩ := ite_error_eq_ok.mp h
      obtain ⟨accounts, hreplace, h⟩ := bind_eq_ok.mp h
      cases h
      refine ⟨rfl, fun id a ha => ?_⟩
      obtain ⟨l₁, l₂, hold, hrows⟩ := Table.replace_eq_some hparent (orRaise_eq_ok.mp hreplace)
      obtain ⟨hmem, hkey⟩ := Table.get_mem ha
      rw [hold, List.mem_append, List.mem_cons] at hmem
      -- Only the parent changed, and it keeps its key and its code.
      rcases hmem with hmem | rfl | hmem
      · exact ⟨a, Table.get_eq_some.mpr ⟨by simp [hrows, hmem], hkey⟩, rfl⟩
      · exact ⟨{ a with isPostable := false },
          Table.get_eq_some.mpr ⟨by simp [hrows], hkey⟩, rfl⟩
      · exact ⟨a, Table.get_eq_some.mpr ⟨by simp [hrows, hmem], hkey⟩, rfl⟩

theorem createAccount {env : Env} {id : Uuid} {payload : AccountCreate}
    (h : db.createAccount env id payload = .ok db') : SameCodes db db' := by
  obtain ⟨db₁, hboot, h⟩ := bind_eq_ok.mp (Extends.of_orConflict h)
  obtain ⟨db₂, hparent, h⟩ := bind_eq_ok.mp h
  exact ((bootstrap hboot).trans (claimParent hparent)).trans (addAccount h)

theorem createPeriod {env : Env} {id : Uuid} {name : String} {startDate endDate : Date}
    (h : db.createPeriod env id name startDate endDate = .ok db') : SameCodes db db' := by
  obtain ⟨-, h⟩ := ite_error_eq_ok.mp h
  obtain ⟨db₁, hboot, h⟩ := bind_eq_ok.mp (Extends.of_orConflict h)
  exact (bootstrap hboot).trans (addPeriod h)

theorem changePeriodStatus {periodId : Uuid} {status : PeriodStatus}
    (h : db.changePeriodStatus periodId status = .ok db') : SameCodes db db' := by
  simp only [LedgerDb.changePeriodStatus] at h
  split at h
  next => cases h
  next =>
    obtain ⟨-, h⟩ := ite_error_eq_ok.mp h
    obtain ⟨periods, -, h⟩ := bind_eq_ok.mp h
    cases h
    exact ⟨rfl, fun _ a ha => ⟨a, ha, rfl⟩⟩

end LedgerDb.SameCodes

/-! ## One posting -/

/-- A line of a request, as it is in the tables. -/
structure StoredAs (db : LedgerDb) (r : PostRequest) (line : PostingLine) (l : JournalEntryLine) :
    Prop where
  entry : l.journalEntryId = r.entryId
  account : ∃ a, db.accounts.get l.accountId = some a ∧ a.systemCode = some line.systemCode
  amount : l.amount = line.amount
  fits : line.Fits

/-- What a posting adds to the tables: one posted entry with the lines of the request. -/
structure LedgerDb.Adds (db : LedgerDb) (r : PostRequest) (db' : LedgerDb) : Prop where
  codes : db.KeepsCodes db'
  entry : ∃ e : JournalEntry, db'.books.entries.rows = db.books.entries.rows ++ [e] ∧
    e.id = r.entryId ∧ e.status = .posted ∧ e.sourceType = r.sourceType ∧ e.sourceId = r.sourceId
  lines : ∃ ls, db'.books.lines.rows = db.books.lines.rows ++ ls ∧
    List.Forall₂ (StoredAs db' r) r.lines ls

namespace LedgerDb.Adds

variable {db db' : LedgerDb} {r : PostRequest}

theorem linked (h : db.Adds r db') (hdb : db.Linked) : db'.Linked := by
  obtain ⟨e, hentries, hid, -⟩ := h.entry
  obtain ⟨ls, hlines, hstored⟩ := h.lines
  have hget : db'.books.entries.get r.entryId = some e :=
    Table.get_eq_some.mpr ⟨by simp [hentries], hid⟩
  refine ⟨fun l hl => ?_, fun l hl => ?_⟩
  · rw [hlines, List.mem_append] at hl
    rcases hl with hl | hl
    · obtain ⟨e', he'⟩ := Option.isSome_iff_exists.mp (hdb.entries l hl)
      simp [Table.get_of_append he' hentries]
    · obtain ⟨line, -, hline⟩ := exists_of_forall₂ hstored hl
      simp [hline.entry, hget]
  · rw [hlines, List.mem_append] at hl
    rcases hl with hl | hl
    · exact h.codes.isSome (hdb.accounts l hl)
    · obtain ⟨line, -, hline⟩ := exists_of_forall₂ hstored hl
      obtain ⟨a, ha, -⟩ := hline.account
      simp [ha]

/-- The old lines stay where they were, and the new ones are those of the request. -/
theorem postings (h : db.Adds r db') (hdb : db.Linked) (p : String → Uuid → Bool)
    (code : String) : db'.postings p code =
      db.postings p code ++ if p r.sourceType r.sourceId then r.postings code else [] := by
  obtain ⟨e, hentries, hid, hposted, htype, hsource⟩ := h.entry
  obtain ⟨ls, hlines, hstored⟩ := h.lines
  have hget : db'.books.entries.get r.entryId = some e :=
    Table.get_eq_some.mpr ⟨by simp [hentries], hid⟩
  have hold : ∀ l ∈ db.books.lines.rows, (db'.isPostedFrom p l && db'.isOnAccount code l) =
      (db.isPostedFrom p l && db.isOnAccount code l) := by
    intro l hl
    obtain ⟨e', he'⟩ := Option.isSome_iff_exists.mp (hdb.entries l hl)
    rw [h.codes.isOnAccount (hdb.accounts l hl)]
    simp [LedgerDb.isPostedFrom, he', Table.get_of_append he' hentries]
  have hnew : ((ls.filter fun l => db'.isPostedFrom p l && db'.isOnAccount code l).map
      (·.amount)) = if p r.sourceType r.sourceId then r.postings code else [] := by
    rw [PostRequest.postings]
    clear hlines
    generalize r.lines = lines at hstored
    induction hstored with
    | nil => simp
    | @cons line l lines ls hline _ ih =>
        obtain ⟨a, ha, hcode⟩ := hline.account
        have hfrom : db'.isPostedFrom p l = p r.sourceType r.sourceId := by
          simp [LedgerDb.isPostedFrom, hline.entry, hget, hposted, htype, hsource]
        have hon : db'.isOnAccount code l = decide (line.systemCode = code) := by
          simp [LedgerDb.isOnAccount, ha, hcode]
        simp only [List.filter_cons, hfrom, hon] at ih ⊢
        cases hp : p r.sourceType r.sourceId with
        | false => simpa [hp] using ih
        | true =>
            by_cases hline' : line.systemCode = code
            · simpa [hp, hline', hline.amount] using ih
            · simpa [hp, hline'] using ih
  rw [LedgerDb.postings, hlines, List.filter_append, List.map_append, hnew,
    List.filter_congr hold]
  rfl

end LedgerDb.Adds

/-! ## What the statements of a posting write -/

theorem JournalTx.execute_eq_ok {tx tx' : JournalTx} {statement : Statement}
    (h : tx.execute statement = .ok tx') : statement.foldlM JournalTx.apply tx = .ok tx' := by
  obtain ⟨tx₁, happly, h⟩ := bind_eq_ok.mp h
  obtain ⟨-, -, h⟩ := bind_eq_ok.mp h
  cases h
  exact happly

theorem LedgerTx.execute_eq_ok {tx tx' : LedgerTx} {statement : Statement}
    (h : tx.execute statement = .ok tx') :
    statement.foldlM JournalTx.apply tx.journal = .ok tx'.journal ∧
      tx'.db = { tx.db with books := tx'.db.books } := by
  obtain ⟨journal, hjournal, h⟩ := bind_eq_ok.mp h
  obtain ⟨-, -, h⟩ := bind_eq_ok.mp h
  cases h
  exact ⟨JournalTx.execute_eq_ok hjournal, rfl⟩

theorem JournalTx.apply_insertEntry {tx tx' : JournalTx} {new : JournalEntry}
    (h : tx.apply (.insertEntry new) = .ok tx') :
    tx'.db.entries.rows = tx.db.entries.rows ++ [new] ∧ tx.db.entries.get new.id = none ∧
      tx'.db.lines = tx.db.lines := by
  obtain ⟨-, -, h⟩ := bind_eq_ok.mp h
  obtain ⟨entries, hinsert, h⟩ := bind_eq_ok.mp h
  obtain ⟨-, -, h⟩ := bind_eq_ok.mp h
  cases h
  obtain ⟨hrows, hfresh⟩ := Table.insert_eq_some (orRaise_eq_ok.mp hinsert)
  exact ⟨hrows, hfresh, rfl⟩

/-- Lines are added behind the lines that are there. -/
theorem JournalTx.apply_insertLines {tx tx' : JournalTx} {ls : List JournalEntryLine}
    (h : (ls.map RowChange.insertLine).foldlM JournalTx.apply tx = .ok tx') :
    tx'.db.lines.rows = tx.db.lines.rows ++ ls ∧ tx'.db.entries = tx.db.entries := by
  induction ls generalizing tx with
  | nil =>
      cases h
      simp
  | cons l ls ih =>
      rw [List.map_cons, List.foldlM_cons] at h
      obtain ⟨tx₁, hline, h⟩ := bind_eq_ok.mp h
      obtain ⟨hlines, hentries⟩ := ih h
      obtain ⟨-, -, hline⟩ := bind_eq_ok.mp hline
      obtain ⟨lines, hinsert, hline⟩ := bind_eq_ok.mp hline
      cases hline
      have hrows := (Table.insert_eq_some (orRaise_eq_ok.mp hinsert)).1
      exact ⟨by simp [hlines, hrows], hentries⟩

/-- The entry that was added last is changed in its place. -/
theorem JournalTx.apply_updateEntry {tx tx' : JournalTx} {old new : JournalEntry}
    {before : List JournalEntry} (hlast : tx.db.entries.rows = before ++ [old])
    (hfresh : ∀ e ∈ before, e.id ≠ old.id) (h : tx.apply (.updateEntry old new) = .ok tx') :
    tx'.db.entries.rows = before ++ [new] ∧ tx'.db.lines = tx.db.lines := by
  cases JournalTx.apply_ok h with
  | @updateEntry _ _ entries l₁ l₂ hold hrows _ =>
      rw [hlast, List.append_cons_inj_of_notMem (fun hmem => hfresh _ hmem rfl) (by simp)] at hold
      obtain ⟨rfl, -, rfl⟩ := hold
      exact ⟨hrows, rfl⟩

theorem lookup_mem {accounts : List (String × Account)} {code : String} {a : Account}
    (h : accounts.lookup code = some a) : (code, a) ∈ accounts := by
  obtain ⟨before, after, rfl, -⟩ := List.lookup_eq_some_iff.mp h
  simp

/-- System accounts are found under their own codes. -/
theorem LedgerDb.postingAccounts_eq_ok {db : LedgerDb} {r : PostRequest}
    {accounts : List (String × Account)} (hmap : r.accountMap = [])
    (h : db.postingAccounts r = .ok accounts) {code : String} {a : Account}
    (ha : accounts.lookup code = some a) :
    db.accounts.get a.id = some a ∧ a.systemCode = some code := by
  simp only [LedgerDb.postingAccounts, hmap, List.isEmpty_nil, if_true, ite_error_eq_ok] at h
  obtain ⟨-, -, h⟩ := h
  cases h
  have hmem := lookup_mem ha
  simp only [List.mem_filterMap, Option.map_eq_some_iff, Prod.mk.injEq] at hmem
  obtain ⟨_, -, _, hlookup, rfl, rfl⟩ := hmem
  have hmem := lookup_mem hlookup
  simp only [LedgerDb.systemAccounts, List.mem_filterMap] at hmem
  obtain ⟨b, hb, hmem⟩ := hmem
  split at hmem
  next hcode =>
    simp only [Option.ite_none_right_eq_some, Option.some.injEq, Prod.mk.injEq] at hmem
    obtain ⟨-, rfl, rfl⟩ := hmem
    exact ⟨Table.get_eq_some.mpr ⟨hb, rfl⟩, hcode⟩
  next => cases hmem

theorem storeMoney_eq_ok {x : ℚ} {amount : Money} (h : storeMoney x = .ok amount) :
    amount = roundHalfUp (x * 10 ^ 4) ∧ |roundHalfUp (x * 10 ^ 4)| < 10 ^ 18 := by
  have hnumeric := orRaise_eq_ok.mp h
  simp only [numeric, Option.ite_none_right_eq_some, Option.some.injEq] at hnumeric
  exact ⟨hnumeric.2.symm, hnumeric.1⟩

theorem storeLine_storedAs {db : LedgerDb} {env : Env} {r : PostRequest}
    {accounts : List (String × Account)}
    (haccounts : ∀ code a, accounts.lookup code = some a →
      db.accounts.get a.id = some a ∧ a.systemCode = some code)
    {row : PostingLine × Nat} {l : JournalEntryLine} (h : storeLine env r accounts row = .ok l) :
    StoredAs db r row.1 l := by
  obtain ⟨account, haccount, h⟩ := bind_eq_ok.mp h
  obtain ⟨debit, hdebit, h⟩ := bind_eq_ok.mp h
  obtain ⟨credit, hcredit, h⟩ := bind_eq_ok.mp h
  cases h
  obtain ⟨hget, hcode⟩ := haccounts _ _ (orRaise_eq_ok.mp haccount)
  obtain ⟨hd, hdfits⟩ := storeMoney_eq_ok hdebit
  obtain ⟨hc, hcfits⟩ := storeMoney_eq_ok hcredit
  exact
    { entry := rfl
      account := ⟨account, hget, hcode⟩
      amount := by simp [JournalEntryLine.amount, PostingLine.amount, hd, hc]
      fits := ⟨hdfits, hcfits⟩ }

/-- `post` and the flush of its entry, which has the date of the request.  The accounts are those of
`_bootstrap`. -/
theorem LedgerTx.post_adds {tx tx₁ tx' : LedgerTx} {env : Env} {r : PostRequest}
    {posting : Posting} (hmap : r.accountMap = []) (hpost : tx.post env r = .ok (tx₁, posting))
    (hflush : tx₁.flush posting = .ok tx') :
    tx.db.Adds r tx'.db ∧
      (∃ e : JournalEntry, tx'.db.books.entries.rows = tx.db.books.entries.rows ++ [e] ∧
        e.entryDate = r.entryDate) ∧
      ∃ db, tx.db.bootstrap env = .ok db ∧ tx'.db.accounts = db.accounts := by
  obtain ⟨db, hboot, hpost⟩ := bind_eq_ok.mp hpost
  obtain ⟨-, -, hpost⟩ := bind_eq_ok.mp hpost
  obtain ⟨period, -, hpost⟩ := bind_eq_ok.mp hpost
  obtain ⟨accounts, haccounts, hpost⟩ := bind_eq_ok.mp hpost
  obtain ⟨journal, -, hpost⟩ := bind_eq_ok.mp hpost
  obtain ⟨totalDebit, -, hpost⟩ := bind_eq_ok.mp hpost
  obtain ⟨totalCredit, -, hpost⟩ := bind_eq_ok.mp hpost
  obtain ⟨txDraft, hdraft, hpost⟩ := bind_eq_ok.mp hpost
  obtain ⟨ls, hls, hpost⟩ := bind_eq_ok.mp hpost
  obtain ⟨txLines, hlines, hpost⟩ := bind_eq_ok.mp hpost
  cases hpost
  have hsame := LedgerDb.SameCodes.bootstrap hboot
  obtain ⟨happlyDraft, hdbDraft⟩ := LedgerTx.execute_eq_ok hdraft
  obtain ⟨happlyLines, hdbLines⟩ := LedgerTx.execute_eq_ok hlines
  obtain ⟨happlyFlush, hdbFlush⟩ := LedgerTx.execute_eq_ok hflush
  simp only [List.foldlM_cons, List.foldlM_nil, bind_pure] at happlyDraft happlyFlush
  obtain ⟨hentriesDraft, hfresh, hlinesDraft⟩ := JournalTx.apply_insertEntry happlyDraft
  obtain ⟨hlinesLines, hentriesLines⟩ := JournalTx.apply_insertLines happlyLines
  have hlast := (congrArg Table.rows hentriesLines).trans hentriesDraft
  obtain ⟨hentriesFlush, hlinesFlush⟩ := JournalTx.apply_updateEntry hlast
    (Table.get_eq_none.mp hfresh) happlyFlush
  have hentries : tx'.db.books.entries.rows = db.books.entries.rows ++ [_] := hentriesFlush
  have hlinesRows : tx'.db.books.lines.rows = db.books.lines.rows ++ ls := by
    have hflushed : tx'.db.books.lines = txLines.db.books.lines := hlinesFlush
    have hadded : txLines.db.books.lines.rows = txDraft.db.books.lines.rows ++ ls := hlinesLines
    have hdrafted : txDraft.db.books.lines = db.books.lines := hlinesDraft
    rw [hflushed, hadded, hdrafted]
  have haccountsKept : tx'.db.accounts = db.accounts := by
    rw [hdbFlush]
    show txLines.db.accounts = db.accounts
    rw [hdbLines]
    show txDraft.db.accounts = db.accounts
    rw [hdbDraft]
  rw [hsame.books] at hentries hlinesRows
  refine ⟨⟨?_, ⟨_, hentries, rfl, rfl, rfl, rfl⟩, ls, hlinesRows, ?_⟩, ⟨_, hentries, rfl⟩, db, hboot,
    haccountsKept⟩
  · intro id a ha
    rw [haccountsKept]
    exact hsame.codes id a ha
  · have hstored := mapM_forall₂ hls
    rw [← List.zipIdx_map_fst 0 r.lines, List.forall₂_map_left_iff]
    refine hstored.imp fun row l hline => ?_
    refine storeLine_storedAs (fun code a ha => ?_) hline
    rw [haccountsKept]
    exact LedgerDb.postingAccounts_eq_ok hmap haccounts ha

/-! ## Requests -/

/-- What requests post on the account with a code. -/
def postingsOf (p : String → Uuid → Bool) (code : String) (requests : List PostRequest) :
    List Money :=
  requests.flatMap fun r => if p r.sourceType r.sourceId then r.postings code else []

/-- A ledger after postings of operational modules. -/
structure LedgerDb.Booked (db : LedgerDb) (requests : List PostRequest) (db' : LedgerDb) :
    Prop where
  linked : db'.Linked
  postings : ∀ p code, db'.postings p code = db.postings p code ++ postingsOf p code requests
  fits : ∀ r ∈ requests, ∀ line ∈ r.lines, line.Fits

theorem LedgerDb.Adds.fits {db db' : LedgerDb} {r : PostRequest} (h : db.Adds r db') :
    ∀ line ∈ r.lines, line.Fits := by
  obtain ⟨ls, -, hstored⟩ := h.lines
  intro line hline
  obtain ⟨l, -, hstoredAs⟩ := exists_of_forall₂ hstored.flip hline
  exact hstoredAs.fits

theorem LedgerTx.postAll_booked {tx tx' : LedgerTx} {env : Env} {requests : List PostRequest}
    (hdb : tx.db.Linked) (hmap : ∀ r ∈ requests, r.accountMap = [])
    (h : tx.postAll env requests = .ok tx') : tx.db.Booked requests tx'.db := by
  induction requests generalizing tx with
  | nil =>
      cases h
      exact ⟨hdb, by simp [postingsOf], nofun⟩
  | cons r requests ih =>
      simp only [LedgerTx.postAll, List.foldlM_cons] at h
      obtain ⟨tx₁, hfirst, h⟩ := bind_eq_ok.mp h
      obtain ⟨⟨tx₂, posting⟩, hpost, hflush⟩ := bind_eq_ok.mp hfirst
      obtain ⟨hadds, -⟩ := LedgerTx.post_adds (hmap r List.mem_cons_self) hpost hflush
      have hrest := ih (hadds.linked hdb) (fun r hr => hmap r (List.mem_cons_of_mem _ hr)) h
      refine ⟨hrest.linked, fun p code => ?_, ?_⟩
      · rw [hrest.postings, hadds.postings hdb, List.append_assoc]
        rfl
      · intro r' hr'
        rcases List.mem_cons.mp hr' with rfl | hr'
        · exact hadds.fits
        · exact hrest.fits r' hr'

/-- A request of an operational module. -/
theorem LedgerDb.request_operational {db db' : LedgerDb} {env : Env} {requests : List PostRequest}
    {own : Except Err Unit} (hdb : db.Linked) (hmap : ∀ r ∈ requests, r.accountMap = [])
    (h : db.request (.operational env requests own) = .ok db') : db.Booked requests db' := by
  obtain ⟨tx, hpost, h⟩ := bind_eq_ok.mp h
  obtain ⟨-, -, h⟩ := bind_eq_ok.mp h
  obtain ⟨-, -, h⟩ := bind_eq_ok.mp h
  cases h
  exact LedgerTx.postAll_booked hdb hmap hpost

end Nexora.Accounting
