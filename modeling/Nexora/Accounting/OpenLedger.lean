import Nexora.Accounting.Acceptance
import Nexora.Accounting.Chart
import Nexora.Accounting.Requests
import Nexora.Numbering.Gapless

/-!
# Posting into an open ledger

A ledger is open for a list of postings when the chart is set up, their accounts are active,
their dates lie in open periods, and the identifiers, the numbers and the sources they draw are
not taken (`LedgerDb.OpenFor`).  Postings of lines that are `Accepted` go through such a ledger,
one after another, up to the deferred check of the commit (`LedgerDb.OpenFor.request`).
-/

namespace Nexora.Accounting

open Nexora Foundations

/-! ## Open ledgers -/

/-- The unique key of the source of an entry. -/
def JournalEntry.source (e : JournalEntry) : Uuid × String × Uuid × String :=
  (e.tenantId, e.sourceType, e.sourceId, e.eventType)

/-- The source of the entry that a posting makes. -/
def PostRequest.source (r : PostRequest) (env : Env) : Uuid × String × Uuid × String :=
  (env.context.tenantId, r.sourceType, r.sourceId, r.eventType)

/-- The identifiers of the lines that a posting makes. -/
def PostRequest.lineIds (r : PostRequest) : List Uuid := r.lines.zipIdx.map fun row => r.lineId row.2

/-- `_bootstrap` finds everything in place. -/
structure LedgerDb.SetUp (db : LedgerDb) : Prop where
  codes : ∀ row ∈ defaultAccounts, row.1 ∈ db.accounts.rows.map (·.code)
  general : db.journals.any (·.code = "GENERAL") = true

/-- The foreign keys and the unique keys of the journal. -/
structure LedgerDb.Consistent (db : LedgerDb) : Prop where
  linked : db.Linked
  journals : ∀ e ∈ db.books.entries.rows, db.journals.any (·.id = e.journalId)
  periods : ∀ e ∈ db.books.entries.rows, (db.periods.get e.fiscalPeriodId).isSome
  reversals : ∀ e ∈ db.books.entries.rows,
    (∀ id ∈ e.reversalOfEntryId, (db.books.entries.get id).isSome) ∧
      ∀ id ∈ e.reversedByEntryId, (db.books.entries.get id).isSome
  numbers : (db.books.entries.rows.map fun e => (e.tenantId, e.entryNumber)).Nodup
  sources : (db.books.entries.rows.map JournalEntry.source).Nodup
  /-- Every number of the series was drawn. -/
  drawn : ∀ e ∈ db.books.entries.rows, ∀ period n,
    e.entryNumber = Numbering.Series.journal.format period n → n < db.sequences "journal" period

/-- What the postings draw is not taken, and no two of them draw the same. -/
structure LedgerDb.FreshFor (db : LedgerDb) (env : Env) (requests : List PostRequest) : Prop where
  entryIds : (requests.map (·.entryId)).Nodup ∧
    ∀ r ∈ requests, db.books.entries.get r.entryId = none
  lineIds : (requests.flatMap PostRequest.lineIds).Nodup ∧
    ∀ id ∈ requests.flatMap PostRequest.lineIds, db.books.lines.get id = none
  placeholders : ∀ r ∈ requests, ∀ e ∈ db.books.entries.rows,
    e.entryNumber ≠ "PENDING-" ++ toString r.placeholder
  sources : (requests.map (·.source env)).Nodup ∧
    ∀ r ∈ requests, r.source env ∉ db.books.entries.rows.map JournalEntry.source

/-- All accounts of the postings are active, and their periods are open. -/
structure LedgerDb.OpenFor (db : LedgerDb) (env : Env) (requests : List PostRequest) : Prop where
  setUp : db.SetUp
  consistent : db.Consistent
  fresh : db.FreshFor env requests
  accounts : ∀ r ∈ requests, r.accountMap = [] ∧ ∀ line ∈ r.lines, db.resolves line.systemCode
  periods : ∀ r ∈ requests, ∃ period, db.periodForDate r.entryDate = some period ∧
    period.status = .opened

/-! ## The reads of `post` -/

theorem LedgerDb.SetUp.bootstrap {db : LedgerDb} (h : db.SetUp) (env : Env) :
    db.bootstrap env = .ok db := by
  simp only [LedgerDb.bootstrap, List.map_map, Function.comp_def]
  rw [foldlM_eq_self]
  · simp only [bind, Except.bind, LedgerDb.bootstrapJournal, h.general, if_true]
  · intro row hrow
    have hmem := List.mem_map_of_mem (f := Prod.fst) hrow
    rw [List.zipIdx_map_fst] at hmem
    simp only [bootstrapAccount, if_pos (h.codes _ hmem)]

theorem lookup_filterMap (f : String → Option Account) {codes : List String} {code : String}
    (hcode : code ∈ codes) :
    (codes.filterMap fun c => (f c).map (c, ·)).lookup code = f code := by
  induction codes with
  | nil => cases hcode
  | cons other codes ih =>
      by_cases hsame : code = other
      · subst hsame
        cases hf : f code with
        | some a => simp [hf]
        | none =>
            rw [List.filterMap_cons_none (by simp [hf])]
            by_cases hmem : code ∈ codes
            · rw [ih hmem, hf]
            · rw [List.lookup_eq_none_iff]
              rintro ⟨c, a⟩ hca
              obtain ⟨c', hc', heq⟩ := List.mem_filterMap.mp hca
              obtain ⟨_, _, heq⟩ := Option.map_eq_some_iff.mp heq
              cases heq
              exact bne_iff_ne.mpr fun h => hmem (h ▸ hc')
      · have htail := ih ((List.mem_cons.mp hcode).resolve_left hsame)
        have hbeq : (code == other) = false := beq_false_of_ne hsame
        cases hf : f other with
        | some a => simpa [hf, List.lookup_cons, hbeq] using htail
        | none => simpa [hf] using htail

/-- Every line finds its account. -/
theorem LedgerDb.postingAccounts_complete {db : LedgerDb} {r : PostRequest}
    {accounts : List (String × Account)} (hmap : r.accountMap = [])
    (h : db.postingAccounts r = .ok accounts) {line : PostingLine} (hline : line ∈ r.lines) :
    ∃ a, accounts.lookup line.systemCode = some a ∧ db.accounts.get a.id = some a := by
  have hfound := h
  simp only [LedgerDb.postingAccounts, hmap, List.isEmpty_nil, if_true, ite_error_eq_ok] at hfound
  obtain ⟨hmissing, -, hfound⟩ := hfound
  have hcode : line.systemCode ∈ (r.lines.map (·.systemCode)).dedup :=
    List.mem_dedup.mpr (List.mem_map_of_mem hline)
  rw [not_not, List.isEmpty_iff, List.filter_eq_nil_iff] at hmissing
  have hsome := hmissing _ hcode
  rw [Bool.not_eq_true, Option.isNone_eq_false_iff] at hsome
  obtain ⟨a, ha⟩ := Option.isSome_iff_exists.mp hsome
  have hlookup : accounts.lookup line.systemCode = some a := by
    rw [← Except.ok.inj hfound, lookup_filterMap _ hcode, ha]
  exact ⟨a, hlookup, (postingAccounts_eq_ok hmap h hlookup).1⟩

theorem storeMoney_ok {x : ℚ} (h : |roundHalfUp (x * 10 ^ 4)| < 10 ^ 18) :
    storeMoney x = .ok (roundHalfUp (x * 10 ^ 4)) := by
  simp only [storeMoney, numeric, if_pos h]
  rfl

theorem storeLine_ok {env : Env} {r : PostRequest} {accounts : List (String × Account)}
    {row : PostingLine × Nat} {a : Account} (ha : accounts.lookup row.1.systemCode = some a)
    (hfits : row.1.Fits) :
    storeLine env r accounts row =
      .ok { id := r.lineId row.2, tenantId := env.context.tenantId, journalEntryId := r.entryId,
            accountId := a.id, description := row.1.description,
            debit := roundHalfUp (row.1.debit * 10 ^ 4),
            credit := roundHalfUp (row.1.credit * 10 ^ 4) } := by
  simp only [storeLine, ha, storeMoney_ok hfits.1, storeMoney_ok hfits.2]
  rfl

/-- The lines of a posting, as they are stored. -/
structure StoredLines (db : LedgerDb) (r : PostRequest) (ls : List JournalEntryLine) : Prop where
  ids : ls.map (·.id) = r.lineIds
  entry : ∀ l ∈ ls, l.journalEntryId = r.entryId
  accounts : ∀ l ∈ ls, (db.accounts.get l.accountId).isSome
  check : ∀ l ∈ ls, l.check = .ok ()
  debit : sumDebit ls = storedDebit r.lines
  credit : sumCredit ls = storedCredit r.lines

theorem storeLines_ok {db : LedgerDb} (env : Env) {r : PostRequest}
    {accounts : List (String × Account)}
    (haccounts : ∀ line ∈ r.lines, ∃ a, accounts.lookup line.systemCode = some a ∧
      db.accounts.get a.id = some a) (hlines : Storable r.lines) :
    ∃ ls, r.lines.zipIdx.mapM (storeLine env r accounts) = .ok ls ∧ StoredLines db r ls := by
  let stored : PostingLine × Nat → JournalEntryLine := fun row =>
    { id := r.lineId row.2, tenantId := env.context.tenantId, journalEntryId := r.entryId,
      accountId := ((accounts.lookup row.1.systemCode).map Account.id).getD 0,
      description := row.1.description, debit := roundHalfUp (row.1.debit * 10 ^ 4),
      credit := roundHalfUp (row.1.credit * 10 ^ 4) }
  have hmem : ∀ row ∈ r.lines.zipIdx, row.1 ∈ r.lines := by
    intro row hrow
    have hfst := List.mem_map_of_mem (f := Prod.fst) hrow
    rwa [List.zipIdx_map_fst] at hfst
  have hstored : ∀ row ∈ r.lines.zipIdx, storeLine env r accounts row = .ok (stored row) := by
    intro row hrow
    obtain ⟨a, ha, -⟩ := haccounts _ (hmem row hrow)
    rw [storeLine_ok ha (hlines.fits _ (hmem row hrow))]
    simp [stored, ha]
  have hsum : ∀ f : PostingLine → Money,
      (r.lines.zipIdx.map fun row => f row.1).sum = (r.lines.map f).sum := by
    intro f
    conv_rhs => rw [← List.zipIdx_map_fst 0 r.lines, List.map_map]
    rfl
  refine ⟨_, mapM_eq_map hstored, ?_, ?_, ?_, ?_, ?_, ?_⟩
  · simp [stored, PostRequest.lineIds]
  · intro l hl
    obtain ⟨row, -, rfl⟩ := List.mem_map.mp hl
    rfl
  · intro l hl
    obtain ⟨row, hrow, rfl⟩ := List.mem_map.mp hl
    obtain ⟨a, ha, hget⟩ := haccounts _ (hmem row hrow)
    simp [stored, ha, hget]
  · intro l hl
    obtain ⟨row, hrow, rfl⟩ := List.mem_map.mp hl
    exact if_pos (hlines.oneSided _ (hmem row hrow))
  · rw [sumDebit, List.map_map]
    exact hsum fun line => roundHalfUp (line.debit * 10 ^ 4)
  · rw [sumCredit, List.map_map]
    exact hsum fun line => roundHalfUp (line.credit * 10 ^ 4)

/-! ## The writes of `post` -/

theorem uniqueEntries_eq_ok {rows : List JournalEntry} :
    uniqueEntries rows = .ok () ↔ (rows.map fun e => (e.tenantId, e.entryNumber)).Nodup ∧
      (rows.map JournalEntry.source).Nodup := by
  unfold uniqueEntries
  split
  next h => exact iff_of_true rfl h
  next h => exact iff_of_false (fun hok => by cases hok) h

theorem JournalTx.insertEntry_ok (tx : JournalTx) {new : JournalEntry} (hcheck : new.check = .ok ())
    (hfresh : tx.db.entries.get new.id = none)
    (hunique : uniqueEntries (tx.db.entries.rows ++ [new]) = .ok ()) :
    ∃ entries : Table JournalEntry.id, entries.rows = tx.db.entries.rows ++ [new] ∧
      tx.apply (.insertEntry new) =
        .ok ⟨{ tx.db with entries := entries }, tx.pending ++ [new]⟩ := by
  obtain ⟨entries, hinsert⟩ := Table.insert_of_fresh (t := tx.db.entries) hfresh
  have hrows := (Table.insert_eq_some hinsert).1
  refine ⟨entries, hrows, ?_⟩
  simp only [JournalTx.apply, hcheck, hinsert, orRaise, hrows, hunique, bind, Except.bind]
  rfl

theorem JournalTx.insertLines_ok (tx : JournalTx) {ls : List JournalEntryLine}
    (hcheck : ∀ l ∈ ls, l.check = .ok ()) (hids : (ls.map (·.id)).Nodup)
    (hfresh : ∀ l ∈ ls, tx.db.lines.get l.id = none) :
    ∃ lines : Table JournalEntryLine.id, lines.rows = tx.db.lines.rows ++ ls ∧
      (ls.map RowChange.insertLine).foldlM JournalTx.apply tx =
        .ok ⟨{ tx.db with lines := lines }, tx.pending⟩ := by
  induction ls generalizing tx with
  | nil => exact ⟨tx.db.lines, by simp, rfl⟩
  | cons l ls ih =>
      obtain ⟨lines₁, hinsert⟩ := Table.insert_of_fresh (t := tx.db.lines)
        (hfresh l List.mem_cons_self)
      have hrows₁ := (Table.insert_eq_some hinsert).1
      rw [List.map_cons, List.nodup_cons] at hids
      obtain ⟨lines, hrows, hrest⟩ := ih ⟨{ tx.db with lines := lines₁ }, tx.pending⟩
        (fun l' hl' => hcheck l' (List.mem_cons_of_mem _ hl')) hids.2 (by
          intro l' hl'
          rw [Table.get_insert hinsert, if_neg]
          · exact hfresh l' (List.mem_cons_of_mem _ hl')
          · exact fun heq => hids.1 (heq ▸ List.mem_map_of_mem hl'))
      refine ⟨lines, by simp [hrows, hrows₁], ?_⟩
      have hfirst : tx.apply (.insertLine l) =
          .ok ⟨{ tx.db with lines := lines₁ }, tx.pending⟩ := by
        simp only [JournalTx.apply, hcheck l List.mem_cons_self, hinsert, orRaise, bind, Except.bind]
        rfl
      rw [List.map_cons, List.foldlM_cons, hfirst]
      exact hrest

theorem JournalTx.postDraft_ok (tx : JournalTx) {before : List JournalEntry}
    (draft entry : JournalEntry) (hrows : tx.db.entries.rows = before ++ [draft])
    (hid : entry.id = draft.id) (hdraft : draft.status = .draft) (hcheck : entry.check = .ok ())
    (hunique : uniqueEntries (before ++ [entry]) = .ok ()) :
    ∃ entries : Table JournalEntry.id, entries.rows = before ++ [entry] ∧
      tx.apply (.updateEntry draft entry) =
        .ok ⟨{ tx.db with entries := entries }, tx.pending ++ [entry]⟩ := by
  have hget : tx.db.entries.get draft.id = some draft :=
    Table.get_eq_some.mpr ⟨by simp [hrows], rfl⟩
  have hbefore : ∀ e ∈ before, e.id ≠ draft.id := by
    have hnodup := tx.db.entries.nodup
    rw [hrows, List.map_append, List.map_singleton, ← List.concat_eq_append, List.nodup_concat]
      at hnodup
    exact fun e he heq => hnodup.1 (heq ▸ List.mem_map_of_mem he)
  obtain ⟨entries, hreplace⟩ := Table.replace_of_key (t := tx.db.entries) hid
  have hnew : entries.rows = before ++ [entry] := by
    rw [Table.replace_rows hreplace, hrows, List.map_append, List.map_singleton, if_pos rfl]
    congr 1
    conv_rhs => rw [← List.map_id before]
    exact List.map_congr_left fun e he => if_neg (hbefore e he)
  refine ⟨entries, hnew, ?_⟩
  have himmutable : postedEntryImmutable draft entry = .ok () := by
    simp [postedEntryImmutable, hdraft]
  simp only [JournalTx.apply, JournalTx.apply.present, hget, if_true, himmutable, hcheck, hreplace,
    orRaise, hnew, hunique, bind, Except.bind]
  rfl

theorem JournalDb.foreignKeys_eq_ok {db : JournalDb} :
    db.foreignKeys = .ok () ↔ (∀ l ∈ db.lines.rows, (db.entries.get l.journalEntryId).isSome) ∧
      (∀ e ∈ db.entries.rows, ∀ id ∈ e.reversalOfEntryId, (db.entries.get id).isSome) ∧
      (∀ e ∈ db.entries.rows, ∀ id ∈ e.reversedByEntryId, (db.entries.get id).isSome) := by
  unfold JournalDb.foreignKeys
  split
  next h => exact iff_of_true rfl h
  next h => exact iff_of_false (fun hok => by cases hok) h

theorem LedgerDb.foreignKeys_eq_ok {db : LedgerDb} :
    db.foreignKeys = .ok () ↔
      (∀ l ∈ db.books.lines.rows, (db.accounts.get l.accountId).isSome) ∧
      (∀ e ∈ db.books.entries.rows, db.journals.any (·.id = e.journalId)) ∧
      (∀ e ∈ db.books.entries.rows, (db.periods.get e.fiscalPeriodId).isSome) := by
  unfold LedgerDb.foreignKeys
  split
  next h => exact iff_of_true rfl h
  next h => exact iff_of_false (fun hok => by cases hok) h

/-- A new entry with its keys, and lines that are its own. -/
structure LedgerDb.Attaches (db : LedgerDb) (e : JournalEntry) (ls : List JournalEntryLine)
    (books : JournalDb) : Prop where
  entries : books.entries.rows = db.books.entries.rows ++ [e]
  lines : books.lines.rows = db.books.lines.rows ++ ls
  journal : db.journals.any (·.id = e.journalId) = true
  period : (db.periods.get e.fiscalPeriodId).isSome
  links : e.reversalOfEntryId = none ∧ e.reversedByEntryId = none
  owned : ∀ l ∈ ls, l.journalEntryId = e.id ∧ (db.accounts.get l.accountId).isSome

namespace LedgerDb.Attaches

variable {db : LedgerDb} {e : JournalEntry} {ls : List JournalEntryLine} {books : JournalDb}

theorem kept (h : db.Attaches e ls books) {id : Uuid} (hid : (db.books.entries.get id).isSome) :
    (books.entries.get id).isSome := by
  obtain ⟨old, hold⟩ := Option.isSome_iff_exists.mp hid
  rw [Table.get_of_append hold h.entries]
  rfl

theorem mem (h : db.Attaches e ls books) {e' : JournalEntry} (he' : e' ∈ books.entries.rows) :
    e' ∈ db.books.entries.rows ∨ e' = e := by
  rw [h.entries, List.mem_append, List.mem_singleton] at he'
  exact he'

theorem foreignKeys (h : db.Attaches e ls books) (hdb : db.Consistent) :
    books.foreignKeys = .ok () ∧ ∀ db' : LedgerDb, db'.books = books → db'.accounts = db.accounts →
      db'.journals = db.journals → db'.periods = db.periods → db'.foreignKeys = .ok () := by
  have hnew : books.entries.get e.id = some e :=
    Table.get_eq_some.mpr ⟨by simp [h.entries], rfl⟩
  constructor
  · refine JournalDb.foreignKeys_eq_ok.mpr ⟨fun l hl => ?_, fun e' he' id hid => ?_,
      fun e' he' id hid => ?_⟩
    · rw [h.lines, List.mem_append] at hl
      rcases hl with hl | hl
      · exact h.kept (hdb.linked.entries l hl)
      · rw [(h.owned l hl).1, hnew]
        rfl
    · rcases h.mem he' with he' | rfl
      · exact h.kept ((hdb.reversals e' he').1 id hid)
      · rw [h.links.1] at hid
        cases hid
    · rcases h.mem he' with he' | rfl
      · exact h.kept ((hdb.reversals e' he').2 id hid)
      · rw [h.links.2] at hid
        cases hid
  · rintro db' rfl haccounts hjournals hperiods
    refine LedgerDb.foreignKeys_eq_ok.mpr ⟨fun l hl => ?_, fun e' he' => ?_, fun e' he' => ?_⟩
    · rw [haccounts]
      rw [h.lines, List.mem_append] at hl
      rcases hl with hl | hl
      · exact hdb.linked.accounts l hl
      · exact (h.owned l hl).2
    · rw [hjournals]
      rcases h.mem he' with he' | rfl
      · exact hdb.journals e' he'
      · exact h.journal
    · rw [hperiods]
      rcases h.mem he' with he' | rfl
      · exact hdb.periods e' he'
      · exact h.period

end LedgerDb.Attaches

theorem LedgerTx.execute_ok (tx : LedgerTx) (statement : Statement) {journal : JournalTx}
    (happly : statement.foldlM JournalTx.apply tx.journal = .ok journal)
    (hkeys : journal.db.foreignKeys = .ok ())
    (hforeign : LedgerDb.foreignKeys { tx.db with books := journal.db } = .ok ()) :
    tx.execute statement = .ok ⟨{ tx.db with books := journal.db }, journal.pending⟩ :=
  bind_eq_ok.mpr ⟨journal, bind_eq_ok.mpr ⟨journal, happly, bind_eq_ok.mpr ⟨(), hkeys, rfl⟩⟩,
    bind_eq_ok.mpr ⟨(), hforeign, rfl⟩⟩

/-- What a posting leaves in the tables: its entry, posted, and the lines of it. -/
structure LedgerTx.Posts (env : Env) (r : PostRequest) (tx tx' : LedgerTx) : Prop where
  entry : ∃ draft e : JournalEntry, ∃ ls, StoredLines tx.db r ls ∧
    tx'.db.books.entries.rows = tx.db.books.entries.rows ++ [e] ∧
    tx'.db.books.lines.rows = tx.db.books.lines.rows ++ ls ∧
    tx'.pending = tx.pending ++ [draft, e] ∧ draft.status = .draft ∧
    e.id = r.entryId ∧ e.source = r.source env ∧
    e.entryNumber = Numbering.Series.journal.format (toString r.entryDate.year)
      (tx.db.sequences "journal" (toString r.entryDate.year)) ∧
    e.totalDebit = roundHalfUp (debitSum r.lines * 10 ^ 4) ∧
    e.totalCredit = roundHalfUp (debitSum r.lines * 10 ^ 4)
  accounts : tx'.db.accounts = tx.db.accounts
  journals : tx'.db.journals = tx.db.journals
  periods : tx'.db.periods = tx.db.periods
  sequences : tx'.db.sequences "journal" = Function.update (tx.db.sequences "journal")
    (toString r.entryDate.year) (tx.db.sequences "journal" (toString r.entryDate.year) + 1)
  consistent : tx'.db.Consistent

theorem Accepted.total_pos {lines : List PostingLine} (h : Accepted lines) :
    0 < roundHalfUp (debitSum lines * 10 ^ 4) := by
  have hdebits : ∀ x ∈ lines.map fun line => roundHalfUp (line.debit * 10 ^ 4), 0 ≤ x := by
    intro x hx
    obtain ⟨line, hline, rfl⟩ := List.mem_map.mp hx
    rcases h.oneSided line hline with ⟨hpos, -⟩ | ⟨-, hzero⟩
    · exact hpos.le
    · exact hzero.ge
  have hcredits : ∀ x ∈ lines.map fun line => roundHalfUp (line.credit * 10 ^ 4), 0 ≤ x := by
    intro x hx
    obtain ⟨line, hline, rfl⟩ := List.mem_map.mp hx
    rcases h.oneSided line hline with ⟨-, hzero⟩ | ⟨hpos, -⟩
    · exact hzero.ge
    · exact hpos.le
  obtain ⟨line, hline⟩ := List.exists_mem_of_ne_nil _ h.nonempty
  rcases h.oneSided line hline with ⟨hpos, -⟩ | ⟨hpos, -⟩
  · rw [← h.stored.1]
    exact hpos.trans_le (List.single_le_sum hdebits _ (List.mem_map_of_mem hline))
  · rw [← h.stored.2]
    exact hpos.trans_le (List.single_le_sum hcredits _ (List.mem_map_of_mem hline))

theorem LedgerDb.Consistent.of_keys {db : LedgerDb} (hbooks : db.books.foreignKeys = .ok ())
    (hforeign : db.foreignKeys = .ok ()) (hunique : uniqueEntries db.books.entries.rows = .ok ())
    (hdrawn : ∀ e ∈ db.books.entries.rows, ∀ period n,
      e.entryNumber = Numbering.Series.journal.format period n → n < db.sequences "journal" period) :
    db.Consistent := by
  obtain ⟨hlines, hof, hby⟩ := JournalDb.foreignKeys_eq_ok.mp hbooks
  obtain ⟨haccounts, hjournals, hperiods⟩ := LedgerDb.foreignKeys_eq_ok.mp hforeign
  obtain ⟨hnumbers, hsources⟩ := uniqueEntries_eq_ok.mp hunique
  exact ⟨⟨hlines, haccounts⟩, hjournals, hperiods, fun e he => ⟨hof e he, hby e he⟩, hnumbers,
    hsources, hdrawn⟩

/-- Rows with one more number and one more source. -/
theorem LedgerDb.Consistent.unique {db : LedgerDb} (h : db.Consistent) {e : JournalEntry}
    (hnumber : ∀ e' ∈ db.books.entries.rows, e'.entryNumber ≠ e.entryNumber)
    (hsource : e.source ∉ db.books.entries.rows.map JournalEntry.source) :
    uniqueEntries (db.books.entries.rows ++ [e]) = .ok () := by
  refine uniqueEntries_eq_ok.mpr ⟨?_, ?_⟩
  · rw [List.map_append, List.map_singleton, ← List.concat_eq_append, List.nodup_concat]
    refine ⟨fun hmem => ?_, h.numbers⟩
    obtain ⟨e', he', heq⟩ := List.mem_map.mp hmem
    exact hnumber e' he' (congrArg Prod.snd heq)
  · rw [List.map_append, List.map_singleton, ← List.concat_eq_append, List.nodup_concat]
    exact ⟨hsource, h.sources⟩

theorem LedgerTx.enter_ok {tx : LedgerTx} {env : Env} {r : PostRequest} {period : FiscalPeriod}
    {accounts : List (String × Account)} {journal : Journal} (hdb : tx.db.Consistent)
    (hfresh : tx.db.FreshFor env [r]) (hperiod : (tx.db.periods.get period.id).isSome)
    (haccounts : ∀ line ∈ r.lines, ∃ a, accounts.lookup line.systemCode = some a ∧
      tx.db.accounts.get a.id = some a)
    (hjournal : tx.db.journals.any (·.id = journal.id) = true) (hlines : Accepted r.lines) :
    ∃ tx₁ posting tx', tx.enter env r period accounts journal = .ok (tx₁, posting) ∧
      tx₁.flush posting = .ok tx' ∧ tx.Posts env r tx' := by
  obtain ⟨ls, hmapM, hls⟩ := storeLines_ok env haccounts hlines.toStorable
  have hentryId : tx.db.books.entries.get r.entryId = none := hfresh.entryIds.2 r (by simp)
  have hlineIds := hfresh.lineIds
  rw [List.flatMap_singleton] at hlineIds
  have hsource : r.source env ∉ tx.db.books.entries.rows.map JournalEntry.source :=
    hfresh.sources.2 r (by simp)
  let total := roundHalfUp (debitSum r.lines * 10 ^ 4)
  let draft : JournalEntry :=
    { id := r.entryId
      tenantId := env.context.tenantId
      entryNumber := "PENDING-" ++ toString r.placeholder
      journalId := journal.id
      fiscalPeriodId := period.id
      entryDate := r.entryDate
      status := .draft
      description := r.description
      sourceType := r.sourceType
      sourceId := r.sourceId
      eventType := r.eventType
      currency := env.baseCurrency
      totalDebit := total
      totalCredit := total
      postedAt := env.now
      postedByMembershipId := env.context.membershipId
      reversalOfEntryId := none
      reversedByEntryId := none
      entryMetadata := r.metadata }
  let year := toString r.entryDate.year
  let number := Numbering.Series.journal.format year (tx.db.sequences "journal" year)
  let entry : JournalEntry := { draft with entryNumber := number, status := .posted }
  have hcheck : draft.check = .ok () := if_pos ⟨hlines.total_pos.le, hlines.total_pos.le⟩
  have hdebit : storeMoney (decimalSum (r.lines.map (·.debit))) = .ok total :=
    storeMoney_ok hlines.total_fits
  have hcredit : storeMoney (decimalSum (r.lines.map (·.credit))) = .ok total := by
    rw [show decimalSum (r.lines.map (·.credit)) = debitSum r.lines from hlines.balanced.symm]
    exact storeMoney_ok hlines.total_fits
  -- The draft.
  obtain ⟨entries₁, hentries₁, happly₁⟩ := JournalTx.insertEntry_ok tx.journal hcheck hentryId
    (hdb.unique (e := draft) (hfresh.placeholders r (by simp)) hsource)
  have hattach₁ : tx.db.Attaches draft [] { tx.db.books with entries := entries₁ } :=
    ⟨hentries₁, by simp, hjournal, hperiod, ⟨rfl, rfl⟩, fun l hl => by cases hl⟩
  have hexecute₁ := LedgerTx.execute_ok tx [.insertEntry draft]
    (bind_eq_ok.mpr ⟨_, happly₁, rfl⟩) (hattach₁.foreignKeys hdb).1
    ((hattach₁.foreignKeys hdb).2 _ rfl rfl rfl rfl)
  -- Its lines.
  obtain ⟨lines₂, hlines₂, happly₂⟩ := JournalTx.insertLines_ok
    ⟨{ tx.db.books with entries := entries₁ }, tx.pending ++ [draft]⟩ hls.check
    (hls.ids ▸ hlineIds.1) (fun l hl => hlineIds.2 _ (hls.ids ▸ List.mem_map_of_mem hl))
  have hattach₂ : tx.db.Attaches draft ls ⟨entries₁, lines₂⟩ :=
    ⟨hentries₁, hlines₂, hjournal, hperiod, ⟨rfl, rfl⟩,
      fun l hl => ⟨hls.entry l hl, hls.accounts l hl⟩⟩
  have hexecute₂ := LedgerTx.execute_ok
    ⟨{ tx.db with books := { tx.db.books with entries := entries₁ } }, tx.pending ++ [draft]⟩ _
    happly₂ (hattach₂.foreignKeys hdb).1 ((hattach₂.foreignKeys hdb).2 _ rfl rfl rfl rfl)
  -- The flush, with the number.
  have hnumber : ∀ e ∈ tx.db.books.entries.rows, e.entryNumber ≠ number := by
    intro e he heq
    exact lt_irrefl _ (hdb.drawn e he year _ heq)
  have hunique := hdb.unique (e := entry) hnumber hsource
  let sequences := Function.update tx.db.sequences "journal" (Function.update
    (tx.db.sequences "journal") year (tx.db.sequences "journal" year + 1))
  obtain ⟨entries₃, hentries₃, happly₃⟩ := JournalTx.postDraft_ok
    ⟨⟨entries₁, lines₂⟩, tx.pending ++ [draft]⟩ draft entry hentries₁ rfl rfl hcheck hunique
  have hattach₃ : tx.db.Attaches entry ls ⟨entries₃, lines₂⟩ :=
    ⟨hentries₃, hlines₂, hjournal, hperiod, ⟨rfl, rfl⟩,
      fun l hl => ⟨hls.entry l hl, hls.accounts l hl⟩⟩
  have hkeys := hattach₃.foreignKeys hdb
  have hforeign := hkeys.2 { tx.db with books := ⟨entries₃, lines₂⟩, sequences := sequences } rfl rfl
    rfl rfl
  have hexecute₃ := LedgerTx.execute_ok
    ⟨{ tx.db with books := ⟨entries₁, lines₂⟩, sequences := sequences }, tx.pending ++ [draft]⟩
    [.updateEntry draft entry] (bind_eq_ok.mpr ⟨_, happly₃, rfl⟩) hkeys.1 hforeign
  refine ⟨⟨{ tx.db with books := ⟨entries₁, lines₂⟩, sequences := sequences },
    tx.pending ++ [draft]⟩, ⟨draft, entry⟩, _, ?_, hexecute₃, ?_⟩
  · rw [LedgerTx.enter, hdebit]
    refine bind_eq_ok.mpr ⟨total, rfl, ?_⟩
    rw [hcredit]
    exact bind_eq_ok.mpr ⟨total, rfl, bind_eq_ok.mpr ⟨_, hexecute₁, bind_eq_ok.mpr ⟨ls, hmapM,
      bind_eq_ok.mpr ⟨_, hexecute₂, rfl⟩⟩⟩⟩
  · refine ⟨⟨draft, entry, ls, hls, hentries₃, hlines₂, by simp, rfl, rfl, rfl, rfl, rfl, rfl⟩, rfl,
      rfl, rfl, by simp [sequences, year], .of_keys hkeys.1 hforeign (hentries₃ ▸ hunique) ?_⟩
    intro e he period n hformat
    show n < sequences "journal" period
    rw [show sequences "journal" = Function.update (tx.db.sequences "journal") year
      (tx.db.sequences "journal" year + 1) from Function.update_self ..]
    rcases hattach₃.mem he with he | rfl
    · refine (hdb.drawn e he period n hformat).trans_le ?_
      rw [Function.update_apply]
      split
      next heq => exact heq ▸ Nat.le_succ _
      next => exact le_rfl
    · obtain ⟨-, rfl, rfl⟩ := Numbering.format_injective hformat
      rw [Function.update_self]
      exact Nat.lt_succ_self _

/-! ## A posting and those to come -/

theorem LedgerDb.OpenFor.post {tx : LedgerTx} {env : Env} {r : PostRequest}
    {requests : List PostRequest} (h : tx.db.OpenFor env (r :: requests))
    (hlines : Accepted r.lines) :
    ∃ tx₁ posting tx', tx.post env r = .ok (tx₁, posting) ∧ tx₁.flush posting = .ok tx' ∧
      tx.Posts env r tx' := by
  obtain ⟨hmap, hresolves⟩ := h.accounts r List.mem_cons_self
  obtain ⟨period, hperiod, hopen⟩ := h.periods r List.mem_cons_self
  have hget : (tx.db.periods.get period.id).isSome := by
    rw [Table.get_eq_some.mpr ⟨List.mem_of_find?_eq_some hperiod, rfl⟩]
    rfl
  have hpostingPeriod : tx.db.postingPeriod env r = .ok period := by
    simp [LedgerDb.postingPeriod, hperiod, hopen]
  obtain ⟨accounts, haccounts⟩ := (LedgerDb.postingAccounts_isOk hmap).mpr hresolves
  obtain ⟨journal, hjournal⟩ : ∃ journal, tx.db.journals.find? (·.code = "GENERAL") = some journal := by
    rw [← Option.isSome_iff_exists, List.find?_isSome]
    simpa using h.setUp.general
  have hfresh : tx.db.FreshFor env [r] := by
    refine ⟨⟨by simp, fun r' hr' => ?_⟩, ⟨?_, ?_⟩, fun r' hr' => ?_, ⟨by simp, fun r' hr' => ?_⟩⟩
    · obtain rfl := List.mem_singleton.mp hr'
      exact h.fresh.entryIds.2 r' List.mem_cons_self
    · have hnodup := h.fresh.lineIds.1
      rw [List.flatMap_cons] at hnodup
      rw [List.flatMap_singleton]
      exact hnodup.of_append_left
    · intro id hid
      rw [List.flatMap_singleton] at hid
      exact h.fresh.lineIds.2 id (by simp [hid])
    · obtain rfl := List.mem_singleton.mp hr'
      exact h.fresh.placeholders r' List.mem_cons_self
    · obtain rfl := List.mem_singleton.mp hr'
      exact h.fresh.sources.2 r' List.mem_cons_self
  obtain ⟨tx₁, posting, tx', henter, hflush, hposts⟩ := LedgerTx.enter_ok h.consistent hfresh hget
    (fun line hline => LedgerDb.postingAccounts_complete hmap haccounts hline)
    (List.any_eq_true.mpr ⟨journal, List.mem_of_find?_eq_some hjournal, decide_eq_true rfl⟩) hlines
  refine ⟨tx₁, posting, tx', ?_, hflush, hposts⟩
  rw [LedgerTx.post_eq]
  exact bind_eq_ok.mpr ⟨tx.db, h.setUp.bootstrap env, bind_eq_ok.mpr ⟨(), hlines.requireBalanced,
    bind_eq_ok.mpr ⟨period, hpostingPeriod, bind_eq_ok.mpr ⟨accounts, haccounts,
      bind_eq_ok.mpr ⟨journal, orRaise_eq_ok.mpr hjournal, henter⟩⟩⟩⟩⟩

/-- A number that was drawn is none of those that stand for it before. -/
theorem format_ne_pending (period : String) (n : Nat) (placeholder : Uuid) :
    Numbering.Series.journal.format period n ≠ "PENDING-" ++ toString placeholder := by
  intro h
  have hlists := congrArg (fun s : String => s.toList.head?) h
  simp [Numbering.toList_format, Numbering.Series.code] at hlists

theorem LedgerDb.OpenFor.tail {tx tx' : LedgerTx} {env : Env} {r : PostRequest}
    {requests : List PostRequest} (h : tx.db.OpenFor env (r :: requests))
    (hposts : tx.Posts env r tx') : tx'.db.OpenFor env requests := by
  obtain ⟨draft, e, ls, hls, hentries, hlines, -, -, hid, hsource, hnumber, -, -⟩ := hposts.entry
  have hnodupIds := h.fresh.entryIds.1
  have hnodupSources := h.fresh.sources.1
  have hnodupLines := h.fresh.lineIds.1
  rw [List.map_cons, List.nodup_cons] at hnodupIds hnodupSources
  rw [List.flatMap_cons] at hnodupLines
  refine ⟨⟨?_, ?_⟩, hposts.consistent, ⟨⟨hnodupIds.2, fun r' hr' => ?_⟩,
    ⟨hnodupLines.of_append_right, fun id hid' => ?_⟩, fun r' hr' e' he' => ?_,
    ⟨hnodupSources.2, fun r' hr' => ?_⟩⟩, fun r' hr' => ?_, fun r' hr' => ?_⟩
  · rw [hposts.accounts]
    exact h.setUp.codes
  · rw [hposts.journals]
    exact h.setUp.general
  · rw [Table.get_eq_none]
    intro e' he'
    rw [hentries, List.mem_append, List.mem_singleton] at he'
    rcases he' with he' | rfl
    · exact Table.get_eq_none.mp (h.fresh.entryIds.2 r' (List.mem_cons_of_mem _ hr')) e' he'
    · rw [hid]
      exact fun heq => hnodupIds.1 (heq ▸ List.mem_map_of_mem hr')
  · rw [Table.get_eq_none]
    intro l hl
    rw [hlines, List.mem_append] at hl
    rcases hl with hl | hl
    · exact Table.get_eq_none.mp (h.fresh.lineIds.2 id (by simp [hid'])) l hl
    · have hmem : l.id ∈ r.lineIds := hls.ids ▸ List.mem_map_of_mem hl
      exact fun heq => (List.disjoint_of_nodup_append hnodupLines) hmem (heq ▸ hid')
  · rw [hentries, List.mem_append, List.mem_singleton] at he'
    rcases he' with he' | rfl
    · exact h.fresh.placeholders r' (List.mem_cons_of_mem _ hr') e' he'
    · rw [hnumber]
      exact format_ne_pending _ _ _
  · rw [hentries, List.map_append, List.mem_append, List.map_singleton, List.mem_singleton, hsource]
    rintro (hmem | heq)
    · exact h.fresh.sources.2 r' (List.mem_cons_of_mem _ hr') hmem
    · exact hnodupSources.1 (heq ▸ List.mem_map_of_mem hr')
  · refine ⟨(h.accounts r' (List.mem_cons_of_mem _ hr')).1, fun line hline => ?_⟩
    have hresolves := (h.accounts r' (List.mem_cons_of_mem _ hr')).2 line hline
    rwa [LedgerDb.resolves, LedgerDb.accountOf, hposts.accounts]
  · obtain ⟨period, hperiod, hopen⟩ := h.periods r' (List.mem_cons_of_mem _ hr')
    refine ⟨period, ?_, hopen⟩
    rwa [LedgerDb.periodForDate, hposts.periods]

/-- The deferred checks of a transaction, as far as it has come. -/
def LedgerTx.Settled (tx : LedgerTx) : Prop :=
  ∀ e ∈ tx.pending, e.status = .posted →
    (tx.db.books.entries.get e.id).isSome ∧ checkJournalBalanced tx.db.books e = .ok ()

theorem LedgerTx.Posts.settled {tx tx' : LedgerTx} {env : Env} {r : PostRequest}
    (hposts : tx.Posts env r tx') (hfresh : tx.db.books.entries.get r.entryId = none)
    (hlinked : tx.db.Linked) (hlines : Accepted r.lines) (h : tx.Settled) : tx'.Settled := by
  obtain ⟨draft, e, ls, hls, hentries, hrows, hpending, hdraft, hid, -, -, hdebit, hcredit⟩ :=
    hposts.entry
  have hlinesOf : ∀ id, tx'.db.books.linesOf id =
      tx.db.books.linesOf id ++ ls.filter fun l => decide (l.journalEntryId = id) := by
    intro id
    rw [JournalDb.linesOf, hrows, List.filter_append]
    rfl
  have hnone : tx.db.books.linesOf r.entryId = [] := by
    refine List.filter_eq_nil_iff.mpr fun l hl => ?_
    have hsome := hlinked.entries l hl
    simp only [decide_eq_true_eq]
    rintro heq
    rw [heq, hfresh] at hsome
    cases hsome
  intro e' he' hposted
  rw [hpending, List.mem_append] at he'
  rcases he' with he' | he'
  · obtain ⟨hsome, hcheck⟩ := h e' he' hposted
    obtain ⟨old, hold⟩ := Option.isSome_iff_exists.mp hsome
    have hne : r.entryId ≠ e'.id := by
      rintro heq
      rw [← heq, hfresh] at hsome
      cases hsome
    have hother : ls.filter (fun l => decide (l.journalEntryId = e'.id)) = [] := by
      refine List.filter_eq_nil_iff.mpr fun l hl => ?_
      rw [hls.entry l hl]
      simpa using hne
    refine ⟨by rw [Table.get_of_append hold hentries]; rfl, ?_⟩
    rw [checkJournalBalanced, hlinesOf, hother, List.append_nil]
    exact hcheck
  · rcases List.mem_cons.mp he' with rfl | he'
    · rw [hdraft] at hposted
      cases hposted
    · obtain rfl := List.mem_singleton.mp he'
      have hget : tx'.db.books.entries.get e'.id = some e' :=
        Table.get_eq_some.mpr ⟨by simp [hentries], rfl⟩
      have hown : ls.filter (fun l => decide (l.journalEntryId = e'.id)) = ls := by
        refine List.filter_eq_self.mpr fun l hl => ?_
        rw [hls.entry l hl, hid]
        simp
      refine ⟨by rw [hget]; rfl, ?_⟩
      rw [checkJournalBalanced, if_neg (by simpa using hposted), hlinesOf, hown, hid, hnone,
        List.nil_append, hls.debit, hls.credit, hdebit, hcredit, hlines.stored.1, hlines.stored.2]
      simp [hlines.total_pos.ne']

theorem LedgerTx.postAll_ok (tx : LedgerTx) {env : Env} {requests : List PostRequest}
    (h : tx.db.OpenFor env requests) (hlines : ∀ r ∈ requests, Accepted r.lines)
    (hsettled : tx.Settled) : ∃ tx', tx.postAll env requests = .ok tx' ∧ tx'.Settled := by
  induction requests generalizing tx with
  | nil => exact ⟨tx, rfl, hsettled⟩
  | cons r requests ih =>
      have haccepted := hlines r List.mem_cons_self
      obtain ⟨tx₁, posting, tx₂, hpost, hflush, hposts⟩ := h.post haccepted
      have hsettled₂ := hposts.settled (h.fresh.entryIds.2 r List.mem_cons_self)
        h.consistent.linked haccepted hsettled
      obtain ⟨tx', hrest, hsettled'⟩ := ih _ (h.tail hposts)
        (fun r' hr' => hlines r' (List.mem_cons_of_mem _ hr')) hsettled₂
      refine ⟨tx', ?_, hsettled'⟩
      rw [LedgerTx.postAll, List.foldlM_cons]
      exact bind_eq_ok.mpr ⟨tx₂, bind_eq_ok.mpr ⟨(tx₁, posting), hpost, hflush⟩, hrest⟩

/-- Postings of accepted lines go through a ledger that is open for them. -/
theorem LedgerDb.OpenFor.request {db : LedgerDb} {env : Env} {requests : List PostRequest}
    (h : db.OpenFor env requests) (hlines : ∀ r ∈ requests, Accepted r.lines) :
    ∃ db', db.request (.operational env requests (.ok ())) = .ok db' := by
  obtain ⟨tx, hpost, hsettled⟩ := LedgerTx.postAll_ok ⟨db, []⟩ h hlines
    (fun e he => by cases he)
  have hcommit : tx.pending.forM (checkJournalBalanced tx.db.books) = .ok () := by
    refine forM_of_forall fun e he => ?_
    by_cases hposted : e.status = .posted
    · exact (hsettled e he hposted).2
    · exact if_pos hposted
  exact ⟨tx.db, bind_eq_ok.mpr ⟨tx, hpost, bind_eq_ok.mpr ⟨(), rfl, bind_eq_ok.mpr ⟨(), hcommit,
    rfl⟩⟩⟩⟩

/-! ## What a posting that went through tells of its lines -/

theorem JournalTx.insertLines_checked {tx tx' : JournalTx} {ls : List JournalEntryLine}
    (h : (ls.map RowChange.insertLine).foldlM JournalTx.apply tx = .ok tx') :
    ∀ l ∈ ls, l.check = .ok () := by
  induction ls generalizing tx with
  | nil =>
      intro l hl
      cases hl
  | cons l ls ih =>
      rw [List.map_cons, List.foldlM_cons] at h
      obtain ⟨tx₁, hfirst, h⟩ := bind_eq_ok.mp h
      obtain ⟨_, hcheck, -⟩ := bind_eq_ok.mp hfirst
      intro l' hl'
      rcases List.mem_cons.mp hl' with rfl | hl'
      · exact hcheck
      · exact ih h l' hl'

theorem JournalEntryLine.check_eq_ok {l : JournalEntryLine} :
    l.check = .ok () ↔ 0 < l.debit ∧ l.credit = 0 ∨ 0 < l.credit ∧ l.debit = 0 := by
  unfold JournalEntryLine.check
  split
  next h => exact iff_of_true rfl h
  next h => exact iff_of_false (fun hok => by cases hok) h

/-- The journal has taken the lines. -/
theorem LedgerTx.post_storable {tx tx₁ : LedgerTx} {env : Env} {r : PostRequest} {posting : Posting}
    (h : tx.post env r = .ok (tx₁, posting)) : Storable r.lines := by
  obtain ⟨_, -, h⟩ := bind_eq_ok.mp h
  obtain ⟨_, hbalanced, h⟩ := bind_eq_ok.mp h
  obtain ⟨_, -, h⟩ := bind_eq_ok.mp h
  obtain ⟨accounts, -, h⟩ := bind_eq_ok.mp h
  obtain ⟨_, -, h⟩ := bind_eq_ok.mp h
  obtain ⟨_, -, h⟩ := bind_eq_ok.mp h
  obtain ⟨_, -, h⟩ := bind_eq_ok.mp h
  obtain ⟨_, -, h⟩ := bind_eq_ok.mp h
  obtain ⟨ls, hls, h⟩ := bind_eq_ok.mp h
  obtain ⟨_, hinsert, -⟩ := bind_eq_ok.mp h
  have hchecked := JournalTx.insertLines_checked (LedgerTx.execute_eq_ok hinsert).1
  have hlines : ∀ line ∈ r.lines, ∃ row l, row.1 = line ∧ l ∈ ls ∧
      storeLine env r accounts row = .ok l := by
    intro line hline
    rw [← List.zipIdx_map_fst 0 r.lines] at hline
    obtain ⟨row, hrow, rfl⟩ := List.mem_map.mp hline
    obtain ⟨l, hl, hstored⟩ := exists_of_forall₂ (mapM_forall₂ hls).flip hrow
    exact ⟨row, l, rfl, hl, hstored⟩
  refine ⟨fun hnil => ?_, fun line hline => ?_, fun line hline => ?_⟩
  · have hsome := (requireBalanced_eq_ok.mp hbalanced).1
    rw [hnil] at hsome
    cases hsome
  · obtain ⟨row, l, rfl, hl, hstored⟩ := hlines line hline
    obtain ⟨_, -, hstored⟩ := bind_eq_ok.mp hstored
    obtain ⟨_, hdebit, hstored⟩ := bind_eq_ok.mp hstored
    obtain ⟨_, hcredit, hstored⟩ := bind_eq_ok.mp hstored
    cases hstored
    have hside := JournalEntryLine.check_eq_ok.mp (hchecked _ hl)
    rwa [(storeMoney_eq_ok hdebit).1, (storeMoney_eq_ok hcredit).1] at hside
  · obtain ⟨row, l, rfl, -, hstored⟩ := hlines line hline
    obtain ⟨_, -, hstored⟩ := bind_eq_ok.mp hstored
    obtain ⟨_, hdebit, hstored⟩ := bind_eq_ok.mp hstored
    obtain ⟨_, hcredit, -⟩ := bind_eq_ok.mp hstored
    exact ⟨(storeMoney_eq_ok hdebit).2, (storeMoney_eq_ok hcredit).2⟩

theorem LedgerDb.request_storable {db db' : LedgerDb} {env : Env} {requests : List PostRequest}
    {own : Except Err Unit} (h : db.request (.operational env requests own) = .ok db') :
    ∀ r ∈ requests, Storable r.lines := by
  obtain ⟨tx, hpost, -⟩ := bind_eq_ok.mp h
  have hall : ∀ (requests : List PostRequest) (tx tx' : LedgerTx),
      tx.postAll env requests = .ok tx' → ∀ r ∈ requests, Storable r.lines := by
    intro requests
    induction requests with
    | nil =>
        intro tx tx' h r hr
        cases hr
    | cons r requests ih =>
        intro tx tx' h r' hr'
        simp only [LedgerTx.postAll, List.foldlM_cons] at h
        obtain ⟨tx₁, hfirst, h⟩ := bind_eq_ok.mp h
        obtain ⟨⟨tx₂, posting⟩, hpost, -⟩ := bind_eq_ok.mp hfirst
        rcases List.mem_cons.mp hr' with rfl | hr'
        · exact LedgerTx.post_storable hpost
        · exact ih tx₁ tx' h r' hr'
  exact hall requests _ _ hpost

/-! ## A new ledger -/

theorem LedgerDb.Consistent.of_unposted {db : LedgerDb} (hentries : db.books.entries.rows = [])
    (hlines : db.books.lines.rows = []) : db.Consistent where
  linked := by constructor <;> simp [hlines]
  journals := by simp [hentries]
  periods := by simp [hentries]
  reversals := by simp [hentries]
  numbers := by simp [hentries]
  sources := by simp [hentries]
  drawn := by simp [hentries]

/-- A ledger that is set up, has no entries, and resolves the postings in an open period. -/
def LedgerDb.UnpostedFor (db : LedgerDb) (env : Env) (requests : List PostRequest) : Prop :=
  ((∀ row ∈ defaultAccounts, row.1 ∈ db.accounts.rows.map (·.code)) ∧
      db.journals.any (·.code = "GENERAL") = true) ∧
    (db.books.entries.rows = [] ∧ db.books.lines.rows = []) ∧
    ((requests.map (·.entryId)).Nodup ∧ (requests.flatMap PostRequest.lineIds).Nodup ∧
      (requests.map (·.source env)).Nodup) ∧
    ∀ r ∈ requests, (r.accountMap = [] ∧ ∀ line ∈ r.lines, db.resolves line.systemCode) ∧
      (db.periodForDate r.entryDate).any (·.status = .opened) = true

instance (db : LedgerDb) (env : Env) (requests : List PostRequest) :
    Decidable (db.UnpostedFor env requests) :=
  inferInstanceAs (Decidable (_ ∧ _))

theorem LedgerDb.UnpostedFor.openFor {db : LedgerDb} {env : Env} {requests : List PostRequest}
    (h : db.UnpostedFor env requests) : db.OpenFor env requests := by
  obtain ⟨⟨hcodes, hgeneral⟩, ⟨hentries, hlines⟩, ⟨hids, hlineIds, hsources⟩, hrequests⟩ := h
  refine ⟨⟨hcodes, hgeneral⟩, .of_unposted hentries hlines, ⟨⟨hids, fun r _ => ?_⟩,
    ⟨hlineIds, fun id _ => ?_⟩, ?_, ⟨hsources, ?_⟩⟩, fun r hr => (hrequests r hr).1, fun r hr => ?_⟩
  · exact Table.get_eq_none.mpr (by simp [hentries])
  · exact Table.get_eq_none.mpr (by simp [hlines])
  · simp [hentries]
  · simp [hentries]
  · obtain ⟨period, hperiod, hopened⟩ := (Option.any_eq_true _ _).mp (hrequests r hr).2
    exact ⟨period, hperiod, by simpa using hopened⟩

end Nexora.Accounting
