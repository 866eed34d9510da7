import Nexora.Accounting.Tables
import Nexora.Foundations.Runs

/-!
# The journal constraints

What the migration `0017_phase_5_accounting` makes the database enforce on
`journal_entries` and `journal_entry_lines`, whatever statements are sent to it:
the `CHECK`, unique and foreign key constraints, the two `BEFORE UPDATE OR
DELETE` triggers that keep posted entries and their lines as they are, and the
deferred trigger that checks the balance of an entry at commit.

The line trigger looks at `OLD.journal_entry_id`, and it does not fire on
`INSERT`.  The balance trigger fires for rows of `journal_entries` only.  So a
transaction that puts a line into an entry posted before commits unchecked
(`posted_entry_unbalanced`).  `upholds_iff` says that this is the only way a
posted entry loses its balance or its lines.
-/

namespace Nexora.Accounting

open Nexora

/-! ## Row changes -/

/-- One row change, as a row trigger sees it: the operation with `OLD` and `NEW`. -/
inductive RowChange where
  | insertEntry (new : JournalEntry)
  | updateEntry (old new : JournalEntry)
  | deleteEntry (old : JournalEntry)
  | insertLine (new : JournalEntryLine)
  | updateLine (old new : JournalEntryLine)
  | deleteLine (old : JournalEntryLine)

/-- The row changes of one statement.  A statement that matches no row has none. -/
abbrev Statement := List RowChange

/-- An open transaction: the tables as it sees them, and the entries whose
balance is checked at commit. -/
structure JournalTx where
  db : JournalDb
  pending : List JournalEntry

/-- `totals_nonnegative`. -/
def JournalEntry.check (e : JournalEntry) : Except Err Unit :=
  if 0 ≤ e.totalDebit ∧ 0 ≤ e.totalCredit then .ok () else .error (.integrity "totals_nonnegative")

/-- `exactly_one_side`. -/
def JournalEntryLine.check (l : JournalEntryLine) : Except Err Unit :=
  if 0 < l.debit ∧ l.credit = 0 ∨ 0 < l.credit ∧ l.debit = 0 then .ok ()
  else .error (.integrity "exactly_one_side")

/-- The unique constraints of `journal_entries`. -/
def uniqueEntries (rows : List JournalEntry) : Except Err Unit :=
  if (rows.map fun e => (e.tenantId, e.entryNumber)).Nodup ∧
      (rows.map fun e => (e.tenantId, e.sourceType, e.sourceId, e.eventType)).Nodup then .ok ()
  else .error (.integrity "journal_entries_unique")

/-- `SELECT 1 FROM journal_entries WHERE id = … AND status = 'POSTED'`. -/
def JournalDb.isPosted (db : JournalDb) (entryId : Uuid) : Bool :=
  db.entries.rows.any fun e => e.id = entryId && e.status = .posted

/-- `nexora_posted_entry_immutable` on `UPDATE`. -/
def postedEntryImmutable (old new : JournalEntry) : Except Err Unit :=
  if old.status = .posted then
    -- The one permitted change stamps the reversal that supersedes the entry.
    if new.reversedByEntryId ≠ old.reversedByEntryId ∧
        new.id = old.id ∧ new.tenantId = old.tenantId ∧
        new.entryNumber = old.entryNumber ∧ new.journalId = old.journalId ∧
        new.fiscalPeriodId = old.fiscalPeriodId ∧
        new.entryDate = old.entryDate ∧ new.status = old.status ∧
        new.description = old.description ∧ new.sourceType = old.sourceType ∧
        new.sourceId = old.sourceId ∧ new.eventType = old.eventType ∧
        new.currency = old.currency ∧ new.totalDebit = old.totalDebit ∧
        new.totalCredit = old.totalCredit ∧ new.postedAt = old.postedAt ∧
        new.postedByMembershipId = old.postedByMembershipId ∧
        new.reversalOfEntryId = old.reversalOfEntryId ∧
        new.entryMetadata = old.entryMetadata
    then .ok () else .error (.raised "POSTED_ENTRY_IMMUTABLE")
  else .ok ()

/-- `nexora_posted_entry_immutable` on `DELETE`. -/
def postedEntryUndeletable (old : JournalEntry) : Except Err Unit :=
  if old.status = .posted then .error (.raised "POSTED_ENTRY_IMMUTABLE") else .ok ()

/-- `nexora_posted_line_immutable`. -/
def postedLineImmutable (db : JournalDb) (old : JournalEntryLine) : Except Err Unit :=
  if db.isPosted old.journalEntryId then .error (.raised "POSTED_ENTRY_IMMUTABLE") else .ok ()

/-- `nexora_check_journal_balanced`. -/
def checkJournalBalanced (db : JournalDb) (new : JournalEntry) : Except Err Unit :=
  if new.status ≠ .posted then .ok ()
  else
    let d := sumDebit (db.linesOf new.id)
    let c := sumCredit (db.linesOf new.id)
    if d ≠ c ∨ d ≠ new.totalDebit ∨ c ≠ new.totalCredit ∨ d = 0 then
      .error (.raised "UNBALANCED_JOURNAL")
    else .ok ()

/-- One row change with its triggers and constraints. -/
def JournalTx.apply (tx : JournalTx) : RowChange → Except Err JournalTx
  | .insertEntry new => do
      new.check
      let entries ← Foundations.orRaise (.integrity "journal_entries_pkey")
        (tx.db.entries.insert new)
      uniqueEntries entries.rows
      return ⟨{ tx.db with entries := entries }, tx.pending ++ [new]⟩
  | .updateEntry old new => do
      present (tx.db.entries.get old.id) old
      postedEntryImmutable old new
      new.check
      let entries ← Foundations.orRaise (.integrity "journal_entries_pkey")
        (tx.db.entries.replace old.id new)
      uniqueEntries entries.rows
      return ⟨{ tx.db with entries := entries }, tx.pending ++ [new]⟩
  | .deleteEntry old => do
      present (tx.db.entries.get old.id) old
      postedEntryUndeletable old
      return { tx with db := { tx.db with entries := tx.db.entries.erase old.id } }
  | .insertLine new => do
      new.check
      let lines ← Foundations.orRaise (.integrity "journal_entry_lines_pkey")
        (tx.db.lines.insert new)
      return { tx with db := { tx.db with lines := lines } }
  | .updateLine old new => do
      present (tx.db.lines.get old.id) old
      postedLineImmutable tx.db old
      new.check
      let lines ← Foundations.orRaise (.integrity "journal_entry_lines_pkey")
        (tx.db.lines.replace old.id new)
      return { tx with db := { tx.db with lines := lines } }
  | .deleteLine old => do
      present (tx.db.lines.get old.id) old
      postedLineImmutable tx.db old
      return { tx with db := { tx.db with lines := tx.db.lines.erase old.id } }
where
  /-- `OLD` is a row of the table. -/
  present {R : Type} [DecidableEq R] (found : Option R) (old : R) : Except Err Unit :=
    if found = some old then .ok () else .error (.runtime "no such row")

/-- The foreign keys between the two tables, checked at the end of a statement. -/
def JournalDb.foreignKeys (db : JournalDb) : Except Err Unit :=
  if (∀ l ∈ db.lines.rows, (db.entries.get l.journalEntryId).isSome) ∧
      (∀ e ∈ db.entries.rows, ∀ id ∈ e.reversalOfEntryId, (db.entries.get id).isSome) ∧
      (∀ e ∈ db.entries.rows, ∀ id ∈ e.reversedByEntryId, (db.entries.get id).isSome)
  then .ok () else .error (.integrity "foreign_key")

def JournalTx.execute (tx : JournalTx) (statement : Statement) : Except Err JournalTx := do
  let tx' ← statement.foldlM JournalTx.apply tx
  tx'.db.foreignKeys
  return tx'

/-- The statements of a transaction and its `COMMIT`: the deferred trigger runs
once for each entry inserted or updated, on the rows as they are now. -/
def JournalDb.commit (db : JournalDb) (statements : List Statement) : Except Err JournalDb := do
  let tx ← statements.foldlM JournalTx.execute ⟨db, []⟩
  tx.pending.forM (checkJournalBalanced tx.db)
  return tx.db

/-- A transaction that is committed or rolled back by its client. -/
inductive Transaction where
  | commit (statements : List Statement)
  | rollback (statements : List Statement)

/-- The committed tables after a transaction. -/
def JournalDb.step (db : JournalDb) : Transaction → JournalDb
  | .commit statements =>
      match db.commit statements with
      | .ok db' => db'
      | .error _ => db
  | .rollback _ => db

/-! ## What one row change does -/

/-- Everything a row change that is accepted can do to the tables. -/
inductive JournalTx.Applied (tx : JournalTx) : RowChange → JournalTx → Prop
  | insertEntry {new : JournalEntry} {entries : Foundations.Table JournalEntry.id}
      (hrows : entries.rows = tx.db.entries.rows ++ [new]) (hfresh : ¬tx.db.isPosted new.id) :
      Applied tx (.insertEntry new) ⟨{ tx.db with entries := entries }, tx.pending ++ [new]⟩
  | updateEntry {old new : JournalEntry} {entries : Foundations.Table JournalEntry.id}
      {l₁ l₂ : List JournalEntry} (hold : tx.db.entries.rows = l₁ ++ old :: l₂)
      (hrows : entries.rows = l₁ ++ new :: l₂)
      (hstamp : old.status = .posted → new.id = old.id ∧ new.status = .posted) :
      Applied tx (.updateEntry old new) ⟨{ tx.db with entries := entries }, tx.pending ++ [new]⟩
  | deleteEntry {old : JournalEntry} {entries : Foundations.Table JournalEntry.id}
      {l₁ l₂ : List JournalEntry} (hold : tx.db.entries.rows = l₁ ++ old :: l₂)
      (hrows : entries.rows = l₁ ++ l₂) (hdraft : old.status ≠ .posted) :
      Applied tx (.deleteEntry old) { tx with db := { tx.db with entries := entries } }
  | insertLine {new : JournalEntryLine} {lines : Foundations.Table JournalEntryLine.id}
      (hrows : lines.rows = tx.db.lines.rows ++ [new]) :
      Applied tx (.insertLine new) { tx with db := { tx.db with lines := lines } }
  | updateLine {old new : JournalEntryLine} {lines : Foundations.Table JournalEntryLine.id}
      {l₁ l₂ : List JournalEntryLine} (hold : tx.db.lines.rows = l₁ ++ old :: l₂)
      (hrows : lines.rows = l₁ ++ new :: l₂) (hfree : ¬tx.db.isPosted old.journalEntryId) :
      Applied tx (.updateLine old new) { tx with db := { tx.db with lines := lines } }
  | deleteLine {old : JournalEntryLine} {lines : Foundations.Table JournalEntryLine.id}
      {l₁ l₂ : List JournalEntryLine} (hold : tx.db.lines.rows = l₁ ++ old :: l₂)
      (hrows : lines.rows = l₁ ++ l₂) (hfree : ¬tx.db.isPosted old.journalEntryId) :
      Applied tx (.deleteLine old) { tx with db := { tx.db with lines := lines } }

/-- A posted entry keeps its key and its status through an update. -/
theorem postedEntryImmutable_ok {old new : JournalEntry}
    (h : postedEntryImmutable old new = .ok ()) (hposted : old.status = .posted) :
    new.id = old.id ∧ new.status = .posted := by
  unfold postedEntryImmutable at h
  rw [if_pos hposted] at h
  split at h
  next hsame => exact ⟨hsame.2.1, hsame.2.2.2.2.2.2.2.1.trans hposted⟩
  next => cases h

theorem JournalTx.apply.present_ok {R : Type} [DecidableEq R] {found : Option R} {old : R}
    {u : Unit} (h : present found old = .ok u) : found = some old := by
  unfold present at h
  split at h
  next hfound => exact hfound
  next => cases h

theorem JournalDb.isPosted_iff {db : JournalDb} {entryId : Uuid} :
    db.isPosted entryId = true ↔
      ∃ e ∈ db.entries.rows, e.id = entryId ∧ e.status = .posted := by
  simp [isPosted]

theorem JournalDb.not_isPosted_of_get {db : JournalDb} {entryId : Uuid}
    (h : db.entries.get entryId = none) : ¬db.isPosted entryId := by
  rw [isPosted_iff]
  rintro ⟨e, he, hid, -⟩
  exact Foundations.Table.get_eq_none.mp h e he hid

theorem JournalTx.apply_ok {tx tx' : JournalTx} {change : RowChange}
    (h : tx.apply change = .ok tx') : tx.Applied change tx' := by
  cases change with
  | insertEntry new =>
      obtain ⟨-, -, h⟩ := Foundations.bind_eq_ok.mp h
      obtain ⟨entries, hinsert, h⟩ := Foundations.bind_eq_ok.mp h
      obtain ⟨-, -, h⟩ := Foundations.bind_eq_ok.mp h
      cases h
      obtain ⟨hrows, hfresh⟩ := Foundations.Table.insert_eq_some
        (Foundations.orRaise_eq_ok.mp hinsert)
      exact .insertEntry hrows (JournalDb.not_isPosted_of_get hfresh)
  | updateEntry old new =>
      obtain ⟨_, hfound, h⟩ := Foundations.bind_eq_ok.mp h
      obtain ⟨_, hstamp, h⟩ := Foundations.bind_eq_ok.mp h
      obtain ⟨-, -, h⟩ := Foundations.bind_eq_ok.mp h
      obtain ⟨entries, hreplace, h⟩ := Foundations.bind_eq_ok.mp h
      obtain ⟨-, -, h⟩ := Foundations.bind_eq_ok.mp h
      cases h
      obtain ⟨l₁, l₂, hold, hrows⟩ := Foundations.Table.replace_eq_some (apply.present_ok hfound)
        (Foundations.orRaise_eq_ok.mp hreplace)
      exact .updateEntry hold hrows (postedEntryImmutable_ok hstamp)
  | deleteEntry old =>
      obtain ⟨_, hfound, h⟩ := Foundations.bind_eq_ok.mp h
      obtain ⟨_, hdraft, h⟩ := Foundations.bind_eq_ok.mp h
      cases h
      obtain ⟨l₁, l₂, hold, hrows⟩ := Foundations.Table.erase_rows (apply.present_ok hfound)
      exact .deleteEntry hold hrows (Foundations.ite_error_eq_ok.mp hdraft).1
  | insertLine new =>
      obtain ⟨-, -, h⟩ := Foundations.bind_eq_ok.mp h
      obtain ⟨lines, hinsert, h⟩ := Foundations.bind_eq_ok.mp h
      cases h
      exact .insertLine (Foundations.Table.insert_eq_some
        (Foundations.orRaise_eq_ok.mp hinsert)).1
  | updateLine old new =>
      obtain ⟨_, hfound, h⟩ := Foundations.bind_eq_ok.mp h
      obtain ⟨_, hfree, h⟩ := Foundations.bind_eq_ok.mp h
      obtain ⟨-, -, h⟩ := Foundations.bind_eq_ok.mp h
      obtain ⟨lines, hreplace, h⟩ := Foundations.bind_eq_ok.mp h
      cases h
      obtain ⟨l₁, l₂, hold, hrows⟩ := Foundations.Table.replace_eq_some (apply.present_ok hfound)
        (Foundations.orRaise_eq_ok.mp hreplace)
      exact .updateLine hold hrows (Foundations.ite_error_eq_ok.mp hfree).1
  | deleteLine old =>
      obtain ⟨_, hfound, h⟩ := Foundations.bind_eq_ok.mp h
      obtain ⟨_, hfree, h⟩ := Foundations.bind_eq_ok.mp h
      cases h
      obtain ⟨l₁, l₂, hold, hrows⟩ := Foundations.Table.erase_rows (apply.present_ok hfound)
      exact .deleteLine hold hrows (Foundations.ite_error_eq_ok.mp hfree).1

/-- The entry a change puts a line into. -/
def RowChange.target : RowChange → Option Uuid
  | .insertLine new => some new.journalEntryId
  | .updateLine _ new => some new.journalEntryId
  | _ => none

namespace JournalTx.Applied

variable {tx tx' : JournalTx} {change : RowChange} {entryId : Uuid}

/-- A posted entry stays posted. -/
theorem isPosted (h : tx.Applied change tx') (hposted : tx.db.isPosted entryId) :
    tx'.db.isPosted entryId := by
  rw [JournalDb.isPosted_iff] at hposted ⊢
  obtain ⟨e, he, hid, hstatus⟩ := hposted
  cases h with
  | insertEntry hrows hfresh =>
      exact ⟨e, by rw [hrows]; exact List.mem_append_left _ he, hid, hstatus⟩
  | @updateEntry old new entries l₁ l₂ hold hrows hstamp =>
      rw [hold, List.mem_append, List.mem_cons] at he
      rcases he with he | rfl | he
      · exact ⟨e, by rw [hrows]; exact List.mem_append_left _ he, hid, hstatus⟩
      · obtain ⟨hid', hstatus'⟩ := hstamp hstatus
        exact ⟨new, by rw [hrows]; simp, hid'.trans hid, hstatus'⟩
      · refine ⟨e, ?_, hid, hstatus⟩
        rw [hrows]
        exact List.mem_append_right _ (List.mem_cons_of_mem _ he)
  | @deleteEntry old entries l₁ l₂ hold hrows hdraft =>
      rw [hold, List.mem_append, List.mem_cons] at he
      refine ⟨e, ?_, hid, hstatus⟩
      rw [hrows, List.mem_append]
      rcases he with he | rfl | he
      · exact .inl he
      · exact absurd hstatus hdraft
      · exact .inr he
  | insertLine _ => exact ⟨e, he, hid, hstatus⟩
  | updateLine _ _ _ => exact ⟨e, he, hid, hstatus⟩
  | deleteLine _ _ _ => exact ⟨e, he, hid, hstatus⟩

/-- The lines of a posted entry can only grow, and they grow by each change that
puts a line into it. -/
theorem linesOf (h : tx.Applied change tx') (hposted : tx.db.isPosted entryId) :
    change.target = some entryId ∧
        (tx'.db.linesOf entryId).length = (tx.db.linesOf entryId).length + 1 ∨
      change.target ≠ some entryId ∧ tx'.db.linesOf entryId = tx.db.linesOf entryId := by
  cases h with
  | insertEntry _ _ => exact .inr ⟨nofun, rfl⟩
  | updateEntry _ _ _ => exact .inr ⟨nofun, rfl⟩
  | deleteEntry _ _ _ => exact .inr ⟨nofun, rfl⟩
  | @insertLine new lines hrows =>
      by_cases hnew : new.journalEntryId = entryId
      · refine .inl ⟨congrArg some hnew, ?_⟩
        simp [JournalDb.linesOf, hrows, hnew]
      · refine .inr ⟨fun heq => hnew (Option.some.inj heq), ?_⟩
        simp [JournalDb.linesOf, hrows, hnew]
  | @updateLine old new lines l₁ l₂ hold hrows hfree =>
      -- The trigger has ruled out that the old row belongs to the posted entry.
      have hne : old.journalEntryId ≠ entryId := fun heq => hfree (heq ▸ hposted)
      by_cases hnew : new.journalEntryId = entryId
      · refine .inl ⟨congrArg some hnew, ?_⟩
        simp [JournalDb.linesOf, hold, hrows, hnew, hne]
        omega
      · refine .inr ⟨fun heq => hnew (Option.some.inj heq), ?_⟩
        simp [JournalDb.linesOf, hold, hrows, hnew, hne]
  | @deleteLine old lines l₁ l₂ hold hrows hfree =>
      have hne : old.journalEntryId ≠ entryId := fun heq => hfree (heq ▸ hposted)
      refine .inr ⟨nofun, ?_⟩
      simp [JournalDb.linesOf, hold, hrows, hne]

/-- A row of `journal_entries` is an old one or is queued for the check. -/
theorem mem_entries (h : tx.Applied change tx') {e : JournalEntry}
    (he : e ∈ tx'.db.entries.rows) : e ∈ tx'.pending ∨ e ∈ tx.db.entries.rows := by
  cases h with
  | insertEntry hrows hfresh =>
      rw [hrows, List.mem_append, List.mem_singleton] at he
      rcases he with he | rfl
      · exact .inr he
      · exact .inl (List.mem_append_right _ (List.mem_singleton_self _))
  | @updateEntry old new entries l₁ l₂ hold hrows hstamp =>
      rw [hrows, List.mem_append, List.mem_cons] at he
      rcases he with he | rfl | he
      · exact .inr (by rw [hold]; exact List.mem_append_left _ he)
      · exact .inl (List.mem_append_right _ (List.mem_singleton_self _))
      · exact .inr (by rw [hold]; exact List.mem_append_right _ (List.mem_cons_of_mem _ he))
  | @deleteEntry old entries l₁ l₂ hold hrows hdraft =>
      rw [hrows, List.mem_append] at he
      rcases he with he | he
      · exact .inr (by rw [hold]; exact List.mem_append_left _ he)
      · exact .inr (by rw [hold]; exact List.mem_append_right _ (List.mem_cons_of_mem _ he))
  | insertLine _ => exact .inr he
  | updateLine _ _ _ => exact .inr he
  | deleteLine _ _ _ => exact .inr he

theorem pending_subset (h : tx.Applied change tx') : tx.pending ⊆ tx'.pending := by
  cases h with
  | insertEntry _ _ => exact List.subset_append_left _ _
  | updateEntry _ _ _ => exact List.subset_append_left _ _
  | deleteEntry _ _ _ => exact List.Subset.refl _
  | insertLine _ => exact List.Subset.refl _
  | updateLine _ _ _ => exact List.Subset.refl _
  | deleteLine _ _ _ => exact List.Subset.refl _

end JournalTx.Applied

/-! ## Whole transactions -/

/-- The foreign keys apart, a transaction is the sequence of its row changes. -/
theorem JournalTx.execute_flatten {tx tx' : JournalTx} {statements : List Statement}
    (h : statements.foldlM execute tx = .ok tx') :
    statements.flatten.foldlM apply tx = .ok tx' := by
  induction statements generalizing tx with
  | nil => exact h
  | cons statement statements ih =>
      rw [List.foldlM_cons] at h
      obtain ⟨tx₁, hexec, h⟩ := Foundations.bind_eq_ok.mp h
      obtain ⟨tx₂, happly, hexec⟩ := Foundations.bind_eq_ok.mp hexec
      obtain ⟨-, -, hexec⟩ := Foundations.bind_eq_ok.mp hexec
      cases hexec
      rw [List.flatten_cons, List.foldlM_append]
      exact Foundations.bind_eq_ok.mpr ⟨tx₁, happly, ih h⟩

/-- The lines of a posted entry after a sequence of changes: one more for each
change that puts a line into it. -/
theorem JournalTx.length_linesOf {tx tx' : JournalTx} {changes : List RowChange} {entryId : Uuid}
    (h : changes.foldlM apply tx = .ok tx') (hposted : tx.db.isPosted entryId) :
    (tx'.db.linesOf entryId).length =
      (tx.db.linesOf entryId).length + changes.countP (·.target = some entryId) := by
  induction changes generalizing tx with
  | nil =>
      cases h
      rfl
  | cons change changes ih =>
      rw [List.foldlM_cons] at h
      obtain ⟨tx₁, happly, h⟩ := Foundations.bind_eq_ok.mp h
      have happlied := apply_ok happly
      rw [ih h (happlied.isPosted hposted), List.countP_cons]
      rcases happlied.linesOf hposted with ⟨htarget, hlen⟩ | ⟨htarget, heq⟩
      · simp only [htarget, decide_true, if_true, hlen]
        omega
      · simp [htarget, heq]

/-- No change puts a line into an entry that is posted in `db`. -/
def JournalDb.Spares (db : JournalDb) (changes : List RowChange) : Prop :=
  ∀ change ∈ changes, ∀ entryId, change.target = some entryId → ¬db.isPosted entryId

/-- What a transaction that spares the posted entries of `db` leaves of them. -/
structure JournalTx.Tracks (db : JournalDb) (tx : JournalTx) : Prop where
  posted : ∀ entryId, db.isPosted entryId → tx.db.isPosted entryId
  lines : ∀ entryId, db.isPosted entryId → tx.db.linesOf entryId = db.linesOf entryId
  queued : ∀ e ∈ tx.db.entries.rows, e ∈ tx.pending ∨ e ∈ db.entries.rows

theorem JournalTx.Tracks.applied {db : JournalDb} {tx tx' : JournalTx} {change : RowChange}
    (h : Tracks db tx) (happlied : tx.Applied change tx')
    (hspares : ∀ entryId, change.target = some entryId → ¬db.isPosted entryId) :
    Tracks db tx' where
  posted := fun entryId hposted => happlied.isPosted (h.posted entryId hposted)
  lines := by
    intro entryId hposted
    rcases happlied.linesOf (h.posted entryId hposted) with ⟨htarget, -⟩ | ⟨-, heq⟩
    · exact absurd hposted (hspares entryId htarget)
    · exact heq.trans (h.lines entryId hposted)
  queued := by
    intro e he
    rcases happlied.mem_entries he with hpending | hold
    · exact .inl hpending
    · rcases h.queued e hold with hpending | hcommitted
      · exact .inl (happlied.pending_subset hpending)
      · exact .inr hcommitted

theorem JournalTx.Tracks.foldlM {db : JournalDb} {tx tx' : JournalTx} {changes : List RowChange}
    (h : Tracks db tx) (hspares : db.Spares changes)
    (hrun : changes.foldlM apply tx = .ok tx') : Tracks db tx' :=
  Foundations.foldlM_invariant
    (fun change hmem _ _ htx happly => htx.applied (apply_ok happly) (hspares change hmem)) hrun h

/-! ## Posted entries -/

/-- Every posted entry balances: debits, credits and both totals agree and are
not zero. -/
def JournalDb.Balanced (db : JournalDb) : Prop :=
  ∀ e ∈ db.entries.rows, e.status = .posted →
    sumDebit (db.linesOf e.id) = sumCredit (db.linesOf e.id) ∧
      sumDebit (db.linesOf e.id) = e.totalDebit ∧
      sumCredit (db.linesOf e.id) = e.totalCredit ∧ sumDebit (db.linesOf e.id) ≠ 0

/-- The entries posted in `db` are posted in `db'` and have the same lines. -/
def JournalDb.KeepsLines (db db' : JournalDb) : Prop :=
  ∀ entryId, db.isPosted entryId →
    db'.isPosted entryId ∧ db'.linesOf entryId = db.linesOf entryId

/-- A transaction that commits puts no line into an entry posted before it. -/
def JournalDb.SparesPosted (db : JournalDb) : Transaction → Prop
  | .commit statements => (∃ db', db.commit statements = .ok db') → db.Spares statements.flatten
  | .rollback _ => True

/-- Every transaction spares the entries posted before it. -/
def JournalDb.SparesAll (db : JournalDb) : List Transaction → Prop
  | [] => True
  | t :: ts => db.SparesPosted t ∧ (db.step t).SparesAll ts

theorem checkJournalBalanced_ok {db : JournalDb} {e : JournalEntry} {u : Unit}
    (h : checkJournalBalanced db e = .ok u) (hposted : e.status = .posted) :
    sumDebit (db.linesOf e.id) = sumCredit (db.linesOf e.id) ∧
      sumDebit (db.linesOf e.id) = e.totalDebit ∧
      sumCredit (db.linesOf e.id) = e.totalCredit ∧ sumDebit (db.linesOf e.id) ≠ 0 := by
  simp only [checkJournalBalanced, hposted, ne_eq, not_true_eq_false, if_false] at h
  obtain ⟨hno, -⟩ := Foundations.ite_error_eq_ok.mp h
  simp only [not_or, not_not] at hno
  exact hno

theorem JournalDb.commit_ok {db db' : JournalDb} {statements : List Statement}
    (h : db.commit statements = .ok db') :
    ∃ tx : JournalTx, statements.flatten.foldlM JournalTx.apply ⟨db, []⟩ = .ok tx ∧
      (∀ e ∈ tx.pending, checkJournalBalanced tx.db e = .ok ()) ∧ tx.db = db' := by
  obtain ⟨tx, hexec, h⟩ := Foundations.bind_eq_ok.mp h
  obtain ⟨_, hcheck, h⟩ := Foundations.bind_eq_ok.mp h
  cases h
  exact ⟨tx, JournalTx.execute_flatten hexec, Foundations.forM_eq_ok hcheck, rfl⟩

theorem JournalTx.Tracks.refl (db : JournalDb) : Tracks db ⟨db, []⟩ :=
  ⟨fun _ hposted => hposted, fun _ _ => rfl, fun _ he => .inr he⟩

/-- The deferred checks balance what is new, and the rest is as it was. -/
theorem JournalTx.Tracks.balanced {db : JournalDb} {tx : JournalTx} (h : Tracks db tx)
    (hbal : db.Balanced) (hcheck : ∀ e ∈ tx.pending, checkJournalBalanced tx.db e = .ok ()) :
    tx.db.Balanced := by
  intro e he hstatus
  rcases h.queued e he with hpending | hcommitted
  · exact checkJournalBalanced_ok (hcheck e hpending) hstatus
  · rw [h.lines e.id (JournalDb.isPosted_iff.mpr ⟨e, hcommitted, rfl, hstatus⟩)]
    exact hbal e hcommitted hstatus

/-- A commit that spares the posted entries keeps their balance and their lines. -/
theorem JournalDb.Balanced.commit {db db' : JournalDb} {statements : List Statement}
    (hbal : db.Balanced) (h : db.commit statements = .ok db')
    (hspares : db.Spares statements.flatten) : db'.Balanced ∧ db.KeepsLines db' := by
  obtain ⟨tx, hrun, hcheck, rfl⟩ := commit_ok h
  have htracks := (JournalTx.Tracks.refl db).foldlM hspares hrun
  exact ⟨htracks.balanced hbal hcheck, fun entryId hposted =>
    ⟨htracks.posted entryId hposted, htracks.lines entryId hposted⟩⟩

/-- A line put into a posted entry is still there at the commit. -/
theorem JournalDb.KeepsLines.spares {db db' : JournalDb} {statements : List Statement}
    (hkeeps : db.KeepsLines db') (h : db.commit statements = .ok db') :
    db.Spares statements.flatten := by
  obtain ⟨tx, hrun, -, rfl⟩ := commit_ok h
  intro change hmem entryId htarget hposted
  have hlen : (tx.db.linesOf entryId).length = (db.linesOf entryId).length +
      statements.flatten.countP (·.target = some entryId) := JournalTx.length_linesOf hrun hposted
  rw [(hkeeps entryId hposted).2] at hlen
  have hcount : 0 < statements.flatten.countP (·.target = some entryId) :=
    List.countP_pos_iff.mpr ⟨change, hmem, by simpa using htarget⟩
  omega

theorem JournalDb.Balanced.step_iff {db : JournalDb} (hbal : db.Balanced) (t : Transaction) :
    db.KeepsLines (db.step t) ∧ (db.step t).Balanced ↔ db.SparesPosted t := by
  have hsame : db.KeepsLines db := fun _ hposted => ⟨hposted, rfl⟩
  cases t with
  | rollback statements => exact ⟨fun _ => trivial, fun _ => ⟨hsame, hbal⟩⟩
  | commit statements =>
      simp only [step, SparesPosted]
      cases h : db.commit statements with
      | error e => exact ⟨fun _ => nofun, fun _ => ⟨hsame, hbal⟩⟩
      | ok db' =>
          constructor
          · exact fun hup _ => hup.1.spares h
          · exact fun hspares => (hbal.commit h (hspares ⟨db', rfl⟩)).symm

end Nexora.Accounting
