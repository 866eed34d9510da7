import Nexora.Accounting.Reports
import Nexora.Accounting.Requests
import Nexora.Foundations.Delimited

/-!
# Reversals

A reversal posts the lines of an entry with debits and credits swapped, and links the two
entries (`reverse`).  The entry is locked until the transaction ends, so no other request
reverses it meanwhile, and the lines of a posted entry never change, so those that were copied
are those it has at the commit.

`reversed_once` is about every interleaving of the requests of `ledger`.
-/

namespace Nexora.Accounting

open Nexora Foundations

/-! ## Entries and their reversals -/

/-- Debit minus credit of an entry on an account. -/
def JournalDb.balanceOn (db : JournalDb) (entryId accountId : Uuid) : Money :=
  (((db.linesOf entryId).filter (·.accountId = accountId)).map (·.amount)).sum

/-- Every reversal and the entry that it reverses name each other, the reversal is not the
earlier one, and together they leave every account as it was. -/
structure LedgerDb.Reversals (db : LedgerDb) : Prop where
  linked : db.Linked
  posted : ∀ id e, db.books.entries.get id = some e → e.status = .posted
  reverses : ∀ id e originalId, db.books.entries.get id = some e →
    e.reversalOfEntryId = some originalId →
      ∃ original, db.books.entries.get originalId = some original ∧
        original.reversedByEntryId = some id ∧ original.entryDate ≤ e.entryDate ∧
        ∀ accountId, db.books.balanceOn originalId accountId + db.books.balanceOn id accountId = 0
  reversed : ∀ id original reversalId, db.books.entries.get id = some original →
    original.reversedByEntryId = some reversalId →
      ∃ e, db.books.entries.get reversalId = some e ∧ e.reversalOfEntryId = some id

theorem LedgerDb.reversals_empty : LedgerDb.empty.Reversals :=
  ⟨linked_empty, nofun, nofun, nofun⟩

theorem LedgerDb.Grows.balanceOn {db db' : LedgerDb} (h : db.Grows db') {id : Uuid}
    (hid : (db.books.entries.get id).isSome) (accountId : Uuid) :
    db'.books.balanceOn id accountId = db.books.balanceOn id accountId := by
  rw [JournalDb.balanceOn, h.lines id hid, JournalDb.balanceOn]

theorem LedgerDb.Reversals.grow {db db' : LedgerDb} (h : db.Reversals) (hgrow : db.Grows db') :
    db'.Reversals where
  linked := hgrow.linked h.linked
  posted id e he := by
    rcases hgrow.added id e he with he | hnew
    · exact h.posted id e he
    · exact hnew.1
  reverses id e originalId he hof := by
    rcases hgrow.added id e he with he | hnew
    · obtain ⟨original, horiginal, hby, hdate, hbalance⟩ := h.reverses id e originalId he hof
      refine ⟨original, hgrow.kept _ _ horiginal, hby, hdate, fun accountId => ?_⟩
      rw [hgrow.balanceOn (by rw [horiginal]; rfl), hgrow.balanceOn (by rw [he]; rfl)]
      exact hbalance accountId
    · rw [hnew.2.1] at hof
      cases hof
  reversed id original reversalId horiginal hby := by
    rcases hgrow.added id original horiginal with horiginal | hnew
    · obtain ⟨e, he, hof⟩ := h.reversed id original reversalId horiginal hby
      exact ⟨e, hgrow.kept _ _ he, hof⟩
    · rw [hnew.2.2] at hby
      cases hby

/-! ## The lines of a reversal -/

/-- The entry that `reverse` has locked. -/
structure LedgerDb.Reversible (db : LedgerDb) (original : JournalEntry) (reversalDate : Date) :
    Prop where
  row : db.books.entries.get original.id = some original
  unreversed : original.reversedByEntryId = none
  date : original.entryDate ≤ reversalDate

/-- The posting that `reverse` makes for the entry. -/
structure LedgerDb.Copies (db : LedgerDb) (original : JournalEntry) (r : PostRequest) : Prop where
  reversible : db.Reversible original r.entryDate
  lines : ∃ lines, lines.Perm (db.books.linesOf original.id) ∧
    List.Forall₂ (fun (l : JournalEntryLine) (line : PostingLine) =>
      line.systemCode = "REV:" ++ toString l.accountId ∧ line.debit = (l.credit : ℚ) / 10 ^ 4 ∧
        line.credit = (l.debit : ℚ) / 10 ^ 4) lines r.lines
  accounts : ∀ l ∈ db.books.linesOf original.id, r.accountMap ≠ []
  keyed : ∀ row ∈ r.accountMap, row.1 = "REV:" ++ toString row.2.id

/-- The accounts that the lines of the reversal are posted to. -/
def LedgerDb.SameAccounts (db : LedgerDb) (original : JournalEntry)
    (accounts : List (String × Account)) : Prop :=
  ∀ l ∈ db.books.linesOf original.id, ∀ a,
    accounts.lookup ("REV:" ++ toString l.accountId) = some a → a.id = l.accountId

theorem LedgerDb.reversible_eq_ok {db : LedgerDb} {r : ReversalRequest} {original : JournalEntry}
    (h : db.reversible r = .ok original) :
    db.Reversible original r.reversalDate ∧ original.id = r.entryId := by
  unfold LedgerDb.reversible at h
  split at h
  next => cases h
  next found hfound =>
    obtain ⟨hunreversed, h⟩ := ite_error_eq_ok.mp h
    obtain ⟨hdate, h⟩ := ite_error_eq_ok.mp h
    cases h
    exact ⟨⟨Table.get_self hfound, by simpa using hunreversed, by simpa using hdate⟩,
      (Table.get_mem hfound).2⟩

theorem ReversalRequest.copies {db : LedgerDb} {r : ReversalRequest} {original : JournalEntry}
    {lines : List JournalEntryLine} (hreversible : db.Reversible original r.reversalDate)
    (hlinked : db.Linked) (hlines : lines.Perm (db.books.linesOf original.id)) :
    db.Copies original (r.copy original lines db.accounts.rows) where
  reversible := hreversible
  lines := ⟨lines, hlines,
    List.forall₂_map_right_iff.mpr (List.forall₂_same.mpr fun l _ => ⟨rfl, rfl, rfl⟩)⟩
  accounts := by
    intro l hl hnone
    have hsome := hlinked.accounts l (List.mem_of_mem_filter hl)
    have hrows : db.accounts.rows = [] := List.map_eq_nil_iff.mp hnone
    obtain ⟨a, ha⟩ := Option.isSome_iff_exists.mp hsome
    have hmem := (Table.get_mem ha).1
    rw [hrows] at hmem
    cases hmem
  keyed := by
    intro row hrow
    obtain ⟨a, -, rfl⟩ := List.mem_map.mp hrow
    rfl

/-- A supplied map is looked up as it is. -/
theorem LedgerDb.postingAccounts_lookup {db : LedgerDb} {r : PostRequest}
    {accounts : List (String × Account)} (hmap : r.accountMap ≠ [])
    (h : db.postingAccounts r = .ok accounts) {code : String} {a : Account}
    (ha : accounts.lookup code = some a) : (code, a) ∈ r.accountMap := by
  have hempty : r.accountMap.isEmpty = false := by simpa using hmap
  simp only [LedgerDb.postingAccounts, hempty, Bool.false_eq_true, if_false, ite_error_eq_ok] at h
  obtain ⟨-, -, h⟩ := h
  cases h
  have hmem := lookup_mem ha
  simp only [List.mem_filterMap, Option.map_eq_some_iff, Prod.mk.injEq] at hmem
  obtain ⟨_, -, _, hlookup, rfl, rfl⟩ := hmem
  exact lookup_mem hlookup

theorem LedgerDb.Copies.sameAccounts {db view : LedgerDb} {original : JournalEntry}
    {r : PostRequest} {accounts : List (String × Account)} (h : db.Copies original r)
    (haccounts : view.postingAccounts r = .ok accounts) : db.SameAccounts original accounts := by
  intro l hl a ha
  have hkey := h.keyed _ (postingAccounts_lookup (h.accounts l hl) haccounts ha)
  exact (toString_injective ((String.append_right_inj _).mp hkey)).symm

/-- A copied line is stored on the account of the old one, with the opposite amount. -/
theorem storeLine_copy {env : Env} {r : PostRequest} {accounts : List (String × Account)}
    {l l' : JournalEntryLine} {row : PostingLine × Nat}
    (haccounts : ∀ a, accounts.lookup ("REV:" ++ toString l.accountId) = some a →
      a.id = l.accountId)
    (hcopy : row.1.systemCode = "REV:" ++ toString l.accountId ∧
      row.1.debit = (l.credit : ℚ) / 10 ^ 4 ∧ row.1.credit = (l.debit : ℚ) / 10 ^ 4)
    (h : storeLine env r accounts row = .ok l') :
    l'.journalEntryId = r.entryId ∧ l'.accountId = l.accountId ∧ l'.amount = -l.amount := by
  obtain ⟨hcode, hdebit, hcredit⟩ := hcopy
  obtain ⟨account, haccount, h⟩ := bind_eq_ok.mp h
  obtain ⟨debit, hstoredDebit, h⟩ := bind_eq_ok.mp h
  obtain ⟨credit, hstoredCredit, h⟩ := bind_eq_ok.mp h
  cases h
  rw [hcode] at haccount
  have hexact : ∀ amount : Money, roundHalfUp ((amount : ℚ) / 10 ^ 4 * 10 ^ 4) = amount := by
    intro amount
    rw [div_mul_cancel₀ _ (by norm_num)]
    exact roundHalfUp_intCast amount
  rw [hdebit] at hstoredDebit
  rw [hcredit] at hstoredCredit
  have hd := (storeMoney_eq_ok hstoredDebit).1
  have hc := (storeMoney_eq_ok hstoredCredit).1
  rw [hexact] at hd hc
  refine ⟨rfl, haccounts account (orRaise_eq_ok.mp haccount), ?_⟩
  simp [JournalEntryLine.amount, hd, hc]

/-- Lines on the same accounts with opposite amounts. -/
theorem sum_opposite {lines lines' : List JournalEntryLine} (accountId : Uuid)
    (h : List.Forall₂ (fun l l' : JournalEntryLine =>
      l'.accountId = l.accountId ∧ l'.amount = -l.amount) lines lines') :
    ((lines'.filter (·.accountId = accountId)).map (·.amount)).sum =
      -((lines.filter (·.accountId = accountId)).map (·.amount)).sum := by
  induction h with
  | nil => rfl
  | @cons l l' lines lines' hline _ ih =>
      obtain ⟨haccount, hamount⟩ := hline
      rw [List.filter_cons, List.filter_cons, haccount]
      split
      · rw [List.map_cons, List.map_cons, List.sum_cons, List.sum_cons, ih, hamount, neg_add]
      · exact ih

/-! ## The links -/

theorem JournalTx.apply_updateEntry_get {tx tx' : JournalTx} {old new : JournalEntry}
    (hid : new.id = old.id) (h : tx.apply (.updateEntry old new) = .ok tx') :
    (∀ id, tx'.db.entries.get id = if id = old.id then some new else tx.db.entries.get id) ∧
      tx'.db.lines = tx.db.lines := by
  obtain ⟨_, hfound, h⟩ := bind_eq_ok.mp h
  obtain ⟨_, -, h⟩ := bind_eq_ok.mp h
  obtain ⟨_, -, h⟩ := bind_eq_ok.mp h
  obtain ⟨entries, hreplace, h⟩ := bind_eq_ok.mp h
  obtain ⟨_, -, h⟩ := bind_eq_ok.mp h
  cases h
  exact ⟨Table.get_replace (apply.present_ok hfound) hid (orRaise_eq_ok.mp hreplace), rfl⟩

/-- The original with the link to its reversal. -/
def JournalEntry.reversedBy (original : JournalEntry) (reversalId : Uuid) : JournalEntry :=
  { original with reversedByEntryId := some reversalId }

/-- A posted entry with the link to the entry that it reverses. -/
def JournalEntry.reversing (e : JournalEntry) (originalId : Uuid) : JournalEntry :=
  { e with reversalOfEntryId := some originalId }

/-- The entries after a reversal: the reversal is new, the original is stamped, and the others
are as they were. -/
structure LedgerDb.Reverses (env : Env) (db : LedgerDb) (original : JournalEntry) (r : PostRequest)
    (accounts : List (String × Account)) (db' : LedgerDb) : Prop where
  fresh : db.books.entries.get r.entryId = none
  stamped : db'.books.entries.get original.id = some (original.reversedBy r.entryId)
  reversal : ∃ e, db'.books.entries.get r.entryId = some e ∧ e.status = .posted ∧
    e.entryDate = r.entryDate ∧ e.reversalOfEntryId = some original.id ∧ e.reversedByEntryId = none
  kept : ∀ id, id ≠ original.id → id ≠ r.entryId →
    db'.books.entries.get id = db.books.entries.get id
  lines : ∀ id, id ≠ r.entryId → db'.books.linesOf id = db.books.linesOf id
  copied : ∃ ls, db'.books.lines.rows = db.books.lines.rows ++ ls ∧
    List.Forall₂ (fun row l => storeLine env r accounts row = .ok l) r.lines.zipIdx ls
  linked : db'.Linked

theorem LedgerTx.Entered.reverses {env : Env} {r : PostRequest}
    {accounts : List (String × Account)} {tx tx₁ tx' : LedgerTx} {posting : Posting}
    {original : JournalEntry} (h : Entered env r accounts tx tx₁ posting)
    (horiginal : tx.db.books.entries.get original.id = some original)
    (hstamp : tx₁.stamp posting original = .ok tx') :
    tx.db.Reverses env original r accounts tx'.db := by
  obtain ⟨number, hentry⟩ := h.entry
  have hidEntry : posting.entry.id = r.entryId := by
    rw [hentry]
    exact h.id
  have hne : original.id ≠ r.entryId := by
    intro heq
    rw [heq, h.fresh] at horiginal
    cases horiginal
  obtain ⟨happly, -⟩ := LedgerTx.execute_eq_ok hstamp
  rw [List.foldlM_cons] at happly
  obtain ⟨journal, hfirst, hsecond⟩ := bind_eq_ok.mp happly
  simp only [List.foldlM_cons, List.foldlM_nil, bind_pure] at hsecond
  have hidReversal : (posting.entry.reversing original.id).id = posting.draft.id :=
    hidEntry.trans h.id.symm
  obtain ⟨hgetFirst, hlinesFirst⟩ := JournalTx.apply_updateEntry_get hidReversal hfirst
  have hidOriginal : (original.reversedBy posting.entry.id).id = original.id := rfl
  obtain ⟨hgetSecond, hlinesSecond⟩ := JournalTx.apply_updateEntry_get hidOriginal hsecond
  have hdraft : ∀ id, id ≠ r.entryId →
      tx₁.db.books.entries.get id = tx.db.books.entries.get id := by
    intro id hid
    rw [Table.get, h.entries, List.find?_append, Table.get, List.find?_singleton]
    simp [h.id, hid.symm]
  have hget : ∀ id, tx'.db.books.entries.get id = if id = original.id then
      some (original.reversedBy r.entryId) else if id = r.entryId then
        some (posting.entry.reversing original.id)
      else tx.db.books.entries.get id := by
    intro id
    refine (hgetSecond id).trans ?_
    rw [hidEntry]
    split_ifs with horig hrev
    · rfl
    · rw [hgetFirst, h.id, if_pos hrev]
    · rw [hgetFirst, h.id, if_neg hrev]
      exact hdraft id hrev
  have hlines : tx'.db.books.lines = tx₁.db.books.lines := hlinesSecond.trans hlinesFirst
  refine ⟨h.fresh, ?_, ?_, ?_, ?_, ?_, LedgerTx.execute_linked hstamp⟩
  · rw [hget, if_pos rfl]
  · refine ⟨_, by rw [hget, if_neg hne.symm, if_pos rfl], ?_⟩
    rw [hentry]
    exact ⟨rfl, h.date, rfl, h.links.2⟩
  · intro id horig hrev
    rw [hget, if_neg horig, if_neg hrev]
  · intro id hid
    rw [JournalDb.linesOf, hlines]
    exact h.linesOf hid
  · rw [hlines]
    exact h.lines

/-- The lines of the reversal cancel those of the original on every account. -/
theorem LedgerDb.Reverses.balance {env : Env} {db db' : LedgerDb} {original : JournalEntry}
    {r : PostRequest} {accounts : List (String × Account)}
    (h : db.Reverses env original r accounts db') (hlinked : db.Linked)
    (hcopies : db.Copies original r) (haccounts : db.SameAccounts original accounts)
    (accountId : Uuid) :
    db'.books.balanceOn original.id accountId + db'.books.balanceOn r.entryId accountId = 0 := by
  have hne : original.id ≠ r.entryId := by
    intro heq
    have hrow := hcopies.reversible.row
    rw [heq, h.fresh] at hrow
    cases hrow
  obtain ⟨lines, hperm, hlines⟩ := hcopies.lines
  obtain ⟨ls, hrows, hstored⟩ := h.copied
  -- Before the reversal no line was on the new entry.
  have hnone : db.books.linesOf r.entryId = [] := by
    refine List.filter_eq_nil_iff.mpr fun l hl hentry => ?_
    have hsome := hlinked.entries l hl
    rw [of_decide_eq_true hentry, h.fresh] at hsome
    cases hsome
  have hopposite : List.Forall₂ (fun l l' : JournalEntryLine => l'.journalEntryId = r.entryId ∧
      l'.accountId = l.accountId ∧ l'.amount = -l.amount) lines ls := by
    rw [← List.zipIdx_map_fst 0 r.lines, List.forall₂_map_right_iff] at hlines
    refine forall₂_trans hlines hstored fun l hl row l' hcopy hline => ?_
    exact storeLine_copy (haccounts l (hperm.mem_iff.mp hl)) hcopy hline
  have hnew : db'.books.linesOf r.entryId = ls := by
    rw [JournalDb.linesOf, hrows, List.filter_append]
    show db.books.linesOf r.entryId ++ _ = ls
    rw [hnone, List.nil_append, List.filter_eq_self]
    intro l' hl'
    obtain ⟨l, -, hline⟩ := exists_of_forall₂ hopposite hl'
    simpa using hline.1
  have hsum := sum_opposite accountId (hopposite.imp fun _ _ hline => hline.2)
  have hsorted : ((lines.filter (·.accountId = accountId)).map (·.amount)).sum =
      db.books.balanceOn original.id accountId :=
    ((hperm.filter _).map _).sum_eq
  have hold : db'.books.balanceOn original.id accountId =
      db.books.balanceOn original.id accountId := by
    rw [JournalDb.balanceOn, h.lines original.id hne, JournalDb.balanceOn]
  have hreversal : db'.books.balanceOn r.entryId accountId =
      -db.books.balanceOn original.id accountId := by
    rw [JournalDb.balanceOn, hnew, hsum, hsorted]
  rw [hold, hreversal, add_neg_cancel]

theorem LedgerDb.Reversals.reverse {env : Env} {db db' : LedgerDb} {original : JournalEntry}
    {r : PostRequest} {accounts : List (String × Account)} (hdb : db.Reversals)
    (h : db.Reverses env original r accounts db') (hcopies : db.Copies original r)
    (haccounts : db.SameAccounts original accounts) : db'.Reversals where
  linked := h.linked
  posted id e he := by
    by_cases horig : id = original.id
    · rw [horig, h.stamped] at he
      cases he
      exact hdb.posted _ original hcopies.reversible.row
    · by_cases hrev : id = r.entryId
      · obtain ⟨reversal, hreversal, hposted, -⟩ := h.reversal
        rw [hrev, hreversal] at he
        cases he
        exact hposted
      · rw [h.kept id horig hrev] at he
        exact hdb.posted id e he
  reverses id e originalId he hof := by
    by_cases hrev : id = r.entryId
    · obtain ⟨reversal, hreversal, -, hdate, hlink, -⟩ := h.reversal
      rw [hrev, hreversal] at he
      cases he
      rw [hlink] at hof
      cases hof
      refine ⟨_, h.stamped, congrArg some hrev.symm, hcopies.reversible.date.trans hdate.ge, ?_⟩
      rw [hrev]
      exact h.balance hdb.linked hcopies haccounts
    · -- An older reversal, whose original is not the one that is stamped now.
      have hold : ∃ e₀, db.books.entries.get id = some e₀ ∧ e₀.reversalOfEntryId = some originalId ∧
          e₀.entryDate = e.entryDate := by
        by_cases horig : id = original.id
        · rw [horig, h.stamped] at he
          cases he
          exact ⟨original, horig ▸ hcopies.reversible.row, hof, rfl⟩
        · rw [h.kept id horig hrev] at he
          exact ⟨e, he, hof, rfl⟩
      obtain ⟨e₀, he₀, hof₀, hdate₀⟩ := hold
      obtain ⟨found, hfound, hby, hdate, hbalance⟩ := hdb.reverses id e₀ originalId he₀ hof₀
      have hneOriginal : originalId ≠ original.id := by
        rintro rfl
        rw [hcopies.reversible.row] at hfound
        cases hfound
        rw [hcopies.reversible.unreversed] at hby
        cases hby
      have hneFresh : originalId ≠ r.entryId := by
        rintro rfl
        rw [h.fresh] at hfound
        cases hfound
      refine ⟨found, ?_, hby, hdate₀ ▸ hdate, fun accountId => ?_⟩
      · rw [h.kept originalId hneOriginal hneFresh]
        exact hfound
      · rw [JournalDb.balanceOn, JournalDb.balanceOn, h.lines originalId hneFresh, h.lines id hrev]
        exact hbalance accountId
  reversed id found reversalId hfound hby := by
    by_cases horig : id = original.id
    · rw [horig, h.stamped] at hfound
      cases hfound
      cases hby
      obtain ⟨reversal, hreversal, -, -, hlink, -⟩ := h.reversal
      exact ⟨reversal, hreversal, by rw [hlink, horig]⟩
    · by_cases hrev : id = r.entryId
      · obtain ⟨reversal, hreversal, -, -, -, hunreversed⟩ := h.reversal
        rw [hrev, hreversal] at hfound
        cases hfound
        rw [hunreversed] at hby
        cases hby
      · rw [h.kept id horig hrev] at hfound
        obtain ⟨e, he, hof⟩ := hdb.reversed id found reversalId hfound hby
        by_cases hsame : reversalId = original.id
        · rw [hsame, hcopies.reversible.row] at he
          cases he
          exact ⟨original.reversedBy r.entryId, by rw [hsame]; exact h.stamped, hof⟩
        · have hneFresh : reversalId ≠ r.entryId := by
            rintro rfl
            rw [h.fresh] at he
            cases he
          exact ⟨e, by rw [h.kept reversalId hsame hneFresh]; exact he, hof⟩

/-! ## Every interleaving -/

/-- The accounts a posting has read are those of the original's lines. -/
def PostStage.Charted (db : LedgerDb) (original : JournalEntry) : PostStage → Prop
  | .charted _ accounts => db.SameAccounts original accounts
  | _ => True

/-- What `reverse` relies on while it is open. -/
def LedgerPhase.Ready (db : LedgerDb) : LedgerPhase → Prop
  | .locked _ r original => db.Reversible original r.reversalDate
  | .copying _ r original lines => db.Reversible original r.reversalDate ∧
      lines.Perm (db.books.linesOf original.id)
  | .posting session _ (some original) stage todo _ =>
      (.entry original.id, .update) ∈ session.locks ∧
        ∃ r, todo = [r] ∧ db.Copies original r ∧ stage.Charted db original
  | .reversed session _ r _ accounts _ original =>
      (.entry original.id, .update) ∈ session.locks ∧ db.Copies original r ∧
        db.SameAccounts original accounts
  | _ => True

theorem LedgerPhase.Ready.begin {db : LedgerDb} {op : LedgerOp} {phase : LedgerPhase}
    (h : LedgerPhase.begin db op = .ok phase) : phase.Ready db := by
  cases op with
  | read env =>
      cases h
      trivial
  | createAccount env id payload =>
      cases h
      trivial
  | createPeriod env id name startDate endDate =>
      obtain ⟨-, h⟩ := ite_error_eq_ok.mp h
      cases h
      trivial
  | changePeriodStatus periodId status =>
      simp only [LedgerPhase.begin] at h
      split at h
      next => cases h
      next =>
        obtain ⟨-, h⟩ := ite_error_eq_ok.mp h
        cases h
        trivial
  | operational env requests own =>
      cases h
      trivial
  | postManual env payload =>
      cases h
      trivial
  | reverse env r =>
      obtain ⟨original, horiginal, h⟩ := bind_eq_ok.mp h
      cases h
      exact (LedgerDb.reversible_eq_ok horiginal).1

theorem LedgerPhase.Ready.parent {db : LedgerDb} {session : LedgerSession} {env : Env} {id : Uuid}
    {payload : AccountCreate} {phase : LedgerPhase}
    (h : LedgerPhase.parent db session env id payload = .ok phase) : phase.Ready db := by
  obtain ⟨view, -, h⟩ := bind_eq_ok.mp h
  dsimp only at h
  split at h
  next =>
    cases h
    trivial
  next =>
    split at h
    next => cases h
    next =>
      obtain ⟨-, h⟩ := ite_error_eq_ok.mp h
      cases h
      trivial

/-- One statement of `post`. -/
theorem LedgerPhase.Ready.post {db : LedgerDb} {session : LedgerSession} {env : Env}
    {original : Option JournalEntry} {stage : PostStage} {r : PostRequest} {todo : List PostRequest}
    {own : Except Err Unit} {phase : LedgerPhase}
    (hready : (LedgerPhase.posting session env original stage (r :: todo) own).Ready db)
    (h : LedgerPhase.post db session env original r todo own stage = .ok phase) :
    phase.Ready db := by
  cases stage with
  | opening =>
      obtain ⟨view, -, h⟩ := bind_eq_ok.mp h
      obtain ⟨_, -, h⟩ := bind_eq_ok.mp h
      cases h
      cases original with
      | none => trivial
      | some original => exact ⟨List.mem_append_left _ hready.1, hready.2⟩
  | bootstrapped =>
      obtain ⟨view, -, h⟩ := bind_eq_ok.mp h
      obtain ⟨period, -, h⟩ := bind_eq_ok.mp h
      cases h
      cases original with
      | none => trivial
      | some original => exact ⟨List.mem_append_left _ hready.1, hready.2⟩
  | dated period =>
      obtain ⟨view, -, h⟩ := bind_eq_ok.mp h
      obtain ⟨accounts, haccounts, h⟩ := bind_eq_ok.mp h
      cases h
      cases original with
      | none => trivial
      | some original =>
          obtain ⟨hlock, request, htodo, hcopies, -⟩ := hready
          cases htodo
          exact ⟨hlock, r, rfl, hcopies, hcopies.sameAccounts haccounts⟩
  | charted period accounts =>
      obtain ⟨view, -, h⟩ := bind_eq_ok.mp h
      obtain ⟨journal, -, h⟩ := bind_eq_ok.mp h
      cases original with
      | none =>
          cases h
          trivial
      | some original =>
          cases h
          obtain ⟨hlock, request, htodo, hcopies, haccounts⟩ := hready
          cases htodo
          exact ⟨List.mem_append_left _ hlock, hcopies, haccounts⟩

theorem LedgerPhase.Ready.next {db : LedgerDb} {phase phase' : LedgerPhase} (hdb : db.Reversals)
    (hready : phase.Ready db) (h : phase.next db = some (.ok phase')) : phase'.Ready db := by
  unfold LedgerPhase.next at h
  split at h
  next op => exact .begin (Option.some.inj h)
  next session env id payload => exact .parent (Option.some.inj h)
  next session env payload =>
    obtain ⟨view, -, h⟩ := bind_eq_ok.mp (Option.some.inj h)
    obtain ⟨accounts, -, h⟩ := bind_eq_ok.mp h
    obtain ⟨_, -, h⟩ := bind_eq_ok.mp h
    cases h
    trivial
  next env r original =>
    cases h
    exact ⟨hready, List.perm_insertionSort _ _⟩
  next env r original lines =>
    cases h
    exact ⟨List.mem_singleton_self _, _, rfl,
      ReversalRequest.copies hready.1 hdb.linked hready.2, trivial⟩
  next session env original stage r todo own => exact hready.post (Option.some.inj h)
  next => cases h

/-- What a commit does to the journal. -/
inductive LedgerDb.Commits (db : LedgerDb) (phase : LedgerPhase) (db' : LedgerDb) : Prop where
  | grows : db.Grows db' → Commits db phase db'
  | reverses {session : LedgerSession} {env : Env} {r : PostRequest} {period : FiscalPeriod}
      {accounts : List (String × Account)} {journal : Journal} {original : JournalEntry}
      {written : LedgerDb} :
      phase = .reversed session env r period accounts journal original → db.Grows written →
      written.Reverses env original r accounts db' → Commits db phase db'

theorem LedgerTx.commit_eq_ok {tx : LedgerTx} {db : LedgerDb} (h : tx.commit = .ok db) :
    db = tx.db := by
  obtain ⟨_, -, h⟩ := bind_eq_ok.mp h
  cases h
  rfl

theorem LedgerPhase.finish_commits {db db' : LedgerDb} {phase : LedgerPhase}
    (hready : phase.Ready db) (h : phase.finish db = some db') : db.Commits phase db' := by
  have hok : ∀ {outcome : Except Err LedgerDb}, outcome.toOption = some db' → outcome = .ok db' := by
    rintro (e | found) hsome
    · cases hsome
    · cases hsome
      rfl
  unfold LedgerPhase.finish at h
  split at h
  next session =>
    obtain ⟨tx, hreplay, h⟩ := bind_eq_ok.mp (hok h)
    rw [LedgerTx.commit_eq_ok h]
    exact .grows (.replay hreplay)
  next session env own =>
    split at h
    next =>
      cases h
      exact .grows (.refl _)
    next =>
      obtain ⟨tx, hreplay, h⟩ := bind_eq_ok.mp (hok h)
      rw [LedgerTx.commit_eq_ok h]
      exact .grows (.replay hreplay)
  next session env r period accounts journal original =>
    obtain ⟨tx, hreplay, h⟩ := bind_eq_ok.mp (hok h)
    obtain ⟨⟨tx₁, entered⟩, henter, h⟩ := bind_eq_ok.mp h
    obtain ⟨tx₂, hstamp, h⟩ := bind_eq_ok.mp h
    rw [LedgerTx.commit_eq_ok h]
    have hgrows := LedgerDb.Grows.replay hreplay
    have hrow := hgrows.kept _ _ hready.2.1.reversible.row
    exact .reverses rfl hgrows ((LedgerTx.enter_entered henter).reverses hrow hstamp)
  next =>
    cases h
    exact .grows (.refl _)
  next => cases h

/-- The entry that a reversal reverses is there with its lines after other writes too. -/
theorem LedgerDb.Copies.mono {db db' : LedgerDb} {original : JournalEntry} {r : PostRequest}
    (h : db.Copies original r) (hrow : db'.books.entries.get original.id = some original)
    (hlines : db'.books.linesOf original.id = db.books.linesOf original.id) :
    db'.Copies original r where
  reversible := ⟨hrow, h.reversible.unreversed, h.reversible.date⟩
  lines := by
    rw [hlines]
    exact h.lines
  accounts := by
    rw [hlines]
    exact h.accounts
  keyed := h.keyed

theorem LedgerDb.Reversals.finish {db db' : LedgerDb} {phase : LedgerPhase} (hdb : db.Reversals)
    (hready : phase.Ready db) (h : phase.finish db = some db') : db'.Reversals := by
  cases LedgerPhase.finish_commits hready h with
  | grows hgrows => exact hdb.grow hgrows
  | reverses hphase hgrows hreverses =>
      subst hphase
      obtain ⟨-, hcopies, haccounts⟩ := hready
      have hrow := hcopies.reversible.row
      have hlines := hgrows.lines _ (by rw [hrow]; rfl)
      refine (hdb.grow hgrows).reverse hreverses (hcopies.mono (hgrows.kept _ _ hrow) hlines) ?_
      intro l hl
      rw [hlines] at hl
      exact haccounts l hl

/-- A commit leaves the entries that it has not locked as they were. -/
theorem LedgerPhase.finish_kept {db db' : LedgerDb} {phase : LedgerPhase} {e : JournalEntry}
    (hready : phase.Ready db) (h : phase.finish db = some db')
    (hrow : db.books.entries.get e.id = some e)
    (hfree : (LedgerRow.entry e.id, LockMode.update) ∉ phase.locks) :
    db'.books.entries.get e.id = some e ∧ db'.books.linesOf e.id = db.books.linesOf e.id := by
  have hsome : (db.books.entries.get e.id).isSome := by rw [hrow]; rfl
  cases LedgerPhase.finish_commits hready h with
  | grows hgrows => exact ⟨hgrows.kept _ _ hrow, hgrows.lines _ hsome⟩
  | @reverses session env r period accounts journal original written hphase hgrows hreverses =>
      subst hphase
      have hkept := hgrows.kept _ _ hrow
      have hneOriginal : e.id ≠ original.id := by
        intro heq
        rw [heq] at hfree
        exact hfree hready.1
      have hneFresh : e.id ≠ r.entryId := by
        intro heq
        rw [heq, hreverses.fresh] at hkept
        cases hkept
      refine ⟨?_, ?_⟩
      · rw [hreverses.kept _ hneOriginal hneFresh]
        exact hkept
      · rw [hreverses.lines _ hneFresh, hgrows.lines _ hsome]

/-- What an open `reverse` relies on stays true when another transaction commits. -/
theorem LedgerPhase.Ready.stable {db db' : LedgerDb} {phase other : LedgerPhase}
    (hready : phase.Ready db) (hother : other.Ready db)
    (hconflict : locksConflict other.locks phase.locks = false)
    (h : phase.finish db = some db') : other.Ready db' := by
  have hkept : ∀ e : JournalEntry, db.books.entries.get e.id = some e →
      (LedgerRow.entry e.id, LockMode.update) ∈ other.locks →
        db'.books.entries.get e.id = some e ∧
          db'.books.linesOf e.id = db.books.linesOf e.id := by
    intro e hrow hlock
    exact LedgerPhase.finish_kept hready h hrow (notMem_of_conflicts hconflict hlock rfl)
  cases other with
  | locked env r original =>
      obtain ⟨hrow, -⟩ := hkept original hother.row (List.mem_singleton_self _)
      exact ⟨hrow, hother.unreversed, hother.date⟩
  | copying env r original lines =>
      obtain ⟨hrow, hlines⟩ := hkept original hother.1.row (List.mem_singleton_self _)
      refine ⟨⟨hrow, hother.1.unreversed, hother.1.date⟩, ?_⟩
      rw [hlines]
      exact hother.2
  | posting session env original stage todo own =>
      cases original with
      | none => trivial
      | some original =>
          obtain ⟨hlock, r, htodo, hcopies, hcharted⟩ := hother
          obtain ⟨hrow, hlines⟩ := hkept original hcopies.reversible.row hlock
          refine ⟨hlock, r, htodo, hcopies.mono hrow hlines, ?_⟩
          cases stage with
          | charted period accounts =>
              intro l hl
              rw [hlines] at hl
              exact hcharted l hl
          | _ => trivial
  | reversed session env r period accounts journal original =>
      obtain ⟨hlock, hcopies, haccounts⟩ := hother
      obtain ⟨hrow, hlines⟩ := hkept original hcopies.reversible.row hlock
      refine ⟨hlock, hcopies.mono hrow hlines, fun l hl => ?_⟩
      rw [hlines] at hl
      exact haccounts l hl
  | _ => trivial

theorem ledger_run {db db' : LedgerDb} {phase phase' : LedgerPhase} {choice : Unit}
    (h : ledger.run db phase choice = some (db', phase')) :
    db' = db ∧ (phase.next db = some (.ok phase') ∨ ∃ e, phase' = .raised e) := by
  simp only [ledger] at h
  split at h
  next => cases h
  next hnext =>
    cases h
    exact ⟨rfl, .inl hnext⟩
  next =>
    cases h
    exact ⟨rfl, .inr ⟨_, rfl⟩⟩

/-- Reversals are the inverses of their originals, in every interleaving. -/
theorem ledger_sound :
    ledger.Sound (fun _ _ => True) LedgerDb.Reversals fun db phase => phase.Ready db where
  start _ _ _ := trivial
  run db phase choice db' phase' hdb hready hrun := by
    obtain ⟨rfl, hnext | ⟨e, rfl⟩⟩ := ledger_run hrun
    · exact ⟨hdb, hready.next hdb hnext⟩
    · exact ⟨hdb, trivial⟩
  run_stable db phase choice db' phase' other _ _ hother hrun := by
    obtain ⟨rfl, -⟩ := ledger_run hrun
    exact hother
  finish db phase db' hdb hready _ h := hdb.finish hready h
  finish_stable db phase db' other _ hready _ hother hconflict h :=
    hready.stable hother hconflict h

/-- In every interleaving of requests from an empty ledger on, an entry has at most one
reversal.  The reversal is not dated before the entry, the two name each other, and together
they add nothing to the balance of any account. -/
theorem reversed_once {s : Interleaved LedgerDb LedgerPhase}
    (h : ledger.Reaches (Protocol.init .empty) s) {original : JournalEntry}
    (horiginal : original ∈ s.committed.books.entries.rows) :
    (s.committed.books.entries.rows.filter (·.reversalOfEntryId = some original.id)).length ≤ 1 ∧
      (∀ e ∈ s.committed.books.entries.rows, e.reversalOfEntryId = some original.id →
        original.reversedByEntryId = some e.id ∧ original.entryDate ≤ e.entryDate ∧
          ∀ accountId, s.committed.books.balanceOn original.id accountId +
            s.committed.books.balanceOn e.id accountId = 0) ∧
      ∀ reversalId, original.reversedByEntryId = some reversalId →
        ∃ e ∈ s.committed.books.entries.rows, e.id = reversalId ∧
          e.reversalOfEntryId = some original.id := by
  have hs := (ledger_sound.runs h (.init LedgerDb.reversals_empty)).committed
  have hget : ∀ e ∈ s.committed.books.entries.rows, s.committed.books.entries.get e.id = some e :=
    fun e he => Table.get_eq_some.mpr ⟨he, rfl⟩
  have hreverses : ∀ e ∈ s.committed.books.entries.rows, e.reversalOfEntryId = some original.id →
      original.reversedByEntryId = some e.id ∧ original.entryDate ≤ e.entryDate ∧
        ∀ accountId, s.committed.books.balanceOn original.id accountId +
          s.committed.books.balanceOn e.id accountId = 0 := by
    intro e he hof
    obtain ⟨found, hfound, hlaw⟩ := hs.reverses e.id e original.id (hget e he) hof
    rw [hget original horiginal] at hfound
    cases hfound
    exact hlaw
  refine ⟨?_, hreverses, fun reversalId hby => ?_⟩
  · refine Table.length_filter_le_one fun e he e' he' hof hof' => ?_
    have hby := (hreverses e he (of_decide_eq_true hof)).1
    have hby' := (hreverses e' he' (of_decide_eq_true hof')).1
    exact Option.some.inj (hby.symm.trans hby')
  · obtain ⟨e, he, hof⟩ := hs.reversed original.id original reversalId (hget original horiginal) hby
    exact ⟨e, (Table.get_mem he).1, (Table.get_mem he).2, hof⟩

/-- Two requests reverse the sale, dated later in the year. -/
def reverseTwice : List (TxAction LedgerOp Unit) :=
  [.begin 1 cashSale, .run 1 (), .run 1 (), .run 1 (), .run 1 (), .run 1 (), .finish 1,
   .begin 2 (.reverse calendarYear ⟨1, ⟨2026, 3, 1⟩, 50, 51, fun n => 60 + n⟩),
   .begin 3 (.reverse calendarYear ⟨1, ⟨2026, 4, 1⟩, 70, 71, fun n => 80 + n⟩),
   .run 2 (), .run 2 (), .run 2 (), .run 2 (), .run 2 (), .run 2 (), .run 2 (), .finish 2,
   .run 3 (), .finish 3]

/-- The second of them finds the entry reversed. -/
theorem reversed_once_twice : ∃ s : Interleaved LedgerDb LedgerPhase,
    ledger.Reaches (Protocol.init .empty) s ∧
      (s.committed.books.entries.rows.map fun e =>
        (e.id, e.reversalOfEntryId, e.reversedByEntryId)) = [(1, none, some 50), (50, some 1, none)] ∧
      ∀ original ∈ s.committed.books.entries.rows, (s.committed.books.entries.rows.filter
        (·.reversalOfEntryId = some original.id)).length ≤ 1 := by
  have hsome : (reverseTwice.foldlM ledger.step (Protocol.init .empty)).isSome := by decide +kernel
  obtain ⟨s, hs⟩ := Option.isSome_iff_exists.mp hsome
  have hfacts : (reverseTwice.foldlM ledger.step (Protocol.init .empty)).all fun s =>
      (s.committed.books.entries.rows.map fun e =>
        (e.id, e.reversalOfEntryId, e.reversedByEntryId)) =
          [(1, none, some 50), (50, some 1, none)] := by decide +kernel
  rw [hs, Option.all_some, decide_eq_true_eq] at hfacts
  have hreaches := Protocol.Reaches.of_foldlM reverseTwice hs
  exact ⟨s, hreaches, hfacts, fun original horiginal => (reversed_once hreaches horiginal).1⟩

end Nexora.Accounting
