import Nexora.Accounting.Reversals

/-!
# Fiscal periods

What the writes of a request do to the periods and to the entries: `LedgerDb.Becomes` says which
periods they create, and that each new entry is posted into a period.  A change of status does
nothing else (`moveStatus_eq_ok`).
-/

namespace Nexora.Accounting

open Nexora Foundations

def FiscalPeriod.Covers (p : FiscalPeriod) (date : Date) : Prop :=
  p.startDate ≤ date ∧ date ≤ p.endDate

/-- No day is in both. -/
def FiscalPeriod.Apart (p q : FiscalPeriod) : Prop :=
  ¬(p.startDate ≤ q.endDate ∧ q.startDate ≤ p.endDate)

theorem FiscalPeriod.Apart.symm {p q : FiscalPeriod} (h : p.Apart q) : q.Apart p :=
  fun hboth => h ⟨hboth.2, hboth.1⟩

/-- Periods do not overlap, and every entry is in the period of its date. -/
structure LedgerDb.Dated (db : LedgerDb) : Prop where
  apart : ∀ p ∈ db.periods.rows, ∀ q ∈ db.periods.rows, p.id ≠ q.id → p.Apart q
  covered : ∀ id e, db.books.entries.get id = some e →
    ∃ p, db.periods.get e.fiscalPeriodId = some p ∧ p.Covers e.entryDate

/-! ## What the writes do -/

/-- The period that a write makes. -/
def LedgerWrite.Creates : LedgerWrite → FiscalPeriod → Prop
  | .bootstrap env seen, p => ¬seen.journals.any (·.code = "GENERAL") ∧ p = firstPeriod env
  | .period q, p => p = q
  | _, _ => False

/-- The posting that a write makes. -/
inductive LedgerWrite.Posts : LedgerWrite → Env → PostRequest → FiscalPeriod → Prop where
  | entry {env : Env} {r : PostRequest} {period : FiscalPeriod}
      {accounts : List (String × Account)} {journal : Journal} :
      Posts (.entry env r period accounts journal) env r period

/-- A write other than a change of status. -/
def LedgerWrite.Adds : LedgerWrite → Prop
  | .status _ _ => False
  | _ => True

/-- The tables with more periods and with more entries, each posted into a period. -/
structure LedgerDb.Becomes (creates : FiscalPeriod → Prop)
    (posts : Env → PostRequest → FiscalPeriod → Prop) (db db' : LedgerDb) : Prop where
  kept : ∀ id p, db.periods.get id = some p → db'.periods.get id = some p
  added : ∀ id p, db'.periods.get id = some p → db.periods.get id = some p ∨ creates p
  created : ∀ p, creates p → db'.periods.get p.id = some p
  apart : (∀ p ∈ db.periods.rows, ∀ q ∈ db.periods.rows, p.id ≠ q.id → p.Apart q) →
    ∀ p ∈ db'.periods.rows, ∀ q ∈ db'.periods.rows, p.id ≠ q.id → p.Apart q
  entries : ∀ id e', db'.books.entries.get id = some e' →
    (∃ e, db.books.entries.get id = some e ∧ e'.fiscalPeriodId = e.fiscalPeriodId ∧
      e'.entryDate = e.entryDate) ∨
    ∃ env r period, posts env r period ∧ e'.fiscalPeriodId = period.id ∧
      e'.entryDate = r.entryDate

namespace LedgerDb.Becomes

variable {creates creates₁ : FiscalPeriod → Prop}
  {posts posts₁ : Env → PostRequest → FiscalPeriod → Prop} {db db₁ db' : LedgerDb}

theorem mono (h : Becomes creates posts db db') (hcreates : ∀ p, creates p ↔ creates₁ p)
    (hposts : ∀ env r period, posts env r period → posts₁ env r period) :
    Becomes creates₁ posts₁ db db' where
  kept := h.kept
  added id p hp := (h.added id p hp).imp_right (hcreates p).mp
  created p hp := h.created p ((hcreates p).mpr hp)
  apart := h.apart
  entries id e' he' := by
    rcases h.entries id e' he' with hold | ⟨env, r, period, hpost, hrow⟩
    · exact .inl hold
    · exact .inr ⟨env, r, period, hposts _ _ _ hpost, hrow⟩

theorem trans (h : Becomes creates posts db db₁) (h' : Becomes creates₁ posts₁ db₁ db') :
    Becomes (fun p => creates p ∨ creates₁ p)
      (fun env r period => posts env r period ∨ posts₁ env r period) db db' where
  kept id p hp := h'.kept id p (h.kept id p hp)
  added id p hp := by
    rcases h'.added id p hp with hp | hnew
    · exact (h.added id p hp).imp_right .inl
    · exact .inr (.inr hnew)
  created p hp := by
    rcases hp with hp | hp
    · exact h'.kept _ _ (h.created p hp)
    · exact h'.created p hp
  apart hdb := h'.apart (h.apart hdb)
  entries id e' he' := by
    rcases h'.entries id e' he' with ⟨e₁, he₁, hperiod₁, hdate₁⟩ | ⟨env, r, period, hpost, hrow⟩
    · rcases h.entries id e₁ he₁ with ⟨e, he, hperiod, hdate⟩ | ⟨env, r, period, hpost, hrow⟩
      · exact .inl ⟨e, he, hperiod₁.trans hperiod, hdate₁.trans hdate⟩
      · exact .inr ⟨env, r, period, .inl hpost, hperiod₁.trans hrow.1, hdate₁.trans hrow.2⟩
    · exact .inr ⟨env, r, period, .inr hpost, hrow⟩

/-- Nothing but accounts, journals and counters. -/
theorem of_same (hperiods : db'.periods = db.periods) (hbooks : db'.books = db.books) :
    Becomes (fun _ => False) (fun _ _ _ => False) db db' where
  kept id p hp := by rwa [hperiods]
  added id p hp := by
    rw [hperiods] at hp
    exact .inl hp
  created _ hp := hp.elim
  apart hdb := by rwa [hperiods]
  entries id e' he' := by
    rw [hbooks] at he'
    exact .inl ⟨e', he', rfl, rfl⟩

theorem addPeriod {period : FiscalPeriod} (h : db.addPeriod period = .ok db') :
    Becomes (· = period) (fun _ _ _ => False) db db' := by
  obtain ⟨-, h⟩ := ite_error_eq_ok.mp h
  obtain ⟨hfree, h⟩ := ite_error_eq_ok.mp h
  obtain ⟨periods, hinsert, h⟩ := bind_eq_ok.mp h
  cases h
  have hget := Table.get_insert (orRaise_eq_ok.mp hinsert)
  obtain ⟨hrows, hfresh⟩ := Table.insert_eq_some (orRaise_eq_ok.mp hinsert)
  have hnew : ∀ q ∈ db.periods.rows, q.Apart period := by
    intro q hq hboth
    refine hfree (List.any_eq_true.mpr ⟨q, hq, ?_⟩)
    simpa using hboth
  refine ⟨fun id p hp => Table.get_of_append hp hrows, fun id p hp => ?_, ?_, fun hdb => ?_,
    fun id e' he' => .inl ⟨e', he', rfl, rfl⟩⟩
  · have hp := (hget id).symm.trans hp
    split at hp
    · exact .inr (Option.some.inj hp).symm
    · exact .inl hp
  · rintro p rfl
    exact (hget p.id).trans (if_pos rfl)
  · show ∀ p ∈ periods.rows, ∀ q ∈ periods.rows, p.id ≠ q.id → p.Apart q
    rw [hrows]
    intro p hp q hq hne
    rcases List.mem_append.mp hp with hp | hp <;> rcases List.mem_append.mp hq with hq | hq
    · exact hdb p hp q hq hne
    · rw [List.mem_singleton.mp hq]
      exact hnew p hp
    · rw [List.mem_singleton.mp hp]
      exact (hnew q hq).symm
    · rw [List.mem_singleton.mp hp, List.mem_singleton.mp hq] at hne
      exact absurd rfl hne

theorem bootstrapAccounts {env : Env} {existing : List (String × Uuid)}
    {parents : List (String × Uuid)}
    (h : defaultAccounts.zipIdx.foldlM (bootstrapAccount env (existing.map Prod.fst))
      (db, existing) = .ok (db', parents)) :
    db' = { db with accounts := db'.accounts } := by
  refine foldlM_invariant (I := fun state : LedgerDb × List (String × Uuid) =>
    state.1 = { db with accounts := state.1.accounts }) (fun row _ state state' hstate hrow => ?_)
    h rfl
  unfold bootstrapAccount at hrow
  dsimp only at hrow
  split at hrow
  · cases hrow
    exact hstate
  · obtain ⟨db₁, hadd, hrow⟩ := bind_eq_ok.mp hrow
    cases hrow
    obtain ⟨accounts, -, hadd⟩ := bind_eq_ok.mp hadd
    split at hadd
    · cases hadd
      rw [hstate]
    · cases hadd

theorem bootstrapFrom {seen : LedgerDb} {env : Env} (h : db.bootstrapFrom seen env = .ok db') :
    Becomes (LedgerWrite.bootstrap env seen).Creates (fun _ _ _ => False) db db' := by
  obtain ⟨⟨charted, parents⟩, hloop, h⟩ := bind_eq_ok.mp h
  have hsame := bootstrapAccounts hloop
  have hperiods : charted.periods = db.periods := by rw [hsame]
  have hbooks : charted.books = db.books := by rw [hsame]
  dsimp only at h
  split_ifs at h with hseen hthere
  · cases h
    exact (of_same hperiods hbooks).mono (fun p => ⟨False.elim, fun hp => hp.1 hseen⟩) fun _ _ _ => id
  · simp only [LedgerDb.bootstrapJournal, if_neg hthere] at h
    have hjournal : Becomes (fun _ => False) (fun _ _ _ => False) db
        { charted with journals := charted.journals ++ [⟨env.journalId, "GENERAL",
          "General Journal", true, true⟩] } := of_same hperiods hbooks
    refine (hjournal.trans (addPeriod h)).mono (fun p => ?_) fun _ _ _ hpost => hpost.elim id id
    exact ⟨fun hp => ⟨hseen, hp.resolve_left id⟩, fun hp => .inr hp.2⟩

/-- A statement of a posting leaves all but the journal. -/
theorem execute_periods {tx tx' : LedgerTx} {statement : Statement}
    (h : tx.execute statement = .ok tx') : tx'.db.periods = tx.db.periods := by
  rw [(LedgerTx.execute_eq_ok h).2]

theorem enter_periods {tx tx' : LedgerTx} {env : Env} {r : PostRequest} {period : FiscalPeriod}
    {accounts : List (String × Account)} {journal : Journal} {posting : Posting}
    (h : tx.enter env r period accounts journal = .ok (tx', posting)) :
    tx'.db.periods = tx.db.periods ∧ posting.draft.fiscalPeriodId = period.id := by
  obtain ⟨totalDebit, -, h⟩ := bind_eq_ok.mp h
  obtain ⟨totalCredit, -, h⟩ := bind_eq_ok.mp h
  obtain ⟨txDraft, hdraft, h⟩ := bind_eq_ok.mp h
  obtain ⟨ls, -, h⟩ := bind_eq_ok.mp h
  obtain ⟨txLines, hlines, h⟩ := bind_eq_ok.mp h
  cases h
  refine ⟨?_, rfl⟩
  show txLines.db.periods = _
  rw [execute_periods hlines, execute_periods hdraft]

theorem entry {tx tx₁ tx' : LedgerTx} {env : Env} {r : PostRequest} {period : FiscalPeriod}
    {accounts : List (String × Account)} {journal : Journal} {posting : Posting}
    (henter : tx.enter env r period accounts journal = .ok (tx₁, posting))
    (hflush : tx₁.flush posting = .ok tx') :
    Becomes (fun _ => False)
      (LedgerWrite.entry env r period accounts journal).Posts tx.db tx'.db := by
  obtain ⟨hperiods, hperiod⟩ := enter_periods henter
  have hentered := LedgerTx.enter_entered henter
  have hsame : tx'.db.periods = tx.db.periods := (execute_periods hflush).trans hperiods
  obtain ⟨happly, -⟩ := LedgerTx.execute_eq_ok hflush
  simp only [List.foldlM_cons, List.foldlM_nil, bind_pure] at happly
  obtain ⟨number, hentry⟩ := hentered.entry
  have hid : posting.entry.id = posting.draft.id := by rw [hentry]
  obtain ⟨hget, -⟩ := JournalTx.apply_updateEntry_get hid happly
  have hframe : Becomes (fun _ => False) (fun _ _ _ => False) tx.db
      { tx.db with periods := tx'.db.periods } := of_same hsame rfl
  refine ⟨hframe.kept, hframe.added, hframe.created, hframe.apart, fun id e' he' => ?_⟩
  have hrow := (hget id).symm.trans he'
  split at hrow
  next =>
    obtain rfl := Option.some.inj hrow
    refine .inr ⟨env, r, period, .entry, ?_, ?_⟩
    · rw [hentry]
      exact hperiod
    · rw [hentry]
      exact hentered.date
  next hne =>
    refine .inl ⟨e', ?_, rfl, rfl⟩
    obtain ⟨hmem, hkey⟩ := Table.get_mem hrow
    have hmem : e' ∈ tx.db.books.entries.rows ++ [posting.draft] := hentered.entries ▸ hmem
    rcases List.mem_append.mp hmem with hmem | hmem
    · exact Table.get_eq_some.mpr ⟨hmem, hkey⟩
    · rw [List.mem_singleton.mp hmem] at hkey
      exact absurd hkey.symm hne

/-- A reversal is a posting, and the link on the original leaves its period and date. -/
theorem reversal {tx tx₁ tx' : LedgerTx} {env : Env} {r : PostRequest} {period : FiscalPeriod}
    {accounts : List (String × Account)} {journal : Journal} {posting : Posting}
    {original : JournalEntry} (henter : tx.enter env r period accounts journal = .ok (tx₁, posting))
    (hstamp : tx₁.stamp posting original = .ok tx') :
    Becomes (fun _ => False)
      (LedgerWrite.entry env r period accounts journal).Posts tx.db tx'.db := by
  obtain ⟨hperiods, hperiod⟩ := enter_periods henter
  have hentered := LedgerTx.enter_entered henter
  have hsame : tx'.db.periods = tx.db.periods := (execute_periods hstamp).trans hperiods
  obtain ⟨number, hentry⟩ := hentered.entry
  obtain ⟨happly, -⟩ := LedgerTx.execute_eq_ok hstamp
  rw [List.foldlM_cons] at happly
  obtain ⟨linked, hfirst, hsecond⟩ := bind_eq_ok.mp happly
  simp only [List.foldlM_cons, List.foldlM_nil, bind_pure] at hsecond
  have hid : (posting.entry.reversing original.id).id = posting.draft.id := by
    rw [hentry]
    rfl
  have hidOriginal : (original.reversedBy posting.entry.id).id = original.id := rfl
  obtain ⟨hgetFirst, -⟩ := JournalTx.apply_updateEntry_get hid hfirst
  obtain ⟨hgetSecond, -⟩ := JournalTx.apply_updateEntry_get hidOriginal hsecond
  have hpresent : linked.db.entries.get original.id = some original := by
    obtain ⟨_, hfound, -⟩ := bind_eq_ok.mp hsecond
    exact JournalTx.apply.present_ok hfound
  -- The entries after the first update: the new one in its period, and the old ones.
  have hlinked : ∀ id e, linked.db.entries.get id = some e →
      (∃ e₀, tx.db.books.entries.get id = some e₀ ∧ e.fiscalPeriodId = e₀.fiscalPeriodId ∧
        e.entryDate = e₀.entryDate) ∨ e.fiscalPeriodId = period.id ∧ e.entryDate = r.entryDate := by
    intro id e he
    have hrow := (hgetFirst id).symm.trans he
    split at hrow
    next =>
      obtain rfl := Option.some.inj hrow
      rw [hentry]
      exact .inr ⟨hperiod, hentered.date⟩
    next hne =>
      obtain ⟨hmem, hkey⟩ := Table.get_mem hrow
      have hmem : e ∈ tx.db.books.entries.rows ++ [posting.draft] := hentered.entries ▸ hmem
      rcases List.mem_append.mp hmem with hmem | hmem
      · exact .inl ⟨e, Table.get_eq_some.mpr ⟨hmem, hkey⟩, rfl, rfl⟩
      · rw [List.mem_singleton.mp hmem] at hkey
        exact absurd hkey.symm hne
  have hframe : Becomes (fun _ => False) (fun _ _ _ => False) tx.db
      { tx.db with periods := tx'.db.periods } := of_same hsame rfl
  refine ⟨hframe.kept, hframe.added, hframe.created, hframe.apart, fun id e' he' => ?_⟩
  have hpost : ∀ e : JournalEntry, e.fiscalPeriodId = period.id ∧ e.entryDate = r.entryDate →
      ∃ env' r' period', (LedgerWrite.entry env r period accounts journal).Posts env' r' period' ∧
        e.fiscalPeriodId = period'.id ∧ e.entryDate = r'.entryDate :=
    fun e he => ⟨env, r, period, .entry, he⟩
  have hrow := (hgetSecond id).symm.trans he'
  split at hrow
  next hidEq =>
    obtain rfl := Option.some.inj hrow
    rw [hidEq]
    exact (hlinked _ original hpresent).imp_right (hpost _)
  next => exact (hlinked id e' hrow).imp_right (hpost e')

theorem account {parentId : Option Uuid} {account : Account}
    (hparent : db.closeParent parentId = .ok db₁) (hadd : db₁.addAccount account = .ok db') :
    Becomes (fun _ => False) (fun _ _ _ => False) db db' := by
  have hclosed : db₁.periods = db.periods ∧ db₁.books = db.books := by
    cases parentId with
    | none =>
        cases hparent
        exact ⟨rfl, rfl⟩
    | some parentId =>
        obtain ⟨_, -, hparent⟩ := bind_eq_ok.mp hparent
        obtain ⟨_, -, hparent⟩ := bind_eq_ok.mp hparent
        cases hparent
        exact ⟨rfl, rfl⟩
  obtain ⟨accounts, -, hadd⟩ := bind_eq_ok.mp hadd
  split at hadd
  · cases hadd
    exact of_same hclosed.1 hclosed.2
  · cases hadd

theorem write {tx tx' : LedgerTx} {w : LedgerWrite} (hadds : w.Adds) (h : tx.write w = .ok tx') :
    Becomes w.Creates w.Posts tx.db tx'.db := by
  have hnone : ∀ env r period, False → w.Posts env r period := fun _ _ _ => False.elim
  cases w with
  | bootstrap env seen =>
      obtain ⟨db, hboot, h⟩ := bind_eq_ok.mp h
      cases h
      exact (bootstrapFrom hboot).mono (fun _ => .rfl) hnone
  | entry env r period accounts journal =>
      obtain ⟨⟨tx₁, posting⟩, henter, hflush⟩ := bind_eq_ok.mp h
      exact entry henter hflush
  | account parentId account =>
      obtain ⟨db₁, hparent, h⟩ := bind_eq_ok.mp h
      obtain ⟨db₂, hadd, h⟩ := bind_eq_ok.mp h
      cases h
      exact (Becomes.account hparent hadd).mono (fun _ => .rfl) hnone
  | period period =>
      obtain ⟨db, hadd, h⟩ := bind_eq_ok.mp h
      cases h
      exact (addPeriod hadd).mono (fun _ => .rfl) hnone
  | status periodId status => exact hadds.elim

theorem replay {writes : List LedgerWrite} {tx tx' : LedgerTx} (hadds : ∀ w ∈ writes, w.Adds)
    (h : writes.foldlM LedgerTx.write tx = .ok tx') :
    Becomes (fun p => ∃ w ∈ writes, w.Creates p)
      (fun env r period => ∃ w ∈ writes, w.Posts env r period) tx.db tx'.db := by
  induction writes generalizing tx with
  | nil =>
      cases h
      exact (of_same rfl rfl).mono (by simp) fun _ _ _ => False.elim
  | cons w writes ih =>
      rw [List.foldlM_cons] at h
      obtain ⟨tx₁, hwrite, h⟩ := bind_eq_ok.mp h
      have hfirst := write (hadds w List.mem_cons_self) hwrite
      refine (hfirst.trans (ih (fun w hw => hadds w (.tail _ hw)) h)).mono (by simp) ?_
      simp

end LedgerDb.Becomes

/-- A change of status changes nothing else. -/
theorem LedgerDb.moveStatus_eq_ok {db db' : LedgerDb} {periodId : Uuid} {status : PeriodStatus}
    (h : db.moveStatus periodId status = .ok db') :
    db'.books = db.books ∧ ∃ period, db.periods.get periodId = some period ∧
      ∀ id, db'.periods.get id =
        if id = periodId then some { period with status := status } else db.periods.get id := by
  obtain ⟨period, hperiod, h⟩ := bind_eq_ok.mp h
  obtain ⟨periods, hreplace, h⟩ := bind_eq_ok.mp h
  cases h
  have hperiod := orRaise_eq_ok.mp hperiod
  have hkey : ({ period with status := status } : FiscalPeriod).id = periodId :=
    (Table.get_mem hperiod).2
  exact ⟨rfl, period, hperiod, Table.get_replace hperiod hkey (orRaise_eq_ok.mp hreplace)⟩

end Nexora.Accounting
