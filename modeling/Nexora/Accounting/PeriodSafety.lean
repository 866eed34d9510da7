import Nexora.Accounting.Periods

/-!
# Period safety

Periods are created open and move to closed and to locked (`change_period_status`), and `post`
looks for the period of its date and locks the row, as a change of status does.  So the status
that a posting has seen is the one that the period has when the entry is committed.

What an open request relies on is in `LedgerPhase.Governed`, what its end does in
`LedgerDb.Ended`, and `period_safety` is about every interleaving.
-/

namespace Nexora.Accounting

open Nexora Foundations

/-! ## What an open request relies on -/

/-- A posting on its date may go into the period. -/
structure FiscalPeriod.Takes (p : FiscalPeriod) (env : Env) (r : PostRequest) : Prop where
  covers : p.Covers r.entryDate
  unlocked : p.status ≠ .locked
  closed : p.status = .closed →
    r.allowClosed = true ∧ "accounting.post_closed" ∈ env.context.permissions

theorem LedgerDb.postingPeriod_eq_ok {db : LedgerDb} {env : Env} {r : PostRequest}
    {period : FiscalPeriod} (h : db.postingPeriod env r = .ok period) :
    db.periods.get period.id = some period ∧ period.Takes env r := by
  unfold LedgerDb.postingPeriod at h
  split at h
  next => cases h
  next found hfound =>
    obtain ⟨hunlocked, h⟩ := ite_error_eq_ok.mp h
    obtain ⟨hclosed, h⟩ := ite_error_eq_ok.mp h
    cases h
    have hcovers := List.find?_some hfound
    refine ⟨Table.get_eq_some.mpr ⟨List.mem_of_find?_eq_some hfound, rfl⟩, ?_, hunlocked, ?_⟩
    · simpa [FiscalPeriod.Covers] using hcovers
    · intro hstatus
      by_contra hnot
      exact hclosed ⟨hstatus, hnot⟩

/-- The postings that a request makes. -/
def LedgerOp.Issues : LedgerOp → Env → PostRequest → Prop
  | .operational env' requests _, env, r => env = env' ∧ r ∈ requests
  | .postManual env' _, env, _ | .reverse env' _, env, _ => env = env'
  | _, _, _ => False

def LedgerPhase.writes : LedgerPhase → List LedgerWrite
  | .parenting session _ _ _ | .manual session _ _ | .posting session _ _ _ _ _
  | .reversed session _ _ _ _ _ _ | .settled session => session.writes
  | _ => []

/-- The postings whose period is known. -/
inductive LedgerPhase.Posts : LedgerPhase → Env → PostRequest → FiscalPeriod → Prop where
  | written {phase : LedgerPhase} {w : LedgerWrite} {env : Env} {r : PostRequest}
      {period : FiscalPeriod} : w ∈ phase.writes → w.Posts env r period → Posts phase env r period
  | dated {session : LedgerSession} {env : Env} {original : Option JournalEntry} {r : PostRequest}
      {period : FiscalPeriod} {todo : List PostRequest} {own : Except Err Unit} :
      Posts (.posting session env original (.dated period) (r :: todo) own) env r period
  | charted {session : LedgerSession} {env : Env} {original : Option JournalEntry}
      {r : PostRequest} {period : FiscalPeriod} {accounts : List (String × Account)}
      {todo : List PostRequest} {own : Except Err Unit} :
      Posts (.posting session env original (.charted period accounts) (r :: todo) own) env r period
  | reversed {session : LedgerSession} {env : Env} {r : PostRequest} {period : FiscalPeriod}
      {accounts : List (String × Account)} {journal : Journal} {original : JournalEntry} :
      Posts (.reversed session env r period accounts journal original) env r period

/-- The period of the posting that a phase is in. -/
def LedgerPhase.known : LedgerPhase → Option FiscalPeriod
  | .posting _ _ _ (.dated period) _ _ | .posting _ _ _ (.charted period _) _ _
  | .reversed _ _ _ period _ _ _ => some period
  | _ => none

theorem LedgerPhase.Posts.of_known {phase : LedgerPhase} {env : Env} {r : PostRequest}
    {period : FiscalPeriod} (h : phase.Posts env r period) (hknown : phase.known = none) :
    ∃ w ∈ phase.writes, w.Posts env r period := by
  cases h with
  | written hw hpost => exact ⟨_, hw, hpost⟩
  | _ => cases hknown

/-- The postings that are still to be made. -/
def LedgerPhase.Asks : LedgerPhase → Env → PostRequest → Prop
  | .posting _ env' _ _ todo _, env, r => env = env' ∧ r ∈ todo
  | _, _, _ => False

/-- The request that a phase without postings belongs to. -/
def LedgerPhase.StartsFrom (op : LedgerOp) : LedgerPhase → Prop
  | .requested op' => op' = op
  | .manual _ env _ => ∃ payload, op = .postManual env payload
  | .locked env _ _ | .copying env _ _ _ => ∃ r, op = .reverse env r
  | _ => True

/-- A change of status, with the period locked. -/
def LedgerPhase.Moves (db : LedgerDb) (phase : LedgerPhase) : Prop :=
  ∃ id status locks, phase = .settled ⟨[.status id status], locks⟩ ∧
    (.period id, .update) ∈ locks ∧
    ∃ p, db.periods.get id = some p ∧ p.status.legal = some status

/-- A write that posts nothing, and makes only open periods. -/
structure LedgerWrite.Plain (w : LedgerWrite) : Prop where
  adds : w.Adds
  opened : ∀ p, w.Creates p → p.status = .opened
  quiet : ∀ env r period, ¬w.Posts env r period

theorem LedgerWrite.plain_bootstrap (env : Env) (seen : LedgerDb) : Plain (.bootstrap env seen) where
  adds := trivial
  opened := by
    rintro p ⟨-, rfl⟩
    rfl
  quiet := nofun

theorem LedgerWrite.plain_account (parentId : Option Uuid) (account : Account) :
    Plain (.account parentId account) :=
  ⟨trivial, fun _ => False.elim, nofun⟩

/-- The periods that an open request posts into are locked, and are as it has seen them. -/
structure LedgerPhase.Governed (db : LedgerDb) (op : LedgerOp) (phase : LedgerPhase) : Prop where
  origin : phase.StartsFrom op
  issued : ∀ env r, (phase.Asks env r ∨ ∃ period, phase.Posts env r period) → op.Issues env r
  posted : ∀ env r period, phase.Posts env r period → period.Takes env r ∧
    (.period period.id, .update) ∈ phase.locks ∧
    (db.periods.get period.id = some period ∨ ∃ w ∈ phase.writes, w.Creates period)
  opened : ∀ w ∈ phase.writes, ∀ p, w.Creates p → p.status = .opened
  moved : (∀ w ∈ phase.writes, w.Adds) ∨ phase.Moves db

namespace LedgerPhase.Governed

variable {db : LedgerDb} {op : LedgerOp} {phase phase' : LedgerPhase}

/-- A phase that has posted nothing, and knows no period yet. -/
theorem of_plain (horigin : phase.StartsFrom op) (hasks : ∀ env r, phase.Asks env r → op.Issues env r)
    (hplain : ∀ w ∈ phase.writes, w.Plain)
    (hknown : phase.known = none) : phase.Governed db op := by
  have hnone : ∀ env r period, ¬phase.Posts env r period := by
    intro env r period hpost
    obtain ⟨w, hw, hpost⟩ := hpost.of_known hknown
    exact (hplain w hw).quiet env r period hpost
  refine ⟨horigin, fun env r h => ?_, fun env r period h => absurd h (hnone env r period),
    fun w hw => (hplain w hw).opened, .inl fun w hw => (hplain w hw).adds⟩
  rcases h with h | ⟨period, h⟩
  · exact hasks env r h
  · exact absurd h (hnone env r period)

/-- A statement that keeps the locks, and finds no new period. -/
theorem advance (h : phase.Governed db op) (hopen : ∀ session, phase ≠ .settled session)
    (horigin : phase'.StartsFrom op) (more : List LedgerWrite)
    (hwrites : phase'.writes = phase.writes ++ more)
    (hadds : ∀ w ∈ more, w.Adds) (hopened : ∀ w ∈ more, ∀ p, w.Creates p → p.status = .opened)
    (hlocks : ∀ lock ∈ phase.locks, lock ∈ phase'.locks)
    (hasks : ∀ env r, phase'.Asks env r → phase.Asks env r ∨ op.Issues env r)
    (hposts : ∀ env r period, phase'.Posts env r period → phase.Posts env r period) :
    phase'.Governed db op where
  origin := horigin
  issued env r hissued := by
    rcases hissued with hask | ⟨period, hpost⟩
    · exact (hasks env r hask).elim (fun hask => h.issued env r (.inl hask)) id
    · exact h.issued env r (.inr ⟨period, hposts env r period hpost⟩)
  posted env r period hpost := by
    obtain ⟨htakes, hlock, hrow⟩ := h.posted env r period (hposts env r period hpost)
    refine ⟨htakes, hlocks _ hlock, hrow.imp_right ?_⟩
    rintro ⟨w, hw, hcreates⟩
    exact ⟨w, by rw [hwrites]; exact List.mem_append_left _ hw, hcreates⟩
  opened w hw := by
    rw [hwrites] at hw
    rcases List.mem_append.mp hw with hw | hw
    · exact h.opened w hw
    · exact hopened w hw
  moved := by
    have hold : ∀ w ∈ phase.writes, w.Adds := by
      refine h.moved.resolve_right ?_
      rintro ⟨_, _, _, heq, -⟩
      exact hopen _ heq
    refine .inl fun w hw => ?_
    rw [hwrites] at hw
    rcases List.mem_append.mp hw with hw | hw
    · exact hold w hw
    · exact hadds w hw

theorem begin (h : LedgerPhase.begin db op = .ok phase) : phase.Governed db op := by
  have hboot : ∀ env, ∀ w ∈ [LedgerWrite.bootstrap env db], w.Plain := by
    intro env w hw
    rw [List.mem_singleton.mp hw]
    exact LedgerWrite.plain_bootstrap env db
  cases op with
  | read env =>
      cases h
      exact of_plain trivial (fun _ _ => False.elim) (hboot env) rfl
  | createAccount env id payload =>
      cases h
      exact of_plain trivial (fun _ _ => False.elim) (hboot env) rfl
  | createPeriod env id name startDate endDate =>
      obtain ⟨-, h⟩ := ite_error_eq_ok.mp h
      cases h
      refine of_plain trivial (fun _ _ => False.elim) ?_ rfl
      refine List.forall_mem_cons.mpr ⟨LedgerWrite.plain_bootstrap env db, fun w hw => ?_⟩
      rw [List.mem_singleton.mp hw]
      exact ⟨trivial, fun p hp => by rw [show p = _ from hp], nofun⟩
  | changePeriodStatus periodId status =>
      simp only [LedgerPhase.begin] at h
      split at h
      next => cases h
      next period hperiod =>
        obtain ⟨hlegal, h⟩ := ite_error_eq_ok.mp h
        cases h
        have hnone : ∀ env r period, ¬(LedgerPhase.settled
            ⟨[.status periodId status], [(.period periodId, .update)]⟩).Posts env r period := by
          intro env r period hpost
          obtain ⟨w, hw, hpost⟩ := hpost.of_known rfl
          rw [List.mem_singleton.mp hw] at hpost
          cases hpost
        refine ⟨trivial, fun env r hissued => ?_, fun env r period hpost => ?_, fun w hw => ?_,
          .inr ⟨periodId, status, _, rfl, List.mem_singleton_self _, period, hperiod,
            of_not_not hlegal⟩⟩
        · exact (hissued.resolve_left id).elim fun period hpost => (hnone env r period hpost).elim
        · exact (hnone env r period hpost).elim
        · rw [List.mem_singleton.mp hw]
          exact fun _ => False.elim
  | operational env requests own =>
      cases h
      exact of_plain trivial (fun env' r hask => hask) (List.forall_mem_nil _) rfl
  | postManual env payload =>
      cases h
      exact of_plain ⟨payload, rfl⟩ (fun _ _ => False.elim) (hboot env) rfl
  | reverse env r =>
      obtain ⟨original, -, h⟩ := bind_eq_ok.mp h
      cases h
      exact of_plain ⟨r, rfl⟩ (fun _ _ => False.elim) (List.forall_mem_nil _) rfl

/-- A statement that writes, and posts nothing. -/
theorem push (h : phase.Governed db op) (hopen : ∀ session, phase ≠ .settled session)
    (horigin : phase'.StartsFrom op) {w : LedgerWrite} (hplain : w.Plain)
    (hwrites : phase'.writes = phase.writes ++ [w])
    (hlocks : ∀ lock ∈ phase.locks, lock ∈ phase'.locks)
    (hasks : ∀ env r, phase'.Asks env r → phase.Asks env r) (hknown : phase'.known = none) :
    phase'.Governed db op := by
  refine h.advance hopen horigin [w] hwrites (List.forall_mem_singleton.mpr hplain.adds)
    (List.forall_mem_singleton.mpr hplain.opened) hlocks (fun env r hask => .inl (hasks env r hask)) ?_
  intro env r period hpost
  obtain ⟨w', hw', hpost⟩ := hpost.of_known hknown
  rw [hwrites] at hw'
  rcases List.mem_append.mp hw' with hw' | hw'
  · exact .written hw' hpost
  · rw [List.mem_singleton.mp hw'] at hpost
    exact absurd hpost (hplain.quiet env r period)

theorem parent {session : LedgerSession} {env : Env} {id : Uuid} {payload : AccountCreate}
    (hphase : (LedgerPhase.parenting session env id payload).Governed db op)
    (h : LedgerPhase.parent db session env id payload = .ok phase) : phase.Governed db op := by
  have hpush : ∀ parentId account locks,
      (LedgerPhase.settled (session.push (.account parentId account) locks)).Governed db op :=
    fun parentId account locks => hphase.push nofun trivial
      (LedgerWrite.plain_account parentId account) rfl
      (fun _ hlock => List.mem_append_left _ hlock) (fun _ _ => False.elim) rfl
  obtain ⟨view, -, h⟩ := bind_eq_ok.mp h
  dsimp only at h
  split at h
  next =>
    cases h
    exact hpush _ _ _
  next =>
    split at h
    next => cases h
    next =>
      obtain ⟨-, h⟩ := ite_error_eq_ok.mp h
      cases h
      exact hpush _ _ _

/-- The period is read and locked. -/
theorem dated {session : LedgerSession} {env : Env} {original : Option JournalEntry}
    {r : PostRequest} {todo : List PostRequest} {own : Except Err Unit} {view : LedgerDb}
    {period : FiscalPeriod}
    (h : (LedgerPhase.posting session env original .bootstrapped (r :: todo) own).Governed db op)
    (hview : session.view db = .ok view) (hperiod : view.postingPeriod env r = .ok period) :
    (LedgerPhase.posting { session with locks := session.locks ++ [(.period period.id, .update)] }
      env original (.dated period) (r :: todo) own).Governed db op := by
  have hadds : ∀ w ∈ session.writes, w.Adds := h.moved.resolve_right nofun
  obtain ⟨tx, hreplay, hview⟩ := bind_eq_ok.mp hview
  cases hview
  obtain ⟨hrow, htakes⟩ := LedgerDb.postingPeriod_eq_ok hperiod
  have hseen := (LedgerDb.Becomes.replay hadds hreplay).added period.id period hrow
  refine ⟨trivial, fun env' r' hissued => ?_, fun env' r' period' hpost => ?_, h.opened, .inl hadds⟩
  · rcases hissued with hask | ⟨period', hpost⟩
    · exact h.issued env' r' (.inl hask)
    · cases hpost with
      | written hw hpost => exact h.issued env' r' (.inr ⟨period', .written hw hpost⟩)
      | dated => exact h.issued env r (.inl ⟨rfl, List.mem_cons_self⟩)
  · cases hpost with
    | written hw hpost =>
        obtain ⟨htakes, hlock, hrow⟩ := h.posted env' r' period' (.written hw hpost)
        exact ⟨htakes, List.mem_append_left _ hlock, hrow⟩
    | dated => exact ⟨htakes, List.mem_append_right _ (List.mem_singleton_self _), hseen⟩

/-- One statement of `post`. -/
theorem post {session : LedgerSession} {env : Env} {original : Option JournalEntry}
    {stage : PostStage} {r : PostRequest} {todo : List PostRequest} {own : Except Err Unit}
    (hphase : (LedgerPhase.posting session env original stage (r :: todo) own).Governed db op)
    (h : LedgerPhase.post db session env original r todo own stage = .ok phase) :
    phase.Governed db op := by
  cases stage with
  | opening =>
      obtain ⟨view, -, h⟩ := bind_eq_ok.mp h
      obtain ⟨_, -, h⟩ := bind_eq_ok.mp h
      cases h
      exact hphase.push nofun trivial (LedgerWrite.plain_bootstrap env view) rfl
        (fun _ hlock => List.mem_append_left _ hlock) (fun _ _ => id) rfl
  | bootstrapped =>
      obtain ⟨view, hview, h⟩ := bind_eq_ok.mp h
      obtain ⟨period, hperiod, h⟩ := bind_eq_ok.mp h
      cases h
      exact hphase.dated hview hperiod
  | dated period =>
      obtain ⟨view, -, h⟩ := bind_eq_ok.mp h
      obtain ⟨accounts, -, h⟩ := bind_eq_ok.mp h
      cases h
      refine hphase.advance nofun trivial [] (List.append_nil _).symm (List.forall_mem_nil _)
        (List.forall_mem_nil _) (fun _ => id) (fun _ _ => .inl) fun env' r' period' hpost => ?_
      cases hpost with
      | written hw hpost => exact .written hw hpost
      | charted => exact .dated
  | charted period accounts =>
      obtain ⟨view, -, h⟩ := bind_eq_ok.mp h
      obtain ⟨journal, -, h⟩ := bind_eq_ok.mp h
      cases original with
      | none =>
          cases h
          refine hphase.advance nofun trivial [.entry env r period accounts journal] rfl
            (List.forall_mem_singleton.mpr trivial)
            (List.forall_mem_singleton.mpr fun _ => False.elim)
            (fun _ hlock => List.mem_append_left _ hlock)
            (fun _ _ hask => .inl ⟨hask.1, .tail _ hask.2⟩) fun env' r' period' hpost => ?_
          obtain ⟨w, hw, hpost⟩ := hpost.of_known rfl
          rcases List.mem_append.mp hw with hw | hw
          · exact .written hw hpost
          · rw [List.mem_singleton.mp hw] at hpost
            cases hpost
            exact .charted
      | some original =>
          cases h
          refine hphase.advance nofun trivial [] (List.append_nil _).symm (List.forall_mem_nil _)
            (List.forall_mem_nil _) (fun _ hlock => List.mem_append_left _ hlock)
            (fun _ _ => False.elim) fun env' r' period' hpost => ?_
          cases hpost with
          | written hw hpost => exact .written hw hpost
          | reversed => exact .charted

theorem next (hphase : phase.Governed db op) (h : phase.next db = some (.ok phase')) :
    phase'.Governed db op := by
  unfold LedgerPhase.next at h
  split at h
  next op' =>
    obtain rfl : op' = op := hphase.origin
    exact begin (Option.some.inj h)
  next session env id payload => exact hphase.parent (Option.some.inj h)
  next session env payload =>
    obtain ⟨view, -, h⟩ := bind_eq_ok.mp (Option.some.inj h)
    obtain ⟨accounts, -, h⟩ := bind_eq_ok.mp h
    obtain ⟨_, -, h⟩ := bind_eq_ok.mp h
    cases h
    obtain ⟨payload', rfl⟩ := hphase.origin
    refine hphase.advance nofun trivial [] (List.append_nil _).symm (List.forall_mem_nil _)
      (List.forall_mem_nil _) (fun _ => id) (fun _ _ hask => .inr hask.1) fun _ _ _ hpost => ?_
    obtain ⟨w, hw, hpost⟩ := hpost.of_known rfl
    exact .written hw hpost
  next env r original =>
    cases h
    exact of_plain hphase.origin (fun _ _ => False.elim) (List.forall_mem_nil _) rfl
  next env r original lines =>
    cases h
    obtain ⟨r', rfl⟩ := hphase.origin
    exact of_plain trivial (fun _ _ hask => hask.1) (List.forall_mem_nil _) rfl
  next session env original stage r todo own => exact hphase.post (Option.some.inj h)
  next => cases h

end LedgerPhase.Governed

/-! ## The end of a request -/

/-- A period moves to the next status, and nothing else changes. -/
structure LedgerDb.Moved (phase : LedgerPhase) (db db' : LedgerDb) : Prop where
  books : db'.books = db.books
  period : ∃ id status p, (.period id, .update) ∈ phase.locks ∧ db.periods.get id = some p ∧
    p.status.legal = some status ∧ ∀ id', db'.periods.get id' =
      if id' = id then some { p with status := status } else db.periods.get id'

/-- What the end of a request does to the tables. -/
inductive LedgerDb.Ended (phase : LedgerPhase) (db db' : LedgerDb) : Prop where
  | unchanged : db' = db → Ended phase db db'
  | becomes : db.Becomes (fun p => ∃ w ∈ phase.writes, w.Creates p) phase.Posts db' →
      Ended phase db db'
  | moved : LedgerDb.Moved phase db db' → Ended phase db db'

theorem LedgerPhase.Governed.finish {db db' : LedgerDb} {op : LedgerOp} {phase : LedgerPhase}
    (hphase : phase.Governed db op) (h : phase.finish db = some db') : db.Ended phase db' := by
  have hreplayed : ∀ {tx : LedgerTx}, (∀ w ∈ phase.writes, w.Adds) →
      phase.writes.foldlM LedgerTx.write ⟨db, []⟩ = .ok tx →
        db.Becomes (fun p => ∃ w ∈ phase.writes, w.Creates p) phase.Posts tx.db :=
    fun hadds hreplay => (LedgerDb.Becomes.replay hadds hreplay).mono (fun _ => .rfl)
      fun _ _ _ hpost => hpost.elim fun _ hw => .written hw.1 hw.2
  unfold LedgerPhase.finish at h
  split at h
  next session =>
    obtain ⟨tx, hreplay, h⟩ := bind_eq_ok.mp (toOption_eq_some.mp h)
    rw [LedgerTx.commit_eq_ok h]
    rcases hphase.moved with hadds | ⟨id, status, locks, heq, hlock, p, hp, hlegal⟩
    · exact .becomes (hreplayed hadds hreplay)
    · cases heq
      obtain ⟨tx₁, hwrite, hnil⟩ := bind_eq_ok.mp hreplay
      cases hnil
      obtain ⟨moved, hmove, hwrite⟩ := bind_eq_ok.mp hwrite
      cases hwrite
      obtain ⟨hbooks, found, hfound, hget⟩ := LedgerDb.moveStatus_eq_ok hmove
      rw [hp] at hfound
      cases hfound
      exact .moved ⟨hbooks, id, status, p, hlock, hp, hlegal, hget⟩
  next session env own =>
    split at h
    next =>
      cases h
      exact .unchanged rfl
    next =>
      obtain ⟨tx, hreplay, h⟩ := bind_eq_ok.mp (toOption_eq_some.mp h)
      rw [LedgerTx.commit_eq_ok h]
      exact .becomes (hreplayed (hphase.moved.resolve_right nofun) hreplay)
  next session env r period accounts journal original =>
    obtain ⟨tx, hreplay, h⟩ := bind_eq_ok.mp (toOption_eq_some.mp h)
    obtain ⟨⟨tx₁, entered⟩, henter, h⟩ := bind_eq_ok.mp h
    obtain ⟨tx₂, hstamp, h⟩ := bind_eq_ok.mp h
    rw [LedgerTx.commit_eq_ok h]
    have hwritten := hreplayed (hphase.moved.resolve_right nofun) hreplay
    refine .becomes ((hwritten.trans (.reversal henter hstamp)).mono (fun _ => by simp) ?_)
    rintro env' r' period' (hpost | hpost)
    · exact hpost
    · cases hpost
      exact .reversed
  next =>
    cases h
    exact .unchanged rfl
  next => cases h

/-- The period later, with its status the same or the next one. -/
def FiscalPeriod.Follows (p p' : FiscalPeriod) : Prop :=
  p' = { p with status := p'.status } ∧ (p'.status = p.status ∨ p.status.legal = some p'.status)

theorem FiscalPeriod.Follows.refl (p : FiscalPeriod) : p.Follows p := ⟨rfl, .inl rfl⟩

theorem FiscalPeriod.Follows.covers {p p' : FiscalPeriod} (h : p.Follows p') {date : Date}
    (hcovers : p.Covers date) : p'.Covers date := by
  rw [h.1]
  exact hcovers

theorem LedgerDb.Moved.get {phase : LedgerPhase} {db db' : LedgerDb} (h : Moved phase db db')
    (id : Uuid) : (∀ p, db.periods.get id = some p →
      ∃ p', db'.periods.get id = some p' ∧ p.Follows p') ∧
    ∀ p', db'.periods.get id = some p' → ∃ p, db.periods.get id = some p ∧ p.Follows p' := by
  obtain ⟨moved, status, p, -, hp, hlegal, hget⟩ := h.period
  by_cases hid : id = moved
  · subst hid
    have hnew := (hget id).trans (if_pos rfl)
    have hfollows : p.Follows { p with status := status } := ⟨rfl, .inr hlegal⟩
    constructor
    · intro p₀ hp₀
      rw [hp] at hp₀
      cases hp₀
      exact ⟨_, hnew, hfollows⟩
    · intro p' hp'
      rw [hnew] at hp'
      cases hp'
      exact ⟨p, hp, hfollows⟩
  · have hold := (hget id).trans (if_neg hid)
    exact ⟨fun p₀ hp₀ => ⟨p₀, hold.trans hp₀, .refl p₀⟩,
      fun p' hp' => ⟨p', hold.symm.trans hp', .refl p'⟩⟩

namespace LedgerDb.Ended

variable {phase : LedgerPhase} {db db' : LedgerDb} {op : LedgerOp}

/-- No period is gone, and its status is the same or the next one. -/
theorem follows (h : Ended phase db db') {id : Uuid} {p : FiscalPeriod}
    (hp : db.periods.get id = some p) : ∃ p', db'.periods.get id = some p' ∧ p.Follows p' := by
  cases h with
  | unchanged heq => exact ⟨p, heq ▸ hp, .refl p⟩
  | becomes hbecomes => exact ⟨p, hbecomes.kept id p hp, .refl p⟩
  | moved hmoved => exact (hmoved.get id).1 p hp

/-- A period that is new is open. -/
theorem opened (h : Ended phase db db') (hphase : phase.Governed db op) {id : Uuid}
    {p : FiscalPeriod} (hnone : db.periods.get id = none) (hp : db'.periods.get id = some p) :
    p.status = .opened := by
  cases h with
  | unchanged heq =>
      rw [heq, hnone] at hp
      cases hp
  | becomes hbecomes =>
      rcases hbecomes.added id p hp with hold | ⟨w, hw, hcreates⟩
      · rw [hnone] at hold
        cases hold
      · exact hphase.opened w hw p hcreates
  | moved hmoved =>
      obtain ⟨old, hold, -⟩ := (hmoved.get id).2 p hp
      rw [hnone] at hold
      cases hold

/-- The entries are old ones, and ones posted into a period that takes them. -/
theorem entries (h : Ended phase db db') {id : Uuid} {e : JournalEntry}
    (he : db'.books.entries.get id = some e) :
    (∃ e₀, db.books.entries.get id = some e₀ ∧ e.fiscalPeriodId = e₀.fiscalPeriodId ∧
      e.entryDate = e₀.entryDate) ∨
    ∃ env r period, phase.Posts env r period ∧ e.fiscalPeriodId = period.id ∧
      e.entryDate = r.entryDate ∧
      ((db.periods.get period.id = some period ∨ ∃ w ∈ phase.writes, w.Creates period) →
        db'.periods.get period.id = some period) := by
  cases h with
  | unchanged heq =>
      rw [heq] at he
      exact .inl ⟨e, he, rfl, rfl⟩
  | becomes hbecomes =>
      refine (hbecomes.entries id e he).imp_right ?_
      rintro ⟨env, r, period, hpost, hid, hdate⟩
      refine ⟨env, r, period, hpost, hid, hdate, fun hrow => ?_⟩
      rcases hrow with hrow | hcreates
      · exact hbecomes.kept _ _ hrow
      · exact hbecomes.created period hcreates
  | moved hmoved =>
      rw [hmoved.books] at he
      exact .inl ⟨e, he, rfl, rfl⟩

theorem dated (h : Ended phase db db') (hdb : db.Dated) (hphase : phase.Governed db op) :
    db'.Dated where
  apart := by
    cases h with
    | unchanged heq =>
        rw [heq]
        exact hdb.apart
    | becomes hbecomes => exact hbecomes.apart hdb.apart
    | moved hmoved =>
        have hold : ∀ p ∈ db'.periods.rows, ∃ p₀ ∈ db.periods.rows, p₀.Follows p := by
          intro p hp
          obtain ⟨p₀, hp₀, hfollows⟩ := (hmoved.get p.id).2 p (Table.get_eq_some.mpr ⟨hp, rfl⟩)
          exact ⟨p₀, (Table.get_mem hp₀).1, hfollows⟩
        intro p hp q hq hne
        obtain ⟨p₀, hp₀, hfollowsP⟩ := hold p hp
        obtain ⟨q₀, hq₀, hfollowsQ⟩ := hold q hq
        rw [hfollowsP.1, hfollowsQ.1] at hne ⊢
        exact hdb.apart p₀ hp₀ q₀ hq₀ hne
  covered id e he := by
    rcases h.entries he with ⟨e₀, he₀, hperiod, hdate⟩ | ⟨env, r, period, hpost, hid, hdate, hrow⟩
    · obtain ⟨p, hp, hcovers⟩ := hdb.covered id e₀ he₀
      obtain ⟨p', hp', hfollows⟩ := h.follows hp
      rw [hperiod, hdate]
      exact ⟨p', hp', hfollows.covers hcovers⟩
    · obtain ⟨htakes, -, hsource⟩ := hphase.posted env r period hpost
      rw [hid, hdate]
      exact ⟨period, hrow hsource, htakes.covers⟩

/-- A period that another transaction has locked stays as it is. -/
theorem kept (h : Ended phase db db') {other : LedgerPhase}
    (hconflict : locksConflict other.locks phase.locks = false) {id : Uuid} {p : FiscalPeriod}
    (hlock : (LedgerRow.period id, LockMode.update) ∈ other.locks)
    (hp : db.periods.get id = some p) : db'.periods.get id = some p := by
  cases h with
  | unchanged heq => exact heq ▸ hp
  | becomes hbecomes => exact hbecomes.kept id p hp
  | moved hmoved =>
      obtain ⟨moved, status, p₀, hlock', -, -, hget⟩ := hmoved.period
      have hne : id ≠ moved := by
        rintro rfl
        exact notMem_of_conflicts hconflict hlock rfl hlock'
      rw [hget, if_neg hne]
      exact hp

end LedgerDb.Ended

theorem LedgerPhase.Governed.stable {db db' : LedgerDb} {op : LedgerOp} {phase other : LedgerPhase}
    (hother : other.Governed db op) (hended : LedgerDb.Ended phase db db')
    (hconflict : locksConflict other.locks phase.locks = false) : other.Governed db' op where
  origin := hother.origin
  issued := hother.issued
  posted env r period hpost := by
    obtain ⟨htakes, hlock, hrow⟩ := hother.posted env r period hpost
    exact ⟨htakes, hlock, hrow.imp_left (hended.kept hconflict hlock)⟩
  opened := hother.opened
  moved := by
    refine hother.moved.imp_right ?_
    rintro ⟨id, status, locks, rfl, hlock, p, hp, hlegal⟩
    exact ⟨id, status, locks, rfl, hlock, p, hended.kept hconflict hlock hp, hlegal⟩

/-- What a statement does in `ledger.tagged`. -/
theorem ledger_tagged_run {db db' : LedgerDb} {tx tx' : LedgerOp × LedgerPhase} {choice : Unit}
    (h : ledger.tagged.run db tx choice = some (db', tx')) : db' = db ∧ tx'.1 = tx.1 ∧
      (tx.2.next db = some (.ok tx'.2) ∨ ∃ e, tx'.2 = .raised e) := by
  obtain ⟨out, hrun, heq⟩ := Option.map_eq_some_iff.mp h
  cases heq
  obtain ⟨hdb, hnext⟩ := ledger_run hrun
  exact ⟨hdb, rfl, hnext⟩

/-- Periods are kept to, in every interleaving. -/
theorem ledger_dated : ledger.tagged.Sound (fun _ _ => True) LedgerDb.Dated
    fun db tx => tx.2.Governed db tx.1 where
  start db op _ := .of_plain rfl (fun _ _ => False.elim) (List.forall_mem_nil _) rfl
  run db tx choice db' tx' hdb htx hrun := by
    obtain ⟨rfl, hop, hnext | ⟨e, he⟩⟩ := ledger_tagged_run hrun
    · rw [hop]
      exact ⟨hdb, htx.next hnext⟩
    · rw [he]
      exact ⟨hdb, .of_plain trivial (fun _ _ => False.elim) (List.forall_mem_nil _) rfl⟩
  run_stable db tx choice db' tx' other _ _ hother hrun := by
    obtain ⟨rfl, -⟩ := ledger_tagged_run hrun
    exact hother
  finish db tx db' hdb htx _ h := (htx.finish h).dated hdb htx
  finish_stable db tx db' other _ htx _ hother hconflict h :=
    hother.stable (htx.finish h) hconflict

/-! ## Period safety -/

/-- The documents of other modules leave `allow_closed` at its default. -/
def LedgerOp.ByDefault : LedgerOp → Prop
  | .operational _ requests _ => ∀ r ∈ requests, r.allowClosed = false
  | _ => True

instance : DecidablePred LedgerOp.ByDefault
  | .operational _ requests _ => inferInstanceAs (Decidable (∀ r ∈ requests, r.allowClosed = false))
  | .read _ | .createAccount _ _ _ | .createPeriod _ _ _ _ _ | .changePeriodStatus _ _
  | .postManual _ _ | .reverse _ _ => .isTrue trivial

/-- A manual entry or a reversal, by a caller that may post into closed periods. -/
def LedgerOp.MayPostClosed : LedgerOp → Prop
  | .postManual env _ | .reverse env _ => "accounting.post_closed" ∈ env.context.permissions
  | _ => False

theorem LedgerOp.Issues.mayPostClosed {op : LedgerOp} {env : Env} {r : PostRequest}
    (h : op.Issues env r) (hdefault : op.ByDefault) (hclosed : r.allowClosed = true)
    (hpermission : "accounting.post_closed" ∈ env.context.permissions) : op.MayPostClosed := by
  cases op with
  | operational env' requests own =>
      have hopen := hdefault r h.2
      rw [hclosed] at hopen
      cases hopen
  | postManual env' payload =>
      cases h
      exact hpermission
  | reverse env' r' =>
      cases h
      exact hpermission
  | _ => exact h.elim

/-- An entry goes into a period that takes it when it is committed. -/
theorem LedgerDb.Ended.posted {phase : LedgerPhase} {db db' : LedgerDb} {op : LedgerOp}
    (h : Ended phase db db') (hphase : phase.Governed db op) (hdefault : op.ByDefault)
    {e : JournalEntry} (he : db'.books.entries.get e.id = some e)
    (hnew : db.books.entries.get e.id = none) {p : FiscalPeriod}
    (hp : db.periods.get e.fiscalPeriodId = some p) :
    p.status ≠ .locked ∧ (p.status = .closed → op.MayPostClosed) := by
  rcases h.entries he with ⟨e₀, he₀, -⟩ | ⟨env, r, period, hpost, hid, -, hrow⟩
  · rw [hnew] at he₀
    cases he₀
  · obtain ⟨htakes, -, hsource⟩ := hphase.posted env r period hpost
    obtain ⟨p', hp', -, hstatus⟩ := h.follows hp
    rw [hid, hrow hsource] at hp'
    cases hp'
    -- The period is the one that the posting has seen, or the one before it.
    constructor
    · intro hlocked
      rw [hlocked] at hstatus
      exact htakes.unlocked (hstatus.resolve_right nofun)
    · intro hclosed
      rw [hclosed] at hstatus
      have hseen : period.status = .closed :=
        hstatus.resolve_right fun hnext => htakes.unlocked (Option.some.inj hnext).symm
      obtain ⟨hallowed, hpermission⟩ := htakes.closed hseen
      exact (hphase.issued env r (.inr ⟨period, hpost⟩)).mayPostClosed hdefault hallowed hpermission

/-- In every interleaving of requests from an empty ledger on, entries are in the periods of their
dates and periods do not overlap.  A step moves a period from open to closed or from closed to
locked, or not at all.  It commits no entry into a period that is locked, and into one that is
closed only for a manual entry or a reversal whose caller may do that. -/
theorem period_safety {s : Interleaved LedgerDb (LedgerOp × LedgerPhase)}
    (h : Run (Protocol.opens LedgerOp.ByDefault)
      (fun s action s' => ledger.tagged.step s action = some s') (Protocol.init .empty) s) :
    (∀ e ∈ s.committed.books.entries.rows,
      ∃ p, s.committed.periods.get e.fiscalPeriodId = some p ∧ p.Covers e.entryDate) ∧
    (∀ p ∈ s.committed.periods.rows, ∀ q ∈ s.committed.periods.rows, p.id ≠ q.id → p.Apart q) ∧
    ∀ action s', ledger.tagged.step s action = some s' →
      (∀ id p, s.committed.periods.get id = some p →
        ∃ p', s'.committed.periods.get id = some p' ∧ p.Follows p') ∧
      (∀ id p, s.committed.periods.get id = none → s'.committed.periods.get id = some p →
        p.status = .opened) ∧
      ∀ e ∈ s'.committed.books.entries.rows, s.committed.books.entries.get e.id = none →
        ∀ p, s.committed.periods.get e.fiscalPeriodId = some p →
          p.status ≠ .locked ∧ (p.status = .closed →
            ∃ t tx, action = .finish t ∧ s.txs.get t = some tx ∧ tx.2.1.MayPostClosed) := by
  have hempty : LedgerDb.empty.Dated := ⟨List.forall_mem_nil _, nofun⟩
  have hinv := ledger_dated.runs (Protocol.Reaches.of_run h) (.init hempty)
  have hdefault := Protocol.opens_open h
  refine ⟨fun e he => hinv.committed.covered e.id e (Table.get_eq_some.mpr ⟨he, rfl⟩),
    hinv.committed.apart, fun action s' hstep => ?_⟩
  have hsame : s'.committed = s.committed ∨ ∃ t tx, action = .finish t ∧ s.txs.get t = some tx ∧
      LedgerDb.Ended tx.2.2 s.committed s'.committed ∧ tx.2.2.Governed s.committed tx.2.1 ∧
        tx.2.1.ByDefault := by
    rcases Protocol.step_committed hstep with hsame | ⟨t, tx, htx, hrun | ⟨haction, hfinish⟩⟩
    · exact .inl hsame
    · obtain ⟨choice, tx', -, hrun⟩ := hrun
      exact .inl (ledger_tagged_run hrun).1
    · have hmem := (Table.get_mem htx).1
      have hgoverned := hinv.opened tx hmem
      exact .inr ⟨t, tx, haction, htx, hgoverned.finish hfinish, hgoverned, hdefault tx hmem⟩
  rcases hsame with hsame | ⟨t, tx, haction, htx, hended, hgoverned, hop⟩
  · rw [hsame]
    refine ⟨fun id p hp => ⟨p, hp, .refl p⟩, fun id p hnone hp => ?_, fun e he hnone => ?_⟩
    · rw [hnone] at hp
      cases hp
    · rw [Table.get_eq_some.mpr ⟨he, rfl⟩] at hnone
      cases hnone
  · refine ⟨fun id p hp => hended.follows hp, fun id p => hended.opened hgoverned,
      fun e he hnew p hp => ?_⟩
    obtain ⟨hunlocked, hclosed⟩ :=
      hended.posted hgoverned hop (Table.get_eq_some.mpr ⟨he, rfl⟩) hnew hp
    exact ⟨hunlocked, fun hstatus => ⟨t, tx, haction, htx, hclosed hstatus⟩⟩

/-- The same tenant, for a caller that may post into closed periods. -/
def closedYear : Env :=
  { calendarYear with
    context := { calendarYear.context with permissions := {"accounting.post_closed"} } }

/-- The sale, the year closed, a sale that is refused, and a manual entry by a caller that may. -/
def postClosed : List (TxAction LedgerOp Unit) :=
  [.begin 1 cashSale, .run 1 (), .run 1 (), .run 1 (), .run 1 (), .run 1 (), .finish 1,
   .begin 2 (.changePeriodStatus 0 .closed), .run 2 (), .finish 2,
   .begin 3 cashSale, .run 3 (), .run 3 (), .run 3 (), .finish 3,
   .begin 4 (.postManual closedYear ⟨⟨2026, 2, 1⟩, "Deposit", [⟨3, none, 50, 0⟩, ⟨2, none, 0, 50⟩],
     9, 60, 61, fun n => 70 + n⟩),
   .run 4 (), .run 4 (), .run 4 (), .run 4 (), .run 4 (), .run 4 (), .finish 4]

/-- The manual entry is in the closed period, and the second sale is nowhere. -/
theorem period_safety_closed :
    ∃ s : Interleaved LedgerDb (LedgerOp × LedgerPhase),
      ((s.committed.periods.rows.map fun p => (p.id, p.status)) = [(0, .closed)] ∧
        (s.committed.books.entries.rows.map fun e => (e.id, e.fiscalPeriodId)) = [(1, 0), (60, 0)]) ∧
      ∀ e ∈ s.committed.books.entries.rows,
        ∃ p, s.committed.periods.get e.fiscalPeriodId = some p ∧ p.Covers e.entryDate := by
  have hexists : ∃ s : Interleaved LedgerDb (LedgerOp × LedgerPhase),
      Run (Protocol.opens LedgerOp.ByDefault)
        (fun s action s' => ledger.tagged.step s action = some s') (Protocol.init .empty) s ∧
      (s.committed.periods.rows.map fun p => (p.id, p.status)) = [(0, .closed)] ∧
        (s.committed.books.entries.rows.map fun e => (e.id, e.fiscalPeriodId)) = [(1, 0), (60, 0)] :=
    Run.exists_of_any postClosed (by decide +kernel)
  obtain ⟨s, hrun, hrows⟩ := hexists
  exact ⟨s, hrows, (period_safety hrun).1⟩

end Nexora.Accounting
