import Nexora.Core.Context
import Nexora.Foundations.Interleaving
import Mathlib.Data.List.Chain
import Mathlib.Data.List.Sort

/-!
# The outbox

`OutboxDispatcher.drain` of `app/modules/outbox/dispatcher.py`.  A dispatcher claims a batch with
`FOR UPDATE SKIP LOCKED`, sends each row of it, and writes what became of them in one commit.  The
claim goes row by row: a row that another dispatcher holds is passed over, and a row is looked at
again when its lock is taken.  A crash loses the transaction, but not what was sent.

`outbox_delivery` says what holds of every interleaving of any number of dispatchers: no two of
them hold a row, a row is never sent again once it is committed as sent or has used its attempts,
and the attempts of a row are counted and lie apart by the backoff.
-/

namespace Nexora.Outbox

open Nexora Foundations

/-- Points in time, in microseconds. -/
abbrev Time := Int

/-! ## Rows -/

/-- `OutboxEvent`.  The payload is handed to the consumer as it is. -/
structure OutboxEvent where
  id : Uuid
  topic : String
  availableAt : Time
  sentAt : Option Time
  attempts : Nat
  lastError : Option String
deriving DecidableEq

/-- `outbox_max_attempts` and `outbox_batch_size`. -/
structure Settings where
  maxAttempts : Nat
  batchSize : Nat

def backoffBaseSeconds : Nat := 30

def backoffMaxSeconds : Nat := 3600

/-- `_backoff`, in seconds. -/
def backoff (attempts : Nat) : Nat := min (backoffBaseSeconds * 2 ^ (attempts - 1)) backoffMaxSeconds

/-- The point in time until which a row waits after a failure. -/
def retryAt (now : Time) (attempts : Nat) : Time := now + backoff attempts * 10 ^ 6

/-- The `WHERE` clause of the claim. -/
def OutboxEvent.pending (settings : Settings) (now : Time) (event : OutboxEvent) : Bool :=
  event.sentAt = none ∧ event.availableAt ≤ now ∧ event.attempts < settings.maxAttempts

/-- The topics that `_dispatch` has a consumer for. -/
def topics : List String := ["email.send", "documents.index", "documents.cleanup"]

/-- A row that was dispatched, as it was read: the exception, if there was one, and the time after
the call. -/
structure Tried where
  read : OutboxEvent
  error : Option String
  sentAt : Time

/-- `event.attempts += 1`, and what the loop writes after the call. -/
def Tried.result (now : Time) (tried : Tried) : OutboxEvent :=
  let attempts := tried.read.attempts + 1
  match tried.error with
  | some error =>
      { tried.read with
        attempts := attempts
        lastError := some (String.ofList (error.toList.take 500))
        availableAt := retryAt now attempts }
  | none => { tried.read with attempts := attempts, sentAt := some tried.sentAt, lastError := none }

@[simp] theorem Tried.result_id (now : Time) (tried : Tried) :
    (tried.result now).id = tried.read.id := by
  unfold result
  split
  · rfl
  · rfl

@[simp] theorem Tried.result_attempts (now : Time) (tried : Tried) :
    (tried.result now).attempts = tried.read.attempts + 1 := by
  unfold result
  split
  · rfl
  · rfl

/-! ## State -/

/-- A committed attempt: its number, and the time that its dispatcher read at the start. -/
structure Attempt where
  eventId : Uuid
  number : Nat
  now : Time
  failed : Bool
deriving DecidableEq

def Tried.attempt (now : Time) (tried : Tried) : Attempt where
  eventId := tried.read.id
  number := tried.read.attempts + 1
  now := now
  failed := tried.error.isSome

/-- The table.  No statement reads the history: the rows that were handed to a consumer, which no
rollback takes back, and the committed attempts. -/
structure State where
  events : Table OutboxEvent.id
  dispatched : List Uuid
  log : List Attempt

/-- The rows of the batch, after the commit. -/
def State.commit (state : State) (now : Time) (done : List Tried) : State :=
  { state with
    events := state.events.putAll (done.map (·.result now))
    log := state.log ++ done.map (·.attempt now) }

/-! ## Statements -/

inductive Request where
  /-- A business transaction that enqueues a row, under the defaults of the table. -/
  | enqueue (id : Uuid) (topic : String) (availableAt : Time)
  /-- `drain`, with the time read from the clock. -/
  | drain (now : Time)

/-- Where a transaction stands. -/
inductive Phase where
  | enqueue (event : OutboxEvent)
  | select (now : Time)
  /-- The rows of the statement's snapshot that it has still to come to, and those it has locked. -/
  | claiming (now : Time) (todo : List Uuid) (claimed : List OutboxEvent)
  | dispatching (now : Time) (todo : List OutboxEvent) (done : List Tried)

inductive Choice where
  | next
  /-- The next row is locked by another transaction. -/
  | skip
  /-- What the consumer raises, and the time after the call. -/
  | deliver (error : Option String) (sentAt : Time)

def start (_ : State) : Request → Phase
  | .enqueue id topic availableAt => .enqueue ⟨id, topic, availableAt, none, 0, none⟩
  | .drain now => .select now

/-- The rows that match, by `available_at`. -/
def candidates (settings : Settings) (state : State) (now : Time) : List Uuid :=
  ((state.events.rows.filter (·.pending settings now)).insertionSort
    fun a b => a.availableAt ≤ b.availableAt).map OutboxEvent.id

/-- The claim comes to a row: it is locked if it still matches as it now is. -/
def claimRow (settings : Settings) (state : State) (now : Time) (claimed : List OutboxEvent)
    (id : Uuid) : List OutboxEvent :=
  match state.events.get id with
  | none => claimed
  | some event => if event.pending settings now then claimed ++ [event] else claimed

/-- The next statement. -/
def run (settings : Settings) (state : State) : Phase → Choice → Option (State × Phase)
  | .select now, .next => some (state, .claiming now (candidates settings state now) [])
  | .claiming now [] claimed, .next => some (state, .dispatching now claimed [])
  | .claiming now (id :: todo) claimed, .next =>
      if claimed.length < settings.batchSize then
        some (state, .claiming now todo (claimRow settings state now claimed id))
      else some (state, .dispatching now claimed [])
  | .claiming now (_ :: todo) claimed, .skip => some (state, .claiming now todo claimed)
  | .dispatching now (event :: todo) done, .deliver error sentAt =>
      -- A row that has no consumer raises.
      if error = none ∧ event.topic ∉ topics then none
      else
        some ({ state with dispatched := state.dispatched ++ [event.id] },
          .dispatching now todo (done ++ [⟨event, error, sentAt⟩]))
  | _, _ => none

/-- The end of a transaction. -/
def finish (state : State) : Phase → Option State
  | .enqueue event => (state.events.insert event).map fun events => { state with events := events }
  | .dispatching now [] done => some (state.commit now done)
  | _ => none

/-- The rows that a transaction has claimed. -/
def Phase.claims : Phase → List OutboxEvent
  | .claiming _ _ claimed => claimed
  | .dispatching _ todo done => done.map Tried.read ++ todo
  | _ => []

def locks (phase : Phase) : List (Uuid × LockMode) :=
  phase.claims.map fun event => (event.id, .update)

/-- Dispatchers, and the transactions that enqueue. -/
def protocol (settings : Settings) : Protocol State Request Phase Choice Uuid where
  start := start
  run := run settings
  finish := finish
  locks := locks

/-! ## The invariant -/

/-- The committed attempts of a row. -/
def State.attemptsOf (state : State) (id : Uuid) : List Attempt :=
  state.log.filter fun attempt => attempt.eventId = id

/-- The next attempt comes after a failure, with the next number and after the backoff. -/
def Follows (attempt next : Attempt) : Prop :=
  attempt.failed ∧ next.number = attempt.number + 1 ∧
    retryAt attempt.now attempt.number ≤ next.now

/-- The row is as its last attempt has left it. -/
def LeftBy (event : OutboxEvent) (attempt : Attempt) : Prop :=
  attempt.number = event.attempts ∧
    if attempt.failed then event.availableAt = retryAt attempt.now attempt.number
    else event.sentAt ≠ none

/-- The table and the history agree. -/
structure Consistent (settings : Settings) (state : State) : Prop where
  bounded : ∀ event ∈ state.events.rows, event.attempts ≤ settings.maxAttempts
  known : ∀ attempt ∈ state.log, state.events.get attempt.eventId ≠ none
  counted : ∀ event ∈ state.events.rows, (state.attemptsOf event.id).length = event.attempts
  spaced : ∀ id, (state.attemptsOf id).IsChain Follows
  last : ∀ event ∈ state.events.rows,
    ∀ attempt ∈ (state.attemptsOf event.id).getLast?, LeftBy event attempt

/-- The rows are as they were read, and were pending. -/
def Holds (settings : Settings) (state : State) (now : Time) (events : List OutboxEvent) : Prop :=
  (events.map OutboxEvent.id).Nodup ∧
    ∀ event ∈ events, state.events.get event.id = some event ∧ event.pending settings now

/-- What an open transaction relies on. -/
def Relies (settings : Settings) (state : State) : Phase → Prop
  | .enqueue event => event.attempts = 0
  | .select _ => True
  | .claiming now todo claimed =>
      Holds settings state now claimed ∧ (claimed.map OutboxEvent.id ++ todo).Nodup
  | .dispatching now todo done => Holds settings state now (done.map Tried.read ++ todo)

variable {settings : Settings} {state state' : State} {now : Time} {done : List Tried}

/-! ## Committing a batch -/

/-- Among rows with different keys, the ones with a key are the one that is found. -/
theorem filter_eq_singleton {α K : Type} [DecidableEq K] {key : α → K} {l : List α} {a : α}
    (hnodup : (l.map key).Nodup) (ha : a ∈ l) : l.filter (key · = key a) = [a] := by
  induction l with
  | nil => cases ha
  | cons b l ih =>
      rw [List.map_cons, List.nodup_cons] at hnodup
      rcases List.mem_cons.mp ha with rfl | ha
      · have hnone : l.filter (key · = key a) = [] := by
          refine List.filter_eq_nil_iff.mpr fun b hb => ?_
          rw [decide_eq_true_eq]
          exact fun heq => hnodup.1 (heq ▸ List.mem_map_of_mem hb)
        rw [List.filter_cons_of_pos (by simp), hnone]
      · have hne : key b ≠ key a := fun heq => hnodup.1 (heq ▸ List.mem_map_of_mem ha)
        rw [List.filter_cons_of_neg (by simpa using hne), ih hnodup.2 ha]

section Commit

variable (hnodup : (done.map (·.read.id)).Nodup)

include hnodup

theorem commit_get (id : Uuid) : (state.commit now done).events.get id =
    ((done.map (·.result now)).find? (·.id = id)).or (state.events.get id) := by
  have hkeys : ((done.map (·.result now)).map OutboxEvent.id).Nodup := by
    rw [List.map_map]
    simpa [Function.comp_def] using hnodup
  exact Table.get_putAll hkeys state.events id

/-- A row of the batch is written. -/
theorem commit_get_of_mem {tried : Tried} (h : tried ∈ done) :
    (state.commit now done).events.get tried.read.id = some (tried.result now) := by
  have hmem : tried.result now ∈ (done.map (·.result now)).filter (·.id = tried.read.id) :=
    List.mem_filter.mpr ⟨List.mem_map_of_mem h, by simp⟩
  have hkeys : ((done.map (·.result now)).map OutboxEvent.id).Nodup := by
    rw [List.map_map]
    simpa [Function.comp_def] using hnodup
  have hone := filter_eq_singleton hkeys (List.mem_map_of_mem (f := (·.result now)) h)
  rw [Tried.result_id] at hone
  rw [commit_get hnodup, ← List.head?_filter, hone]
  rfl

/-- The other rows stay. -/
theorem commit_get_of_notMem {id : Uuid} (h : id ∉ done.map (·.read.id)) :
    (state.commit now done).events.get id = state.events.get id := by
  have hnone : (done.map (·.result now)).find? (·.id = id) = none := by
    refine List.find?_eq_none.mpr fun event hevent => ?_
    obtain ⟨tried, htried, rfl⟩ := List.mem_map.mp hevent
    rw [Tried.result_id, decide_eq_true_eq]
    exact fun heq => h (heq ▸ List.mem_map_of_mem htried)
  rw [commit_get hnodup, hnone]
  rfl

theorem attemptsOf_commit_of_mem {tried : Tried} (h : tried ∈ done) :
    (state.commit now done).attemptsOf tried.read.id =
      state.attemptsOf tried.read.id ++ [tried.attempt now] := by
  have hkeys : ((done.map (·.attempt now)).map Attempt.eventId).Nodup := by
    rw [List.map_map]
    exact hnodup
  have hone := filter_eq_singleton hkeys (List.mem_map_of_mem (f := (·.attempt now)) h)
  show (state.log ++ done.map (·.attempt now)).filter _ = _
  rw [List.filter_append]
  exact congrArg _ hone

end Commit

theorem attemptsOf_commit_of_notMem {id : Uuid} (h : id ∉ done.map (·.read.id)) :
    (state.commit now done).attemptsOf id = state.attemptsOf id := by
  have hnone : (done.map (·.attempt now)).filter (fun attempt => attempt.eventId = id) = [] := by
    refine List.filter_eq_nil_iff.mpr fun attempt hattempt => ?_
    obtain ⟨tried, htried, rfl⟩ := List.mem_map.mp hattempt
    rw [decide_eq_true_eq]
    exact fun heq => h (heq ▸ List.mem_map_of_mem htried)
  show (state.log ++ done.map (·.attempt now)).filter _ = _
  rw [List.filter_append, hnone, List.append_nil]
  rfl

theorem pending_iff {event : OutboxEvent} : event.pending settings now ↔
    event.sentAt = none ∧ event.availableAt ≤ now ∧ event.attempts < settings.maxAttempts := by
  simp [OutboxEvent.pending]

/-- A pending row has failed before, if it was tried. -/
theorem Consistent.failed (h : Consistent settings state) {event : OutboxEvent}
    (hget : state.events.get event.id = some event) (hpending : event.pending settings now)
    {attempt : Attempt} (hlast : (state.attemptsOf event.id).getLast? = some attempt) :
    attempt.failed ∧ attempt.number = event.attempts ∧
      retryAt attempt.now attempt.number ≤ now := by
  obtain ⟨hsent, havailable, -⟩ := pending_iff.mp hpending
  obtain ⟨hnumber, hleft⟩ := h.last event (Table.get_mem hget).1 attempt hlast
  split at hleft
  next hfailed => exact ⟨hfailed, hnumber, hleft ▸ havailable⟩
  next => exact absurd hsent hleft

theorem Consistent.commit (h : Consistent settings state)
    (hholds : Holds settings state now (done.map Tried.read)) :
    Consistent settings (state.commit now done) := by
  have hnodup : (done.map (·.read.id)).Nodup := by
    have hids := hholds.1
    rwa [List.map_map] at hids
  have hread : ∀ tried ∈ done, state.events.get tried.read.id = some tried.read ∧
      tried.read.pending settings now := fun tried htried =>
    hholds.2 tried.read (List.mem_map_of_mem htried)
  -- A row after the commit is one of the batch, or an old one.
  have hrows : ∀ event ∈ (state.commit now done).events.rows,
      (∃ tried ∈ done, event = tried.result now) ∨
        event ∈ state.events.rows ∧ event.id ∉ done.map (·.read.id) := by
    intro event hevent
    have hget := Table.get_eq_some.mpr ⟨hevent, rfl⟩
    by_cases hmem : event.id ∈ done.map (·.read.id)
    · obtain ⟨tried, htried, hid⟩ := List.mem_map.mp hmem
      rw [← hid, commit_get_of_mem hnodup htried] at hget
      exact .inl ⟨tried, htried, (Option.some_inj.mp hget).symm⟩
    · rw [commit_get_of_notMem hnodup hmem] at hget
      exact .inr ⟨(Table.get_mem hget).1, hmem⟩
  constructor
  · intro event hevent
    rcases hrows event hevent with ⟨tried, htried, rfl⟩ | ⟨hold, -⟩
    · rw [Tried.result_attempts]
      exact (pending_iff.mp (hread tried htried).2).2.2
    · exact h.bounded event hold
  · intro attempt hattempt
    by_cases hmem : attempt.eventId ∈ done.map (·.read.id)
    · obtain ⟨tried, htried, hid⟩ := List.mem_map.mp hmem
      rw [← hid, commit_get_of_mem hnodup htried]
      exact Option.some_ne_none _
    · rw [commit_get_of_notMem hnodup hmem]
      rcases List.mem_append.mp hattempt with hold | hnew
      · exact h.known attempt hold
      · obtain ⟨tried, htried, rfl⟩ := List.mem_map.mp hnew
        exact absurd (List.mem_map_of_mem htried) hmem
  · intro event hevent
    rcases hrows event hevent with ⟨tried, htried, rfl⟩ | ⟨hold, hnot⟩
    · have hcounted := h.counted tried.read (Table.get_mem (hread tried htried).1).1
      rw [Tried.result_id, attemptsOf_commit_of_mem hnodup htried, List.length_append, hcounted,
        Tried.result_attempts]
      rfl
    · rw [attemptsOf_commit_of_notMem hnot]
      exact h.counted event hold
  · intro id
    by_cases hmem : id ∈ done.map (·.read.id)
    · obtain ⟨tried, htried, rfl⟩ := List.mem_map.mp hmem
      rw [attemptsOf_commit_of_mem hnodup htried]
      refine (h.spaced _).append (List.isChain_singleton _) fun attempt hlast next hnext => ?_
      cases hnext
      obtain ⟨hget, hpending⟩ := hread tried htried
      obtain ⟨hfailed, hnumber, hretry⟩ := h.failed hget hpending hlast
      exact ⟨hfailed, congrArg (· + 1) hnumber.symm, hretry⟩
    · rw [attemptsOf_commit_of_notMem hmem]
      exact h.spaced id
  · intro event hevent
    rcases hrows event hevent with ⟨tried, htried, rfl⟩ | ⟨hold, hnot⟩
    · rw [Tried.result_id, attemptsOf_commit_of_mem hnodup htried, List.getLast?_append]
      intro attempt hattempt
      cases hattempt
      refine ⟨(tried.result_attempts now).symm, ?_⟩
      cases herror : tried.error with
      | none => simp [Tried.attempt, Tried.result, herror]
      | some error => simp [Tried.attempt, Tried.result, herror]
    · rw [attemptsOf_commit_of_notMem hnot]
      exact h.last event hold

/-! ## Enqueueing -/

theorem Consistent.insert {event : OutboxEvent} {events : Table OutboxEvent.id}
    (h : Consistent settings state) (hattempts : event.attempts = 0)
    (hinsert : state.events.insert event = some events) :
    Consistent settings { state with events := events } := by
  obtain ⟨hrows, hfresh⟩ := Table.insert_eq_some hinsert
  have hnone : state.attemptsOf event.id = [] := by
    refine List.filter_eq_nil_iff.mpr fun attempt hattempt => ?_
    rw [decide_eq_true_eq]
    rintro heq
    exact h.known attempt hattempt (heq ▸ hfresh)
  have hcases : ∀ row ∈ events.rows, row ∈ state.events.rows ∨ row = event := by
    intro row hrow
    rw [hrows] at hrow
    exact (List.mem_append.mp hrow).imp_right List.mem_singleton.mp
  constructor
  · intro row hrow
    rcases hcases row hrow with hrow | rfl
    · exact h.bounded row hrow
    · rw [hattempts]
      exact Nat.zero_le _
  · intro attempt hattempt
    obtain ⟨row, hrow⟩ := Option.ne_none_iff_exists'.mp (h.known attempt hattempt)
    show events.get attempt.eventId ≠ none
    rw [Table.get_of_append hrow hrows]
    exact Option.some_ne_none row
  · intro row hrow
    rcases hcases row hrow with hrow | rfl
    · exact h.counted row hrow
    · rw [hattempts]
      exact congrArg List.length hnone
  · exact h.spaced
  · intro row hrow
    rcases hcases row hrow with hrow | rfl
    · exact h.last row hrow
    · intro attempt hattempt
      have hlast : (state.attemptsOf row.id).getLast? = some attempt := hattempt
      rw [hnone] at hlast
      cases hlast

/-! ## The rule -/

theorem nodup_candidates (settings : Settings) (state : State) (now : Time) :
    (candidates settings state now).Nodup := by
  have hrows : ((state.events.rows.filter (·.pending settings now)).map OutboxEvent.id).Nodup :=
    state.events.nodup.sublist (List.filter_sublist.map _)
  exact ((List.perm_insertionSort _ _).map _).nodup_iff.mpr hrows

/-- The claim of one row. -/
theorem Holds.claimRow {claimed : List OutboxEvent} {id : Uuid} {todo : List Uuid}
    (h : Holds settings state now claimed) (hnodup : (claimed.map OutboxEvent.id ++ id :: todo).Nodup) :
    Holds settings state now (Outbox.claimRow settings state now claimed id) ∧
      ((Outbox.claimRow settings state now claimed id).map OutboxEvent.id ++ todo).Nodup := by
  have hpassed : Holds settings state now claimed ∧ (claimed.map OutboxEvent.id ++ todo).Nodup :=
    ⟨h, hnodup.sublist (List.Sublist.append_left (List.sublist_cons_self id todo) _)⟩
  unfold Outbox.claimRow
  split
  next => exact hpassed
  next event hget =>
    split
    next hpending =>
      have hid : event.id = id := (Table.get_mem hget).2
      have hmore : ((claimed ++ [event]).map OutboxEvent.id ++ todo).Nodup := by
        rw [List.map_append, List.append_assoc, List.map_singleton, hid]
        exact hnodup
      refine ⟨⟨(List.nodup_append.mp hmore).1, fun row hrow => ?_⟩, hmore⟩
      rcases List.mem_append.mp hrow with hrow | hrow
      · exact h.2 row hrow
      · rw [List.mem_singleton.mp hrow]
        exact ⟨Table.get_self hget, hpending⟩
    next => exact hpassed

/-- A statement changes no row.  It hands on at most one, which is pending. -/
theorem Relies.run {phase phase' : Phase} {choice : Choice} (h : Relies settings state phase)
    (hrun : Outbox.run settings state phase choice = some (state', phase')) :
    Relies settings state phase' ∧ (state' = state ∨ ∃ now, ∃ event ∈ phase.claims,
      event.pending settings now ∧ state.events.get event.id = some event ∧
        state' = { state with dispatched := state.dispatched ++ [event.id] }) := by
  cases phase with
  | select now =>
      cases choice with
      | next =>
          cases hrun
          exact ⟨⟨⟨List.nodup_nil, List.forall_mem_nil _⟩, nodup_candidates settings state now⟩,
            .inl rfl⟩
      | _ => cases hrun
  | claiming now todo claimed =>
      obtain ⟨hholds, hnodup⟩ := h
      have hdispatch : Relies settings state (.dispatching now claimed []) := hholds
      cases todo with
      | nil =>
          cases choice with
          | next =>
              cases hrun
              exact ⟨hdispatch, .inl rfl⟩
          | _ => cases hrun
      | cons id todo =>
          cases choice with
          | next =>
              simp only [Outbox.run] at hrun
              split at hrun
              · cases hrun
                exact ⟨hholds.claimRow hnodup, .inl rfl⟩
              · cases hrun
                exact ⟨hdispatch, .inl rfl⟩
          | skip =>
              cases hrun
              exact ⟨⟨hholds, hnodup.sublist
                (List.Sublist.append_left (List.sublist_cons_self id todo) _)⟩, .inl rfl⟩
          | deliver error sentAt => cases hrun
  | dispatching now todo done =>
      cases todo with
      | nil =>
          cases choice with
          | _ => cases hrun
      | cons event todo =>
          cases choice with
          | deliver error sentAt =>
              simp only [Outbox.run] at hrun
              split at hrun
              next => cases hrun
              next =>
                cases hrun
                have hholds : Holds settings state now (done.map Tried.read ++ event :: todo) := h
                have hmem : event ∈ done.map Tried.read ++ event :: todo :=
                  List.mem_append_right _ List.mem_cons_self
                obtain ⟨hget, hpending⟩ := hholds.2 event hmem
                refine ⟨?_, .inr ⟨now, event, hmem, hpending, hget, rfl⟩⟩
                show Holds settings state now ((done ++ [_]).map Tried.read ++ todo)
                rw [List.map_append, List.append_assoc]
                exact hholds
          | _ => cases hrun
  | _ => cases hrun

/-- A transaction relies on the rows that it has claimed. -/
theorem Relies.of_get {phase : Phase} (h : Relies settings state phase)
    (hget : ∀ event ∈ phase.claims, state'.events.get event.id = state.events.get event.id) :
    Relies settings state' phase := by
  have hholds : ∀ now events, (∀ event ∈ events, event ∈ phase.claims) →
      Holds settings state now events → Holds settings state' now events := by
    intro now events hmem hholds
    refine ⟨hholds.1, fun event hevent => ?_⟩
    rw [hget event (hmem event hevent)]
    exact hholds.2 event hevent
  cases phase with
  | enqueue event => exact h
  | select now => exact trivial
  | claiming now todo claimed => exact ⟨hholds now claimed (fun _ => id) h.1, h.2⟩
  | dispatching now todo done => exact hholds now _ (fun _ => id) h

theorem Relies.pending {phase : Phase} (h : Relies settings state phase) :
    ∀ event ∈ phase.claims, state.events.get event.id = some event ∧
      ∃ now, event.pending settings now := by
  intro event hevent
  cases phase with
  | enqueue event' => cases hevent
  | select now => cases hevent
  | claiming now todo claimed =>
      obtain ⟨hget, hpending⟩ := h.1.2 event hevent
      exact ⟨hget, now, hpending⟩
  | dispatching now todo done =>
      obtain ⟨hget, hpending⟩ := h.2 event hevent
      exact ⟨hget, now, hpending⟩

/-- The locks keep the claims apart. -/
theorem claims_apart {phase phase' : Phase} (h : locksConflict (locks phase) (locks phase') = false)
    {event event' : OutboxEvent} (hevent : event ∈ phase.claims) (hevent' : event' ∈ phase'.claims) :
    event.id ≠ event'.id := by
  intro heq
  refine notMem_of_update h (List.mem_map_of_mem hevent) ?_
  rw [heq]
  exact List.mem_map_of_mem (List.mem_map_of_mem hevent')

/-- What the end of a transaction does. -/
theorem finish_cases {phase : Phase} (hrelies : Relies settings state phase)
    (h : Outbox.finish state phase = some state') :
    (∃ event events, event.attempts = 0 ∧ state.events.insert event = some events ∧
      state' = { state with events := events }) ∨
    ∃ now done, phase = .dispatching now [] done ∧
      Holds settings state now (done.map Tried.read) ∧ state' = state.commit now done := by
  cases phase with
  | enqueue event =>
      obtain ⟨events, hinsert, rfl⟩ := Option.map_eq_some_iff.mp h
      exact .inl ⟨event, events, hrelies, hinsert, rfl⟩
  | dispatching now todo done =>
      cases todo with
      | nil =>
          cases h
          have hholds : Holds settings state now (done.map Tried.read ++ []) := hrelies
          rw [List.append_nil] at hholds
          exact .inr ⟨now, done, rfl, hholds, rfl⟩
      | cons event todo => cases h
  | _ => cases h

/-- The end of a transaction leaves the rows that it has not claimed. -/
theorem finish_get {phase : Phase} (hrelies : Relies settings state phase)
    (h : Outbox.finish state phase = some state') {event : OutboxEvent}
    (hget : state.events.get event.id = some event)
    (hnot : ∀ claimed ∈ phase.claims, claimed.id ≠ event.id) :
    state'.events.get event.id = some event := by
  rcases finish_cases hrelies h with ⟨new, events, -, hinsert, rfl⟩ |
    ⟨now, done, rfl, hholds, rfl⟩
  · exact Table.get_of_append hget (Table.insert_eq_some hinsert).1
  · have hnodup : (done.map (·.read.id)).Nodup := by
      have hids := hholds.1
      rwa [List.map_map] at hids
    rw [commit_get_of_notMem hnodup, hget]
    intro hmem
    obtain ⟨tried, htried, hid⟩ := List.mem_map.mp hmem
    exact hnot tried.read (List.mem_append_left [] (List.mem_map_of_mem htried)) hid

theorem sound (settings : Settings) :
    (protocol settings).Sound (fun _ _ => True) (Consistent settings) (Relies settings) where
  start state request _ := by
    cases request with
    | enqueue id topic availableAt => rfl
    | drain now => exact trivial
  run state phase choice state' phase' h hrelies hrun := by
    obtain ⟨hrelies', rfl | ⟨now, event, -, -, -, rfl⟩⟩ := hrelies.run hrun
    · exact ⟨h, hrelies'⟩
    · exact ⟨⟨h.bounded, h.known, h.counted, h.spaced, h.last⟩, hrelies'.of_get fun _ _ => rfl⟩
  run_stable state phase choice state' phase' other h hrelies hother hrun := by
    obtain ⟨-, rfl | ⟨now, event, -, -, -, rfl⟩⟩ := hrelies.run hrun
    · exact hother
    · exact hother.of_get fun _ _ => rfl
  finish state phase state' h hrelies _ hfinish := by
    rcases finish_cases hrelies hfinish with ⟨event, events, hattempts, hinsert, rfl⟩ |
      ⟨now, done, -, hholds, rfl⟩
    · exact h.insert hattempts hinsert
    · exact h.commit hholds
  finish_stable state phase state' other h hrelies _ hother hfree hfinish := by
    refine hother.of_get fun event hevent => ?_
    obtain ⟨hget, -⟩ := hother.pending event hevent
    rw [hget, finish_get hrelies hfinish hget]
    exact fun claimed hclaimed heq => claims_apart hfree hevent hclaimed heq.symm

/-! ## Rows that are done with -/

/-- The row is sent, or has used its attempts. -/
def OutboxEvent.finished (settings : Settings) (event : OutboxEvent) : Prop :=
  event.sentAt ≠ none ∨ settings.maxAttempts ≤ event.attempts

theorem OutboxEvent.finished.not_pending {event : OutboxEvent} (h : event.finished settings) (now : Time) :
    ¬event.pending settings now := by
  intro hpending
  obtain ⟨hsent, -, hlt⟩ := pending_iff.mp hpending
  rcases h with h | h
  · exact h hsent
  · exact absurd hlt (Nat.not_lt.mpr h)

/-- The row is as it was, and was not handed on since. -/
def LeftAlone (event : OutboxEvent) (before : List Uuid) (state : State) : Prop :=
  state.events.get event.id = some event ∧
    ∃ more, state.dispatched = before ++ more ∧ event.id ∉ more

/-- A claimed row is not one that is done with. -/
theorem Relies.claims_ne {phase : Phase} (h : Relies settings state phase) {event : OutboxEvent}
    (hfinished : event.finished settings) (hget : state.events.get event.id = some event) :
    ∀ claimed ∈ phase.claims, claimed.id ≠ event.id := by
  intro claimed hclaimed heq
  obtain ⟨hget', now, hpending⟩ := h.pending claimed hclaimed
  rw [heq, hget] at hget'
  cases hget'
  exact hfinished.not_pending now hpending

theorem sound_leftAlone (settings : Settings) {event : OutboxEvent} (hfinished : event.finished settings)
    (before : List Uuid) :
    (protocol settings).Sound (fun _ _ => True)
      (fun state => Consistent settings state ∧ LeftAlone event before state) (Relies settings) :=
  (sound settings).and
    (fun state phase choice state' phase' _ hrelies ⟨hget, more, hmore, hnot⟩ hrun => by
      obtain ⟨-, rfl | ⟨now, claimed, hclaimed, -, -, rfl⟩⟩ := hrelies.run hrun
      · exact ⟨hget, more, hmore, hnot⟩
      · refine ⟨hget, more ++ [claimed.id], ?_, ?_⟩
        · show state.dispatched ++ [claimed.id] = _
          rw [hmore, List.append_assoc]
        · have hne := hrelies.claims_ne hfinished hget claimed hclaimed
          simpa [hnot] using hne.symm)
    fun state phase state' _ hrelies _ ⟨hget, more, hmore, hnot⟩ hfinish => by
      refine ⟨finish_get hrelies hfinish hget (hrelies.claims_ne hfinished hget), more, ?_, hnot⟩
      rcases finish_cases hrelies hfinish with ⟨_, events, -, -, rfl⟩ | ⟨now, done, -, -, rfl⟩
      · exact hmore
      · exact hmore

/-- In every interleaving of dispatchers and of transactions that enqueue, with any crashes and any
readings of the clock: no two dispatchers have claimed one row; a row that is committed as sent, or
that has used its attempts, stays as it is and is neither claimed nor handed on again; a row has at
most the maximum of attempts, each of them in the history; and a further attempt comes after a
failed one, and after its backoff. -/
theorem outbox_delivery {settings : Settings} {s : Interleaved State Phase}
    (h : (protocol settings).Reaches (Protocol.init ⟨.empty _, [], []⟩) s) :
    (∀ tx ∈ s.txs.rows, ∀ tx' ∈ s.txs.rows, tx.1 ≠ tx'.1 →
      ∀ event ∈ tx.2.claims, ∀ event' ∈ tx'.2.claims, event.id ≠ event'.id) ∧
    (∀ event ∈ s.committed.events.rows, event.sentAt ≠ none ∨ settings.maxAttempts ≤ event.attempts →
      ∀ s', (protocol settings).Reaches s s' →
        s'.committed.events.get event.id = some event ∧
        (∀ tx ∈ s'.txs.rows, ∀ claimed ∈ tx.2.claims, claimed.id ≠ event.id) ∧
        ∃ more, s'.committed.dispatched = s.committed.dispatched ++ more ∧ event.id ∉ more) ∧
    (∀ event ∈ s.committed.events.rows, event.attempts ≤ settings.maxAttempts ∧
      (s.committed.attemptsOf event.id).length = event.attempts) ∧
    ∀ id, (s.committed.attemptsOf id).IsChain fun attempt next =>
      attempt.failed ∧ next.number = attempt.number + 1 ∧
        attempt.now + ((min (30 * 2 ^ (attempt.number - 1)) 3600 : Nat) : Int) * 10 ^ 6 ≤ next.now := by
  have hempty : Consistent settings ⟨.empty _, [], []⟩ :=
    ⟨List.forall_mem_nil _, List.forall_mem_nil _, List.forall_mem_nil _, fun _ => .nil,
      List.forall_mem_nil _⟩
  have hinv := (sound settings).runs h (.init hempty)
  refine ⟨fun tx htx tx' htx' hne event hevent event' hevent' => ?_, ?_, ?_,
    hinv.committed.spaced⟩
  · exact claims_apart (hinv.exclusive tx htx tx' htx' hne) hevent hevent'
  · intro event hevent hfinished s' hreaches
    have hinv' := (sound_leftAlone settings hfinished s.committed.dispatched).runs hreaches
      ⟨⟨hinv.committed, Table.get_eq_some.mpr ⟨hevent, rfl⟩, [], by simp, List.not_mem_nil⟩,
        hinv.opened, hinv.exclusive⟩
    obtain ⟨hget, hmore⟩ := hinv'.committed.2
    exact ⟨hget, fun tx htx => (hinv'.opened tx htx).claims_ne hfinished hget, hmore⟩
  · exact fun event hevent =>
      ⟨hinv.committed.bounded event hevent, hinv.committed.counted event hevent⟩

/-- Two dispatchers share two rows.  One fails, and a third dispatcher sends it after thirty
seconds. -/
def sharedBatch : List (TxAction Request Choice) :=
  [.begin 1 (.enqueue 1 "email.send" 0), .finish 1, .begin 2 (.enqueue 2 "documents.index" 0),
   .finish 2, .begin 3 (.drain 5), .run 3 .next, .begin 4 (.drain 5), .run 4 .next,
   .run 3 .next, .run 4 .skip, .run 4 .next, .run 3 .skip, .run 3 .next, .run 4 .next,
   .run 3 (.deliver (some "TimeoutError: ") 6), .run 4 (.deliver none 6), .finish 3, .finish 4,
   .begin 5 (.drain 30000005), .run 5 .next, .run 5 .next, .run 5 .next,
   .run 5 (.deliver none 30000006), .finish 5]

theorem outbox_delivery_shared : ∃ s : Interleaved State Phase,
    (protocol ⟨5, 10⟩).Reaches (Protocol.init ⟨.empty _, [], []⟩) s ∧
      s.committed.events.rows.map (fun event => (event.id, event.sentAt.isSome, event.attempts)) =
        [(2, true, 1), (1, true, 2)] ∧
      (s.committed.attemptsOf 1).map (fun attempt => (attempt.number, attempt.now)) =
        [(1, 5), (2, 30000005)] ∧
      (s.committed.attemptsOf 1).IsChain fun attempt next =>
        attempt.failed ∧ next.number = attempt.number + 1 ∧
          attempt.now + ((min (30 * 2 ^ (attempt.number - 1)) 3600 : Nat) : Int) * 10 ^ 6 ≤
            next.now := by
  have hfacts : (sharedBatch.foldlM (protocol ⟨5, 10⟩).step
      (Protocol.init ⟨.empty _, [], []⟩)).any fun s =>
        s.committed.events.rows.map (fun event => (event.id, event.sentAt.isSome, event.attempts)) =
          [(2, true, 1), (1, true, 2)] ∧
        (s.committed.attemptsOf 1).map (fun attempt => (attempt.number, attempt.now)) =
          [(1, 5), (2, 30000005)] := by decide +kernel
  obtain ⟨s, hreaches, hevents, hattempts⟩ :=
    Protocol.Reaches.exists_of_any sharedBatch hfacts
  exact ⟨s, hreaches, hevents, hattempts, (outbox_delivery hreaches).2.2.2 1⟩

end Nexora.Outbox
