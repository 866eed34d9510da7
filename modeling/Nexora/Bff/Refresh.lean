import Nexora.Foundations.Runs
import Mathlib.Data.List.Nodup

/-!
# Single-flight refresh

The requests of one browser session through the BFF (`rotate` and `proxyUpstream`
of `src/lib/bff-upstream.ts`, on the session store of `src/lib/bff-session.ts`),
on any number of instances.

A request that is answered 401 takes the refresh lock, reads the session record
again, presents its refresh token to the backend, binds the new access token to the
selected organization, writes the record and releases the lock.  Requests that find
the lock taken wait for the record to change.

The lock lives for `lockTtl`, and the critical section makes two upstream calls that
may each take `refreshTimeout`.  A call that throws may leave the record as it was.
A refresh that failed releases the lock before the record is cleared.  And a
response that carries an access token rewrites the record outside the lock.  Each
of these lets a refresh token be presented twice (`lapsed_lock_presents_twice` is
the first).

`Careful` excludes them one by one.  Under it, `System.Sound` is an invariant: the
token in the record has not been presented, or the request that presented it has
still to replace or clear the record.

A refresh token is a number, and the backend issues them in order.  The session
starts with its login.
-/

namespace Nexora.Bff

/-! ## The store and the requests -/

/-- `Session`. -/
structure Session where
  accessToken : Nat
  refreshToken : Nat
  activeTenantId : Option Nat
deriving DecidableEq, Repr

/-- `REFRESH_TIMEOUT_MS < REFRESH_LOCK_TTL_MS < REFRESH_WAIT_MS`. -/
structure Bounds where
  refreshTimeout : Nat
  lockTtl : Nat
  refreshWait : Nat
  timeout_lt_ttl : refreshTimeout < lockTtl
  ttl_lt_wait : lockTtl < refreshWait

/-- The bounds without overrides from the environment. -/
def defaultBounds : Bounds := ⟨10000, 15000, 20000, by decide, by decide⟩

/-- How `rotate` ends for the holder of the lock.  A failure keeps the token it
presented, if any. -/
inductive Outcome where
  | refreshed (accessToken : Nat)
  | failed (spent : Option Nat)
  | threw
deriving DecidableEq, Repr

/-- Where a request stands. -/
inductive Phase where
  | idle
  /-- The first upstream call, with the access token it read. -/
  | calling (accessToken : Nat)
  /-- Answered 401; before `acquireRefreshLock`. -/
  | acquiring (stale : Nat)
  /-- Holds the lock; before it reads the session again. -/
  | locked (stale : Nat)
  /-- Before the call of the refresh endpoint. -/
  | checked (session : Session)
  /-- In the call of the refresh endpoint. -/
  | refreshing (session : Session) (since : Nat)
  /-- In the call of `switch-tenant`. -/
  | rebinding (session : Session) (accessToken refreshToken since : Nat)
  /-- Before `writeSession`. -/
  | publishing (session : Session) (accessToken refreshToken : Nat)
  /-- Before `releaseRefreshLock`. -/
  | releasing (outcome : Outcome)
  /-- In `awaitRotatedToken`. -/
  | waiting (stale deadline : Nat)
  /-- Before `clearSession`. -/
  | failed (spent : Option Nat)
  /-- The second upstream call. -/
  | retrying (accessToken : Nat)
  /-- The response carries an access token; before the session is read again. -/
  | answered (accessToken : Nat) (selected : Option Nat)
  /-- Before `writeSession` with the refresh token it read. -/
  | rewriting (accessToken : Nat) (session : Session) (selected : Option Nat)
  | done
deriving DecidableEq, Repr

/-- The clock, the session record, the lock with its owner and the time it lapses,
the latest refresh token the backend issued, the tokens presented to it so far, and
the requests. -/
structure System where
  now : Nat
  record : Option Session
  lock : Option (Nat × Nat)
  newest : Nat
  presented : List Nat
  requests : Nat → Phase

/-- What comes of the call of the refresh endpoint.  The backend may have rotated
the token also when the answer is lost. -/
inductive RefreshAnswer where
  | tokens (accessToken : Nat)
  /-- An error status, or a body without tokens. -/
  | refused (rotated : Bool)
  /-- `fetch` throws. -/
  | unreachable (rotated : Bool)
  /-- `response.json()` throws. -/
  | broken (rotated : Bool)
deriving DecidableEq, Repr

/-- What comes of the call of `switch-tenant`. -/
inductive RebindAnswer where
  | bound (accessToken : Nat)
  | refused
  | thrown
deriving DecidableEq, Repr

inductive Action where
  | start (r : Nat)
  /-- The upstream call of `proxyUpstream` returns, perhaps with an access token and
  a selected organization. -/
  | answer (r : Nat) (unauthorized : Bool) (minted : Option (Nat × Option Nat))
  | acquire (r : Nat)
  | reread (r : Nat)
  | present (r : Nat)
  | refreshAnswer (r : Nat) (answer : RefreshAnswer)
  | rebindAnswer (r : Nat) (answer : RebindAnswer)
  | publish (r : Nat)
  | release (r : Nat)
  | poll (r : Nat)
  | clear (r : Nat)
  | reload (r : Nat)
  | rewrite (r : Nat)
  /-- The record goes: a logout, or its lifetime is over. -/
  | drop
  | advance (ms : Nat)

def System.setPhase (s : System) (r : Nat) (phase : Phase) : System :=
  { s with requests := Function.update s.requests r phase }

/-- The backend rotates, or does not. -/
def System.rotated (s : System) (issued : Bool) : System :=
  { s with newest := if issued then s.newest + 1 else s.newest }

/-- A response with an access token goes on to rewrite the record. -/
def afterAnswer : Option (Nat × Option Nat) → Phase
  | none => .done
  | some (accessToken, selected) => .answered accessToken selected

/-- `acquireRefreshLock`, or the wait if the lock is taken. -/
def System.acquire (s : System) (bounds : Bounds) (r stale : Nat) : System :=
  if s.lock.any fun held => s.now < held.2 then
    s.setPhase r (.waiting stale (s.now + bounds.refreshWait))
  else { s.setPhase r (.locked stale) with lock := some (r, s.now + bounds.lockTtl) }

/-- The session as the holder of the lock reads it. -/
def System.reread (s : System) (r stale : Nat) : System :=
  match s.record with
  | none => s.setPhase r (.releasing (.failed none))
  | some session =>
      if session.accessToken = stale then s.setPhase r (.checked session)
      else s.setPhase r (.releasing (.refreshed session.accessToken))

/-- The call of the refresh endpoint returns or throws. -/
def System.refreshAnswer (s : System) (r : Nat) (session : Session) :
    RefreshAnswer → System
  | .tokens accessToken =>
      match session.activeTenantId with
      | some _ =>
          (s.rotated true).setPhase r (.rebinding session accessToken (s.newest + 1) s.now)
      | none => (s.rotated true).setPhase r (.publishing session accessToken (s.newest + 1))
  | .refused issued =>
      (s.rotated issued).setPhase r (.releasing (.failed (some session.refreshToken)))
  | .unreachable issued =>
      (s.rotated issued).setPhase r (.releasing (.failed (some session.refreshToken)))
  | .broken issued => (s.rotated issued).setPhase r (.releasing .threw)

/-- What follows the release of the lock. -/
def Outcome.phase : Outcome → Phase
  | .refreshed accessToken => .retrying accessToken
  | .failed spent => .failed spent
  | .threw => .done

/-- `releaseRefreshLock`, which leaves a lock of another owner alone. -/
def System.unlock (s : System) (r : Nat) : System :=
  { s with lock := s.lock.filter fun held => held.1 ≠ r }

/-- One pass of `awaitRotatedToken`. -/
def System.poll (s : System) (r stale deadline : Nat) : System :=
  if s.now < deadline then
    match s.record with
    | none => s.setPhase r (.failed none)
    | some session =>
        if session.accessToken = stale then s else s.setPhase r (.retrying session.accessToken)
  else s.setPhase r .done

/-- One step of one request.  `none` is a step that is not enabled. -/
def System.step (bounds : Bounds) (s : System) : Action → Option System
  | .start r =>
      match s.requests r, s.record with
      | .idle, none => some (s.setPhase r .done)
      | .idle, some session => some (s.setPhase r (.calling session.accessToken))
      | _, _ => none
  | .answer r unauthorized minted =>
      match s.requests r with
      | .calling accessToken =>
          if unauthorized then some (s.setPhase r (.acquiring accessToken))
          else some (s.setPhase r (afterAnswer minted))
      | .retrying _ => some (s.setPhase r (afterAnswer minted))
      | _ => none
  | .acquire r =>
      match s.requests r with
      | .acquiring stale => some (s.acquire bounds r stale)
      | _ => none
  | .reread r =>
      match s.requests r with
      | .locked stale => some (s.reread r stale)
      | _ => none
  | .present r =>
      match s.requests r with
      | .checked session =>
          some { s.setPhase r (.refreshing session s.now) with
            presented := session.refreshToken :: s.presented }
      | _ => none
  | .refreshAnswer r answer =>
      match s.requests r, answer with
      | .refreshing session _, .unreachable issued =>
          some (s.refreshAnswer r session (.unreachable issued))
      | .refreshing session since, answer =>
          if s.now ≤ since + bounds.refreshTimeout then some (s.refreshAnswer r session answer)
          else none
      | _, _ => none
  | .rebindAnswer r answer =>
      match s.requests r, answer with
      | .rebinding _ _ _ _, .thrown => some (s.setPhase r (.releasing .threw))
      | .rebinding session accessToken refreshToken since, .refused =>
          if s.now ≤ since + bounds.refreshTimeout then
            some (s.setPhase r (.publishing session accessToken refreshToken))
          else none
      | .rebinding session _ refreshToken since, .bound accessToken =>
          if s.now ≤ since + bounds.refreshTimeout then
            some (s.setPhase r (.publishing session accessToken refreshToken))
          else none
      | _, _ => none
  | .publish r =>
      match s.requests r with
      | .publishing session accessToken refreshToken =>
          some { s.setPhase r (.releasing (.refreshed accessToken)) with
            record := some ⟨accessToken, refreshToken, session.activeTenantId⟩ }
      | _ => none
  | .release r =>
      match s.requests r with
      | .releasing outcome => some ((s.unlock r).setPhase r outcome.phase)
      | _ => none
  | .poll r =>
      match s.requests r with
      | .waiting stale deadline => some (s.poll r stale deadline)
      | _ => none
  | .clear r =>
      match s.requests r with
      | .failed _ => some { s.setPhase r .done with record := none }
      | _ => none
  | .reload r =>
      match s.requests r, s.record with
      | .answered _ _, none => some (s.setPhase r .done)
      | .answered accessToken selected, some session =>
          some (s.setPhase r
            (.rewriting accessToken session (selected.or session.activeTenantId)))
      | _, _ => none
  | .rewrite r =>
      match s.requests r with
      | .rewriting accessToken session selected =>
          some { s.setPhase r .done with
            record := some ⟨accessToken, session.refreshToken, selected⟩ }
      | _ => none
  | .drop => some { s with record := none }
  | .advance ms => some { s with now := s.now + ms }

/-! ## The condition -/

/-- The steps that keep the refresh single-flight.

* The clock does not reach the end of a lock that its owner has not released.
* Nobody takes the lock while the record still holds a token whose refresh failed.
* No call throws after the token was presented while the record is there.
* The record is rewritten only if it still holds the refresh token that was read. -/
def System.Careful (s : System) : Action → Prop
  | .advance ms => ∀ held, s.lock = some held → s.now + ms < held.2
  | .acquire _ => ∀ r' spent session, s.requests r' = .failed (some spent) →
      s.record = some session → session.refreshToken ≠ spent
  | .refreshAnswer _ (.broken _) => s.record = none
  | .rebindAnswer _ .thrown => s.record = none
  | .rewrite r => ∀ accessToken session selected,
      s.requests r = .rewriting accessToken session selected →
      ∃ current, s.record = some current ∧ current.refreshToken = session.refreshToken
  | _ => True

/-- The token the request has presented, until the record is replaced or cleared. -/
def Phase.spent : Phase → Option Nat
  | .refreshing session _ => some session.refreshToken
  | .rebinding session _ _ _ => some session.refreshToken
  | .publishing session _ _ => some session.refreshToken
  | .releasing (.failed spent) => spent
  | .failed spent => spent
  | _ => none

/-- Between taking the lock and releasing it. -/
def Phase.inside : Phase → Bool
  | .locked _ => true
  | .checked _ => true
  | .refreshing _ _ => true
  | .rebinding _ _ _ _ => true
  | .publishing _ _ _ => true
  | .releasing _ => true
  | _ => false

/-! ## The invariant -/

/-- `r` owns the lock and it has not lapsed. -/
def System.Holds (s : System) (r : Nat) : Prop :=
  ∃ lapse, s.lock = some (r, lapse) ∧ s.now < lapse

/-- The record, if it is there, holds the token `t`. -/
def System.Known (s : System) (t : Nat) : Prop :=
  ∀ session, s.record = some session → session.refreshToken = t

/-- What is known of a request from where it stands. -/
def System.PhaseSound (s : System) (r : Nat) : Phase → Prop
  | .locked _ => s.Holds r ∧ ∀ r' spent session, s.requests r' = .failed (some spent) →
      s.record = some session → session.refreshToken ≠ spent
  | .checked session =>
      s.Holds r ∧ s.Known session.refreshToken ∧ session.refreshToken ∉ s.presented ∧
        session.refreshToken ≤ s.newest
  | .refreshing session _ =>
      s.Holds r ∧ s.Known session.refreshToken ∧ session.refreshToken ∈ s.presented
  | .rebinding session _ refreshToken _ =>
      s.Holds r ∧ s.Known session.refreshToken ∧ session.refreshToken ∈ s.presented ∧
        refreshToken = s.newest ∧ s.newest ∉ s.presented
  | .publishing session _ refreshToken =>
      s.Holds r ∧ s.Known session.refreshToken ∧ session.refreshToken ∈ s.presented ∧
        refreshToken = s.newest ∧ s.newest ∉ s.presented
  | .releasing (.failed (some spent)) => s.Holds r ∧ s.Known spent ∧ spent ∈ s.presented
  | .releasing .threw => s.Holds r ∧ s.record = none
  | .releasing _ => s.Holds r
  | .failed (some spent) => spent ∈ s.presented
  | _ => True

structure System.Sound (s : System) : Prop where
  phase : ∀ r, s.PhaseSound r (s.requests r)
  nodup : s.presented.Nodup
  presented_le : ∀ t ∈ s.presented, t ≤ s.newest
  /-- A record whose token was presented is still somebody's to replace or clear. -/
  record : ∀ session, s.record = some session → session.refreshToken ≤ s.newest ∧
    (session.refreshToken ∉ s.presented → session.refreshToken = s.newest) ∧
    (session.refreshToken ∈ s.presented → ∃ r, (s.requests r).spent = some session.refreshToken)

namespace System

variable {s s' : System} {r : Nat} {p : Phase}

theorem PhaseSound.holds (h : s.PhaseSound r p) (hin : p.inside = true) : s.Holds r := by
  match p, h with
  | .locked _, h => exact h.1
  | .checked _, h => exact h.1
  | .refreshing _ _, h => exact h.1
  | .rebinding _ _ _ _, h => exact h.1
  | .publishing _ _ _, h => exact h.1
  | .releasing (.failed (some _)), h => exact h.1
  | .releasing (.failed none), h => exact h
  | .releasing .threw, h => exact h.1
  | .releasing (.refreshed _), h => exact h

/-- A request outside the critical section only needs what it presented to stay
presented. -/
theorem PhaseSound.outside (h : s.PhaseSound r p) (hin : p.inside = false)
    (hsub : ∀ t ∈ s.presented, t ∈ s'.presented) : s'.PhaseSound r p := by
  match p, h with
  | .idle, _ => trivial
  | .calling _, _ => trivial
  | .acquiring _, _ => trivial
  | .waiting _ _, _ => trivial
  | .failed none, _ => trivial
  | .failed (some _), h => exact hsub _ h
  | .retrying _, _ => trivial
  | .answered _ _, _ => trivial
  | .rewriting _ _ _, _ => trivial
  | .done, _ => trivial

/-- The holder of the lock is not disturbed by steps that leave the token in the
record alone. -/
theorem PhaseSound.inside (h : s.PhaseSound r p) (hholds : s.Holds r → s'.Holds r)
    (hpresented : s'.presented = s.presented) (hnewest : s'.newest = s.newest)
    (hrecord : ∀ session', s'.record = some session' →
      ∃ session, s.record = some session ∧ session.refreshToken = session'.refreshToken)
    (hfailed : ∀ r' spent, s'.requests r' = .failed (some spent) →
      s.requests r' = .failed (some spent)) : s'.PhaseSound r p := by
  have hknown : ∀ t, s.Known t → s'.Known t := by
    intro t ht session' hsession'
    obtain ⟨session, hsession, heq⟩ := hrecord session' hsession'
    exact heq ▸ ht session hsession
  match p, h with
  | .idle, _ => trivial
  | .calling _, _ => trivial
  | .acquiring _, _ => trivial
  | .locked _, ⟨h, hlocked⟩ =>
      refine ⟨hholds h, fun r' spent session' hr' hsession' => ?_⟩
      obtain ⟨session, hsession, heq⟩ := hrecord session' hsession'
      exact heq ▸ hlocked r' spent session (hfailed r' spent hr') hsession
  | .checked _, ⟨h, ht, hnot, hle⟩ =>
      exact ⟨hholds h, hknown _ ht, hpresented ▸ hnot, hnewest ▸ hle⟩
  | .refreshing _ _, ⟨h, ht, hmem⟩ => exact ⟨hholds h, hknown _ ht, hpresented ▸ hmem⟩
  | .rebinding _ _ _ _, ⟨h, ht, hmem, heq, hfresh⟩ =>
      exact ⟨hholds h, hknown _ ht, hpresented ▸ hmem, hnewest ▸ heq,
        by rw [hnewest, hpresented]; exact hfresh⟩
  | .publishing _ _ _, ⟨h, ht, hmem, heq, hfresh⟩ =>
      exact ⟨hholds h, hknown _ ht, hpresented ▸ hmem, hnewest ▸ heq,
        by rw [hnewest, hpresented]; exact hfresh⟩
  | .releasing (.failed (some _)), ⟨h, ht, hmem⟩ =>
      exact ⟨hholds h, hknown _ ht, hpresented ▸ hmem⟩
  | .releasing (.failed none), h => exact hholds h
  | .releasing .threw, ⟨h, hnone⟩ =>
      refine ⟨hholds h, ?_⟩
      cases hrec : s'.record with
      | none => rfl
      | some session' =>
          obtain ⟨session, hsession, -⟩ := hrecord session' hrec
          rw [hnone] at hsession
          cases hsession
  | .releasing (.refreshed _), h => exact hholds h
  | .waiting _ _, _ => trivial
  | .failed none, _ => trivial
  | .failed (some spent), h =>
      show spent ∈ s'.presented
      rw [hpresented]
      exact h
  | .retrying _, _ => trivial
  | .answered _ _, _ => trivial
  | .rewriting _ _ _, _ => trivial
  | .done, _ => trivial

/-- A request that is neither inside nor has spent a token needs nothing. -/
theorem PhaseSound.of_plain (hin : p.inside = false) (hspent : p.spent = none) :
    s.PhaseSound r p := by
  match p, hin, hspent with
  | .idle, _, _ => trivial
  | .calling _, _, _ => trivial
  | .acquiring _, _, _ => trivial
  | .waiting _ _, _, _ => trivial
  | .failed none, _, _ => trivial
  | .retrying _, _, _ => trivial
  | .answered _ _, _, _ => trivial
  | .rewriting _ _ _, _, _ => trivial
  | .done, _, _ => trivial

/-! ## Steps outside the critical section -/

/-- Steps around the critical section: requests change from a plain phase to a plain
phase, and the record keeps its token or goes. -/
theorem Sound.around (h : s.Sound) (hpresented : s'.presented = s.presented)
    (hnewest : s'.newest = s.newest) (hholds : ∀ r, s.Holds r → s'.Holds r)
    (hrecord : ∀ session', s'.record = some session' →
      ∃ session, s.record = some session ∧ session.refreshToken = session'.refreshToken)
    (hrequests : ∀ r, s'.requests r = s.requests r ∨
      (s'.requests r).inside = false ∧ (s'.requests r).spent = none ∧
        ((s.requests r).spent = none ∨ s'.record = none)) : s'.Sound where
  phase := by
    intro r
    rcases hrequests r with heq | ⟨hin, hspent, -⟩
    · rw [heq]
      refine (h.phase r).inside (hholds r) hpresented hnewest hrecord fun r' spent hr' => ?_
      rcases hrequests r' with heq' | ⟨-, hspent', -⟩
      · exact heq' ▸ hr'
      · rw [hr'] at hspent'
        cases hspent'
    · exact .of_plain hin hspent
  nodup := hpresented ▸ h.nodup
  presented_le := by
    rw [hpresented, hnewest]
    exact h.presented_le
  record := by
    intro session' hsession'
    obtain ⟨session, hsession, heq⟩ := hrecord session' hsession'
    obtain ⟨hle, hunspent, hspent⟩ := h.record session hsession
    rw [hpresented, hnewest, ← heq]
    refine ⟨hle, hunspent, fun hmem => ?_⟩
    obtain ⟨r, hr⟩ := hspent hmem
    rcases hrequests r with hsame | ⟨-, -, hplain | hnone⟩
    · exact ⟨r, hsame ▸ hr⟩
    · rw [hplain] at hr
      cases hr
    · rw [hnone] at hsession'
      cases hsession'

/-- A request moves between plain phases. -/
theorem Sound.setPhase (h : s.Sound) (hold : (s.requests r).spent = none)
    (hin : p.inside = false) (hspent : p.spent = none) : (s.setPhase r p).Sound := by
  refine h.around rfl rfl (fun _ hholds => hholds)
    (fun session hsession => ⟨session, hsession, rfl⟩) fun r' => ?_
  by_cases hr : r' = r
  · subst hr
    refine .inr ?_
    simp only [System.setPhase, Function.update_self]
    exact ⟨hin, hspent, .inl hold⟩
  · exact .inl (Function.update_of_ne hr _ _)

/-- The record goes, and with it what a request had spent. -/
theorem Sound.clear (h : s.Sound) (hin : p.inside = false) (hspent : p.spent = none) :
    ({ s.setPhase r p with record := none } : System).Sound := by
  refine h.around rfl rfl (fun _ hholds => hholds) nofun fun r' => ?_
  by_cases hr : r' = r
  · subst hr
    refine .inr ?_
    simp only [System.setPhase, Function.update_self]
    exact ⟨hin, hspent, .inr trivial⟩
  · exact .inl (Function.update_of_ne hr _ _)

theorem Sound.drop (h : s.Sound) : ({ s with record := none } : System).Sound :=
  h.around rfl rfl (fun _ hholds => hholds) nofun fun _ => .inl rfl

theorem Sound.rewrite (h : s.Sound) {accessToken : Nat} {session current : Session}
    {selected : Option Nat} (hphase : s.requests r = .rewriting accessToken session selected)
    (hcurrent : s.record = some current) (htoken : current.refreshToken = session.refreshToken) :
    ({ s.setPhase r .done with
      record := some ⟨accessToken, session.refreshToken, selected⟩ } : System).Sound := by
  refine h.around rfl rfl (fun _ hholds => hholds) ?_ fun r' => ?_
  · intro session' hsession'
    cases hsession'
    exact ⟨current, hcurrent, htoken⟩
  · by_cases hr : r' = r
    · subst hr
      refine .inr ?_
      simp only [System.setPhase, Function.update_self, hphase]
      exact ⟨rfl, rfl, .inl rfl⟩
    · exact .inl (Function.update_of_ne hr _ _)

theorem Sound.advance (h : s.Sound) {ms : Nat}
    (hcareful : ∀ held, s.lock = some held → s.now + ms < held.2) :
    ({ s with now := s.now + ms } : System).Sound := by
  refine h.around rfl rfl ?_ (fun session hsession => ⟨session, hsession, rfl⟩) fun _ => .inl rfl
  rintro r ⟨lapse, hlock, -⟩
  exact ⟨lapse, hlock, hcareful _ hlock⟩

/-! ## Steps of the holder -/

/-- Nobody else is inside with the holder of the lock. -/
theorem Sound.alone (h : s.Sound) (hholds : s.Holds r) {r' : Nat} (hne : r' ≠ r) :
    (s.requests r').inside = false := by
  cases hin : (s.requests r').inside with
  | false => rfl
  | true =>
      obtain ⟨lapse, hlock, -⟩ := hholds
      obtain ⟨lapse', hlock', -⟩ := (h.phase r').holds hin
      rw [hlock] at hlock'
      cases hlock'
      exact absurd rfl hne

/-- A step of a request that is alone inside. -/
theorem Sound.holder (h : s.Sound) (halone : ∀ r' ≠ r, (s.requests r').inside = false)
    (hrequests : s'.requests = Function.update s.requests r p)
    (hsub : ∀ t ∈ s.presented, t ∈ s'.presented) (hsound : s'.PhaseSound r p)
    (hnodup : s'.presented.Nodup) (hle : ∀ t ∈ s'.presented, t ≤ s'.newest)
    (hrecord : ∀ session, s'.record = some session → session.refreshToken ≤ s'.newest ∧
      (session.refreshToken ∉ s'.presented → session.refreshToken = s'.newest) ∧
      (session.refreshToken ∈ s'.presented →
        ∃ r', (s'.requests r').spent = some session.refreshToken)) : s'.Sound where
  phase := by
    intro r'
    rw [hrequests]
    by_cases hr : r' = r
    · subst hr
      rw [Function.update_self]
      exact hsound
    · rw [Function.update_of_ne hr]
      exact (h.phase r').outside (halone r' hr) hsub
  nodup := hnodup
  presented_le := hle
  record := hrecord

/-- A step of a request that is alone inside and leaves the record and the backend
alone. -/
theorem Sound.holder_moves (h : s.Sound) (halone : ∀ r' ≠ r, (s.requests r').inside = false)
    (hrequests : s'.requests = Function.update s.requests r p)
    (hpresented : s'.presented = s.presented) (hnewest : s'.newest = s.newest)
    (hrecord : s'.record = s.record) (hsound : s'.PhaseSound r p)
    (hspent : ∀ session, s.record = some session →
      (s.requests r).spent = some session.refreshToken →
      p.spent = some session.refreshToken) : s'.Sound := by
  refine h.holder halone hrequests (fun t ht => hpresented ▸ ht) hsound (hpresented ▸ h.nodup) ?_ ?_
  · rw [hpresented, hnewest]
    exact h.presented_le
  · intro session hsession
    rw [hrecord] at hsession
    obtain ⟨hle, hunspent, hmine⟩ := h.record session hsession
    rw [hpresented, hnewest, hrequests]
    refine ⟨hle, hunspent, fun hmem => ?_⟩
    obtain ⟨r', hr'⟩ := hmine hmem
    by_cases hr : r' = r
    · subst hr
      refine ⟨r', ?_⟩
      rw [Function.update_self]
      exact hspent session hsession hr'
    · refine ⟨r', ?_⟩
      rw [Function.update_of_ne hr]
      exact hr'

theorem Sound.acquire (h : s.Sound) {bounds : Bounds} {stale : Nat}
    (hphase : s.requests r = .acquiring stale)
    (hcareful : ∀ r' spent session, s.requests r' = .failed (some spent) →
      s.record = some session → session.refreshToken ≠ spent) :
    (s.acquire bounds r stale).Sound := by
  have hspent : (s.requests r).spent = none := by rw [hphase]; rfl
  unfold System.acquire
  split
  next => exact h.setPhase hspent rfl rfl
  next hfree =>
    have halone : ∀ r' ≠ r, (s.requests r').inside = false := by
      intro r' _
      cases hin : (s.requests r').inside with
      | false => rfl
      | true =>
          obtain ⟨lapse, hlock, hlt⟩ := (h.phase r').holds hin
          exact absurd (by simp [hlock, hlt]) hfree
    refine h.holder_moves halone rfl rfl rfl rfl ⟨⟨_, rfl, ?_⟩, ?_⟩ fun _ _ hs => ?_
    · have hbounds := bounds.timeout_lt_ttl
      show s.now < s.now + bounds.lockTtl
      omega
    · intro r' spent session hr' hsession
      refine hcareful r' spent session ?_ hsession
      rcases eq_or_ne r' r with rfl | hne
      · simp [System.setPhase] at hr'
      · simpa [System.setPhase, Function.update_of_ne hne] using hr'
    · rw [hspent] at hs
      cases hs

theorem Sound.reread (h : s.Sound) {stale : Nat} (hphase : s.requests r = .locked stale) :
    (s.reread r stale).Sound := by
  obtain ⟨hholds, hlocked⟩ : s.Holds r ∧ ∀ r' spent session,
      s.requests r' = .failed (some spent) → s.record = some session →
      session.refreshToken ≠ spent := by
    have hsound := h.phase r
    rw [hphase] at hsound
    exact hsound
  have halone : ∀ r' ≠ r, (s.requests r').inside = false := fun r' hne => h.alone hholds hne
  have hspent : ∀ session, s.record = some session →
      (s.requests r).spent = some session.refreshToken → False := by
    intro session _ hs
    rw [hphase] at hs
    cases hs
  unfold System.reread
  split
  next =>
    exact h.holder_moves halone rfl rfl rfl rfl hholds fun session hrec hs =>
      (hspent session hrec hs).elim
  next session hsession =>
    split
    next =>
      obtain ⟨hle, -, hmine⟩ := h.record session hsession
      refine h.holder_moves halone rfl rfl rfl rfl ⟨hholds, ?_, ?_, hle⟩
        fun session' hrec hs => (hspent session' hrec hs).elim
      · intro session' hsession'
        have heq : some session = some session' := hsession.symm.trans hsession'
        cases heq
        rfl
      · -- whoever had presented the token would be inside, or about to clear the record
        intro hmem
        obtain ⟨r', hr'⟩ := hmine hmem
        by_cases hr : r' = r
        · subst hr
          exact hspent session hsession hr'
        · have hin := h.alone hholds hr
          match hp : s.requests r', hin, hr' with
          | .failed (some spent), _, hr' =>
              cases hr'
              exact hlocked r' _ session hp hsession rfl
    next =>
      exact h.holder_moves halone rfl rfl rfl rfl hholds fun session' hrec hs =>
        (hspent session' hrec hs).elim

theorem Sound.present (h : s.Sound) {session : Session}
    (hphase : s.requests r = .checked session) :
    ({ s.setPhase r (.refreshing session s.now) with
      presented := session.refreshToken :: s.presented } : System).Sound := by
  obtain ⟨hholds, hknown, hnot, hle⟩ : s.PhaseSound r (.checked session) := hphase ▸ h.phase r
  refine h.holder (fun r' hne => h.alone hholds hne) rfl
    (fun t ht => List.mem_cons_of_mem _ ht) ⟨hholds, hknown, List.mem_cons_self⟩
    (List.nodup_cons.mpr ⟨hnot, h.nodup⟩) ?_ ?_
  · intro t ht
    rcases List.mem_cons.mp ht with rfl | ht
    · exact hle
    · exact h.presented_le t ht
  · intro session' hsession'
    have heq : session'.refreshToken = session.refreshToken := hknown session' hsession'
    rw [heq]
    refine ⟨hle, fun hnot' => absurd List.mem_cons_self hnot', fun _ => ⟨r, ?_⟩⟩
    simp [System.setPhase, Phase.spent]

/-- The backend answers the holder, having issued a token or not. -/
theorem Sound.answered (h : s.Sound) {session : Session} {since : Nat} {issued : Bool}
    (hphase : s.requests r = .refreshing session since)
    (hsound : ((s.rotated issued).setPhase r p).PhaseSound r p)
    (hspent : p.spent = some session.refreshToken ∨ s.record = none) :
    ((s.rotated issued).setPhase r p).Sound := by
  obtain ⟨hholds, hknown, hmem⟩ : s.PhaseSound r (.refreshing session since) := hphase ▸ h.phase r
  have hnewest : s.newest ≤ (s.rotated issued).newest := by
    cases issued with
    | false => exact Nat.le_refl _
    | true => exact Nat.le_succ _
  refine h.holder (fun r' hne => h.alone hholds hne) rfl (fun t ht => ht) hsound h.nodup
    (fun t ht => Nat.le_trans (h.presented_le t ht) hnewest) fun session' hsession' => ?_
  have heq : session'.refreshToken = session.refreshToken := hknown session' hsession'
  rw [heq]
  refine ⟨Nat.le_trans (h.presented_le _ hmem) hnewest, fun hnot => absurd hmem hnot,
    fun _ => ⟨r, ?_⟩⟩
  rcases hspent with hspent | hnone
  · simp [System.setPhase, hspent]
  · have hsome : s.record = some session' := hsession'
    rw [hnone] at hsome
    cases hsome

theorem Sound.refreshAnswer (h : s.Sound) {session : Session} {since : Nat}
    (hphase : s.requests r = .refreshing session since) {answer : RefreshAnswer}
    (hcareful : s.Careful (.refreshAnswer r answer)) :
    (s.refreshAnswer r session answer).Sound := by
  obtain ⟨hholds, hknown, hmem⟩ : s.PhaseSound r (.refreshing session since) := hphase ▸ h.phase r
  have hfresh : s.newest + 1 ∉ s.presented := by
    intro hin
    have hle := h.presented_le _ hin
    omega
  cases answer with
  | tokens accessToken =>
      cases htenant : session.activeTenantId with
      | some tenantId =>
          simp only [System.refreshAnswer, htenant]
          exact h.answered hphase ⟨hholds, hknown, hmem, rfl, hfresh⟩ (.inl rfl)
      | none =>
          simp only [System.refreshAnswer, htenant]
          exact h.answered hphase ⟨hholds, hknown, hmem, rfl, hfresh⟩ (.inl rfl)
  | refused issued => exact h.answered hphase ⟨hholds, hknown, hmem⟩ (.inl rfl)
  | unreachable issued => exact h.answered hphase ⟨hholds, hknown, hmem⟩ (.inl rfl)
  | broken issued => exact h.answered hphase ⟨hholds, hcareful⟩ (.inr hcareful)

theorem Sound.publish (h : s.Sound) {session : Session} {accessToken refreshToken : Nat}
    (hphase : s.requests r = .publishing session accessToken refreshToken) :
    ({ s.setPhase r (.releasing (.refreshed accessToken)) with
      record := some ⟨accessToken, refreshToken, session.activeTenantId⟩ } : System).Sound := by
  obtain ⟨hholds, -, -, rfl, hfresh⟩ :
    s.PhaseSound r (.publishing session accessToken refreshToken) := hphase ▸ h.phase r
  refine h.holder (fun r' hne => h.alone hholds hne) rfl (fun t ht => ht) hholds h.nodup
    h.presented_le fun session' hsession' => ?_
  cases hsession'
  exact ⟨Nat.le_refl _, fun _ => rfl, fun hmem => absurd hmem hfresh⟩

theorem Sound.release (h : s.Sound) {outcome : Outcome}
    (hphase : s.requests r = .releasing outcome) :
    ((s.unlock r).setPhase r outcome.phase).Sound := by
  have hsound : s.PhaseSound r (.releasing outcome) := hphase ▸ h.phase r
  refine h.holder_moves (fun r' hne => h.alone (hsound.holds rfl) hne) rfl rfl rfl rfl ?_ ?_
  · match outcome, hsound with
    | .refreshed _, _ => trivial
    | .failed none, _ => trivial
    | .failed (some _), ⟨_, _, hmem⟩ => exact hmem
    | .threw, _ => trivial
  · intro session hsession hs
    rw [hphase] at hs
    match outcome, hs with
    | .failed (some _), hs => exact hs

theorem Sound.poll (h : s.Sound) {stale deadline : Nat}
    (hphase : s.requests r = .waiting stale deadline) : (s.poll r stale deadline).Sound := by
  have hspent : (s.requests r).spent = none := by rw [hphase]; rfl
  unfold System.poll
  split
  next =>
    split
    next => exact h.setPhase hspent rfl rfl
    next =>
      split
      next => exact h
      next => exact h.setPhase hspent rfl rfl
  next => exact h.setPhase hspent rfl rfl

/-- The holder goes on to publish, with the access token of either call. -/
theorem Sound.rebound (h : s.Sound) {session : Session} {accessToken refreshToken since : Nat}
    (hphase : s.requests r = .rebinding session accessToken refreshToken since)
    (accessToken' : Nat) :
    (s.setPhase r (.publishing session accessToken' refreshToken)).Sound := by
  have hsound : s.PhaseSound r (.rebinding session accessToken refreshToken since) :=
    hphase ▸ h.phase r
  refine h.holder_moves (fun r' hne => h.alone hsound.1 hne) rfl rfl rfl rfl hsound ?_
  intro session' _ hs
  rw [hphase] at hs
  exact hs

theorem Sound.thrown (h : s.Sound) {session : Session} {accessToken refreshToken since : Nat}
    (hphase : s.requests r = .rebinding session accessToken refreshToken since)
    (hnone : s.record = none) : (s.setPhase r (.releasing .threw)).Sound := by
  have hsound : s.PhaseSound r (.rebinding session accessToken refreshToken since) :=
    hphase ▸ h.phase r
  refine h.holder_moves (fun r' hne => h.alone hsound.1 hne) rfl rfl rfl rfl
    ⟨hsound.1, hnone⟩ fun session' hsession' => ?_
  rw [hnone] at hsession'
  cases hsession'

/-- Every careful step keeps the invariant. -/
theorem Sound.step (h : s.Sound) {bounds : Bounds} {a : Action} (hcareful : s.Careful a)
    (hstep : s.step bounds a = some s') : s'.Sound := by
  cases a with
  | start r =>
      simp only [System.step] at hstep
      split at hstep
      next hphase _ =>
        cases hstep
        exact h.setPhase (by rw [hphase]; rfl) rfl rfl
      next hphase _ =>
        cases hstep
        exact h.setPhase (by rw [hphase]; rfl) rfl rfl
      next => cases hstep
  | answer r unauthorized minted =>
      have hafter : (afterAnswer minted).inside = false ∧ (afterAnswer minted).spent = none := by
        cases minted with
        | none => exact ⟨rfl, rfl⟩
        | some _ => exact ⟨rfl, rfl⟩
      simp only [System.step] at hstep
      split at hstep
      next hphase =>
        split at hstep
        next =>
          cases hstep
          exact h.setPhase (by rw [hphase]; rfl) rfl rfl
        next =>
          cases hstep
          exact h.setPhase (by rw [hphase]; rfl) hafter.1 hafter.2
      next hphase =>
        cases hstep
        exact h.setPhase (by rw [hphase]; rfl) hafter.1 hafter.2
      next => cases hstep
  | acquire r =>
      simp only [System.step] at hstep
      split at hstep
      next hphase =>
        cases hstep
        exact h.acquire hphase hcareful
      next => cases hstep
  | reread r =>
      simp only [System.step] at hstep
      split at hstep
      next hphase =>
        cases hstep
        exact h.reread hphase
      next => cases hstep
  | present r =>
      simp only [System.step] at hstep
      split at hstep
      next hphase =>
        cases hstep
        exact h.present hphase
      next => cases hstep
  | refreshAnswer r answer =>
      simp only [System.step] at hstep
      split at hstep
      next hphase =>
        cases hstep
        exact h.refreshAnswer hphase hcareful
      next hphase _ =>
        split at hstep
        next =>
          cases hstep
          exact h.refreshAnswer hphase hcareful
        next => cases hstep
      next => cases hstep
  | rebindAnswer r answer =>
      simp only [System.step] at hstep
      split at hstep
      next hphase =>
        cases hstep
        exact h.thrown hphase hcareful
      next hphase =>
        split at hstep
        next =>
          cases hstep
          exact h.rebound hphase _
        next => cases hstep
      next hphase =>
        split at hstep
        next =>
          cases hstep
          exact h.rebound hphase _
        next => cases hstep
      next => cases hstep
  | publish r =>
      simp only [System.step] at hstep
      split at hstep
      next hphase =>
        cases hstep
        exact h.publish hphase
      next => cases hstep
  | release r =>
      simp only [System.step] at hstep
      split at hstep
      next hphase =>
        cases hstep
        exact h.release hphase
      next => cases hstep
  | poll r =>
      simp only [System.step] at hstep
      split at hstep
      next hphase =>
        cases hstep
        exact h.poll hphase
      next => cases hstep
  | clear r =>
      simp only [System.step] at hstep
      split at hstep
      next =>
        cases hstep
        exact h.clear rfl rfl
      next => cases hstep
  | reload r =>
      simp only [System.step] at hstep
      split at hstep
      next hphase _ =>
        cases hstep
        exact h.setPhase (by rw [hphase]; rfl) rfl rfl
      next hphase _ =>
        cases hstep
        exact h.setPhase (by rw [hphase]; rfl) rfl rfl
      next => cases hstep
  | rewrite r =>
      simp only [System.step] at hstep
      split at hstep
      next hphase =>
        cases hstep
        obtain ⟨current, hcurrent, htoken⟩ := hcareful _ _ _ hphase
        exact h.rewrite hphase hcurrent htoken
      next => cases hstep
  | drop =>
      cases hstep
      exact h.drop
  | advance ms =>
      cases hstep
      exact h.advance hcareful

/-- Just after the login: no request is open and the record holds the only token. -/
structure LoggedIn (s : System) : Prop where
  idle : ∀ r, s.requests r = .idle
  presented : s.presented = []
  newest : ∀ session, s.record = some session → session.refreshToken = s.newest

theorem LoggedIn.sound (h : s.LoggedIn) : s.Sound where
  phase := by
    intro r
    rw [h.idle]
    trivial
  nodup := by
    rw [h.presented]
    exact List.nodup_nil
  presented_le := by
    rw [h.presented]
    exact nofun
  record := by
    intro session hsession
    rw [h.presented]
    exact ⟨Nat.le_of_eq (h.newest session hsession), fun _ => h.newest session hsession, nofun⟩

/-- In every order of careful steps of any number of requests, no refresh token is
presented twice, and the record holds the latest one unless a request that presented
the one it holds has still to replace or clear it. -/
theorem single_flight {bounds : Bounds} (h : s.LoggedIn)
    (hrun : Foundations.Run Careful (fun s a s' => s.step bounds a = some s') s s') :
    s'.presented.Nodup ∧ ∀ session, s'.record = some session →
      session.refreshToken = s'.newest ∨
        ∃ r, (s'.requests r).spent = some session.refreshToken := by
  have hsound : s'.Sound :=
    hrun.invariant (fun s a s' hs hcareful hstep => hs.step hcareful hstep) h.sound
  refine ⟨hsound.nodup, fun session hsession => ?_⟩
  obtain ⟨-, hunspent, hspent⟩ := hsound.record session hsession
  by_cases hmem : session.refreshToken ∈ s'.presented
  · exact .inr (hspent hmem)
  · exact .inl (hunspent hmem)

end System

/-- A session with a selected organization, right after its login. -/
def freshSession : System where
  now := 0
  record := some ⟨100, 0, some 1⟩
  lock := none
  newest := 0
  presented := []
  requests := fun _ => .idle

/-- Two requests whose access token has lapsed.  The second waits, and goes on with
the token the first has published. -/
theorem System.single_flight_two_requests :
    ∃ s', Foundations.Run Careful (fun s a s' => s.step defaultBounds a = some s')
      freshSession s' ∧ s'.presented = [0] ∧ s'.record = some ⟨102, 1, some 1⟩ ∧
      s'.requests 1 = .retrying 102 ∧ s'.presented.Nodup := by
  have hlogin : freshSession.LoggedIn := by
    refine ⟨fun _ => rfl, rfl, fun session hsession => ?_⟩
    cases hsession
    rfl
  obtain ⟨s', hrun, hpresented, hrecord, hphase⟩ : ∃ s',
      Foundations.Run Careful (fun s a s' => s.step defaultBounds a = some s') freshSession s' ∧
      s'.presented = [0] ∧ s'.record = some ⟨102, 1, some 1⟩ ∧ s'.requests 1 = .retrying 102 := by
    refine ⟨_, .snoc (.snoc (.snoc (.snoc (.snoc (.snoc (.snoc (.snoc (.snoc (.snoc (.snoc (.snoc
      (.snoc (.snoc (.refl freshSession)
      (l := .start 0) trivial rfl) (l := .start 1) trivial rfl)
      (l := .answer 0 true none) trivial rfl) (l := .answer 1 true none) trivial rfl)
      (l := .acquire 0) ?_ rfl) (l := .acquire 1) ?_ rfl) (l := .reread 0) trivial rfl)
      (l := .present 0) trivial rfl) (l := .advance 90) ?_ rfl)
      (l := .refreshAnswer 0 (.tokens 101)) trivial rfl)
      (l := .rebindAnswer 0 (.bound 102)) trivial rfl)
      (l := .publish 0) trivial rfl) (l := .poll 1) trivial rfl) (l := .release 0) trivial rfl,
      rfl, rfl, rfl⟩
    · intro r' spent session hr'
      simp only [System.setPhase, freshSession, Function.update_apply] at hr'
      split_ifs at hr'
    · intro r' spent session hr'
      simp only [System.acquire, System.setPhase, freshSession, Function.update_apply,
        Option.any_none, Bool.false_eq_true, if_false] at hr'
      split_ifs at hr'
    · intro held hheld
      cases hheld
      decide
  exact ⟨s', hrun, hpresented, hrecord, hphase, (single_flight hlogin hrun).1⟩

/-- The refresh call takes nine seconds and the call of `switch-tenant` seven, both
within their timeout.  By then the lock of the first request has lapsed.  The second
takes it, finds the record as it was, and presents the same token. -/
theorem System.lapsed_lock_presents_twice :
    freshSession.LoggedIn ∧
    ∃ s', Foundations.Run (fun _ _ => True) (fun s a s' => s.step defaultBounds a = some s')
      freshSession s' ∧ s'.presented = [0, 0] ∧ ¬s'.presented.Nodup := by
  refine ⟨⟨fun _ => rfl, rfl, fun session hsession => ?_⟩, _, Foundations.Run.of_foldlM
    [.start 0, .start 1, .answer 0 true none, .answer 1 true none, .acquire 0, .reread 0,
      .present 0, .advance 9000, .refreshAnswer 0 (.tokens 101), .advance 7000, .acquire 1,
      .reread 1, .present 1] rfl, rfl, ?_⟩
  · cases hsession
    rfl
  · decide

end Nexora.Bff
