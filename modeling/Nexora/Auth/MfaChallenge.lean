import Nexora.Auth.Login
import Mathlib.Data.Finset.Card

/-!
# The second factor

`POST /auth/mfa/challenge` of `app/modules/auth/mfa_router.py`, with `MfaChallengeStore` and
`MfaService` of `app/modules/auth/mfa.py` and `complete_mfa_login` of
`app/modules/auth/service.py`.  The challenge lives in Redis and everything else in PostgreSQL,
so a request is a sequence of steps on two stores: it reads the challenge, verifies the code,
deletes the challenge, and opens the session.

`consume` does not ask whether there was still a challenge to delete.  `challenge_single_use`
says that one session is opened for a challenge when there was, and `challenge_replayed` is two
requests that have both read the challenge before either deletes it.
-/

namespace Nexora.Auth.MfaChallenge

open Nexora Foundations

/-! ## State -/

/-- The user under the key of a challenge token, with the end of its life. -/
structure Challenge where
  token : String
  userId : Uuid
  expiresAt : Time
deriving DecidableEq

/-- `MfaVerifyRequest`, with the identifiers that the request would draw. -/
structure Request where
  challengeToken : String
  code : String
  sessionId : Uuid
  tokenId : Uuid
  tokenHash : String
deriving DecidableEq

/-- What a request was answered: its session and the active tenant. -/
structure Answer where
  request : Request
  outcome : Except Err (Uuid × Option Uuid)

/-- Both stores.  No statement reads the history: for which request a challenge was deleted,
and the answers so far. -/
structure State where
  db : IdentityDb
  store : Table Challenge.token
  deleted : List (String × Uuid)
  answers : List Answer

/-- Where a request stands. -/
inductive Phase where
  | resolve (request : Request)
  | verifyCode (request : Request) (userId : Uuid)
  | recoveryCode (request : Request) (userId : Uuid)
  /-- The recovery code is locked. -/
  | burn (request : Request) (userId : Uuid) (row : MfaRecoveryCode)
  | consume (request : Request) (userId : Uuid)
  | completeLogin (request : Request) (userId : Uuid)
  | memberships (request : Request) (read : User) (now : Time)
  | openSession (request : Request) (read : User) (now : Time) (tenants : List Uuid)
  | refuse (request : Request) (error : Err)
deriving DecidableEq

def challengeInvalid : Err :=
  .app ⟨"MFA_CHALLENGE_INVALID", "This challenge has expired or was already used.", 401⟩

def codeInvalid : Err := .app ⟨"MFA_CODE_INVALID", "The code is incorrect or expired.", 401⟩

/-! ## Statements -/

/-- `MfaChallengeStore.resolve`: a key is there until its time is over. -/
def resolve (state : State) (token : String) (now : Time) : Option Uuid :=
  match state.store.get token with
  | none => none
  | some challenge => if now < challenge.expiresAt then some challenge.userId else none

/-- `MfaChallengeStore.consume`. -/
def consume (state : State) (request : Request) : State :=
  { state with
    store := state.store.erase request.challengeToken
    deleted :=
      match state.store.get request.challengeToken with
      | none => state.deleted
      | some _ => state.deleted ++ [(request.challengeToken, request.sessionId)] }

/-- `verify_code` up to the recovery codes. -/
def verifyCode (security : Security) (db : IdentityDb) (request : Request) (userId : Uuid)
    (now : Time) : Phase :=
  match db.credentials.get userId with
  | none => .refuse request codeInvalid
  | some credential =>
      if credential.enabledAt = none then .refuse request codeInvalid
      else if security.verifyTotp credential.secret request.code now then .consume request userId
      else .recoveryCode request userId

/-- The `SELECT ... FOR UPDATE` of `_consume_recovery_code`. -/
def findRecoveryCode (security : Security) (db : IdentityDb) (request : Request) (userId : Uuid) :
    Phase :=
  match db.recoveryCodes.get (security.hashOpaqueToken (security.normalize request.code)) with
  | none => .refuse request codeInvalid
  | some row =>
      if row.userId = userId ∧ row.usedAt = none then .burn request userId row
      else .refuse request codeInvalid

/-- `row.used_at = clock.now()`. -/
def burnRecoveryCode (db : IdentityDb) (row : MfaRecoveryCode) (now : Time) : IdentityDb :=
  { db with
    recoveryCodes := db.recoveryCodes.modifyAt row.codeHash
      (fun row => { row with usedAt := some now }) fun _ => rfl }

/-- `get_user_by_id`, with the check on what it finds. -/
def completeLogin (db : IdentityDb) (request : Request) (userId : Uuid) (now : Time) : Phase :=
  match db.users.rows.find? (·.id = userId) with
  | none => .refuse request Login.invalidCredentials
  | some user =>
      if user.isActive then .memberships request user now
      else .refuse request Login.invalidCredentials

/-- The next statement, and the time on the clock. -/
def run (security : Security) (state : State) : Phase → Time → Option (State × Phase)
  | .resolve request, now =>
      match resolve state request.challengeToken now with
      | none => some (state, .refuse request challengeInvalid)
      | some userId => some (state, .verifyCode request userId)
  | .verifyCode request userId, now =>
      some (state, verifyCode security state.db request userId now)
  | .recoveryCode request userId, _ =>
      some (state, findRecoveryCode security state.db request userId)
  -- A recovery code is committed at once.
  | .burn request userId row, now =>
      some ({ state with db := burnRecoveryCode state.db row now }, .consume request userId)
  | .consume request userId, _ => some (consume state request, .completeLogin request userId)
  | .completeLogin request userId, now => some (state, completeLogin state.db request userId now)
  | .memberships request read now, _ =>
      some (state, .openSession request read now (state.db.activeMemberships read.id))
  | _, _ => none

def answer (state : State) (db : IdentityDb) (request : Request)
    (outcome : Except Err (Uuid × Option Uuid)) : State :=
  { state with db := db, answers := state.answers ++ [⟨request, outcome⟩] }

/-- The end of a request: the commit of `complete_mfa_login`, or the error it raised. -/
def finish (security : Security) (state : State) : Phase → Option State
  | .refuse request error => some (answer state state.db request (.error error))
  | .openSession request read now tenants => do
      let auth ← state.db.auth.openSession security.settings
        ⟨read.id, request.sessionId, request.tokenId, request.tokenHash, now⟩
      let user := { read with lastLoginAt := some now }
      some (answer state { state.db.saveUser read user with auth := auth } request
        (.ok (request.sessionId, activeTenantId tenants)))
  | _ => none

/-- The row lock on a recovery code. -/
def locks : Phase → List (String × LockMode)
  | .burn _ _ row => [(row.codeHash, .update)]
  | _ => []

/-- Requests that present challenges. -/
def protocol (security : Security) : Protocol State Request Phase Time String where
  start _ request := .resolve request
  run := run security
  finish := finish security
  locks := locks

/-! ## Single use -/

/-- The request opened a session. -/
def Answer.opened (answer : Answer) : Bool := answer.outcome.isOk

/-- The sessions that were opened for a challenge. -/
def sessions (state : State) (token : String) : List Uuid :=
  (state.answers.filter fun answer => answer.opened ∧ answer.request.challengeToken = token).map
    (·.request.sessionId)

/-- A request opens a session only when the challenge was still there for it to delete. -/
def FoundChallenge (state : State) : Phase → Prop
  | .openSession request _ _ _ => (request.challengeToken, request.sessionId) ∈ state.deleted
  | _ => True

instance (state : State) (phase : Phase) : Decidable (FoundChallenge state phase) := by
  cases phase with
  | openSession request read now tenants =>
      exact inferInstanceAs (Decidable ((request.challengeToken, request.sessionId) ∈ state.deleted))
  | _ => exact .isTrue trivial

/-- A challenge is deleted once.  The sessions are those of the requests that deleted one, and
they are in the table. -/
structure SingleUse (state : State) : Prop where
  gone : ∀ entry ∈ state.deleted, state.store.get entry.1 = none
  once : (state.deleted.map Prod.fst).Nodup
  deleted : ∀ answer ∈ state.answers, answer.opened →
    (answer.request.challengeToken, answer.request.sessionId) ∈ state.deleted
  inserted : ∀ answer ∈ state.answers, answer.opened →
    state.db.auth.sessions.get answer.request.sessionId ≠ none
  distinct : ((state.answers.filter Answer.opened).map (·.request.sessionId)).Nodup

variable {security : Security} {state state' : State} {request : Request}

theorem get_erase_none {token token' : String} (h : state.store.get token = none) :
    (state.store.erase token').get token = none :=
  Table.get_eq_none.mpr fun row hrow =>
    Table.get_eq_none.mp h row (List.mem_filter.mp hrow).1

theorem get_erase_self (store : Table Challenge.token) (token : String) :
    (store.erase token).get token = none :=
  Table.get_eq_none.mpr fun row hrow => by simpa using (List.mem_filter.mp hrow).2

theorem SingleUse.consume (h : SingleUse state) : SingleUse (consume state request) := by
  cases hget : state.store.get request.challengeToken with
  | none =>
      have hsame : (MfaChallenge.consume state request).deleted = state.deleted := by
        simp [MfaChallenge.consume, hget]
      constructor
      · rw [hsame]
        exact fun entry hentry => get_erase_none (h.gone entry hentry)
      · rw [hsame]
        exact h.once
      · rw [hsame]
        exact h.deleted
      · exact h.inserted
      · exact h.distinct
  | some challenge =>
      have hmore : (MfaChallenge.consume state request).deleted =
          state.deleted ++ [(request.challengeToken, request.sessionId)] := by
        simp [MfaChallenge.consume, hget]
      constructor
      · rw [hmore]
        intro entry hentry
        rcases List.mem_append.mp hentry with hentry | hentry
        · exact get_erase_none (h.gone entry hentry)
        · rw [List.mem_singleton.mp hentry]
          exact get_erase_self _ _
      · rw [hmore, List.map_append, List.map_singleton, ← List.concat_eq_append,
          List.nodup_concat]
        refine ⟨fun hmem => ?_, h.once⟩
        obtain ⟨entry, hentry, heq⟩ := List.mem_map.mp hmem
        have hgone := h.gone entry hentry
        rw [heq, hget] at hgone
        cases hgone
      · rw [hmore]
        exact fun answer hanswer hopened =>
          List.mem_append_left _ (h.deleted answer hanswer hopened)
      · exact h.inserted
      · exact h.distinct

/-- A request is answered.  One that opened a session had deleted its challenge, and its session
is new. -/
theorem SingleUse.answer {db : IdentityDb} {outcome : Except Err (Uuid × Option Uuid)}
    (h : SingleUse state)
    (hkept : ∀ id, state.db.auth.sessions.get id ≠ none → db.auth.sessions.get id ≠ none)
    (hopened : outcome.isOk = true →
      (request.challengeToken, request.sessionId) ∈ state.deleted ∧
        state.db.auth.sessions.get request.sessionId = none ∧
        db.auth.sessions.get request.sessionId ≠ none) :
    SingleUse (MfaChallenge.answer state db request outcome) := by
  constructor
  · exact h.gone
  · exact h.once
  · intro answer hanswer hopened'
    rcases List.mem_append.mp hanswer with hanswer | hanswer
    · exact h.deleted answer hanswer hopened'
    · cases List.mem_singleton.mp hanswer
      exact (hopened hopened').1
  · intro answer hanswer hopened'
    rcases List.mem_append.mp hanswer with hanswer | hanswer
    · exact hkept _ (h.inserted answer hanswer hopened')
    · cases List.mem_singleton.mp hanswer
      exact (hopened hopened').2.2
  · show (((state.answers ++ [Answer.mk request outcome]).filter Answer.opened).map _).Nodup
    rw [List.filter_append, List.map_append]
    cases hok : outcome.isOk with
    | false => simpa [Answer.opened, hok] using h.distinct
    | true =>
        obtain ⟨-, hnew, -⟩ := hopened hok
        have hopens : (Answer.mk request outcome).opened = true := hok
        rw [List.filter_cons_of_pos hopens, List.filter_nil, List.map_singleton,
          ← List.concat_eq_append, List.nodup_concat]
        refine ⟨fun hmem => ?_, h.distinct⟩
        -- An earlier session is in the table, where the new one was not.
        obtain ⟨answer, hanswer, heq⟩ := List.mem_map.mp hmem
        obtain ⟨hanswer, hopened'⟩ := List.mem_filter.mp hanswer
        exact h.inserted answer hanswer hopened' (heq.symm ▸ hnew)

/-- A session that is opened is a new row, beside the rows that there were. -/
theorem openSession_sessions {settings : Settings} {db db' : AuthDb} {opening : OpenRequest}
    (h : db.openSession settings opening = some db') :
    db.sessions.get opening.sessionId = none ∧ db'.sessions.get opening.sessionId ≠ none ∧
      ∀ id, db.sessions.get id ≠ none → db'.sessions.get id ≠ none := by
  have hget := (openSession_get h).2
  obtain ⟨session, sessions, token, tokens, hid, hsessions, -, -, -, rfl⟩ := openSession_eq_some h
  refine ⟨?_, ?_, fun id hsome => ?_⟩
  · rw [← hid]
    exact (Table.insert_eq_some hsessions).2
  · show sessions.get opening.sessionId ≠ none
    rw [Table.get_insert hsessions, if_pos hid.symm]
    exact Option.some_ne_none session
  · obtain ⟨row, hrow⟩ := Option.ne_none_iff_exists'.mp hsome
    rw [hget id row hrow]
    exact Option.some_ne_none row

theorem SingleUse.run {phase phase' : Phase} {now : Time} (h : SingleUse state)
    (hrun : MfaChallenge.run security state phase now = some (state', phase')) :
    SingleUse state' := by
  cases phase with
  | resolve request =>
      simp only [MfaChallenge.run] at hrun
      split at hrun
      · cases hrun
        exact h
      · cases hrun
        exact h
  | burn request userId row =>
      cases hrun
      exact ⟨h.gone, h.once, h.deleted, h.inserted, h.distinct⟩
  | consume request userId =>
      cases hrun
      exact h.consume
  | verifyCode request userId =>
      cases hrun
      exact h
  | recoveryCode request userId =>
      cases hrun
      exact h
  | completeLogin request userId =>
      cases hrun
      exact h
  | memberships request read now =>
      cases hrun
      exact h
  | _ => cases hrun

theorem SingleUse.finish {phase : Phase} (h : SingleUse state) (hfound : FoundChallenge state phase)
    (hfinish : MfaChallenge.finish security state phase = some state') : SingleUse state' := by
  cases phase with
  | refuse request error =>
      cases hfinish
      exact h.answer (fun _ hsome => hsome) nofun
  | openSession request read now tenants =>
      obtain ⟨auth, hauth, hfinish⟩ := Option.bind_eq_some_iff.mp hfinish
      cases hfinish
      obtain ⟨hnew, hinserted, hkept⟩ := openSession_sessions hauth
      exact h.answer hkept fun _ => ⟨hfound, hnew, hinserted⟩
  | _ => cases hfinish

theorem sound (security : Security) :
    (protocol security).Sound FoundChallenge SingleUse fun _ _ => True where
  start _ _ _ := trivial
  run _ _ _ _ _ h _ hrun := ⟨h.run hrun, trivial⟩
  run_stable _ _ _ _ _ _ _ _ _ _ := trivial
  finish _ _ _ h _ hfound hfinish := h.finish hfound hfinish
  finish_stable _ _ _ _ _ _ _ _ _ _ := trivial

/-- One session belongs to a challenge. -/
theorem SingleUse.sessions_length_le (h : SingleUse state) (token : String) :
    (sessions state token).length ≤ 1 := by
  have hnodup : (sessions state token).Nodup := by
    refine h.distinct.sublist (List.Sublist.map _ ?_)
    refine List.monotone_filter_right _ fun answer hanswer => ?_
    exact (of_decide_eq_true hanswer).1
  -- The challenge was deleted once, so the sessions are all the one it was deleted for.
  have hentry : ∀ id ∈ sessions state token, (token, id) ∈ state.deleted := by
    intro id hid
    obtain ⟨answer, hanswer, rfl⟩ := List.mem_map.mp hid
    obtain ⟨hmem, hboth⟩ := List.mem_filter.mp hanswer
    obtain ⟨hopened, rfl⟩ := of_decide_eq_true hboth
    exact h.deleted answer hmem hopened
  have hsame : ∀ id ∈ sessions state token, ∀ id' ∈ sessions state token, id = id' := by
    intro id hid id' hid'
    have heq := List.inj_on_of_nodup_map h.once (hentry id hid) (hentry id' hid') rfl
    exact congrArg Prod.snd heq
  rw [← List.toFinset_card_of_nodup hnodup, Finset.card_le_one]
  exact fun id hid id' hid' => hsame id (List.mem_toFinset.mp hid) id' (List.mem_toFinset.mp hid')

/-- In every interleaving of requests in which each request that opens a session has found its
challenge to delete, at most one session is opened for a challenge. -/
theorem challenge_single_use {security : Security} {db : IdentityDb}
    {store : Table Challenge.token} {s : Interleaved State Phase}
    (h : (protocol security).Runs FoundChallenge (Protocol.init ⟨db, store, [], []⟩) s)
    (token : String) : (sessions s.committed token).length ≤ 1 := by
  have hstart : SingleUse ⟨db, store, [], []⟩ := ⟨nofun, List.nodup_nil, nofun, nofun, List.nodup_nil⟩
  exact ((sound security).runs h (.init hstart)).committed.sessions_length_le token

/-! ## One challenge presented twice -/

/-- A user whose codes are right when they are `"123456"`. -/
def secured : IdentityDb :=
  { users := ⟨[⟨1, "a@b.c", "", true, none, 0, none⟩], List.nodup_singleton _⟩
    memberships := [(1, 7)]
    credentials := ⟨[⟨1, "123456", some 0⟩], List.nodup_singleton _⟩
    recoveryCodes := .empty _
    auth := .new (.empty _) }

def pyotp : Security :=
  { settings := ⟨30⟩
    verifyPassword := fun _ _ => false
    verifyTotp := fun secret code _ => secret = code
    hashOpaqueToken := id
    normalize := id }

/-- One challenge, of that user. -/
def issued : State :=
  ⟨secured, ⟨[⟨"challenge-of-1-----", 1, 300⟩], List.nodup_singleton _⟩, [], []⟩

/-- A request with the challenge and the right code. -/
def presents (n : Nat) : Request := ⟨"challenge-of-1-----", "123456", n, n, toString n⟩

/-- The rest of a request, after it has read the challenge. -/
def completes (n : Nat) : List (TxAction Request Time) :=
  [.run n 1, .run n 1, .run n 1, .run n 1, .finish n]

/-- The second request comes after the first one. -/
def presentedInTurn : List (TxAction Request Time) :=
  [.begin 1 (presents 1), .run 1 1] ++ completes 1 ++ [.begin 2 (presents 2), .run 2 1, .finish 2]

/-- Both requests read the challenge first. -/
def presentedAtOnce : List (TxAction Request Time) :=
  [.begin 1 (presents 1), .begin 2 (presents 2), .run 1 1, .run 2 1] ++ completes 1 ++ completes 2

/-- In turn, the second request is refused. -/
theorem challenge_single_use_inTurn : ∃ s : Interleaved State Phase,
    (protocol pyotp).Runs FoundChallenge
      (Protocol.init ⟨issued.db, issued.store, [], []⟩) s ∧
      s.committed.answers.map Answer.opened = [true, false] ∧
      (sessions s.committed "challenge-of-1-----").length ≤ 1 := by
  have hfacts : (presentedInTurn.foldlM ((protocol pyotp).guarded FoundChallenge)
      (Protocol.init issued)).any fun s =>
        s.committed.answers.map Answer.opened = [true, false] := by decide +kernel
  obtain ⟨s, hruns, hopened⟩ := Protocol.Runs.exists_of_any presentedInTurn hfacts
  exact ⟨s, hruns, hopened, challenge_single_use hruns _⟩

/-- At once, each of them opens a session. -/
theorem challenge_replayed : ∃ s : Interleaved State Phase,
    (protocol pyotp).Reaches (Protocol.init issued) s ∧ s.txs.rows = [] ∧
      (s.committed.answers.map (·.request.challengeToken)) =
        ["challenge-of-1-----", "challenge-of-1-----"] ∧
      sessions s.committed "challenge-of-1-----" = [1, 2] ∧
      s.committed.db.auth.sessions.rows.length = 2 ∧
      ¬ (sessions s.committed "challenge-of-1-----").length ≤ 1 := by
  have hfacts : (presentedAtOnce.foldlM (protocol pyotp).step (Protocol.init issued)).any fun s =>
      s.txs.rows = [] ∧
        (s.committed.answers.map (·.request.challengeToken)) =
          ["challenge-of-1-----", "challenge-of-1-----"] ∧
        sessions s.committed "challenge-of-1-----" = [1, 2] ∧
        s.committed.db.auth.sessions.rows.length = 2 ∧
        ¬ (sessions s.committed "challenge-of-1-----").length ≤ 1 := by decide +kernel
  exact Protocol.Reaches.exists_of_any presentedAtOnce hfacts

end Nexora.Auth.MfaChallenge
