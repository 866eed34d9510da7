import Nexora.Core.Context
import Nexora.Foundations.Interleaving

/-!
# Sessions and refresh tokens

The tables of `app/modules/auth/models.py` that a login session lives in, and the requests of
`AuthService` on them (`app/modules/auth/service.py`), statement by statement.

Raw tokens never reach the tables, so a token is named by its hash.  Users and their passwords
are left out, and so are the reset tokens that are mailed while the requests run: the table of
reset tokens is there from the start.
-/

namespace Nexora.Auth

open Nexora Foundations

/-- Points in time, in microseconds. -/
abbrev Time := Int

/-! ## Tables -/

/-- `AuthSession`. -/
structure AuthSession where
  id : Uuid
  userId : Uuid
  createdAt : Time
  lastUsedAt : Time
  revokedAt : Option Time
  revokedReason : Option String
deriving DecidableEq

/-- `RefreshToken`. -/
structure RefreshToken where
  id : Uuid
  sessionId : Uuid
  tokenHash : String
  expiresAt : Time
  usedAt : Option Time
  replacedById : Option Uuid
deriving DecidableEq

/-- `PasswordResetToken`. -/
structure PasswordResetToken where
  userId : Uuid
  tokenHash : String
  expiresAt : Time
  usedAt : Option Time
deriving DecidableEq

/-- The tables.  The hash of a token is unique, and names its row. -/
structure AuthDb where
  sessions : Table AuthSession.id
  tokens : Table RefreshToken.tokenHash
  resetTokens : Table PasswordResetToken.tokenHash

/-- The tables before the first login. -/
def AuthDb.new (resetTokens : Table PasswordResetToken.tokenHash) : AuthDb :=
  ⟨.empty _, .empty _, resetTokens⟩

/-- `add_refresh_token`, under the primary key, the foreign key and the unique hash. -/
def AuthDb.addRefreshToken (db : AuthDb) (token : RefreshToken) : Option AuthDb :=
  if db.tokens.rows.any (·.id = token.id) ∨ db.sessions.get token.sessionId = none then none
  else (db.tokens.insert token).map fun tokens => { db with tokens := tokens }

/-- What an `UPDATE` that revokes the given sessions makes of a row. -/
def AuthSession.revoke (sessionIds : List Uuid) (now : Time) (reason : String)
    (session : AuthSession) : AuthSession :=
  if session.id ∈ sessionIds then
    { session with revokedAt := some now, revokedReason := some reason }
  else session

@[simp] theorem AuthSession.revoke_id (sessionIds : List Uuid) (now : Time) (reason : String)
    (session : AuthSession) : (session.revoke sessionIds now reason).id = session.id := by
  unfold revoke
  split
  · rfl
  · rfl

/-- The writes of `revoke_session` and `revoke_all_sessions` to the rows they have locked. -/
def AuthDb.revoke (db : AuthDb) (sessionIds : List Uuid) (now : Time) (reason : String) : AuthDb :=
  { db with
    sessions := db.sessions.modify (·.revoke sessionIds now reason)
      (AuthSession.revoke_id sessionIds now reason) }

/-- `token.used_at = now` of a reset token. -/
def AuthDb.consumeReset (db : AuthDb) (token : PasswordResetToken) (now : Time) : AuthDb :=
  { db with
    resetTokens := db.resetTokens.modifyAt token.tokenHash
      (fun row => { row with usedAt := some now }) fun _ => rfl }

/-! ## Requests -/

/-- `refresh_token_expire_days`. -/
structure Settings where
  refreshTokenExpireDays : Nat

/-- `now + timedelta(days=...)`. -/
def Settings.expiry (settings : Settings) (now : Time) : Time :=
  now + settings.refreshTokenExpireDays * (86400 * 10 ^ 6)

/-- A login, with the identifiers it draws. -/
structure OpenRequest where
  userId : Uuid
  sessionId : Uuid
  tokenId : Uuid
  tokenHash : String
  now : Time

/-- `_open_session`. -/
def AuthDb.openSession (db : AuthDb) (settings : Settings) (request : OpenRequest) :
    Option AuthDb := do
  let sessions ← db.sessions.insert
    { id := request.sessionId
      userId := request.userId
      createdAt := request.now
      lastUsedAt := request.now
      revokedAt := none
      revokedReason := none }
  { db with sessions := sessions }.addRefreshToken
    { id := request.tokenId
      sessionId := request.sessionId
      tokenHash := request.tokenHash
      expiresAt := settings.expiry request.now
      usedAt := none
      replacedById := none }

section OpenSession

variable {settings : Settings} {db db' : AuthDb}

theorem addRefreshToken_eq_some {token : RefreshToken}
    (h : db.addRefreshToken token = some db') :
    ∃ tokens, db.tokens.insert token = some tokens ∧ db.sessions.get token.sessionId ≠ none ∧
      db' = { db with tokens := tokens } := by
  unfold AuthDb.addRefreshToken at h
  split at h
  next => cases h
  next hfree =>
    obtain ⟨tokens, hinsert, rfl⟩ := Option.map_eq_some_iff.mp h
    exact ⟨tokens, hinsert, fun hnone => hfree (.inr hnone), rfl⟩

theorem openSession_eq_some {request : OpenRequest}
    (h : db.openSession settings request = some db') :
    ∃ session sessions token tokens, session.id = request.sessionId ∧
      db.sessions.insert session = some sessions ∧
      token.sessionId = request.sessionId ∧ token.usedAt = none ∧
      db.tokens.insert token = some tokens ∧
      db' = { db with sessions := sessions, tokens := tokens } := by
  obtain ⟨sessions, hsessions, h⟩ := Option.bind_eq_some_iff.mp h
  obtain ⟨tokens, htokens, -, rfl⟩ := addRefreshToken_eq_some h
  exact ⟨_, sessions, _, tokens, rfl, hsessions, rfl, rfl, htokens, rfl⟩

/-- Rows that were inserted changed no other. -/
theorem openSession_get {request : OpenRequest} (h : db.openSession settings request = some db') :
    (∀ hash, ∀ token ∈ db.tokens.get hash, token ∈ db'.tokens.get hash) ∧
      ∀ id, ∀ session ∈ db.sessions.get id, session ∈ db'.sessions.get id := by
  obtain ⟨session, sessions, token, tokens, -, hsessions, -, -, htokens, rfl⟩ :=
    openSession_eq_some h
  refine ⟨fun hash row hrow => ?_, fun id row hrow => ?_⟩
  · exact Table.get_of_append hrow (Table.insert_eq_some htokens).1
  · exact Table.get_of_append hrow (Table.insert_eq_some hsessions).1

end OpenSession

/-- A call of `rotate_refresh_token` with the hash of the token it presents, what it draws, and
the times it reads from the clock. -/
structure RefreshRequest where
  tokenHash : String
  activeTenantId : Option Uuid
  replacementId : Uuid
  replacementHash : String
  now : Time
  revokedAt : Time
deriving DecidableEq

/-- `RotatedTokens`, without the access token. -/
structure RotatedTokens where
  refreshTokenHash : String
  sessionId : Uuid
  userId : Uuid
  tenantId : Option Uuid
deriving DecidableEq

/-- The row of the new token. -/
def RefreshRequest.replacement (request : RefreshRequest) (settings : Settings)
    (session : AuthSession) : RefreshToken :=
  { id := request.replacementId
    sessionId := session.id
    tokenHash := request.replacementHash
    expiresAt := settings.expiry request.now
    usedAt := none
    replacedById := none }

/-- `current.used_at = now` and `current.replaced_by_id = replacement.id`. -/
def RefreshRequest.exchange (request : RefreshRequest) (token : RefreshToken) : RefreshToken :=
  { token with usedAt := some request.now, replacedById := some request.replacementId }

theorem RefreshRequest.exchange_tokenHash (request : RefreshRequest) (token : RefreshToken) :
    (request.exchange token).tokenHash = token.tokenHash := rfl

/-- `session.last_used_at = now`. -/
def RefreshRequest.touch (request : RefreshRequest) (session : AuthSession) : AuthSession :=
  { session with lastUsedAt := request.now }

theorem RefreshRequest.touch_id (request : RefreshRequest) (session : AuthSession) :
    (request.touch session).id = session.id := rfl

/-- The writes of `rotate_refresh_token` that exchange a token. -/
def AuthDb.rotate (db : AuthDb) (settings : Settings) (request : RefreshRequest)
    (current : RefreshToken) (session : AuthSession) : Option AuthDb := do
  let db ← db.addRefreshToken (request.replacement settings session)
  some { db with
    tokens := db.tokens.modifyAt current.tokenHash request.exchange request.exchange_tokenHash
    sessions := db.sessions.modifyAt session.id request.touch request.touch_id }

/-- The sessions that an `UPDATE` asks for. -/
inductive Target where
  /-- `revoke_session`. -/
  | session (sessionId : Uuid)
  /-- `revoke_all_sessions`. -/
  | user (userId : Uuid) (exceptSessionId : Option Uuid)

/-- The `WHERE` clause of the `UPDATE`. -/
def Target.selects (target : Target) (session : AuthSession) : Bool :=
  session.revokedAt = none && match target with
    | .session sessionId => session.id = sessionId
    | .user userId exceptSessionId =>
        session.userId = userId && exceptSessionId.all fun kept => session.id ≠ kept

/-- An `UPDATE` that revokes sessions. -/
structure Revocation where
  target : Target
  now : Time
  reason : String

/-- The requests. -/
inductive Request where
  | openSession (request : OpenRequest)
  | refresh (request : RefreshRequest)
  | logout (sessionId : Uuid) (now : Time)
  | logoutAll (userId : Uuid) (now : Time)
  | resetPassword (tokenHash : String) (now revokedAt : Time)
  | changePassword (userId keepSessionId : Uuid) (now : Time)

def tokenInvalid : Err := .app ⟨"TOKEN_INVALID", "Refresh token is invalid.", 401⟩

def sessionRevoked : Err := .app ⟨"SESSION_REVOKED", "Session has been revoked.", 401⟩

def refreshReuseDetected : Err :=
  .app ⟨"REFRESH_REUSE_DETECTED",
    "Refresh token reuse was detected; the session has been revoked.", 401⟩

/-! ## Statements -/

/-- Where a transaction stands.  `presented` is the row of the presented token when the request
came in, which no statement reads. -/
inductive Phase where
  | opening (request : OpenRequest)
  | refresh (request : RefreshRequest) (presented : Option RefreshToken)
  | tokenLocked (request : RefreshRequest) (presented : Option RefreshToken)
      (current : RefreshToken)
  | sessionLocked (request : RefreshRequest) (presented : Option RefreshToken)
      (current : RefreshToken) (session : AuthSession)
  /-- A refresh that has raised. -/
  | refused (request : RefreshRequest) (presented : Option RefreshToken) (error : Err)
  | reset (tokenHash : String) (now revokedAt : Time)
  /-- An `UPDATE` to come, with the reset token that is consumed and when. -/
  | revoke (revocation : Revocation) (consumed : Option (PasswordResetToken × Time))
  /-- The rows that the `UPDATE` has still to come to, and those it has locked. -/
  | revoking (revocation : Revocation) (consumed : Option (PasswordResetToken × Time))
      (todo locked : List Uuid)

/-- Which row an `UPDATE` comes to next is for the database to choose. -/
inductive Choice where
  | next
  | row (sessionId : Uuid)

inductive Row where
  | session (id : Uuid)
  | token (tokenHash : String)
  | resetToken (tokenHash : String)
deriving DecidableEq

/-- What a refresh was answered. -/
structure Answer where
  request : RefreshRequest
  presented : Option RefreshToken
  outcome : Except Err RotatedTokens

/-- The tables, and the answers so far. -/
structure AuthState where
  db : AuthDb
  answers : List Answer

def start (state : AuthState) : Request → Phase
  | .openSession request => .opening request
  | .refresh request => .refresh request (state.db.tokens.get request.tokenHash)
  | .logout sessionId now => .revoke ⟨.session sessionId, now, "logout"⟩ none
  | .logoutAll userId now => .revoke ⟨.user userId none, now, "logout_all"⟩ none
  | .resetPassword tokenHash now revokedAt => .reset tokenHash now revokedAt
  | .changePassword userId keepSessionId now =>
      .revoke ⟨.user userId (some keepSessionId), now, "password_changed"⟩ none

/-- `get_refresh_for_update`, with the checks on what it finds. -/
def lockToken (db : AuthDb) (request : RefreshRequest) (presented : Option RefreshToken) : Phase :=
  match db.tokens.get request.tokenHash with
  | none => .refused request presented tokenInvalid
  | some current =>
      if current.expiresAt ≤ request.now then .refused request presented tokenInvalid
      else .tokenLocked request presented current

/-- `get_session(..., for_update=True)`, with the checks on what it finds. -/
def lockSession (db : AuthDb) (request : RefreshRequest) (presented : Option RefreshToken)
    (current : RefreshToken) : Phase :=
  match db.sessions.get current.sessionId with
  | none => .refused request presented sessionRevoked
  | some session =>
      if session.revokedAt = none then .sessionLocked request presented current session
      else .refused request presented sessionRevoked

/-- `consume_reset_token`, with the checks on what it finds.  A request that raises here is
over. -/
def lockReset (db : AuthDb) (tokenHash : String) (now revokedAt : Time) : Option Phase :=
  match db.resetTokens.get tokenHash with
  | none => none
  | some token =>
      if token.usedAt = none ∧ now < token.expiresAt then
        some (.revoke ⟨.user token.userId none, revokedAt, "password_reset"⟩
          (some (token, now)))
      else none

/-- The `UPDATE` comes to a row: it checks its condition again, on the row as it now is. -/
def lockRow (db : AuthDb) (revocation : Revocation) (consumed : Option (PasswordResetToken × Time))
    (todo locked : List Uuid) (sessionId : Uuid) : Option Phase :=
  if sessionId ∈ todo then
    if (db.sessions.get sessionId).any revocation.target.selects then
      some (.revoking revocation consumed (todo.erase sessionId) (sessionId :: locked))
    else some (.revoking revocation consumed (todo.erase sessionId) locked)
  else none

/-- The next statement. -/
def run (state : AuthState) : Phase → Choice → Option (AuthState × Phase)
  | .refresh request presented, .next => some (state, lockToken state.db request presented)
  | .tokenLocked request presented current, .next =>
      some (state, lockSession state.db request presented current)
  | .reset tokenHash now revokedAt, .next =>
      (lockReset state.db tokenHash now revokedAt).map (state, ·)
  | .revoke revocation consumed, .next =>
      some (state, .revoking revocation consumed
        ((state.db.sessions.rows.filter revocation.target.selects).map AuthSession.id) [])
  | .revoking revocation consumed todo locked, .row sessionId =>
      (lockRow state.db revocation consumed todo locked sessionId).map (state, ·)
  | _, _ => none

def answer (state : AuthState) (db : AuthDb) (request : RefreshRequest)
    (presented : Option RefreshToken) (outcome : Except Err RotatedTokens) : AuthState :=
  { db := db, answers := state.answers ++ [⟨request, presented, outcome⟩] }

/-- The end of `rotate_refresh_token`.  Reuse is raised after the commit. -/
def endRefresh (settings : Settings) (state : AuthState) (request : RefreshRequest)
    (presented : Option RefreshToken) (current : RefreshToken) (session : AuthSession) :
    Option AuthState :=
  if current.usedAt = none then
    (state.db.rotate settings request current session).map fun db =>
      answer state db request presented
        (.ok ⟨request.replacementHash, session.id, session.userId, request.activeTenantId⟩)
  else
    some (answer state
      (state.db.revoke [session.id] request.revokedAt "refresh_reuse_detected")
      request presented (.error refreshReuseDetected))

/-- The end of a request that revokes sessions. -/
def endRevoke (state : AuthState) (revocation : Revocation)
    (consumed : Option (PasswordResetToken × Time)) (locked : List Uuid) : AuthState :=
  let db := state.db.revoke locked revocation.now revocation.reason
  match consumed with
  | none => { state with db := db }
  | some (token, now) => { state with db := db.consumeReset token now }

/-- The end of a transaction. -/
def finish (settings : Settings) (state : AuthState) : Phase → Option AuthState
  | .opening request =>
      (state.db.openSession settings request).map fun db => { state with db := db }
  | .sessionLocked request presented current session =>
      endRefresh settings state request presented current session
  | .refused request presented error =>
      some (answer state state.db request presented (.error error))
  | .revoking revocation consumed [] locked => some (endRevoke state revocation consumed locked)
  | _ => none

def resetLocks (consumed : Option (PasswordResetToken × Time)) : List (Row × LockMode) :=
  consumed.toList.map fun row => (.resetToken row.1.tokenHash, .update)

/-- The row locks: `FOR UPDATE` on the token and on its session, and those of the `UPDATE`. -/
def locks : Phase → List (Row × LockMode)
  | .tokenLocked request _ _ => [(.token request.tokenHash, .update)]
  | .sessionLocked request _ _ session =>
      [(.token request.tokenHash, .update), (.session session.id, .update)]
  | .revoke _ consumed => resetLocks consumed
  | .revoking _ consumed _ locked =>
      resetLocks consumed ++ locked.map fun sessionId => (.session sessionId, .noKeyUpdate)
  | _ => []

/-- The requests of `AuthService` on sessions. -/
def protocol (settings : Settings) : Protocol AuthState Request Phase Choice Row where
  start := start
  run := run
  finish := finish settings
  locks := locks

end Nexora.Auth
