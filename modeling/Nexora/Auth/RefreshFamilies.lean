import Nexora.Auth.Sessions

/-!
# Refresh-token families

A session is a family of refresh tokens, of which one at a time may be exchanged for the next.
`refresh_families` says what holds of every interleaving of logins, refreshes, logouts and
password changes: a live session has one unused token, no token is exchanged twice, a token
that was used before costs its session, and no token of a revoked session is exchanged.

A refresh locks the row of its token and then the row of its session.  While it holds them
the two rows stay as it read them (`Relies`), so what it decides is still right when it
commits.
-/

namespace Nexora.Auth

open Nexora Foundations

variable {settings : Settings} {db db' : AuthDb} {state state' : AuthState}

/-! ## Families -/

/-- The session is revoked. -/
def Revoked (db : AuthDb) (sessionId : Uuid) : Prop :=
  ∃ session ∈ db.sessions.get sessionId, session.revokedAt ≠ none

/-- The tokens of a session with `used_at IS NULL`. -/
def unused (db : AuthDb) (sessionId : Uuid) : List RefreshToken :=
  db.tokens.rows.filter fun token => token.sessionId = sessionId ∧ token.usedAt = none

/-- The tables: a token belongs to a session, and a live session has one unused token. -/
structure Families (db : AuthDb) : Prop where
  belongs : ∀ token ∈ db.tokens.rows, db.sessions.get token.sessionId ≠ none
  single : ∀ session ∈ db.sessions.rows, session.revokedAt = none →
    (unused db session.id).length = 1

/-- A row of a token as it was, and as it is. -/
structure SameToken (token token' : RefreshToken) : Prop where
  sessionId : token'.sessionId = token.sessionId
  expiresAt : token'.expiresAt = token.expiresAt
  used : token.usedAt ≠ none → token'.usedAt ≠ none

theorem SameToken.refl (token : RefreshToken) : SameToken token token := ⟨rfl, rfl, id⟩

theorem SameToken.trans {token token' token'' : RefreshToken} (h : SameToken token token')
    (h' : SameToken token' token'') : SameToken token token'' :=
  ⟨h'.sessionId.trans h.sessionId, h'.expiresAt.trans h.expiresAt, fun hused => h'.used (h.used hused)⟩

/-- Tokens stay, and what is used or revoked stays so. -/
structure Later (db db' : AuthDb) : Prop where
  token : ∀ hash, ∀ token ∈ db.tokens.get hash,
    ∃ token' ∈ db'.tokens.get hash, SameToken token token'
  session : ∀ id, ∀ session ∈ db.sessions.get id,
    ∃ session' ∈ db'.sessions.get id, session.revokedAt ≠ none → session'.revokedAt ≠ none

theorem Later.refl (db : AuthDb) : Later db db :=
  ⟨fun _ token h => ⟨token, h, .refl token⟩, fun _ session h => ⟨session, h, id⟩⟩

theorem Later.revoked (h : Later db db') {sessionId : Uuid} (hrevoked : Revoked db sessionId) :
    Revoked db' sessionId := by
  obtain ⟨session, hget, hrevoked⟩ := hrevoked
  obtain ⟨session', hget', hlater⟩ := h.session sessionId session hget
  exact ⟨session', hget', hlater hrevoked⟩

/-! ## Logins -/

theorem Later.of_get (htokens : ∀ hash, ∀ token ∈ db.tokens.get hash, token ∈ db'.tokens.get hash)
    (hsessions : ∀ id, ∀ session ∈ db.sessions.get id, session ∈ db'.sessions.get id) :
    Later db db' :=
  ⟨fun hash token h => ⟨token, htokens hash token h, .refl token⟩,
    fun id session h => ⟨session, hsessions id session h, fun hrevoked => hrevoked⟩⟩

theorem Families.openSession {request : OpenRequest} (h : Families db)
    (hopen : db.openSession settings request = some db') : Families db' := by
  obtain ⟨session, sessions, token, tokens, hid, hsessions, htoken, hunused, htokens, rfl⟩ :=
    openSession_eq_some hopen
  obtain ⟨hsessions', hnew⟩ := Table.insert_eq_some hsessions
  obtain ⟨htokens', -⟩ := Table.insert_eq_some htokens
  rw [hid] at hnew
  have hget : ∀ id, db.sessions.get id ≠ none → sessions.get id ≠ none := by
    intro id hsome hnone
    obtain ⟨row, hrow⟩ := Option.ne_none_iff_exists'.mp hsome
    rw [Table.get_of_append hrow hsessions'] at hnone
    cases hnone
  constructor
  · show ∀ row ∈ tokens.rows, sessions.get row.sessionId ≠ none
    rw [htokens']
    intro row hrow
    rcases List.mem_append.mp hrow with hrow | hrow
    · exact hget _ (h.belongs row hrow)
    · rw [List.mem_singleton.mp hrow, htoken, ← hid, Table.get_insert hsessions]
      simp
  · show ∀ row ∈ sessions.rows, _ → (tokens.rows.filter _).length = 1
    rw [hsessions', htokens']
    intro row hrow hlive
    rw [List.filter_append, List.length_append]
    rcases List.mem_append.mp hrow with hrow | hrow
    · -- The new token belongs to the new session.
      have hne : request.sessionId ≠ row.id := fun heq =>
        Table.get_eq_none.mp hnew row hrow heq.symm
      have hsingle : (db.tokens.rows.filter fun token =>
          token.sessionId = row.id ∧ token.usedAt = none).length = 1 := h.single row hrow hlive
      rw [hsingle]
      simp [htoken, hne]
    · -- A new session has no tokens yet.
      have hnone : (db.tokens.rows.filter fun token =>
          token.sessionId = row.id ∧ token.usedAt = none) = [] := by
        refine List.filter_eq_nil_iff.mpr fun token htoken => ?_
        simp only [decide_eq_true_eq, not_and]
        intro heq
        have hbelongs := h.belongs token htoken
        rw [heq, List.mem_singleton.mp hrow, hid, hnew] at hbelongs
        exact absurd rfl hbelongs
      rw [hnone, List.mem_singleton.mp hrow]
      simp [htoken, hunused, hid]

/-! ## Revocation -/

theorem revoke_get (sessionIds : List Uuid) (now : Time) (reason : String) (id : Uuid) :
    (db.revoke sessionIds now reason).sessions.get id =
      (db.sessions.get id).map (·.revoke sessionIds now reason) := by
  rw [AuthDb.revoke, Table.get_modify]

theorem later_revoke (db : AuthDb) (sessionIds : List Uuid) (now : Time) (reason : String) :
    Later db (db.revoke sessionIds now reason) := by
  refine ⟨fun _ token h => ⟨token, h, .refl token⟩, fun id session h => ?_⟩
  have hsession : db.sessions.get id = some session := h
  refine ⟨session.revoke sessionIds now reason, by simp [revoke_get, hsession], fun hrevoked => ?_⟩
  unfold AuthSession.revoke
  split
  · simp
  · exact hrevoked

theorem Families.revoke (h : Families db) (sessionIds : List Uuid) (now : Time) (reason : String) :
    Families (db.revoke sessionIds now reason) := by
  constructor
  · intro token htoken
    rw [revoke_get, ne_eq, Option.map_eq_none_iff]
    exact h.belongs token htoken
  · intro session' hsession' hlive
    obtain ⟨session, hsession, rfl⟩ := List.mem_map.mp hsession'
    rw [AuthSession.revoke_id]
    refine h.single session hsession ?_
    unfold AuthSession.revoke at hlive
    split at hlive
    · cases hlive
    · exact hlive

theorem revoked_revoke {sessionIds : List Uuid} {now : Time} {reason : String} {session : AuthSession}
    (hget : db.sessions.get session.id = some session) (hmem : session.id ∈ sessionIds) :
    Revoked (db.revoke sessionIds now reason) session.id :=
  ⟨session.revoke sessionIds now reason, by simp [revoke_get, hget], by
    simp [AuthSession.revoke, hmem]⟩

/-! ## Rotation -/

section Rotation

variable {request : RefreshRequest} {current : RefreshToken} {session : AuthSession}

theorem rotate_eq_some (h : db.rotate settings request current session = some db') :
    ∃ tokens, db.tokens.insert (request.replacement settings session) = some tokens ∧
      db'.tokens = tokens.modifyAt current.tokenHash request.exchange request.exchange_tokenHash ∧
      db'.sessions = db.sessions.modifyAt session.id request.touch request.touch_id := by
  obtain ⟨db₁, hadd, h⟩ := Option.bind_eq_some_iff.mp h
  obtain ⟨tokens, hinsert, -, rfl⟩ := addRefreshToken_eq_some hadd
  cases h
  exact ⟨tokens, hinsert, rfl, rfl⟩

/-- What becomes of a row of a token. -/
theorem rotate_token (h : db.rotate settings request current session = some db') {hash : String}
    {token : RefreshToken} (hget : db.tokens.get hash = some token) :
    db'.tokens.get hash =
      some (if hash = current.tokenHash then request.exchange token else token) := by
  obtain ⟨tokens, hinsert, htokens, -⟩ := rotate_eq_some h
  rw [htokens, Table.get_modifyAt, Table.get_of_append hget (Table.insert_eq_some hinsert).1]
  split
  · rfl
  · rfl

/-- What becomes of a row of a session. -/
theorem rotate_session (h : db.rotate settings request current session = some db') {id : Uuid}
    {row : AuthSession} (hget : db.sessions.get id = some row) :
    db'.sessions.get id = some (if id = session.id then request.touch row else row) := by
  obtain ⟨tokens, -, -, hsessions⟩ := rotate_eq_some h
  rw [hsessions, Table.get_modifyAt, hget]
  split
  · rfl
  · rfl

theorem later_rotate (h : db.rotate settings request current session = some db') :
    Later db db' := by
  refine ⟨fun hash token hget => ⟨_, rotate_token h hget, ?_⟩,
    fun id row hget => ⟨_, rotate_session h hget, fun hrevoked => ?_⟩⟩
  · split
    · exact ⟨rfl, rfl, fun _ => by simp [RefreshRequest.exchange]⟩
    · exact .refl token
  · split
    · exact hrevoked
    · exact hrevoked

/-- A rotation uses up one token and adds one. -/
theorem unused_rotate {hash : String} (hcurrent : db.tokens.get hash = some current)
    (hunused : current.usedAt = none) (hsession : current.sessionId = session.id)
    (h : db.rotate settings request current session = some db') (sessionId : Uuid) :
    (unused db' sessionId).length = (unused db sessionId).length := by
  obtain ⟨tokens, hinsert, htokens, -⟩ := rotate_eq_some h
  obtain ⟨hrows, hfresh⟩ := Table.insert_eq_some hinsert
  have hself := Table.get_self hcurrent
  have hne : (request.replacement settings session).tokenHash ≠ current.tokenHash := by
    intro heq
    rw [heq, hself] at hfresh
    cases hfresh
  obtain ⟨before, after, hold, hchanged⟩ := Table.map_at hself request.exchange
  have hnew : db'.tokens.rows =
      before ++ request.exchange current :: after ++ [request.replacement settings session] := by
    rw [htokens, ← hchanged]
    show tokens.rows.map _ = _
    rw [hrows, List.map_append, List.map_singleton, if_neg hne]
  rw [unused, unused, hnew, hold]
  by_cases hid : session.id = sessionId
  · simp [RefreshRequest.exchange, RefreshRequest.replacement, hsession, hid, hunused]
  · simp [RefreshRequest.exchange, RefreshRequest.replacement, hsession, hid]

theorem Families.rotate {hash : String} (h : Families db)
    (hcurrent : db.tokens.get hash = some current) (hunused : current.usedAt = none)
    (hsession : current.sessionId = session.id)
    (hrotate : db.rotate settings request current session = some db') : Families db' := by
  have hcount := unused_rotate hcurrent hunused hsession hrotate
  obtain ⟨tokens, hinsert, htokens, hsessions⟩ := rotate_eq_some hrotate
  have hget : ∀ id, db.sessions.get id ≠ none → db'.sessions.get id ≠ none := by
    intro id hsome
    obtain ⟨row, hrow⟩ := Option.ne_none_iff_exists'.mp hsome
    rw [rotate_session hrotate hrow]
    simp
  constructor
  · intro token' htoken'
    rw [htokens] at htoken'
    obtain ⟨token, htoken, rfl⟩ := List.mem_map.mp htoken'
    have hbelongs : db.sessions.get token.sessionId ≠ none := by
      rw [(Table.insert_eq_some hinsert).1] at htoken
      rcases List.mem_append.mp htoken with htoken | htoken
      · exact h.belongs token htoken
      · rw [List.mem_singleton.mp htoken]
        have hbelongs := h.belongs current (Table.get_mem hcurrent).1
        rwa [hsession] at hbelongs
    split
    · exact hget _ hbelongs
    · exact hget _ hbelongs
  · intro row' hrow' hlive
    rw [hsessions] at hrow'
    obtain ⟨row, hrow, rfl⟩ := List.mem_map.mp hrow'
    rw [hcount]
    split at hlive
    next heq =>
      rw [if_pos heq]
      exact h.single row hrow hlive
    next hne =>
      rw [if_neg hne]
      exact h.single row hrow hlive

end Rotation

/-! ## What a transaction relies on -/

/-- The row of the presented token, since the request came in. -/
def Since (db : AuthDb) (tokenHash : String) (presented : Option RefreshToken) : Prop :=
  ∀ token ∈ presented, ∃ token' ∈ db.tokens.get tokenHash, SameToken token token'

theorem Since.later {tokenHash : String} {presented : Option RefreshToken}
    (h : Since db tokenHash presented) (hlater : Later db db') : Since db' tokenHash presented := by
  intro token htoken
  obtain ⟨token', hget, hsame⟩ := h token htoken
  obtain ⟨token'', hget', hsame'⟩ := hlater.token tokenHash token' hget
  exact ⟨token'', hget', hsame.trans hsame'⟩

/-- The rows that a refresh has locked are as it read them, and one that was refused had its
reasons. -/
def Relies (state : AuthState) : Phase → Prop
  | .refresh request presented => Since state.db request.tokenHash presented
  | .tokenLocked request presented current =>
      Since state.db request.tokenHash presented ∧
        state.db.tokens.get request.tokenHash = some current ∧ request.now < current.expiresAt
  | .sessionLocked request presented current session =>
      Since state.db request.tokenHash presented ∧
        state.db.tokens.get request.tokenHash = some current ∧
        state.db.sessions.get current.sessionId = some session ∧ session.revokedAt = none
  | .refused request presented _ =>
      ∀ token ∈ presented, request.now < token.expiresAt → Revoked state.db token.sessionId
  | _ => True

/-- A token was exchanged. -/
def Answer.exchanged (answer : Answer) : Bool := answer.outcome.isOk

/-- The answers: an exchanged token is used, and none was exchanged twice.  A token that was
used before it was presented is not exchanged, and one that is refused, though it has not
expired, has a revoked session. -/
structure Answered (db : AuthDb) (answers : List Answer) : Prop where
  used : ∀ answer ∈ answers, answer.exchanged →
    ∃ token ∈ db.tokens.get answer.request.tokenHash, token.usedAt ≠ none
  once : ((answers.filter Answer.exchanged).map (·.request.tokenHash)).Nodup
  presented : ∀ answer ∈ answers, ∀ token ∈ answer.presented,
    (token.usedAt ≠ none → answer.exchanged = false) ∧
      (answer.exchanged = false → answer.request.now < token.expiresAt →
        Revoked db token.sessionId)

structure Safe (state : AuthState) : Prop where
  families : Families state.db
  answered : Answered state.db state.answers

theorem Answered.later {answers : List Answer} (h : Answered db answers) (hlater : Later db db') :
    Answered db' answers := by
  refine ⟨fun answer hanswer hexchanged => ?_, h.once, fun answer hanswer token htoken => ?_⟩
  · obtain ⟨token, hget, hused⟩ := h.used answer hanswer hexchanged
    obtain ⟨token', hget', hsame⟩ := hlater.token _ token hget
    exact ⟨token', hget', hsame.used hused⟩
  · obtain ⟨hnot, hrevoked⟩ := h.presented answer hanswer token htoken
    exact ⟨hnot, fun hrefused hlt => hlater.revoked (hrevoked hrefused hlt)⟩

/-- A refused request is answered. -/
theorem Answered.refuse {answers : List Answer} {request : RefreshRequest}
    {presented : Option RefreshToken} {error : Err} (h : Answered db answers)
    (hrevoked : ∀ token ∈ presented, request.now < token.expiresAt → Revoked db token.sessionId) :
    Answered db (answers ++ [⟨request, presented, .error error⟩]) := by
  have hexchanged : Answer.exchanged ⟨request, presented, .error error⟩ = false := rfl
  refine ⟨fun answer hanswer hok => ?_, ?_, fun answer hanswer token htoken => ?_⟩
  · rcases List.mem_append.mp hanswer with hanswer | hanswer
    · exact h.used answer hanswer hok
    · rw [List.mem_singleton.mp hanswer, hexchanged] at hok
      cases hok
  · simpa [List.filter_append, hexchanged] using h.once
  · rcases List.mem_append.mp hanswer with hanswer | hanswer
    · exact h.presented answer hanswer token htoken
    · rw [List.mem_singleton.mp hanswer] at htoken ⊢
      exact ⟨fun _ => hexchanged, fun _ hlt => hrevoked token htoken hlt⟩

/-- An exchange is answered. -/
theorem Answered.exchange {answers : List Answer} {request : RefreshRequest}
    {presented : Option RefreshToken} {tokens : RotatedTokens} (h : Answered db answers)
    (hpresented : ∀ token ∈ presented, token.usedAt = none)
    (hbefore : ∀ token ∈ db.tokens.get request.tokenHash, token.usedAt = none)
    (hafter : ∃ token ∈ db'.tokens.get request.tokenHash, token.usedAt ≠ none)
    (hlater : Later db db') : Answered db' (answers ++ [⟨request, presented, .ok tokens⟩]) := by
  have hexchanged : Answer.exchanged ⟨request, presented, .ok tokens⟩ = true := rfl
  have hold := h.later hlater
  refine ⟨fun answer hanswer hok => ?_, ?_, fun answer hanswer token htoken => ?_⟩
  · rcases List.mem_append.mp hanswer with hanswer | hanswer
    · exact hold.used answer hanswer hok
    · rw [List.mem_singleton.mp hanswer]
      exact hafter
  · rw [List.filter_append, List.map_append, List.filter_singleton, hexchanged]
    refine List.nodup_append'.mpr ⟨h.once, List.nodup_singleton _, ?_⟩
    -- What was exchanged before is used, and this token was not.
    intro hash hmem hash'
    obtain ⟨answer, hanswer, rfl⟩ := List.mem_map.mp hmem
    obtain ⟨hanswer, hok⟩ := List.mem_filter.mp hanswer
    obtain ⟨token, hget, hused⟩ := h.used answer hanswer hok
    rw [List.mem_singleton.mp hash'] at hget
    exact hused (hbefore token hget)
  · rcases List.mem_append.mp hanswer with hanswer | hanswer
    · exact hold.presented answer hanswer token htoken
    · rw [List.mem_singleton.mp hanswer] at htoken ⊢
      refine ⟨fun hused => absurd (hpresented token htoken) hused, fun hrefused => ?_⟩
      rw [hexchanged] at hrefused
      cases hrefused

/-! ## The end of a transaction -/

theorem finish_later {phase : Phase} (h : finish settings state phase = some state') :
    Later state.db state'.db := by
  cases phase with
  | opening request =>
      obtain ⟨db, hopen, rfl⟩ := Option.map_eq_some_iff.mp h
      obtain ⟨htokens, hsessions⟩ := openSession_get hopen
      exact .of_get htokens hsessions
  | sessionLocked request presented current session =>
      simp only [finish, endRefresh] at h
      split at h
      · obtain ⟨db, hrotate, rfl⟩ := Option.map_eq_some_iff.mp h
        exact later_rotate hrotate
      · cases h
        exact later_revoke ..
  | refused request presented error =>
      cases h
      exact .refl _
  | revoking revocation consumed todo locked =>
      cases todo with
      | nil =>
          cases h
          cases consumed with
          | none => exact later_revoke ..
          | some row =>
              have hlater := later_revoke state.db locked revocation.now revocation.reason
              exact ⟨hlater.token, hlater.session⟩
      | cons id todo => cases h
  | _ => cases h

theorem Safe.finish {phase : Phase} (h : Safe state) (hrelies : Relies state phase)
    (hfinish : Auth.finish settings state phase = some state') : Safe state' := by
  have hlater := finish_later hfinish
  cases phase with
  | opening request =>
      obtain ⟨db, hopen, rfl⟩ := Option.map_eq_some_iff.mp hfinish
      exact ⟨h.families.openSession hopen, h.answered.later hlater⟩
  | sessionLocked request presented current session =>
      obtain ⟨hsince, hcurrent, hsession, hlive⟩ := hrelies
      have hid : session.id = current.sessionId := (Table.get_mem hsession).2
      -- The presented row has become the one that was locked.
      have hsame : ∀ token ∈ presented, SameToken token current := by
        intro token htoken
        obtain ⟨token', hget, hsame⟩ := hsince token htoken
        have heq : current = token' := Option.some.inj (hcurrent.symm.trans hget)
        rw [heq]
        exact hsame
      simp only [Auth.finish, endRefresh] at hfinish
      split at hfinish
      next hunused =>
        obtain ⟨db, hrotate, rfl⟩ := Option.map_eq_some_iff.mp hfinish
        refine ⟨h.families.rotate hcurrent hunused hid.symm hrotate, ?_⟩
        refine h.answered.exchange (fun token htoken => ?_) (fun token htoken => ?_) ?_ hlater
        · by_contra hused
          exact (hsame token htoken).used hused hunused
        · rw [hcurrent] at htoken
          cases htoken
          exact hunused
        · have hhash : request.tokenHash = current.tokenHash := (Table.get_mem hcurrent).2.symm
          refine ⟨_, rotate_token hrotate hcurrent, ?_⟩
          rw [if_pos hhash]
          simp [RefreshRequest.exchange]
      next hused =>
        cases hfinish
        refine ⟨h.families.revoke .., (h.answered.later hlater).refuse fun token htoken _ => ?_⟩
        rw [← (hsame token htoken).sessionId, ← hid]
        rw [← hid] at hsession
        exact revoked_revoke hsession (List.mem_singleton_self _)
  | refused request presented error =>
      cases hfinish
      exact ⟨h.families, h.answered.refuse hrelies⟩
  | revoking revocation consumed todo locked =>
      cases todo with
      | nil =>
          cases hfinish
          cases consumed with
          | none => exact ⟨h.families.revoke .., h.answered.later hlater⟩
          | some row =>
              have hfamilies : Families (state.db.revoke locked revocation.now revocation.reason) :=
                h.families.revoke ..
              exact ⟨⟨hfamilies.belongs, hfamilies.single⟩, h.answered.later hlater⟩
      | cons id todo => cases hfinish
  | _ => cases hfinish

/-- A transaction changes no row that it has not locked. -/
theorem finish_frame {phase : Phase} (hrelies : Relies state phase)
    (h : Auth.finish settings state phase = some state') :
    (∀ hash, ∀ token ∈ state.db.tokens.get hash, .token hash ∉ (locks phase).map Prod.fst →
      token ∈ state'.db.tokens.get hash) ∧
    ∀ id, ∀ session ∈ state.db.sessions.get id, .session id ∉ (locks phase).map Prod.fst →
      session ∈ state'.db.sessions.get id := by
  have hrevoke : ∀ (db : AuthDb) sessionIds now reason id session,
      db.sessions.get id = some session → id ∉ sessionIds →
      (db.revoke sessionIds now reason).sessions.get id = some session := by
    intro db sessionIds now reason id session hsession hid
    rw [revoke_get, hsession, Option.map_some, AuthSession.revoke, (Table.get_mem hsession).2,
      if_neg hid]
  cases phase with
  | opening request =>
      obtain ⟨db, hopen, rfl⟩ := Option.map_eq_some_iff.mp h
      obtain ⟨htokens, hsessions⟩ := openSession_get hopen
      exact ⟨fun hash token htoken _ => htokens hash token htoken,
        fun id session hsession _ => hsessions id session hsession⟩
  | sessionLocked request presented current session =>
      obtain ⟨-, hcurrent, hsession, -⟩ := hrelies
      simp only [Auth.finish, endRefresh] at h
      split at h
      · obtain ⟨db, hrotate, rfl⟩ := Option.map_eq_some_iff.mp h
        refine ⟨fun hash token htoken hlock => ?_, fun id row hrow hlock => ?_⟩
        · have hne : hash ≠ current.tokenHash := by
            rintro rfl
            exact hlock (by simp [locks, (Table.get_mem hcurrent).2])
          have hget := rotate_token hrotate htoken
          rwa [if_neg hne] at hget
        · have hne : id ≠ session.id := by
            rintro rfl
            exact hlock (by simp [locks])
          have hget := rotate_session hrotate hrow
          rwa [if_neg hne] at hget
      · cases h
        refine ⟨fun hash token htoken _ => htoken, fun id row hrow hlock => ?_⟩
        refine hrevoke _ _ _ _ id row hrow fun hid => hlock ?_
        rw [List.mem_singleton.mp hid]
        simp [locks]
  | refused request presented error =>
      cases h
      exact ⟨fun _ _ htoken _ => htoken, fun _ _ hsession _ => hsession⟩
  | revoking revocation consumed todo locked =>
      cases todo with
      | nil =>
          cases h
          have hsessions : ∀ id, ∀ row ∈ state.db.sessions.get id,
              .session id ∉ (locks (.revoking revocation consumed [] locked)).map Prod.fst →
              row ∈ (state.db.revoke locked revocation.now revocation.reason).sessions.get id := by
            intro id row hrow hlock
            exact hrevoke _ _ _ _ id row hrow fun hid => hlock (by simp [locks, hid])
          cases consumed with
          | none => exact ⟨fun _ _ htoken _ => htoken, hsessions⟩
          | some row => exact ⟨fun _ _ htoken _ => htoken, hsessions⟩
      | cons id todo => cases h
  | _ => cases h

/-- The rows that a refresh has locked are left alone by the others. -/
theorem Relies.stable {phase other : Phase} (hrelies : Relies state phase)
    (hother : Relies state other) (hfree : locksConflict (locks other) (locks phase) = false)
    (h : Auth.finish settings state phase = some state') : Relies state' other := by
  have hlater := finish_later h
  obtain ⟨htokens, hsessions⟩ := finish_frame hrelies h
  cases other with
  | refresh request presented => exact Since.later hother hlater
  | tokenLocked request presented current =>
      obtain ⟨hsince, hcurrent, hlt⟩ := hother
      have hlock : .token request.tokenHash ∉ (locks phase).map Prod.fst :=
        notMem_of_update hfree List.mem_cons_self
      exact ⟨hsince.later hlater, htokens _ current hcurrent hlock, hlt⟩
  | sessionLocked request presented current session =>
      obtain ⟨hsince, hcurrent, hsession, hlive⟩ := hother
      have hlock : .token request.tokenHash ∉ (locks phase).map Prod.fst :=
        notMem_of_update hfree List.mem_cons_self
      have hlock' : .session session.id ∉ (locks phase).map Prod.fst :=
        notMem_of_update hfree (List.mem_cons_of_mem _ (List.mem_singleton_self _))
      rw [(Table.get_mem hsession).2] at hlock'
      exact ⟨hsince.later hlater, htokens _ current hcurrent hlock,
        hsessions _ session hsession hlock', hlive⟩
  | refused request presented error =>
      exact fun token htoken hlt => hlater.revoked (hother token htoken hlt)
  | _ => trivial

/-! ## Statements -/

/-- What a refresh finds is what it relies on, and where it raises it had its reasons. -/
theorem Relies.run {phase phase' : Phase} {choice : Choice} (h : Safe state)
    (hrelies : Relies state phase) (hrun : Auth.run state phase choice = some (state', phase')) :
    state' = state ∧ Relies state phase' := by
  cases phase with
  | refresh request presented =>
      cases choice with
      | row sessionId => cases hrun
      | next =>
          cases hrun
          refine ⟨rfl, ?_⟩
          have hsince : Since state.db request.tokenHash presented := hrelies
          unfold lockToken
          split
          next hnone =>
            intro token htoken
            obtain ⟨token', hget, -⟩ := hsince token htoken
            rw [hnone] at hget
            cases hget
          next current hcurrent =>
            split
            next hexpired =>
              intro token htoken hlt
              obtain ⟨token', hget, hsame⟩ := hsince token htoken
              rw [hcurrent] at hget
              cases hget
              rw [hsame.expiresAt] at hexpired
              exact absurd hlt (not_lt.mpr hexpired)
            next hvalid => exact ⟨hsince, hcurrent, not_le.mp hvalid⟩
  | tokenLocked request presented current =>
      cases choice with
      | row sessionId => cases hrun
      | next =>
          cases hrun
          refine ⟨rfl, ?_⟩
          obtain ⟨hsince, hcurrent, -⟩ := hrelies
          have hsession : ∀ token ∈ presented, token.sessionId = current.sessionId := by
            intro token htoken
            obtain ⟨token', hget, hsame⟩ := hsince token htoken
            rw [hcurrent] at hget
            cases hget
            exact hsame.sessionId.symm
          unfold lockSession
          split
          next hnone => exact absurd hnone (h.families.belongs current (Table.get_mem hcurrent).1)
          next session hget =>
            split
            next hlive => exact ⟨hsince, hcurrent, hget, hlive⟩
            next hrevoked =>
              intro token htoken _
              rw [hsession token htoken]
              exact ⟨session, hget, hrevoked⟩
  | reset tokenHash now revokedAt =>
      cases choice with
      | row sessionId => cases hrun
      | next =>
          obtain ⟨phase, hreset, heq⟩ := Option.map_eq_some_iff.mp hrun
          cases heq
          refine ⟨rfl, ?_⟩
          unfold lockReset at hreset
          split at hreset
          next => cases hreset
          next =>
            split at hreset
            · cases hreset
              trivial
            · cases hreset
  | revoke revocation consumed =>
      cases choice with
      | row sessionId => cases hrun
      | next =>
          cases hrun
          exact ⟨rfl, trivial⟩
  | revoking revocation consumed todo locked =>
      cases choice with
      | next => cases hrun
      | row sessionId =>
          obtain ⟨phase, hrow, heq⟩ := Option.map_eq_some_iff.mp hrun
          cases heq
          refine ⟨rfl, ?_⟩
          unfold lockRow at hrow
          split at hrow
          · split at hrow
            · cases hrow
              trivial
            · cases hrow
              trivial
          · cases hrow
  | _ => cases hrun

theorem Relies.start (state : AuthState) (request : Request) :
    Relies state (Auth.start state request) := by
  cases request with
  | refresh request => exact fun token htoken => ⟨token, htoken, .refl token⟩
  | _ => trivial

theorem sound (settings : Settings) :
    (protocol settings).Sound (fun _ _ => True) Safe Relies where
  start state request _ := .start state request
  run state phase choice state' phase' h hrelies hrun := by
    obtain ⟨rfl, hrelies'⟩ := Relies.run h hrelies hrun
    exact ⟨h, hrelies'⟩
  run_stable state phase choice state' phase' other h hrelies hother hrun := by
    obtain ⟨rfl, -⟩ := Relies.run h hrelies hrun
    exact hother
  finish state phase state' h hrelies _ hfinish := h.finish hrelies hfinish
  finish_stable state phase state' other _ hrelies _ hother hfree hfinish :=
    hrelies.stable hother hfree hfinish

/-! ## Every interleaving -/

/-- The system before the first login. -/
def initial (resetTokens : Table PasswordResetToken.tokenHash) : Interleaved AuthState Phase :=
  Protocol.init ⟨.new resetTokens, []⟩

theorem safe_initial (resetTokens : Table PasswordResetToken.tokenHash) :
    Safe ⟨.new resetTokens, []⟩ :=
  ⟨⟨List.forall_mem_nil _, List.forall_mem_nil _⟩,
    ⟨List.forall_mem_nil _, List.nodup_nil, List.forall_mem_nil _⟩⟩

/-- The session is revoked, and the answers since `before` exchanged tokens of others. -/
def Ended (sessionId : Uuid) (before : List Answer) (state : AuthState) : Prop :=
  Revoked state.db sessionId ∧ ∃ more, state.answers = before ++ more ∧
    ∀ answer ∈ more, answer.exchanged →
      ∃ token ∈ state.db.tokens.get answer.request.tokenHash, token.sessionId ≠ sessionId

theorem Ended.finish {sessionId : Uuid} {before : List Answer} {phase : Phase}
    (h : Ended sessionId before state) (hrelies : Relies state phase)
    (hfinish : Auth.finish settings state phase = some state') :
    Ended sessionId before state' := by
  have hlater := finish_later hfinish
  obtain ⟨hrevoked, more, hanswers, hothers⟩ := h
  have hothers' : ∀ answer ∈ more, answer.exchanged →
      ∃ token ∈ state'.db.tokens.get answer.request.tokenHash, token.sessionId ≠ sessionId := by
    intro answer hanswer hexchanged
    obtain ⟨token, hget, hne⟩ := hothers answer hanswer hexchanged
    obtain ⟨token', hget', hsame⟩ := hlater.token _ token hget
    exact ⟨token', hget', by rwa [hsame.sessionId]⟩
  refine ⟨hlater.revoked hrevoked, ?_⟩
  -- A transaction answers at most one refresh.
  have hcases : state'.answers = state.answers ∨ ∃ answer,
      state'.answers = state.answers ++ [answer] ∧ (answer.exchanged →
        ∃ token ∈ state'.db.tokens.get answer.request.tokenHash, token.sessionId ≠ sessionId) := by
    cases phase with
    | opening request =>
        obtain ⟨db, -, rfl⟩ := Option.map_eq_some_iff.mp hfinish
        exact .inl rfl
    | sessionLocked request presented current session =>
        obtain ⟨-, hcurrent, hsession, hlive⟩ := hrelies
        have hne : current.sessionId ≠ sessionId := by
          rintro rfl
          obtain ⟨row, hget, hrow⟩ := hrevoked
          rw [hsession] at hget
          cases hget
          exact hrow hlive
        obtain ⟨token', hget', hsame⟩ := hlater.token _ current hcurrent
        simp only [Auth.finish, endRefresh] at hfinish
        split at hfinish
        · obtain ⟨db, -, rfl⟩ := Option.map_eq_some_iff.mp hfinish
          exact .inr ⟨_, rfl, fun _ => ⟨token', hget', by rwa [hsame.sessionId]⟩⟩
        · cases hfinish
          exact .inr ⟨_, rfl, nofun⟩
    | refused request presented error =>
        cases hfinish
        exact .inr ⟨_, rfl, nofun⟩
    | revoking revocation consumed todo locked =>
        cases todo with
        | nil =>
            cases hfinish
            cases consumed with
            | none => exact .inl rfl
            | some row => exact .inl rfl
        | cons id todo => cases hfinish
    | _ => cases hfinish
  rcases hcases with hsame | ⟨answer, hanswer, hother⟩
  · exact ⟨more, hsame.trans hanswers, hothers'⟩
  · refine ⟨more ++ [answer], by rw [hanswer, hanswers, List.append_assoc], ?_⟩
    intro answer' hanswer'
    rcases List.mem_append.mp hanswer' with hanswer' | hanswer'
    · exact hothers' answer' hanswer'
    · rw [List.mem_singleton.mp hanswer']
      exact hother

theorem sound_ended (settings : Settings) (sessionId : Uuid) (before : List Answer) :
    (protocol settings).Sound (fun _ _ => True)
      (fun state => Safe state ∧ Ended sessionId before state) Relies :=
  (sound settings).and
    (fun state phase choice state' phase' h hrelies hended hrun => by
      obtain ⟨rfl, -⟩ := Relies.run h hrelies hrun
      exact hended)
    fun state phase state' _ hrelies _ hended hfinish => hended.finish hrelies hfinish

/-- In every interleaving of logins, refreshes, logouts, password resets and password changes:
a live session has exactly one unused token; no token is exchanged twice; a request whose token
was used already fails, and one that fails with a token that has not expired leaves the session
revoked, also where it finds the token used and has still to commit; and once a session is
revoked no token of it is exchanged any more. -/
theorem refresh_families {settings : Settings} {resetTokens : Table PasswordResetToken.tokenHash}
    {s : Interleaved AuthState Phase} (h : (protocol settings).Reaches (initial resetTokens) s) :
    (∀ session ∈ s.committed.db.sessions.rows, session.revokedAt = none →
      (unused s.committed.db session.id).length = 1) ∧
    ((s.committed.answers.filter Answer.exchanged).map (·.request.tokenHash)).Nodup ∧
    (∀ answer ∈ s.committed.answers, ∀ token ∈ answer.presented,
      (token.usedAt ≠ none → answer.exchanged = false) ∧
        (answer.exchanged = false → answer.request.now < token.expiresAt →
          Revoked s.committed.db token.sessionId)) ∧
    (∀ t request presented current session,
      s.txs.get t = some (t, .sessionLocked request presented current session) →
      current.usedAt ≠ none → ∃ s', (protocol settings).step s (.finish t) = some s' ∧
        Revoked s'.committed.db current.sessionId ∧
        s'.committed.answers =
          s.committed.answers ++ [⟨request, presented, .error refreshReuseDetected⟩]) ∧
    ∀ sessionId, Revoked s.committed.db sessionId → ∀ s', (protocol settings).Reaches s s' →
      ∃ more, s'.committed.answers = s.committed.answers ++ more ∧
        ∀ answer ∈ more, answer.exchanged →
          ∃ token ∈ s'.committed.db.tokens.get answer.request.tokenHash,
            token.sessionId ≠ sessionId := by
  have hinv := (sound settings).runs h (.init (safe_initial resetTokens))
  have hanswered := hinv.committed.answered
  refine ⟨hinv.committed.families.single, hanswered.once, hanswered.presented, ?_, ?_⟩
  · intro t request presented current session htx hused
    obtain ⟨-, -, hsession, -⟩ := hinv.opened _ (Table.get_mem htx).1
    have hid : session.id = current.sessionId := (Table.get_mem hsession).2
    rw [← hid] at hsession ⊢
    refine ⟨⟨answer s.committed
      (s.committed.db.revoke [session.id] request.revokedAt "refresh_reuse_detected")
      request presented (.error refreshReuseDetected), s.txs.erase t⟩, ?_,
      revoked_revoke hsession (List.mem_singleton_self _), rfl⟩
    simp [Protocol.step, htx, protocol, Auth.finish, endRefresh, hused]
  · intro sessionId hrevoked s' hreaches
    have hended : (protocol settings).Inv
        (fun state => Safe state ∧ Ended sessionId s.committed.answers state) Relies s :=
      ⟨⟨hinv.committed, hrevoked, [], by simp, List.forall_mem_nil _⟩, hinv.opened, hinv.exclusive⟩
    exact ((sound_ended settings sessionId _).runs hreaches hended).committed.2.2

/-- A login, and two requests that present its token at once. -/
def doubleRefresh : List (TxAction Request Choice) :=
  [.begin 1 (.openSession ⟨1, 10, 20, "a", 0⟩), .finish 1,
   .begin 2 (.refresh ⟨"a", none, 21, "b", 1, 1⟩), .begin 3 (.refresh ⟨"a", none, 22, "c", 2, 2⟩),
   .run 2 .next, .run 2 .next, .finish 2, .run 3 .next, .run 3 .next, .finish 3]

/-- The first one exchanges the token, and the second one costs the session. -/
theorem refresh_families_double : ∃ s : Interleaved AuthState Phase,
    (protocol ⟨30⟩).Reaches (initial (.empty _)) s ∧
      s.committed.answers.map Answer.exchanged = [true, false] ∧
      ((s.committed.answers.filter Answer.exchanged).map (·.request.tokenHash)).Nodup ∧
      (s.committed.db.sessions.get 10).any (·.revokedReason = some "refresh_reuse_detected") := by
  have hsome : (doubleRefresh.foldlM (protocol ⟨30⟩).step (initial (.empty _))).isSome := by
    decide +kernel
  obtain ⟨s, hs⟩ := Option.isSome_iff_exists.mp hsome
  have hfacts : (doubleRefresh.foldlM (protocol ⟨30⟩).step (initial (.empty _))).all fun s =>
      s.committed.answers.map Answer.exchanged = [true, false] ∧
        (s.committed.db.sessions.get 10).any
          (·.revokedReason = some "refresh_reuse_detected") := by decide +kernel
  rw [hs, Option.all_some, decide_eq_true_eq] at hfacts
  have hreaches := Protocol.Reaches.of_foldlM doubleRefresh hs
  exact ⟨s, hreaches, hfacts.1, (refresh_families hreaches).2.1, hfacts.2⟩

end Nexora.Auth
