import Nexora.Auth.Sessions

/-!
# Logins and the lockout

`AuthService.login` of `app/modules/auth/service.py`, statement by statement.  An attempt reads
the row of the user without a lock, verifies the password, and writes the columns it has changed
when it commits.  A wrong password raises `failed_login_count` by one, and from the fifth on sets
`locked_until`.

`lockout_counts` says when the counter is right: every attempt that fails has to find the count
it read when it writes the next one.  Attempts that run at once all write the same count
(`parallel_guesses`).
-/

namespace Nexora.Auth

open Nexora Foundations

/-! ## Tables -/

/-- `User`.  The address is in lower case. -/
structure User where
  id : Uuid
  email : String
  passwordHash : String
  isActive : Bool
  lastLoginAt : Option Time
  failedLoginCount : Nat
  lockedUntil : Option Time
deriving DecidableEq

/-- `MfaCredential`. -/
structure MfaCredential where
  userId : Uuid
  secret : String
  enabledAt : Option Time
deriving DecidableEq

/-- `MfaRecoveryCode`. -/
structure MfaRecoveryCode where
  id : Uuid
  userId : Uuid
  codeHash : String
  usedAt : Option Time
deriving DecidableEq

/-- The tables of identities.  A membership is an active one: its user and its tenant. -/
structure IdentityDb where
  users : Table User.email
  memberships : List (Uuid × Uuid)
  credentials : Table MfaCredential.userId
  recoveryCodes : Table MfaRecoveryCode.codeHash
  auth : AuthDb

/-- What the backend takes from elsewhere: Argon2, TOTP, the digest of opaque tokens, and
`code.strip().lower()`. -/
structure Security where
  settings : Settings
  verifyPassword : String → String → Bool
  verifyTotp : String → String → Time → Bool
  hashOpaqueToken : String → String
  normalize : String → String

/-- `active_memberships`, as the tenants. -/
def IdentityDb.activeMemberships (db : IdentityDb) (userId : Uuid) : List Uuid :=
  (db.memberships.filter fun membership => membership.1 = userId).map Prod.snd

/-- `memberships[0][0].tenant_id if len(memberships) == 1 else None`. -/
def activeTenantId : List Uuid → Option Uuid
  | [tenantId] => some tenantId
  | _ => none

/-- `MfaService.is_enabled`. -/
def IdentityDb.mfaEnabled (db : IdentityDb) (userId : Uuid) : Bool :=
  (db.credentials.get userId).any fun credential => credential.enabledAt ≠ none

/-- The `UPDATE` of a flush: the columns of `user` that differ from the row as it was read. -/
def User.flush (read user row : User) : User :=
  { row with
    lastLoginAt := if user.lastLoginAt = read.lastLoginAt then row.lastLoginAt else user.lastLoginAt
    failedLoginCount :=
      if user.failedLoginCount = read.failedLoginCount then row.failedLoginCount
      else user.failedLoginCount
    lockedUntil := if user.lockedUntil = read.lockedUntil then row.lockedUntil else user.lockedUntil }

theorem User.flush_email (read user row : User) : (User.flush read user row).email = row.email := rfl

/-- The user is written back. -/
def IdentityDb.saveUser (db : IdentityDb) (read user : User) : IdentityDb :=
  { db with
    users := db.users.modifyAt read.email (User.flush read user) (User.flush_email read user) }

/-! ## Backoff -/

def failedAttemptsBeforeBackoff : Nat := 5

def lockoutBaseSeconds : Nat := 30

def lockoutMaxSeconds : Nat := 900

/-- The seconds of the lockout after so many failures. -/
def lockoutSeconds (failedLoginCount : Nat) : Nat :=
  min (lockoutBaseSeconds * 2 ^ (failedLoginCount - failedAttemptsBeforeBackoff)) lockoutMaxSeconds

/-- `_apply_backoff`, with whether it locks. -/
def User.applyBackoff (user : User) (now : Time) : User × Bool :=
  if user.failedLoginCount < failedAttemptsBeforeBackoff then (user, false)
  else
    ({ user with lockedUntil := some (now + lockoutSeconds user.failedLoginCount * 10 ^ 6) }, true)

/-- A wrong password: `user.failed_login_count += 1`, and the backoff. -/
def User.reject (user : User) (now : Time) : User × Bool :=
  { user with failedLoginCount := user.failedLoginCount + 1 }.applyBackoff now

/-- `user.locked_until is not None and user.locked_until > now`. -/
def User.locked (user : User) (now : Time) : Bool := user.lockedUntil.any fun limit => now < limit

theorem lockoutSeconds_pos (failedLoginCount : Nat) : 0 < lockoutSeconds failedLoginCount :=
  Nat.lt_min.mpr ⟨Nat.mul_pos (by decide) (Nat.two_pow_pos _), by decide⟩

theorem User.reject_failedLoginCount (user : User) (now : Time) :
    (user.reject now).1.failedLoginCount = user.failedLoginCount + 1 := by
  unfold reject applyBackoff
  split
  · rfl
  · rfl

/-- From the threshold on a failure locks beyond the present. -/
theorem User.reject_lockedUntil (user : User) (now : Time)
    (h : failedAttemptsBeforeBackoff ≤ user.failedLoginCount + 1) :
    ∃ limit, (user.reject now).1.lockedUntil = some limit ∧ now < limit := by
  unfold reject applyBackoff
  rw [if_neg (Nat.not_lt.mpr h)]
  refine ⟨_, rfl, Int.lt_add_of_pos_right now (Int.mul_pos ?_ (by decide))⟩
  exact Int.natCast_pos.mpr (lockoutSeconds_pos _)

namespace Login

/-! ## Requests -/

/-- `login`, with the time read from the clock and the identifiers it would draw. -/
structure Request where
  email : String
  password : String
  now : Time
  sessionId : Uuid
  tokenId : Uuid
  tokenHash : String
deriving DecidableEq

/-- What `login` returns. -/
inductive Outcome where
  /-- `Login`: the session and its active tenant. -/
  | login (sessionId : Uuid) (activeTenantId : Option Uuid)
  /-- `MfaChallengeRequired`. -/
  | mfaChallengeRequired (userId : Uuid)
deriving DecidableEq

def invalidCredentials : Err := .app ⟨"INVALID_CREDENTIALS", "Invalid email or password.", 401⟩

def accountLocked : Err := .app ⟨"ACCOUNT_LOCKED", "Account is temporarily locked.", 423⟩

/-- Where an attempt stands.  `read` is the row of the user as the attempt read it. -/
inductive Phase where
  | authenticate (request : Request)
  | secondFactor (request : Request) (read : User)
  | memberships (request : Request) (read : User)
  /-- An attempt that leaves the user as it is. -/
  | refuse (request : Request) (verified : Bool) (error : Err)
  /-- A wrong password. -/
  | reject (request : Request) (read : User)
  | challenge (request : Request) (read : User)
  | openSession (request : Request) (read : User) (tenants : List Uuid)
deriving DecidableEq

/-- What an attempt was answered, and whether it got as far as verifying the password. -/
structure Answer where
  request : Request
  verified : Bool
  outcome : Except Err Outcome

/-- The tables, and the answers so far. -/
structure State where
  db : IdentityDb
  answers : List Answer

/-! ## Statements -/

/-- `get_user_by_email`, with the checks on what it finds. -/
def authenticate (security : Security) (db : IdentityDb) (request : Request) : Phase :=
  match db.users.get request.email with
  | none => .refuse request false invalidCredentials
  | some user =>
      if user.locked request.now then .refuse request false accountLocked
      else if security.verifyPassword user.passwordHash request.password = false then
        .reject request user
      else if user.isActive = false then .refuse request true invalidCredentials
      else .secondFactor request user

/-- The next statement. -/
def run (security : Security) (state : State) : Phase → Unit → Option (State × Phase)
  | .authenticate request, _ => some (state, authenticate security state.db request)
  | .secondFactor request read, _ =>
      if state.db.mfaEnabled read.id then some (state, .challenge request read)
      else some (state, .memberships request read)
  | .memberships request read, _ =>
      some (state, .openSession request read (state.db.activeMemberships read.id))
  | _, _ => none

/-- A password that was right: `failed_login_count = 0` and `locked_until = None`. -/
def reset (user : User) : User := { user with failedLoginCount := 0, lockedUntil := none }

def answer (state : State) (db : IdentityDb) (request : Request) (verified : Bool)
    (outcome : Except Err Outcome) : State :=
  ⟨db, state.answers ++ [⟨request, verified, outcome⟩]⟩

/-- The commit.  A failure is raised after it. -/
def finish (security : Security) (state : State) : Phase → Option State
  | .refuse request verified error => some (answer state state.db request verified (.error error))
  | .reject request read =>
      let (user, locked) := read.reject request.now
      some (answer state (state.db.saveUser read user) request true
        (.error (if locked then accountLocked else invalidCredentials)))
  | .challenge request read =>
      some (answer state (state.db.saveUser read (reset read)) request true
        (.ok (.mfaChallengeRequired read.id)))
  | .openSession request read tenants => do
      let auth ← state.db.auth.openSession security.settings
        ⟨read.id, request.sessionId, request.tokenId, request.tokenHash, request.now⟩
      let user := { reset read with lastLoginAt := some request.now }
      some (answer state { state.db.saveUser read user with auth := auth } request true
        (.ok (.login request.sessionId (activeTenantId tenants))))
  | _ => none

/-- Login attempts.  No statement locks a row before the commit. -/
def protocol (security : Security) : Protocol State Request Phase Unit Uuid where
  start _ request := .authenticate request
  run := run security
  finish := finish security
  locks _ := []

/-! ## The count -/

/-- The attempts on an account that verified the password. -/
def verified (email : String) (state : State) : Nat :=
  state.answers.countP fun answer => answer.request.email = email ∧ answer.verified

/-- An attempt with a wrong password finds the count that it read, and no attempt has the right
one. -/
def Undisturbed (email : String) (state : State) : Phase → Prop
  | .reject request read => request.email = email →
      ∀ user ∈ state.db.users.get email, user.failedLoginCount = read.failedLoginCount
  | .refuse request verified _ => request.email = email → verified = false
  | .challenge request _ | .openSession request _ _ => request.email ≠ email
  | _ => True

instance (email : String) (state : State) (phase : Phase) :
    Decidable (Undisturbed email state phase) := by
  cases phase with
  | reject request read =>
      exact inferInstanceAs (Decidable (request.email = email → ∀ user ∈ state.db.users.get email, _))
  | refuse request verified error =>
      exact inferInstanceAs (Decidable (request.email = email → verified = false))
  | challenge request read => exact inferInstanceAs (Decidable (request.email ≠ email))
  | openSession request read tenants => exact inferInstanceAs (Decidable (request.email ≠ email))
  | _ => exact .isTrue trivial

/-- The count of an account that started from `c`. -/
def Counted (email : String) (c : Nat) (state : State) : Prop :=
  ∃ user ∈ state.db.users.get email, user.failedLoginCount = c + verified email state ∧
    (0 < verified email state → failedAttemptsBeforeBackoff ≤ user.failedLoginCount →
      user.lockedUntil ≠ none)

/-- An attempt has read the account it names, and fails only where it was not locked. -/
def Relies : Phase → Prop
  | .reject request read => read.email = request.email ∧ read.locked request.now = false
  | .secondFactor request read | .memberships request read | .challenge request read
  | .openSession request read _ => read.email = request.email
  | _ => True

variable {security : Security} {email : String} {c : Nat} {state state' : State}
  {request : Request} {read user : User}

theorem saveUser_get (db : IdentityDb) (read user : User) (email : String) :
    (db.saveUser read user).users.get email =
      if email = read.email then (db.users.get email).map (User.flush read user)
      else db.users.get email := by
  rw [IdentityDb.saveUser, Table.get_modifyAt]

theorem verified_answer (db : IdentityDb) (verified' : Bool) (outcome : Except Err Outcome) :
    verified email (answer state db request verified' outcome) =
      verified email state + if request.email = email ∧ verified' then 1 else 0 := by
  simp [verified, answer, List.countP_append, List.countP_cons]

/-- An attempt that changes nothing of the account and counts for nothing. -/
theorem Counted.answer {db : IdentityDb} {verified' : Bool} {outcome : Except Err Outcome}
    (h : Counted email c state) (hget : db.users.get email = state.db.users.get email)
    (hother : request.email = email → verified' = false) :
    Counted email c (answer state db request verified' outcome) := by
  have hverified : verified email (Login.answer state db request verified' outcome) = _ :=
    verified_answer db verified' outcome
  rw [if_neg fun hboth => by simp [hother hboth.1] at hboth, Nat.add_zero] at hverified
  obtain ⟨user, huser, hcount⟩ := h
  refine ⟨user, hget.trans huser, ?_⟩
  rwa [hverified]

/-- A failure that finds the count it read raises it by one, and locks from the threshold on. -/
theorem Counted.reject {outcome : Except Err Outcome} (h : Counted email c state)
    (hread : read.email = email) (hlocked : read.locked request.now = false)
    (hrequest : request.email = email)
    (hsame : ∀ user ∈ state.db.users.get email, user.failedLoginCount = read.failedLoginCount) :
    Counted email c (Login.answer state (state.db.saveUser read (read.reject request.now).1) request
      true outcome) := by
  obtain ⟨user, huser, hcount, -⟩ := h
  have hget : state.db.users.get email = some user := huser
  have hcount' := (read.reject_failedLoginCount request.now)
  refine ⟨User.flush read (read.reject request.now).1 user, ?_, ?_, fun _ hthreshold => ?_⟩
  · show (state.db.saveUser _ _).users.get email = _
    rw [saveUser_get, if_pos hread.symm, hget, Option.map_some]
  · show (if _ then _ else _) = _
    rw [if_neg (by omega), hcount', verified_answer, if_pos ⟨hrequest, rfl⟩, ← hsame user huser]
    omega
  · have hcount'' : (User.flush read (read.reject request.now).1 user).failedLoginCount =
        read.failedLoginCount + 1 := by
      show (if _ then _ else _) = _
      rw [if_neg (by omega), hcount']
    rw [hcount''] at hthreshold
    obtain ⟨limit, hlimit, hnow⟩ := read.reject_lockedUntil request.now hthreshold
    show (if _ then _ else _) ≠ _
    -- The row it read had no limit in the future, so the new one is another.
    rw [if_neg, hlimit]
    · exact Option.some_ne_none limit
    · intro heq
      rw [User.locked, ← heq, hlimit, Option.any_some, decide_eq_false_iff_not] at hlocked
      exact hlocked hnow

theorem Counted.finish {phase : Phase} (h : Counted email c state) (hrelies : Relies phase)
    (hundisturbed : Undisturbed email state phase)
    (hfinish : finish security state phase = some state') : Counted email c state' := by
  -- An attempt on another account does not come to this row.
  have hsave : ∀ {read : User} (user : User), read.email ≠ email →
      (state.db.saveUser read user).users.get email = state.db.users.get email := by
    intro read user hne
    rw [saveUser_get, if_neg hne.symm]
  cases phase with
  | refuse request verified error =>
      cases hfinish
      exact h.answer rfl hundisturbed
  | reject request read =>
      obtain ⟨hread, hlocked⟩ := hrelies
      cases hfinish
      by_cases hemail : request.email = email
      · exact h.reject (hread.trans hemail) hlocked hemail (hundisturbed hemail)
      · exact h.answer (hsave _ (hread ▸ hemail)) fun heq => absurd heq hemail
  | challenge request read =>
      cases hfinish
      have hread : read.email = request.email := hrelies
      exact h.answer (hsave _ (hread ▸ hundisturbed)) fun heq => absurd heq hundisturbed
  | openSession request read tenants =>
      obtain ⟨auth, -, hfinish⟩ := Option.bind_eq_some_iff.mp hfinish
      cases hfinish
      have hread : read.email = request.email := hrelies
      refine h.answer ?_ fun heq => absurd heq hundisturbed
      exact hsave { reset read with lastLoginAt := some request.now } (hread ▸ hundisturbed)
  | _ => cases hfinish

theorem Relies.run {phase phase' : Phase} (h : Relies phase)
    (hrun : run security state phase () = some (state', phase')) : state' = state ∧ Relies phase' := by
  cases phase with
  | authenticate request =>
      cases hrun
      refine ⟨rfl, ?_⟩
      unfold authenticate
      split
      next => exact trivial
      next user huser =>
        have hemail : user.email = request.email := (Table.get_mem huser).2
        split
        next => exact trivial
        next hlocked =>
          split
          · exact ⟨hemail, by simpa using hlocked⟩
          · split
            · exact trivial
            · exact hemail
  | secondFactor request read =>
      simp only [Login.run] at hrun
      split at hrun
      · cases hrun
        exact ⟨rfl, h⟩
      · cases hrun
        exact ⟨rfl, h⟩
  | memberships request read =>
      cases hrun
      exact ⟨rfl, h⟩
  | _ => cases hrun

theorem sound (security : Security) (email : String) (c : Nat) :
    (protocol security).Sound (Undisturbed email) (Counted email c) fun _ => Relies where
  start _ _ _ := trivial
  run state phase _ state' phase' h hrelies hrun := by
    obtain ⟨rfl, hrelies⟩ := Relies.run hrelies hrun
    exact ⟨h, hrelies⟩
  run_stable _ _ _ _ _ _ _ _ hother _ := hother
  finish _ _ _ h hrelies hundisturbed hfinish := h.finish hrelies hundisturbed hfinish
  finish_stable _ _ _ _ _ _ _ hother _ _ := hother

/-- In every interleaving of login attempts in which each attempt on an account fails, and finds
at its commit the count that it read, the count of the account has gone up by the number of
attempts that verified the password, and from the threshold on the account has a limit. -/
theorem lockout_counts {security : Security} {db : IdentityDb} {user : User}
    (huser : db.users.get user.email = some user) {s : Interleaved State Phase}
    (h : (protocol security).Runs (Undisturbed user.email) (Protocol.init ⟨db, []⟩) s) :
    ∃ user' ∈ s.committed.db.users.get user.email,
      user'.failedLoginCount = user.failedLoginCount + verified user.email s.committed ∧
        (0 < verified user.email s.committed →
          failedAttemptsBeforeBackoff ≤ user'.failedLoginCount → user'.lockedUntil ≠ none) := by
  have hstart : Counted user.email user.failedLoginCount ⟨db, []⟩ :=
    ⟨user, huser, rfl, fun hpos => absurd hpos (Nat.lt_irrefl 0)⟩
  exact ((sound security user.email user.failedLoginCount).runs h (.init hstart)).committed

/-! ## Guesses one after the other, and at once -/

/-- An account with the password `"right"`. -/
def account : User := ⟨1, "a@b.c", "right", true, none, 0, none⟩

def oneAccount : IdentityDb :=
  { users := ⟨[account], List.nodup_singleton _⟩
    memberships := []
    credentials := .empty _
    recoveryCodes := .empty _
    auth := .new (.empty _) }

/-- Passwords are stored as they are. -/
def plain : Security := ⟨⟨30⟩, fun hash password => hash = password, fun _ _ _ => false, id, id⟩

/-- A wrong password. -/
def guess (n : Nat) : Request := ⟨"a@b.c", "wrong", n, n, n, ""⟩

/-- Five guesses, each after the one before it. -/
def guessesInTurn : List (TxAction Request Unit) :=
  [1, 2, 3, 4, 5].flatMap fun n => [.begin n (guess n), .run n (), .finish n]

/-- Five guesses that all read the account before the first of them commits. -/
def guessesAtOnce : List (TxAction Request Unit) :=
  ([1, 2, 3, 4, 5].flatMap fun n => [.begin n (guess n), .run n ()]) ++
    [1, 2, 3, 4, 5].map .finish

/-- One after the other they are all counted, and the account is locked. -/
theorem lockout_counts_inTurn : ∃ s : Interleaved State Phase,
    (protocol plain).Runs (Undisturbed account.email) (Protocol.init ⟨oneAccount, []⟩) s ∧
      verified account.email s.committed = 5 ∧
      ∃ user' ∈ s.committed.db.users.get account.email,
        user'.failedLoginCount = account.failedLoginCount + verified account.email s.committed ∧
          (0 < verified account.email s.committed →
            failedAttemptsBeforeBackoff ≤ user'.failedLoginCount → user'.lockedUntil ≠ none) := by
  have hfacts : (guessesInTurn.foldlM ((protocol plain).guarded (Undisturbed account.email))
      (Protocol.init ⟨oneAccount, []⟩)).any fun s => verified account.email s.committed = 5 := by
    decide +kernel
  obtain ⟨s, hruns, hverified⟩ := Protocol.Runs.exists_of_any guessesInTurn hfacts
  exact ⟨s, hruns, hverified, lockout_counts (by decide) hruns⟩

/-- At once they count as one, and the account is not locked after five wrong passwords. -/
theorem parallel_guesses : ∃ s : Interleaved State Phase,
    (protocol plain).Reaches (Protocol.init ⟨oneAccount, []⟩) s ∧ s.txs.rows = [] ∧
      (∀ answer ∈ s.committed.answers,
        plain.verifyPassword account.passwordHash answer.request.password = false) ∧
      verified account.email s.committed = 5 ∧
      (s.committed.db.users.get account.email).map
        (fun user => (user.failedLoginCount, user.lockedUntil)) = some (1, none) ∧
      (s.committed.db.users.get account.email).map User.failedLoginCount ≠
        some (account.failedLoginCount + verified account.email s.committed) := by
  have hfacts : (guessesAtOnce.foldlM (protocol plain).step
      (Protocol.init ⟨oneAccount, []⟩)).any fun s => s.txs.rows = [] ∧
        (∀ answer ∈ s.committed.answers,
          plain.verifyPassword account.passwordHash answer.request.password = false) ∧
        verified account.email s.committed = 5 ∧
        (s.committed.db.users.get account.email).map
          (fun user => (user.failedLoginCount, user.lockedUntil)) = some (1, none) ∧
        (s.committed.db.users.get account.email).map User.failedLoginCount ≠
          some (account.failedLoginCount + verified account.email s.committed) := by
    decide +kernel
  exact Protocol.Reaches.exists_of_any guessesAtOnce hfacts

end Login

end Nexora.Auth
