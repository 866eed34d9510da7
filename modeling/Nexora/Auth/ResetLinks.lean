import Nexora.Auth.Login
import Nexora.Foundations.RowServices

/-!
# Reset links

`issue_password_reset`, `reset_password` and `change_password` of `app/modules/auth/service.py`, statement by
statement.  A link is the token that is mailed to an address.  A new one marks those that the user has as used:
the `UPDATE` looks for them, and then comes to their rows one after another.  What else becomes of a password
change, the revoked sessions, is in `Auth/Sessions`.

A link sets one password, that of the user it was mailed to, and no password is set otherwise but by someone
who knew the one before (`resets_sound`).  A mail retires the links that were there when it was begun: none of
them sets a password again (`newest_link`).
-/

namespace Nexora.Auth.ResetLinks

open Nexora Foundations

/-! ## Tables -/

/-- `OutboxEvent` of a `password_reset` mail: `to`, and the token. -/
structure Mail where
  address : String
  tokenHash : String
deriving DecidableEq

/-- A reset that went through. -/
structure Redeemed where
  tokenHash : String
  userId : Uuid
  passwordHash : String
deriving DecidableEq

/-- A change of a password that went through, with what was stored before, and what was given for it. -/
structure Changed where
  userId : Uuid
  storedHash : String
  currentPassword : String
  passwordHash : String
deriving DecidableEq

/-- The tables, and what was done. -/
structure State where
  users : Table User.id
  links : Table PasswordResetToken.tokenHash
  mails : List Mail
  redeemed : List Redeemed
  changed : List Changed

/-- Users who have been mailed nothing. -/
def State.start (users : Table User.id) : State := ⟨users, .empty _, [], [], []⟩

/-- `get_user_by_email`. -/
def State.userByEmail (state : State) (email : String) : Option User :=
  state.users.rows.find? (·.email = email)

/-- The links of a user with `used_at IS NULL`. -/
def State.outstanding (state : State) (userId : Uuid) : List String :=
  (state.links.rows.filter fun link => link.userId = userId ∧ link.usedAt = none).map (·.tokenHash)

/-- `user.password_hash`, with the other columns of `user` that differ from the row as it was read. -/
def User.flushPassword (read user : User) (passwordHash : String) (row : User) : User :=
  { User.flush read user row with passwordHash := passwordHash }

/-- `user.password_hash = …`, and what else a request has set. -/
def State.setPassword (state : State) (read user : User) (passwordHash : String) : State :=
  { state with
    users := state.users.modifyAt read.id (User.flushPassword read user passwordHash) fun _ => rfl }

/-- `token.used_at = now`. -/
def State.useLinks (state : State) (hashes : List String) (now : Time) : State :=
  { state with
    links := state.links.modify
      (fun link => if link.tokenHash ∈ hashes then { link with usedAt := some now } else link)
      fun link => by split <;> rfl }

/-! ## Requests -/

inductive Request where
  /-- `issue_password_reset`, of an address in lower case, with the token that it draws. -/
  | issue (email tokenHash : String) (now : Time)
  /-- `reset_password`. -/
  | reset (tokenHash passwordHash : String) (now : Time)
  /-- `change_password`. -/
  | change (userId : Uuid) (currentPassword passwordHash : String)

/-- What comes next of a request. -/
inductive Phase where
  | begun (request : Request)
  /-- The `UPDATE`: the links that it has found, those that it has still to come to, and those whose rows it
  holds. -/
  | retiring (user : User) (tokenHash : String) (now : Time) (seen todo locked : List String)
  /-- The link is good, and its row is held. -/
  | presented (link : PasswordResetToken) (passwordHash : String) (now : Time)
  | resetting (link : PasswordResetToken) (user : User) (passwordHash : String) (now : Time)
  /-- The password is right. -/
  | changing (user : User) (currentPassword passwordHash : String)
  /-- Nothing to write: the address is unknown, or the request has raised. -/
  | refused

/-- The order of the rows of an `UPDATE` is open. -/
inductive Choice where
  | next
  | row (tokenHash : String)

def beginRequest (security : Security) (state : State) : Request → Phase
  | .issue email tokenHash now =>
      match state.userByEmail email with
      | none => .refused
      | some user =>
          .retiring user tokenHash now (state.outstanding user.id) (state.outstanding user.id) []
  | .reset tokenHash passwordHash now =>
      match state.links.get tokenHash with
      | none => .refused
      | some link =>
          if link.usedAt = none ∧ now < link.expiresAt then .presented link passwordHash now else .refused
  | .change userId currentPassword passwordHash =>
      match state.users.get userId with
      | none => .refused
      | some user =>
          if security.verifyPassword user.passwordHash currentPassword then
            .changing user currentPassword passwordHash
          else .refused

/-- The `UPDATE` comes to a row: it checks its condition again, on the row as it now is. -/
def State.lockLink (state : State) (userId : Uuid) (tokenHash : String) : Bool :=
  (state.links.get tokenHash).any fun link => link.userId = userId ∧ link.usedAt = none

/-- The next statement. -/
def run (security : Security) (state : State) : Phase → Choice → Option (State × Phase)
  | .begun request, .next => some (state, beginRequest security state request)
  | .retiring user tokenHash now seen todo locked, .row hash =>
      if hash ∈ todo then
        if state.lockLink user.id hash then
          some (state, .retiring user tokenHash now seen (todo.erase hash) (hash :: locked))
        else some (state, .retiring user tokenHash now seen (todo.erase hash) locked)
      else none
  | .presented link passwordHash now, .next =>
      match state.users.get link.userId with
      | none => some (state, .refused)
      | some user => some (state, .resetting link user passwordHash now)
  | _, _ => none

/-- The end of a request.  `expiry` is `password_reset_expire_hours`. -/
def finish (expiry : Time) (state : State) : Phase → Option State
  | .retiring user tokenHash now _ todo locked =>
      if todo = [] then
        match (state.useLinks locked now).links.insert ⟨user.id, tokenHash, now + expiry, none⟩ with
        -- The digest of a token is unique: the request raises.
        | none => some state
        | some links =>
            some { state with links := links, mails := state.mails ++ [⟨user.email, tokenHash⟩] }
      else none
  | .resetting link user passwordHash now =>
      some
        { (state.useLinks [link.tokenHash] now).setPassword user (Login.reset user) passwordHash with
          redeemed := state.redeemed ++ [⟨link.tokenHash, user.id, passwordHash⟩] }
  | .changing user currentPassword passwordHash =>
      some
        { state.setPassword user user passwordHash with
          changed := state.changed ++ [⟨user.id, user.passwordHash, currentPassword, passwordHash⟩] }
  | .refused => some state
  | _ => none

/-- The rows of links that a phase holds. -/
def Phase.locked : Phase → List String
  | .retiring _ _ _ _ _ locked => locked
  | .presented link _ _ | .resetting link _ _ _ => [link.tokenHash]
  | _ => []

def protocol (security : Security) (expiry : Time) : Protocol State Request Phase Choice String where
  start _ := .begun
  run := run security
  finish := finish expiry
  locks phase := phase.locked.map (·, .update)

variable {security : Security} {expiry : Time} {users : Table User.id} {state state' : State}
  {phase : Phase}

/-! ## What a request does -/

/-- What the end of a request makes of the state. -/
inductive Finished (expiry : Time) (state : State) : Phase → State → Prop
  | same (phase : Phase) : Finished expiry state phase state
  | mailed {user : User} {tokenHash : String} {now : Time} {seen locked : List String}
      {links : Table PasswordResetToken.tokenHash}
      (hinsert : (state.useLinks locked now).links.insert ⟨user.id, tokenHash, now + expiry, none⟩ =
        some links) :
      Finished expiry state (.retiring user tokenHash now seen [] locked)
        { state with links := links, mails := state.mails ++ [⟨user.email, tokenHash⟩] }
  | reset (link : PasswordResetToken) (user : User) (passwordHash : String) (now : Time) :
      Finished expiry state (.resetting link user passwordHash now)
        { (state.useLinks [link.tokenHash] now).setPassword user (Login.reset user) passwordHash with
          redeemed := state.redeemed ++ [⟨link.tokenHash, user.id, passwordHash⟩] }
  | changed (user : User) (currentPassword passwordHash : String) :
      Finished expiry state (.changing user currentPassword passwordHash)
        { state.setPassword user user passwordHash with
          changed := state.changed ++ [⟨user.id, user.passwordHash, currentPassword, passwordHash⟩] }

theorem finish_cases (h : finish expiry state phase = some state') : Finished expiry state phase state' := by
  unfold finish at h
  split at h
  next user tokenHash now seen todo locked =>
    split at h
    next htodo =>
      subst htodo
      split at h
      next =>
        cases h
        exact .same _
      next hinsert =>
        cases h
        exact .mailed hinsert
    next => cases h
  next =>
    cases h
    exact .reset ..
  next =>
    cases h
    exact .changed ..
  next =>
    cases h
    exact .same _
  next => cases h

theorem run_committed {next : Phase} {choice : Choice}
    (h : run security state phase choice = some (state', next)) :
    state' = state := by
  unfold run at h
  split at h
  next => exact (Prod.mk.inj (Option.some.inj h)).1.symm
  next =>
    split at h
    next =>
      split at h
      next => exact (Prod.mk.inj (Option.some.inj h)).1.symm
      next => exact (Prod.mk.inj (Option.some.inj h)).1.symm
    next => cases h
  next =>
    split at h
    next => exact (Prod.mk.inj (Option.some.inj h)).1.symm
    next => exact (Prod.mk.inj (Option.some.inj h)).1.symm
  next => cases h

/-- A link belongs to its user, and stays used. -/
structure LinkBecomes (link link' : PasswordResetToken) : Prop where
  userId : link'.userId = link.userId
  used : link.usedAt ≠ none → link'.usedAt ≠ none

theorem LinkBecomes.refl (link : PasswordResetToken) : LinkBecomes link link := ⟨rfl, id⟩

theorem LinkBecomes.trans {l l' l'' : PasswordResetToken} (h : LinkBecomes l l') (h' : LinkBecomes l' l'') :
    LinkBecomes l l'' :=
  ⟨h'.userId.trans h.userId, fun hused => h'.used (h.used hused)⟩

/-- A later state: users keep their address. -/
structure State.Follows (state state' : State) : Prop where
  users : Table.Later (fun user user' => user'.email = user.email) state.users state'.users
  links : Table.Later LinkBecomes state.links state'.links
  mails : state.mails ⊆ state'.mails
  redeemed : state.redeemed ⊆ state'.redeemed
  changed : state.changed ⊆ state'.changed

theorem State.useLinks_later (state : State) (hashes : List String) (now : Time) :
    Table.Later LinkBecomes state.links (state.useLinks hashes now).links := by
  refine .modify (fun link => by split <;> rfl) fun link => ?_
  split
  · exact ⟨rfl, fun _ => Option.some_ne_none _⟩
  · exact .refl link

theorem State.setPassword_later (state : State) (read user : User) (passwordHash : String) :
    Table.Later (fun user user' => user'.email = user.email) state.users
      (state.setPassword read user passwordHash).users := by
  refine .modify (fun row => by split <;> rfl) fun row => ?_
  split <;> rfl

theorem Finished.follows (h : Finished expiry state phase state') : state.Follows state' := by
  have husers : Table.Later (fun user user' => user'.email = user.email) state.users state.users :=
    .refl (fun user => (rfl : user.email = user.email)) _
  have hlinks : Table.Later LinkBecomes state.links state.links := .refl LinkBecomes.refl _
  have hmails := List.Subset.refl state.mails
  have hredeemed := List.Subset.refl state.redeemed
  have hchanged := List.Subset.refl state.changed
  cases h with
  | same => exact ⟨husers, hlinks, hmails, hredeemed, hchanged⟩
  | mailed hinsert =>
      have hlater := Table.Later.insert LinkBecomes.refl hinsert
      exact ⟨husers, .trans LinkBecomes.trans (state.useLinks_later _ _) hlater,
        List.subset_append_left .., hredeemed, hchanged⟩
  | reset link user passwordHash now =>
      exact ⟨state.setPassword_later _ _ _, state.useLinks_later _ _, hmails,
        List.subset_append_left .., hchanged⟩
  | changed user currentPassword passwordHash =>
      exact ⟨state.setPassword_later _ _ _, hlinks, hmails, hredeemed, List.subset_append_left ..⟩

/-- The link was used. -/
def State.Used (state : State) (tokenHash : String) : Prop :=
  ∃ link, state.links.get tokenHash = some link ∧ link.usedAt ≠ none

theorem State.Follows.used (h : state.Follows state') {tokenHash : String} (hused : state.Used tokenHash) :
    state'.Used tokenHash := by
  obtain ⟨link, hget, hlink⟩ := hused
  obtain ⟨link', hget', hbecomes⟩ := h.links _ link hget
  exact ⟨link', hget', hbecomes.used hlink⟩

/-- A row that is not held is left as it is. -/
theorem Finished.frame (h : Finished expiry state phase state') {tokenHash : String}
    (hfree : tokenHash ∉ phase.locked) {link : PasswordResetToken}
    (hget : state.links.get tokenHash = some link) : state'.links.get tokenHash = some link := by
  have huse (hashes : List String) (now : Time) (hfree : tokenHash ∉ hashes) :
      (state.useLinks hashes now).links.get tokenHash = some link := by
    rw [State.useLinks, Table.get_modify, hget, Option.map_some, if_neg]
    rwa [(Table.get_mem hget).2]
  cases h with
  | same => exact hget
  | @mailed user token now seen locked links hinsert =>
      have hused := huse locked now hfree
      exact (Table.get_insert_of_some hinsert (by rw [hused]; rfl)).trans hused
  | reset link' user passwordHash now => exact huse _ now hfree
  | changed => exact hget

/-! ## Passwords -/

/-- A password that the user had from the start, or that a link or someone who knew the one before has set. -/
def State.Accounts (state : State) (users : Table User.id) (userId : Uuid) (passwordHash : String) : Prop :=
  (∃ user ∈ users.get userId, user.passwordHash = passwordHash) ∨
    (∃ reset ∈ state.redeemed, reset.userId = userId ∧ reset.passwordHash = passwordHash) ∨
      ∃ change ∈ state.changed, change.userId = userId ∧ change.passwordHash = passwordHash

theorem State.Accounts.mono {userId : Uuid} {passwordHash : String}
    (h : state.Accounts users userId passwordHash) (hfollows : state.Follows state') :
    state'.Accounts users userId passwordHash := by
  rcases h with h | ⟨reset, hreset, h⟩ | ⟨change, hchange, h⟩
  · exact .inl h
  · exact .inr (.inl ⟨reset, hfollows.redeemed hreset, h⟩)
  · exact .inr (.inr ⟨change, hfollows.changed hchange, h⟩)

structure Sound (security : Security) (users : Table User.id) (state : State) : Prop where
  /-- A link sets one password. -/
  single : (state.redeemed.map (·.tokenHash)).Nodup
  /-- It is the password of the user of the link, which is used from then on. -/
  redeemed : ∀ reset ∈ state.redeemed, ∃ link, state.links.get reset.tokenHash = some link ∧
    link.usedAt ≠ none ∧ link.userId = reset.userId
  /-- A link was mailed to the address of its user, and to no other. -/
  mailed : ∀ link ∈ state.links.rows, ∃ user, state.users.get link.userId = some user ∧
    ⟨user.email, link.tokenHash⟩ ∈ state.mails
  addressed : ∀ mail ∈ state.mails, ∃ link user, state.links.get mail.tokenHash = some link ∧
    state.users.get link.userId = some user ∧ mail.address = user.email
  /-- Who has changed a password knew one that the user had. -/
  changed : ∀ change ∈ state.changed,
    security.verifyPassword change.storedHash change.currentPassword = true ∧
      state.Accounts users change.userId change.storedHash
  passwords : ∀ user ∈ state.users.rows, state.Accounts users user.id user.passwordHash

/-- What an open request relies on. -/
def Relies (security : Security) (users : Table User.id) (state : State) : Phase → Prop
  | .retiring user _ _ _ _ _ => ∃ row, state.users.get user.id = some row ∧ row.email = user.email
  | .presented link _ _ => state.links.get link.tokenHash = some link ∧ link.usedAt = none
  | .resetting link user _ _ =>
      state.links.get link.tokenHash = some link ∧ link.usedAt = none ∧ user.id = link.userId
  | .changing user currentPassword _ =>
      security.verifyPassword user.passwordHash currentPassword = true ∧
        state.Accounts users user.id user.passwordHash
  | .begun _ | .refused => True

theorem Relies.run {next : Phase} {choice : Choice} (h : Sound security users state)
    (hrelies : Relies security users state phase)
    (hrun : run security state phase choice = some (state', next)) :
    Relies security users state next := by
  unfold ResetLinks.run at hrun
  split at hrun
  next request =>
    cases hrun
    cases request with
    | issue email tokenHash now =>
        simp only [beginRequest]
        split
        next => trivial
        next user huser => exact ⟨user, Table.get_eq_some.mpr ⟨List.mem_of_find?_eq_some huser, rfl⟩, rfl⟩
    | reset tokenHash passwordHash now =>
        simp only [beginRequest]
        split
        next => trivial
        next link hlink =>
          split
          next hgood => exact ⟨Table.get_self hlink, hgood.1⟩
          next => trivial
    | change userId currentPassword passwordHash =>
        simp only [beginRequest]
        split
        next => trivial
        next user huser =>
          split
          next hright => exact ⟨hright, h.passwords user (Table.get_mem huser).1⟩
          next => trivial
  next =>
    split at hrun
    next =>
      split at hrun
      next =>
        cases hrun
        exact hrelies
      next =>
        cases hrun
        exact hrelies
    next => cases hrun
  next link passwordHash now =>
    split at hrun
    next =>
      cases hrun
      trivial
    next user huser =>
      cases hrun
      exact ⟨hrelies.1, hrelies.2, (Table.get_mem huser).2⟩
  next => cases hrun

theorem Relies.stable {other : Phase} (h : Relies security users state other)
    (hfree : locksConflict ((protocol security expiry).locks other)
      ((protocol security expiry).locks phase) = false)
    (hfinished : Finished expiry state phase state') : Relies security users state' other := by
  have hfollows := hfinished.follows
  have hkept {link : PasswordResetToken} (hlocked : link.tokenHash ∈ other.locked)
      (hget : state.links.get link.tokenHash = some link) :
      state'.links.get link.tokenHash = some link := by
    refine hfinished.frame (fun hmem => ?_) hget
    refine notMem_of_update hfree (List.mem_map.mpr ⟨_, hlocked, rfl⟩) ?_
    rw [List.mem_map]
    exact ⟨_, List.mem_map.mpr ⟨_, hmem, rfl⟩, rfl⟩
  cases other with
  | begun | refused => trivial
  | retiring user tokenHash now seen todo locked =>
      obtain ⟨row, hget, hemail⟩ := h
      obtain ⟨row', hget', hemail'⟩ := hfollows.users _ row hget
      exact ⟨row', hget', hemail'.trans hemail⟩
  | presented link passwordHash now => exact ⟨hkept (List.mem_singleton_self _) h.1, h.2⟩
  | resetting link user passwordHash now => exact ⟨hkept (List.mem_singleton_self _) h.1, h.2⟩
  | changing user currentPassword passwordHash => exact ⟨h.1, h.2.mono hfollows⟩

/-! ## The end of a request -/

theorem State.useLinks_rows {hashes : List String} {now : Time} {link' : PasswordResetToken}
    (h : link' ∈ (state.useLinks hashes now).links.rows) :
    ∃ link ∈ state.links.rows, link'.userId = link.userId ∧ link'.tokenHash = link.tokenHash := by
  obtain ⟨link, hlink, rfl⟩ := List.mem_map.mp h
  refine ⟨link, hlink, ?_⟩
  split <;> exact ⟨rfl, rfl⟩

theorem State.setPassword_rows {read user row' : User} {passwordHash : String}
    (h : row' ∈ (state.setPassword read user passwordHash).users.rows) :
    row' ∈ state.users.rows ∨ row'.id = read.id ∧ row'.passwordHash = passwordHash := by
  obtain ⟨row, hrow, rfl⟩ := List.mem_map.mp h
  split
  next hid => exact .inr ⟨hid, rfl⟩
  next => exact .inl hrow

theorem Sound.redeemed_follows (h : Sound security users state) (hfollows : state.Follows state') :
    ∀ reset ∈ state.redeemed, ∃ link, state'.links.get reset.tokenHash = some link ∧
      link.usedAt ≠ none ∧ link.userId = reset.userId := by
  intro reset hreset
  obtain ⟨link, hget, hused, huser⟩ := h.redeemed reset hreset
  obtain ⟨link', hget', hbecomes⟩ := hfollows.links _ link hget
  exact ⟨link', hget', hbecomes.used hused, hbecomes.userId.trans huser⟩

theorem Sound.changed_follows (h : Sound security users state) (hfollows : state.Follows state') :
    ∀ change ∈ state.changed, security.verifyPassword change.storedHash change.currentPassword = true ∧
      state'.Accounts users change.userId change.storedHash :=
  fun change hchange => ⟨(h.changed change hchange).1, (h.changed change hchange).2.mono hfollows⟩

theorem Sound.addressed_follows (h : Sound security users state) (hfollows : state.Follows state') :
    ∀ mail ∈ state.mails, ∃ link user, state'.links.get mail.tokenHash = some link ∧
      state'.users.get link.userId = some user ∧ mail.address = user.email := by
  intro mail hmail
  obtain ⟨link, user, hlink, huser, haddress⟩ := h.addressed mail hmail
  obtain ⟨link', hlink', hbecomes⟩ := hfollows.links _ link hlink
  obtain ⟨user', huser', hemail⟩ := hfollows.users _ user huser
  exact ⟨link', user', hlink', by rwa [hbecomes.userId], haddress.trans hemail.symm⟩

/-- The links that there were are those of the users that they were mailed to. -/
theorem Sound.mailed_follows (h : Sound security users state) (hfollows : state.Follows state')
    {link' : PasswordResetToken} (hlink' : ∃ link ∈ state.links.rows,
      link'.userId = link.userId ∧ link'.tokenHash = link.tokenHash) :
    ∃ user, state'.users.get link'.userId = some user ∧
      ⟨user.email, link'.tokenHash⟩ ∈ state'.mails := by
  obtain ⟨link, hlink, huserId, htokenHash⟩ := hlink'
  obtain ⟨user, hget, hmail⟩ := h.mailed link hlink
  obtain ⟨user', hget', hemail⟩ := hfollows.users _ user hget
  rw [huserId, htokenHash]
  exact ⟨user', hget', hfollows.mails (by rwa [hemail])⟩

theorem Sound.passwords_follows (h : Sound security users state) (hfollows : state.Follows state') :
    ∀ user ∈ state.users.rows, state'.Accounts users user.id user.passwordHash :=
  fun user huser => (h.passwords user huser).mono hfollows

theorem Sound.finish (h : Sound security users state) (hrelies : Relies security users state phase)
    (hfinished : Finished expiry state phase state') : Sound security users state' := by
  have hfollows := hfinished.follows
  have hredeemed := h.redeemed_follows hfollows
  have hchanged := h.changed_follows hfollows
  have haddressed := h.addressed_follows hfollows
  have hpasswords := h.passwords_follows hfollows
  cases hfinished with
  | same => exact h
  | @mailed user tokenHash now seen locked links hinsert =>
      obtain ⟨row, hget, hemail⟩ := hrelies
      refine ⟨h.single, hredeemed, ?_, ?_, hchanged, hpasswords⟩
      · refine Table.forall_insert hinsert (fun link' hlink' => ?_) ⟨row, hget, ?_⟩
        · exact h.mailed_follows hfollows (State.useLinks_rows hlink')
        · rw [hemail]
          exact List.mem_append_right _ (List.mem_singleton_self _)
      · rw [List.forall_mem_append, List.forall_mem_singleton]
        refine ⟨haddressed, ⟨user.id, tokenHash, now + expiry, none⟩, row, ?_, hget, hemail.symm⟩
        exact (Table.get_insert hinsert tokenHash).trans (if_pos rfl)
  | reset link user passwordHash now =>
      obtain ⟨hget, hunused, huser⟩ := hrelies
      refine ⟨?_, ?_, fun link' hlink' => ?_, haddressed, hchanged, fun row' hrow' => ?_⟩
      · rw [List.map_append, List.map_singleton, ← List.concat_eq_append, List.nodup_concat]
        refine ⟨fun hmem => ?_, h.single⟩
        -- a link that has set a password is used
        obtain ⟨reset, hreset, htoken⟩ := List.mem_map.mp hmem
        obtain ⟨link', hget', hused, -⟩ := h.redeemed reset hreset
        rw [htoken, hget] at hget'
        exact hused (Option.some.inj hget' ▸ hunused)
      · rw [List.forall_mem_append, List.forall_mem_singleton]
        refine ⟨hredeemed, { link with usedAt := some now }, ?_, Option.some_ne_none _, huser.symm⟩
        show (state.useLinks [link.tokenHash] now).links.get link.tokenHash = _
        rw [State.useLinks, Table.get_modify, hget, Option.map_some, if_pos (List.mem_singleton_self _)]
      · exact h.mailed_follows hfollows (State.useLinks_rows hlink')
      · rcases State.setPassword_rows hrow' with hrow | ⟨hid, hpassword⟩
        · exact hpasswords row' hrow
        · refine .inr (.inl ⟨_, List.mem_append_right _ (List.mem_singleton_self _), hid.symm, ?_⟩)
          exact hpassword.symm
  | changed user currentPassword passwordHash =>
      obtain ⟨hright, haccounts⟩ := hrelies
      refine ⟨h.single, hredeemed, fun link' hlink' => ?_, haddressed, ?_, fun row' hrow' => ?_⟩
      · exact h.mailed_follows hfollows ⟨link', hlink', rfl, rfl⟩
      · rw [List.forall_mem_append, List.forall_mem_singleton]
        exact ⟨hchanged, hright, haccounts.mono hfollows⟩
      · rcases State.setPassword_rows hrow' with hrow | ⟨hid, hpassword⟩
        · exact hpasswords row' hrow
        · refine .inr (.inr ⟨_, List.mem_append_right _ (List.mem_singleton_self _), hid.symm, ?_⟩)
          exact hpassword.symm

theorem protocol_sound (security : Security) (expiry : Time) (users : Table User.id) :
    (protocol security expiry).Sound (fun _ _ => True) (Sound security users) (Relies security users) where
  start state request _ := trivial
  run state phase choice state' next h hrelies hrun := by
    have hnext := hrelies.run h hrun
    obtain rfl := run_committed hrun
    exact ⟨h, hnext⟩
  run_stable state phase choice state' next other _ _ hother hrun := by
    obtain rfl := run_committed hrun
    exact hother
  finish state phase state' h hrelies _ hfinish := h.finish hrelies (finish_cases hfinish)
  finish_stable state phase state' other _ _ _ hother hfree hfinish :=
    hother.stable hfree (finish_cases hfinish)

theorem State.start_sound (security : Security) (users : Table User.id) :
    Sound security users (State.start users) where
  single := List.nodup_nil
  redeemed := List.forall_mem_nil _
  mailed := List.forall_mem_nil _
  addressed := List.forall_mem_nil _
  changed := List.forall_mem_nil _
  passwords user huser := .inl ⟨user, Table.get_eq_some.mpr ⟨huser, rfl⟩, rfl⟩

/-- In every interleaving a link has set one password at most, that of the user it was mailed to, and every
password is the first of its user, or was set by a link, or by someone who knew one that the user had. -/
theorem resets_sound {s : Interleaved State Phase}
    (h : (protocol security expiry).Reaches (Protocol.init (State.start users)) s) :
    Sound security users s.committed :=
  ((protocol_sound security expiry users).runs h (.init (State.start_sound security users))).committed

/-! ## The newest link -/

/-- The token that the request is about to mail, for which it has looked for the others. -/
def Phase.mails : Phase → Option String
  | .retiring _ tokenHash _ _ _ _ => some tokenHash
  | _ => none

/-- Once the new link is there, the links of its user that were there before are used. -/
structure Retired (old : Table PasswordResetToken.tokenHash) (newHash : String) (state : State) : Prop where
  later : Table.Later LinkBecomes old state.links
  retired : ∀ new, state.links.get newHash = some new →
    ∀ link ∈ old.rows, link.userId = new.userId → state.Used link.tokenHash

/-- The request that mails the new link holds the rows of the others, or will come to them. -/
def Retires (old : Table PasswordResetToken.tokenHash) (newHash : String) (state : State) : Phase → Prop
  | .retiring user tokenHash _ _ todo locked =>
      tokenHash = newHash → ∀ link ∈ old.rows, link.userId = user.id →
        state.Used link.tokenHash ∨ link.tokenHash ∈ todo ∨ link.tokenHash ∈ locked
  | _ => True

variable {old : Table PasswordResetToken.tokenHash} {newHash : String}

theorem Retires.run {next : Phase} {choice : Choice} (h : Retired old newHash state)
    (hretires : Retires old newHash state phase)
    (hrun : run security state phase choice = some (state', next)) :
    Retires old newHash state next := by
  -- a link that was there is found, unless it is used
  have hfound (link : PasswordResetToken) (hlink : link ∈ old.rows) :
      ∃ link', state.links.get link.tokenHash = some link' ∧ link'.userId = link.userId := by
    obtain ⟨link', hget', hbecomes⟩ := h.later _ link (Table.get_eq_some.mpr ⟨hlink, rfl⟩)
    exact ⟨link', hget', hbecomes.userId⟩
  unfold ResetLinks.run at hrun
  split at hrun
  next request =>
    cases hrun
    cases request with
    | issue email tokenHash now =>
        simp only [beginRequest]
        split
        next => trivial
        next user huser =>
          intro _ link hlink huserId
          obtain ⟨link', hget', huserId'⟩ := hfound link hlink
          by_cases hused : link'.usedAt = none
          · refine .inr (.inl (List.mem_map.mpr
              ⟨link', List.mem_filter.mpr ⟨(Table.get_mem hget').1, ?_⟩, ?_⟩))
            · exact decide_eq_true ⟨huserId'.trans huserId, hused⟩
            · exact (Table.get_mem hget').2
          · exact .inl ⟨link', hget', hused⟩
    | reset tokenHash passwordHash now =>
        simp only [beginRequest]
        split
        next => trivial
        next => split <;> trivial
    | change userId currentPassword passwordHash =>
        simp only [beginRequest]
        split
        next => trivial
        next => split <;> trivial
  next user tokenHash now seen todo locked hash =>
    split at hrun
    next hmem =>
      split at hrun
      next hlock =>
        cases hrun
        intro hnew link hlink huserId
        rcases hretires hnew link hlink huserId with hused | htodo | hlocked
        · exact .inl hused
        · by_cases heq : link.tokenHash = hash
          · exact .inr (.inr (heq ▸ List.mem_cons_self ..))
          · exact .inr (.inl ((List.mem_erase_of_ne heq).mpr htodo))
        · exact .inr (.inr (List.mem_cons_of_mem _ hlocked))
      next hlock =>
        cases hrun
        intro hnew link hlink huserId
        rcases hretires hnew link hlink huserId with hused | htodo | hlocked
        · exact .inl hused
        · by_cases heq : link.tokenHash = hash
          · -- the `UPDATE` has come to the row and has found it used
            subst heq
            obtain ⟨link', hget', huserId'⟩ := hfound link hlink
            refine .inl ⟨link', hget', fun hunused => hlock ?_⟩
            rw [State.lockLink, hget', Option.any_some]
            exact decide_eq_true ⟨huserId'.trans huserId, hunused⟩
          · exact .inr (.inl ((List.mem_erase_of_ne heq).mpr htodo))
        · exact .inr (.inr hlocked)
    next => cases hrun
  next =>
    split at hrun
    next =>
      cases hrun
      trivial
    next =>
      cases hrun
      trivial
  next => cases hrun

theorem Retires.follows {other : Phase} (h : Retires old newHash state other)
    (hfollows : state.Follows state') : Retires old newHash state' other := by
  cases other with
  | retiring user tokenHash now seen todo locked =>
      intro hnew link hlink huserId
      rcases h hnew link hlink huserId with hused | hheld
      · exact .inl (hfollows.used hused)
      · exact .inr hheld
  | _ => trivial

theorem Retired.finish (h : Retired old newHash state) (hretires : Retires old newHash state phase)
    (hfinished : Finished expiry state phase state') : Retired old newHash state' := by
  have hfollows := hfinished.follows
  refine ⟨h.later.trans LinkBecomes.trans hfollows.links, ?_⟩
  -- the new link was there before, with its user
  have hbefore {hashes : List String} {now : Time} {new : PasswordResetToken}
      (hnew : (state.useLinks hashes now).links.get newHash = some new) :
      ∀ link ∈ old.rows, link.userId = new.userId → state'.Used link.tokenHash := by
    obtain ⟨hmem, htoken⟩ := Table.get_mem hnew
    obtain ⟨new', hnew', huserId', htoken'⟩ := State.useLinks_rows hmem
    intro link hlink huserId
    have hget := Table.get_eq_some.mpr ⟨hnew', htoken'.symm.trans htoken⟩
    refine hfollows.used (h.retired new' hget link hlink ?_)
    exact huserId.trans huserId'
  cases hfinished with
  | same => exact h.retired
  | @mailed user tokenHash now seen locked links hinsert =>
      intro new hnew link hlink huserId
      rw [Table.get_insert hinsert] at hnew
      split at hnew
      next heq =>
        cases hnew
        rcases hretires heq.symm link hlink huserId with hused | htodo | hlocked
        · exact hfollows.used hused
        · cases htodo
        · obtain ⟨link', hget', hbecomes⟩ := h.later _ link (Table.get_eq_some.mpr ⟨hlink, rfl⟩)
          have hused : (state.useLinks locked now).links.get link.tokenHash =
              some { link' with usedAt := some now } := by
            rw [State.useLinks, Table.get_modify, hget', Option.map_some, if_pos]
            rwa [(Table.get_mem hget').2]
          refine ⟨_, (Table.get_insert_of_some hinsert (by rw [hused]; rfl)).trans hused, ?_⟩
          exact Option.some_ne_none _
      next => exact hbefore hnew link hlink huserId
  | reset link user passwordHash now => exact fun new hnew => hbefore hnew
  | changed =>
      intro new hnew link hlink huserId
      exact hfollows.used (h.retired new hnew link hlink huserId)

theorem protocol_retires (security : Security) (expiry : Time) (users : Table User.id)
    (old : Table PasswordResetToken.tokenHash) (newHash : String) :
    (protocol security expiry).Sound (fun _ _ => True)
      (fun state => Sound security users state ∧ Retired old newHash state)
      fun state phase => Relies security users state phase ∧ Retires old newHash state phase := by
  refine (protocol_sound security expiry users).extend ?_ ?_ ?_ ?_ ?_
  · exact fun state request _ _ => trivial
  · intro state phase choice state' next _ _ h hretires hrun
    have hnext := hretires.run h hrun
    obtain rfl := run_committed hrun
    exact ⟨h, hnext⟩
  · intro state phase choice state' next other _ _ _ hother hrun
    obtain rfl := run_committed hrun
    exact hother
  · exact fun state phase state' _ _ _ h hretires hfinish => h.finish hretires (finish_cases hfinish)
  · exact fun state phase state' other _ _ _ _ hother _ hfinish =>
      hother.follows (finish_cases hfinish).follows

/-- A link that is used sets no password. -/
theorem Finished.redeemed_of_used (h : Finished expiry state phase state')
    (hrelies : Relies security users state phase) {tokenHash : String} (hused : state.Used tokenHash) :
    state'.redeemed.filter (·.tokenHash = tokenHash) = state.redeemed.filter (·.tokenHash = tokenHash) := by
  cases h with
  | same | mailed | changed => rfl
  | reset link user passwordHash now =>
      obtain ⟨hget, hunused, -⟩ := hrelies
      have hne : link.tokenHash ≠ tokenHash := by
        rintro rfl
        obtain ⟨link', hget', hused⟩ := hused
        rw [hget] at hget'
        exact hused (Option.some.inj hget' ▸ hunused)
      simp [List.filter_append, hne]

theorem used_link {s t : Interleaved State Phase} {tokenHash : String}
    (hs : (protocol security expiry).Reaches (Protocol.init (State.start users)) s)
    (hused : s.committed.Used tokenHash) (ht : (protocol security expiry).Reaches s t) :
    t.committed.redeemed.filter (·.tokenHash = tokenHash) =
      s.committed.redeemed.filter (·.tokenHash = tokenHash) := by
  have hinv := (protocol_sound security expiry users).runs hs (.init (State.start_sound security users))
  have hsound := (protocol_sound security expiry users).extend
    (E := fun state => state.Used tokenHash ∧ state.redeemed.filter (·.tokenHash = tokenHash) =
      s.committed.redeemed.filter (·.tokenHash = tokenHash)) (R := fun _ _ => True)
    (fun _ _ _ _ => trivial)
    (fun state phase choice state' next _ _ h _ hrun => by
      obtain rfl := run_committed hrun
      exact ⟨h, trivial⟩)
    (fun _ _ _ _ _ _ _ _ _ _ _ => trivial)
    (fun state phase state' _ hrelies _ h _ hfinish => by
      have hfinished := finish_cases hfinish
      exact ⟨hfinished.follows.used h.1, (hfinished.redeemed_of_used hrelies h.1).trans h.2⟩)
    fun _ _ _ _ _ _ _ _ _ _ _ => trivial
  have hstart : (protocol security expiry).Inv
      (fun state => Sound security users state ∧ state.Used tokenHash ∧
        state.redeemed.filter (·.tokenHash = tokenHash) =
          s.committed.redeemed.filter (·.tokenHash = tokenHash))
      (fun state phase => Relies security users state phase ∧ True) s :=
    ⟨⟨hinv.committed, hused, rfl⟩, fun tx htx => ⟨hinv.opened tx htx, trivial⟩, hinv.exclusive⟩
  exact (hsound.runs ht hstart).committed.2.2

/-- In every interleaving, once a new link was mailed to a user, the links that the user had when the
request looked for them are used, and none of them sets a password again. -/
theorem newest_link {s t u : Interleaved State Phase} {newHash : String} {new link : PasswordResetToken}
    (hs : (protocol security expiry).Reaches (Protocol.init (State.start users)) s)
    (hbegun : ∀ tx ∈ s.txs.rows, tx.2.mails ≠ some newHash) (hnone : s.committed.links.get newHash = none)
    (hlink : link ∈ s.committed.links.rows) (ht : (protocol security expiry).Reaches s t)
    (hnew : t.committed.links.get newHash = some new) (huser : link.userId = new.userId)
    (hu : (protocol security expiry).Reaches t u) :
    t.committed.Used link.tokenHash ∧
      u.committed.redeemed.filter (·.tokenHash = link.tokenHash) =
        t.committed.redeemed.filter (·.tokenHash = link.tokenHash) := by
  have hinv := (protocol_sound security expiry users).runs hs (.init (State.start_sound security users))
  have hretired : Retired s.committed.links newHash s.committed :=
    ⟨.refl LinkBecomes.refl _, fun new hget => by rw [hnone] at hget; cases hget⟩
  have hopened : ∀ tx ∈ s.txs.rows, Retires s.committed.links newHash s.committed tx.2 := by
    rintro ⟨n, phase⟩ htx
    cases phase with
    | retiring user tokenHash now seen todo locked =>
        exact fun heq => absurd (congrArg some heq) (hbegun _ htx)
    | _ => trivial
  have hstart : (protocol security expiry).Inv
      (fun state => Sound security users state ∧ Retired s.committed.links newHash state)
      (fun state phase => Relies security users state phase ∧
        Retires s.committed.links newHash state phase) s :=
    ⟨⟨hinv.committed, hretired⟩, fun tx htx => ⟨hinv.opened tx htx, hopened tx htx⟩, hinv.exclusive⟩
  have hretires := protocol_retires security expiry users s.committed.links newHash
  have hused := (hretires.runs ht hstart).committed.2
  have hlinkUsed := hused.retired new hnew link hlink huser
  exact ⟨hlinkUsed, used_link (hs.trans ht) hlinkUsed hu⟩

/-! ## Two mails -/

/-- A user who asks for a link. -/
def forgetful : Table User.id where
  rows := [⟨1, "a@b.c", "old", true, none, 0, none⟩]
  nodup := List.nodup_singleton _

def reader : Security := ⟨⟨30⟩, fun hash password => hash = password, fun _ _ _ => false, id, id⟩

/-- The first mail. -/
def firstMail : List (TxAction Request Choice) :=
  [.begin 1 (.issue "a@b.c" "first" 0), .run 1 .next, .finish 1]

/-- The second mail comes while the first link is presented: it waits for its row. -/
def secondMail : List (TxAction Request Choice) :=
  [.begin 2 (.issue "a@b.c" "second" 1), .run 2 .next, .begin 3 (.reset "first" "new" 2), .run 2 (.row "first"),
   .finish 2, .run 3 .next, .finish 3]

/-- Both links are presented, the new one twice. -/
def presented : List (TxAction Request Choice) :=
  [.begin 4 (.reset "second" "new" 3), .begin 5 (.reset "first" "newer" 3), .begin 6 (.reset "second" "newer" 3),
   .run 4 .next, .run 5 .next, .run 4 .next, .finish 4, .finish 5, .run 6 .next, .finish 6]

/-- Each link sets a password once at most, and the first none. -/
def ResetOnce (s : Interleaved State Phase) : Prop :=
  s.committed.redeemed = [⟨"second", 1, "new"⟩] ∧
    s.committed.users.rows.map (·.passwordHash) = ["new"]

instance : DecidablePred ResetOnce := fun _ => inferInstanceAs (Decidable (_ ∧ _))

theorem presented_reaches : ∃ s t u : Interleaved State Phase,
    (protocol reader 10).Reaches (Protocol.init (State.start forgetful)) s ∧ (protocol reader 10).Reaches s t ∧
      (protocol reader 10).Reaches t u ∧ s.txs.rows = [] ∧ s.committed.links.rows = [⟨1, "first", 10, none⟩] ∧
        t.committed.links.get "second" = some ⟨1, "second", 11, none⟩ ∧ ResetOnce u := by
  obtain ⟨s, hs, htxs, hlinks, hsecond⟩ :=
    Protocol.Reaches.exists_of_any (p := protocol reader 10) (s := Protocol.init (State.start forgetful))
      (F := fun s => s.txs.rows = [] ∧ s.committed.links.rows = [⟨1, "first", 10, none⟩] ∧
        (secondMail.foldlM (protocol reader 10).step s).any fun t =>
          t.committed.links.get "second" = some ⟨1, "second", 11, none⟩ ∧
            (presented.foldlM (protocol reader 10).step t).any fun u => ResetOnce u)
      firstMail (by decide +kernel)
  obtain ⟨t, ht, hnew, hpresented⟩ := Protocol.Reaches.exists_of_any secondMail hsecond
  obtain ⟨u, hu, honce⟩ := Protocol.Reaches.exists_of_any presented hpresented
  exact ⟨s, t, u, hs, ht, hu, htxs, hlinks, hnew, honce⟩

theorem resets_sound_presented : ∃ u : Interleaved State Phase,
    ResetOnce u ∧ Sound reader forgetful u.committed := by
  obtain ⟨s, t, u, hs, ht, hu, -, -, -, honce⟩ := presented_reaches
  exact ⟨u, honce, resets_sound (hs.trans (ht.trans hu))⟩

theorem newest_link_presented : ∃ t u : Interleaved State Phase,
    ResetOnce u ∧ t.committed.Used "first" ∧
      u.committed.redeemed.filter (·.tokenHash = "first") =
        t.committed.redeemed.filter (·.tokenHash = "first") := by
  obtain ⟨s, t, u, hs, ht, hu, htxs, hlinks, hnew, honce⟩ := presented_reaches
  have hbegun : ∀ tx ∈ s.txs.rows, tx.2.mails ≠ some "second" := by
    rw [htxs]
    exact List.forall_mem_nil _
  have hnone : s.committed.links.get "second" = none := by
    rw [Table.get, hlinks]
    decide
  have hlink : (⟨1, "first", 10, none⟩ : PasswordResetToken) ∈ s.committed.links.rows := by
    rw [hlinks]
    exact List.mem_singleton_self _
  exact ⟨t, u, honce, newest_link hs hbegun hnone hlink ht hnew rfl hu⟩

end Nexora.Auth.ResetLinks
