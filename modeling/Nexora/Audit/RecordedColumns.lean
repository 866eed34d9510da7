import Nexora.Audit.TamperEvidence

/-!
# What the hash leaves out

A row of `audit_events` records eleven columns.  The hash is made of seven of them: whose membership
acted, the request, its address and its user agent are recorded and not hashed.

Another value in one of the seven is found.  For six of them the hash of the row is another one.  A
row that is given to another tenant is gone from its chain, and the row after it links to a hash that
no longer stands before it (`Server.Linked.lastHash_ne`).  Another value in one of the other four
changes nothing of what the verifier reads (`recorded_columns_iff`).
-/

namespace Nexora.Audit

open Nexora Foundations

variable {sv : Server}

/-! ## Columns -/

/-- `AuditEvent`: what the chain reads and writes, and the columns beside it. -/
structure AuditRow where
  event : Event
  actorMembershipId : Option Uuid
  requestId : Option String
  ip : Option String
  userAgent : Option String
deriving DecidableEq

/-- The recorded columns. -/
inductive Column where
  | tenantId
  | actorUserId
  | actorMembershipId
  | action
  | resourceType
  | resourceId
  | requestId
  | ip
  | userAgent
  | metadata
  | occurredAt
deriving DecidableEq, Repr

def Column.Value : Column → Type
  | .tenantId | .actorUserId | .actorMembershipId | .resourceId => Option Uuid
  | .action | .resourceType | .metadata => String
  | .requestId | .ip | .userAgent => Option String
  | .occurredAt => Nat

def AuditRow.get (row : AuditRow) : (column : Column) → column.Value
  | .tenantId => row.event.tenantId
  | .actorUserId => row.event.actorUserId
  | .actorMembershipId => row.actorMembershipId
  | .action => row.event.action
  | .resourceType => row.event.resourceType
  | .resourceId => row.event.resourceId
  | .requestId => row.requestId
  | .ip => row.ip
  | .userAgent => row.userAgent
  | .metadata => row.event.metadata
  | .occurredAt => row.event.occurredAt

/-- The row with another value in one column.  `hash` and `prev_hash` stay. -/
def AuditRow.set (row : AuditRow) : (column : Column) → column.Value → AuditRow
  | .tenantId, value => { row with event := { row.event with tenantId := value } }
  | .actorUserId, value => { row with event := { row.event with actorUserId := value } }
  | .actorMembershipId, value => { row with actorMembershipId := value }
  | .action, value => { row with event := { row.event with action := value } }
  | .resourceType, value => { row with event := { row.event with resourceType := value } }
  | .resourceId, value => { row with event := { row.event with resourceId := value } }
  | .requestId, value => { row with requestId := value }
  | .ip, value => { row with ip := value }
  | .userAgent, value => { row with userAgent := value }
  | .metadata, value => { row with event := { row.event with metadata := value } }
  | .occurredAt, value => { row with event := { row.event with occurredAt := value } }

/-- The columns that are parameters of `nexora_chain_hash`. -/
def Column.hashed : Column → Bool
  | .actorMembershipId | .requestId | .ip | .userAgent => false
  | _ => true

/-- What the trigger and the verifier read of the rows. -/
def events (rows : ChainedTable → List AuditRow) (table : ChainedTable) : List Event :=
  (rows table).map AuditRow.event

/-! ## The hash of a row -/

theorem AuditRow.event_set_of_not_hashed (row : AuditRow) {column : Column}
    (h : column.hashed = false) (value : column.Value) : (row.set column value).event = row.event := by
  cases column <;> first | rfl | cases h

theorem AuditRow.set_kept (row : AuditRow) (column : Column) (value : column.Value) :
    (row.set column value).event.hash = row.event.hash ∧
      (row.set column value).event.chainSeq = row.event.chainSeq := by
  cases column <;> exact ⟨rfl, rfl⟩

theorem AuditRow.tenantId_set (row : AuditRow) {column : Column} (h : column ≠ .tenantId)
    (value : column.Value) : (row.set column value).event.tenantId = row.event.tenantId := by
  cases column <;> first | rfl | exact absurd rfl h

/-- Another value in a hashed column makes another hash. -/
theorem AuditRow.chainHash_set_ne (hsv : sv.CollisionFree) (row : AuditRow) {column : Column}
    (hhashed : column.hashed = true) {value : column.Value} (hvalue : value ≠ row.get column)
    (prev : Option String) :
    sv.chainHash prev (row.set column value).event ≠ sv.chainHash prev row.event := by
  intro heq
  rw [Server.chainHash_eq, Server.chainHash_eq] at heq
  have htext := String.ofList_injective (hsv.sha256 heq)
  refine hvalue ?_
  cases column with
  | actorMembershipId => cases hhashed
  | requestId => cases hhashed
  | ip => cases hhashed
  | userAgent => cases hhashed
  | tenantId =>
      exact uuidText_injective (String.toList_injective
        (by simpa [Server.textFields, delimited, set, get] using htext))
  | actorUserId =>
      exact uuidText_injective (String.toList_injective
        (by simpa [Server.textFields, delimited, set, get] using htext))
  | resourceId =>
      exact uuidText_injective (String.toList_injective
        (by simpa [Server.textFields, delimited, set, get] using htext))
  | action =>
      exact String.toList_injective (by simpa [Server.textFields, delimited, set, get] using htext)
  | resourceType =>
      exact String.toList_injective (by simpa [Server.textFields, delimited, set, get] using htext)
  | metadata =>
      exact String.toList_injective (by simpa [Server.textFields, delimited, set, get] using htext)
  | occurredAt =>
      exact hsv.timestamp (String.toList_injective
        (by simpa [Server.textFields, delimited, set, get] using htext))

/-- The hash before a row stands on the first line of the text. -/
theorem Server.CollisionFree.chainHash_prev (hsv : sv.CollisionFree) {prev prev' : Option String}
    {e e' : Event} (hprev : sv.IsDigest prev) (hprev' : sv.IsDigest prev')
    (heq : sv.chainHash prev e = sv.chainHash prev' e') : prev = prev' := by
  rw [Server.chainHash_eq, Server.chainHash_eq] at heq
  have htext := String.ofList_injective (hsv.sha256 heq)
  obtain ⟨hfirst, -⟩ := append_cons_inj (hsv.newline_notMem hprev) (hsv.newline_notMem hprev') htext
  exact hsv.getD_inj hprev hprev' (String.toList_injective hfirst)

theorem Server.chainHash_isDigest (sv : Server) (prev : Option String) (e : Event) :
    sv.IsDigest (some (sv.chainHash prev e)) := by
  rw [Server.chainHash_eq]
  rintro _ ⟨⟩
  exact ⟨_, rfl⟩

/-- A row that follows a chain has not the hash that the chain ends with. -/
theorem Server.Linked.lastHash_ne (hsv : sv.CollisionFree) {es : List Event}
    (h : sv.Linked none es) (e : Event) :
    lastHash none es ≠ some (sv.chainHash (lastHash none es) e) := by
  induction es using List.reverseRecOn generalizing e with
  | nil => exact nofun
  | append_singleton es last ih =>
      obtain ⟨hes, -, hhash⟩ := Server.linked_snoc.mp h
      intro heq
      rw [lastHash_snoc, hhash, Option.some.injEq] at heq
      -- The hashes before the two rows are the same, so the last row has the hash before it too.
      have hprev := hsv.chainHash_prev hes.isDigest (sv.chainHash_isDigest _ _) heq
      exact ih hes last hprev

/-! ## One row changed -/

/-- The rows of a tenant, split at one of those that are chained. -/
theorem split_at_chained {old new before after : List Event} {e : Event}
    (h : before ++ e :: after = old ++ new) (hnot : e ∉ old) :
    ∃ front, before = old ++ front ∧ new = front ++ e :: after := by
  rcases List.append_eq_append_iff.mp h with ⟨middle, hold, hrest⟩ | ⟨front, hbefore, hnew⟩
  · cases middle with
    | nil => exact ⟨[], by simpa using hold.symm, by simpa using hrest.symm⟩
    | cons first middle =>
        rw [List.cons_append, List.cons.injEq] at hrest
        rw [hold, hrest.1] at hnot
        exact absurd (by simp) hnot
  · exact ⟨front, hbefore, hnew⟩

theorem rowsOf_append (tenantId : Option Uuid) (rows rows' : List Event) :
    rowsOf tenantId (rows ++ rows') = rowsOf tenantId rows ++ rowsOf tenantId rows' :=
  List.filter_append ..

theorem rowsOf_cons_self (e : Event) (rows : List Event) :
    rowsOf e.tenantId (e :: rows) = e :: rowsOf e.tenantId rows :=
  List.filter_cons_of_pos (by simp)

/-- A broken row of a tenant is reported. -/
theorem Server.verifyChain_ne_nil {rows : ChainedTable → List Event} {table : ChainedTable}
    {r : Event} (hr : r ∈ rows table) (haudit : ¬(table = .auditEvents ∧ r.tenantId = none))
    (hbroken : ∃ row ∈ lag none (chainOf r.tenantId (rows table)), sv.isBroken row = true) :
    sv.verifyChain r.tenantId rows ≠ [] := by
  intro hnil
  obtain ⟨row, hrow, htrue⟩ := hbroken
  have hpart : rowsOf r.tenantId (rows table) ∈ partitions r.tenantId (rows table) := by
    cases htenant : r.tenantId with
    | some t => exact List.mem_singleton_self _
    | none =>
        refine List.mem_map.mpr ⟨none, List.mem_dedup.mpr ?_, rfl⟩
        exact List.mem_map.mpr ⟨r, hr, htenant⟩
  have hclean := Server.verifyChain_eq_nil.mp hnil table haudit _ hpart
  exact List.filter_eq_nil_iff.mp hclean row hrow htrue

/-- One row of a chain changed or gone: what is left of the rows of the tenant. -/
structure Disturbed (sv : Server) (old front : List Event) (e : Event) (rest : List Event) : Prop where
  null : ∀ r ∈ old, r.prevHash = none ∧ r.chainSeq = none
  hashed : ∀ r ∈ front ++ e :: rest, r.hash.isSome ∧ r.chainSeq.isSome
  sorted : (front ++ e :: rest).Pairwise fun a b => a.chainSeq.getD 0 < b.chainSeq.getD 0
  linked : old = [] → sv.Linked none (front ++ e :: rest)

theorem ChainSystem.Consistent.split {s : ChainSystem} (h : s.Consistent sv) {table : ChainedTable}
    {before after : List Event} {e : Event} (hrows : s.committed table = before ++ e :: after)
    (hchained : e.chainSeq ≠ none) :
    ∃ old front, rowsOf e.tenantId before = old ++ front ∧
      Disturbed sv old front e (rowsOf e.tenantId after) := by
  obtain ⟨old, new, hsplit, hchain⟩ := h.committed table e.tenantId
  rw [hrows, rowsOf_append, rowsOf_cons_self] at hsplit
  obtain ⟨front, hbefore, rfl⟩ := split_at_chained hsplit fun hold => hchained (hchain.null e hold).2.2
  refine ⟨old, front, hbefore, fun r hr => ?_, fun r hr => ?_, hchain.sorted, hchain.linked⟩
  · exact ⟨(hchain.null r hr).1, (hchain.null r hr).2.2⟩
  · obtain ⟨hhash, n, -, hseq⟩ := hchain.hashed r hr
    exact ⟨hhash, hseq ▸ rfl⟩

/-- A changed row stands where it stood, and its hash is another one. -/
theorem Disturbed.changed {old front rest : List Event} {e e' : Event}
    (h : Disturbed sv old front e rest) (hhash : e'.hash = e.hash) (hseq : e'.chainSeq = e.chainSeq)
    (hne : ∀ prev, sv.chainHash prev e' ≠ sv.chainHash prev e) :
    ∃ row ∈ lag none (byChainSeq Event.chainSeq (old ++ (front ++ e' :: rest))),
      sv.isBroken row = true := by
  have hseqs : (front ++ e' :: rest).map Event.chainSeq = (front ++ e :: rest).map Event.chainSeq := by
    simp [hseq]
  have hhashed : ∀ r ∈ front ++ e' :: rest, r.hash.isSome ∧ r.chainSeq.isSome := by
    have hall := h.hashed
    simp only [List.forall_mem_append, List.forall_mem_cons] at hall ⊢
    rw [hhash, hseq]
    exact hall
  have hsorted := List.pairwise_map (f := Event.chainSeq)
    (R := fun a b => a.getD 0 < b.getD 0) |>.mpr h.sorted
  rw [← hseqs, List.pairwise_map] at hsorted
  rw [byChainSeq_append (fun r hr => (h.null r hr).2) (fun r hr => (hhashed r hr).2) hsorted]
  rcases eq_or_ne old [] with rfl | hold
  · obtain ⟨-, -, hstored, -⟩ := Server.linked_append.mp (h.linked rfl)
    refine ⟨(e', lastHash none front), ?_, ?_⟩
    · rw [List.append_nil, lag_append]
      exact List.mem_append_right _ (List.mem_cons_self ..)
    · simp [Server.isBroken, hhash, hstored, (hne _).symm]
  · exact Server.exists_isBroken_of_both (fun r hr => (h.null r hr).1)
      (fun r hr => (hhashed r hr).1) hold (by simp)

/-- A row that is gone leaves the row after it with the wrong link. -/
theorem Disturbed.gone {old front rest : List Event} {e : Event} (hsv : sv.CollisionFree)
    (h : Disturbed sv old front e rest) (hrest : rest ≠ []) :
    ∃ row ∈ lag none (byChainSeq Event.chainSeq (old ++ (front ++ rest))),
      sv.isBroken row = true := by
  have hsub : (front ++ rest).Sublist (front ++ e :: rest) :=
    (List.sublist_cons_self e rest).append_left front
  have hhashed : ∀ r ∈ front ++ rest, r.hash.isSome ∧ r.chainSeq.isSome :=
    fun r hr => h.hashed r (hsub.subset hr)
  rw [byChainSeq_append (fun r hr => (h.null r hr).2) (fun r hr => (hhashed r hr).2)
    (h.sorted.sublist hsub)]
  rcases eq_or_ne old [] with rfl | hold
  · obtain ⟨later, rest, rfl⟩ := List.exists_cons_of_ne_nil hrest
    obtain ⟨hfront, -, hstored, hlink, -⟩ := Server.linked_append.mp (h.linked rfl)
    refine ⟨(later, lastHash none front), ?_, ?_⟩
    · rw [List.append_nil, lag_append]
      exact List.mem_append_right _ (List.mem_cons_self ..)
    · have hne := hfront.lastHash_ne hsv e
      simp [Server.isBroken, hlink, hstored, hne.symm]
  · exact Server.exists_isBroken_of_both (fun r hr => (h.null r hr).1)
      (fun r hr => (hhashed r hr).1) hold (by simp [hrest])

/-! ## One column changed -/

/-- The tables with one row changed. -/
theorem events_update (rows : ChainedTable → List AuditRow) (table : ChainedTable)
    (before after : List AuditRow) (row : AuditRow) :
    events (Function.update rows table (before ++ row :: after)) table
      = before.map AuditRow.event ++ row.event :: after.map AuditRow.event := by
  simp [events]

/-- The changed table is the one that was there, where the column is not hashed. -/
theorem events_set {rows : ChainedTable → List AuditRow} {table : ChainedTable}
    {before after : List AuditRow} {row : AuditRow} (hrow : rows table = before ++ row :: after)
    {column : Column} (hhashed : column.hashed = false) (value : column.Value) :
    events (Function.update rows table (before ++ row.set column value :: after)) = events rows := by
  funext table'
  rcases eq_or_ne table' table with rfl | hne
  · rw [events_update, row.event_set_of_not_hashed hhashed, events, hrow]
    simp
  · simp [events, hne]

/-- A changed value in a hashed column is reported to the tenant of the row. -/
theorem ChainSystem.Consistent.reported {s : ChainSystem} (h : s.Consistent sv)
    (hsv : sv.CollisionFree) {rows : ChainedTable → List AuditRow}
    (hrows : events rows = s.committed) {table : ChainedTable} {before after : List AuditRow}
    {row : AuditRow} (hrow : rows table = before ++ row :: after) {n m : ℕ}
    (hseq : row.event.chainSeq = some n) {later : AuditRow} (hlater : later ∈ rows table)
    (htenant : later.event.tenantId = row.event.tenantId) (hlaterSeq : later.event.chainSeq = some m)
    (hlt : n < m) {column : Column} (hhashed : column.hashed = true) {value : column.Value}
    (hvalue : value ≠ row.get column) :
    sv.verifyChain row.event.tenantId
      (events (Function.update rows table (before ++ row.set column value :: after))) ≠ [] := by
  have hcommitted : s.committed table
      = before.map AuditRow.event ++ row.event :: after.map AuditRow.event := by
    rw [← hrows, events, hrow]
    simp
  have haudit : ¬(table = .auditEvents ∧ row.event.tenantId = none) := by
    rintro ⟨rfl, hnone⟩
    exact h.tenant row.event (by rw [hcommitted]; simp) hnone
  obtain ⟨old, front, hbefore, hdisturbed⟩ := h.split hcommitted (by simp [hseq])
  obtain ⟨hhash, hsame⟩ := row.set_kept column value
  by_cases hcolumn : column = .tenantId
  · subst hcolumn
    -- The row has left the chain, and the later one is still there.
    have hstays : later.event ∈ rowsOf row.event.tenantId (after.map AuditRow.event) := by
      have hmem : later.event ∈ rowsOf row.event.tenantId (s.committed table) := by
        rw [rowsOf, List.mem_filter, ← hrows]
        exact ⟨List.mem_map_of_mem hlater, by simp [htenant]⟩
      rw [hcommitted, rowsOf_append, rowsOf_cons_self, hbefore, List.append_assoc] at hmem
      rcases List.mem_append.mp hmem with hold | hnew
      · rw [(hdisturbed.null _ hold).2] at hlaterSeq
        cases hlaterSeq
      · rcases List.mem_append.mp hnew with hfront | hrest
        · have hless := (List.pairwise_append.mp hdisturbed.sorted).2.2 _ hfront row.event
            (List.mem_cons_self ..)
          rw [hseq, hlaterSeq] at hless
          exact absurd hlt (Nat.lt_asymm hless)
        · rcases List.mem_cons.mp hrest with heq | hrest
          · rw [heq, hseq] at hlaterSeq
            exact absurd (Option.some.inj hlaterSeq) hlt.ne
          · exact hrest
    have hrest := hdisturbed.gone hsv (List.ne_nil_of_mem hstays)
    rw [← List.append_assoc, ← hbefore] at hrest
    have hgone : rowsOf row.event.tenantId
        (events (Function.update rows table (before ++ row.set .tenantId value :: after)) table)
          = rowsOf row.event.tenantId (before.map AuditRow.event) ++
            rowsOf row.event.tenantId (after.map AuditRow.event) := by
      have hother : (row.set .tenantId value).event.tenantId ≠ row.event.tenantId := hvalue
      rw [events_update, rowsOf_append]
      congr 1
      exact List.filter_cons_of_neg (by simpa using hother)
    rw [← htenant]
    refine @Server.verifyChain_ne_nil _ _ table _ ?_ (by rwa [htenant]) ?_
    · rw [events_update]
      have := (List.mem_filter.mp hstays).1
      simp [this]
    · rw [htenant, chainOf, hgone]
      exact hrest
  · have hown := row.tenantId_set hcolumn value
    have hchanged := hdisturbed.changed hhash hsame
      fun prev => row.chainHash_set_ne hsv hhashed hvalue prev
    rw [← List.append_assoc, ← hbefore] at hchanged
    rw [← hown]
    refine @Server.verifyChain_ne_nil _ _ table _ ?_ (by rwa [hown]) ?_
    · rw [events_update]
      simp
    · rw [chainOf, events_update, rowsOf_append, rowsOf_cons_self, hown]
      exact hchanged

/-- After every run from the migrated tables: another value in one column of a chained row that a
later row follows is reported if and only if the column is hashed, or some tenant has rows of both
kinds in one table and is reported on anyway. -/
theorem recorded_columns_iff {s₀ s : ChainSystem} (hsv : sv.CollisionFree) (h₀ : s₀.Premigration)
    (hrun : Run (fun _ _ => True) (fun s a s' => sv.step s a = some s') s₀ s)
    {rows : ChainedTable → List AuditRow} (hrows : events rows = s.committed)
    {table : ChainedTable} {before after : List AuditRow} {row : AuditRow}
    (hrow : rows table = before ++ row :: after) {n m : ℕ} (hseq : row.event.chainSeq = some n)
    {later : AuditRow} (hlater : later ∈ rows table)
    (htenant : later.event.tenantId = row.event.tenantId) (hlaterSeq : later.event.chainSeq = some m)
    (hlt : n < m) {column : Column} {value : column.Value} (hvalue : value ≠ row.get column) :
    (∃ tenantId, sv.verifyChain tenantId
      (events (Function.update rows table (before ++ row.set column value :: after))) ≠ []) ↔
    (column ≠ .actorMembershipId ∧ column ≠ .requestId ∧ column ≠ .ip ∧ column ≠ .userAgent) ∨
      ∃ table tenantId, s.Mixed table tenantId := by
  have h : s.Consistent sv :=
    hrun.invariant (fun _ _ _ hs _ hstep => hs.step hstep) (.of_premigration h₀)
  have hcolumn : column.hashed = true ↔ column ≠ .actorMembershipId ∧ column ≠ .requestId ∧
      column ≠ .ip ∧ column ≠ .userAgent := by
    cases column <;> decide
  rw [← hcolumn]
  cases hhashed : column.hashed with
  | true =>
      refine iff_of_true ⟨row.event.tenantId, ?_⟩ (.inl rfl)
      exact h.reported hsv hrows hrow hseq hlater htenant hlaterSeq hlt hhashed hvalue
  | false =>
      rw [events_set hrow hhashed, hrows]
      have hmixed := h.verifyChain_iff.not
      push Not at hmixed
      simpa using hmixed

/-- A row that records where its request came from. -/
def loginRow (e : Event) : AuditRow :=
  ⟨e, some 5, some "6f1c", some "203.0.113.7", some "Mozilla/5.0"⟩

/-- Two logins in `audit_events`. -/
def loginRows : ChainedTable → List AuditRow
  | .auditEvents => [loginRow firstLogin, loginRow secondLogin]
  | .securityEvents => []

theorem loginRows_split : loginRows .auditEvents
    = [] ++ loginRow firstLogin :: [loginRow secondLogin] := rfl

theorem firstLogin_seq : (loginRow firstLogin).event.chainSeq = some 1 := rfl

theorem secondLogin_seq : (loginRow secondLogin).event.chainSeq = some 2 := rfl

theorem loginRows_run : ∃ s, Run (fun _ _ => True) (fun s a s' => loginServer.step s a = some s')
    (migrated []) s ∧ events loginRows = s.committed := by
  refine ⟨_, Run.of_foldlM [.begin 0, .insert 0 .auditEvents loginEvent, .commit 0, .begin 1,
    .insert 1 .auditEvents loginEvent, .commit 1] rfl, ?_⟩
  funext table
  cases table with
  | auditEvents => rfl
  | securityEvents => rfl

/-- The action of the first login is rewritten. -/
theorem recorded_columns_action : ∃ tenantId, loginServer.verifyChain tenantId
    (events (Function.update loginRows .auditEvents
      ([] ++ (loginRow firstLogin).set .action "auth.logout" :: [loginRow secondLogin]))) ≠ [] := by
  obtain ⟨s, hrun, hrows⟩ := loginRows_run
  have hvalue : (show Column.action.Value from "auth.logout") ≠ (loginRow firstLogin).get .action := by
    have hother : ("auth.logout" : String) ≠ "auth.login" := by decide
    exact hother
  have hlater : loginRow secondLogin ∈ loginRows .auditEvents := by simp [loginRows]
  have hiff := recorded_columns_iff loginServer_collisionFree (migrated_premigration (by simp)) hrun
    hrows loginRows_split firstLogin_seq hlater rfl secondLogin_seq (by decide) hvalue
  exact hiff.mpr (.inl (by decide))

/-- The address that the first login came from is rewritten, and nothing is reported. -/
theorem address_rewritten :
    ¬ ∀ (sv : Server) (s₀ s : ChainSystem), sv.CollisionFree → s₀.Premigration →
      Run (fun _ _ => True) (fun s a s' => sv.step s a = some s') s₀ s →
      ∀ rows, events rows = s.committed → ∀ before row after,
        rows .auditEvents = before ++ row :: after → ∀ later ∈ rows .auditEvents,
        later.event.tenantId = row.event.tenantId →
        (∃ n m, row.event.chainSeq = some n ∧ later.event.chainSeq = some m ∧ n < m) →
        ∀ column value, value ≠ row.get column → ∃ tenantId, sv.verifyChain tenantId
          (events (Function.update rows .auditEvents
            (before ++ row.set column value :: after))) ≠ [] := by
  intro hclaim
  obtain ⟨s, hrun, hrows⟩ := loginRows_run
  have hmigrated : (migrated []).Premigration := migrated_premigration (by simp)
  have h : s.Consistent loginServer :=
    hrun.invariant (fun _ _ _ hs _ hstep => hs.step hstep) (.of_premigration hmigrated)
  have hvalue : (show Column.ip.Value from some "198.51.100.1") ≠ (loginRow firstLogin).get .ip := by
    have hother : some "198.51.100.1" ≠ some "203.0.113.7" := by decide
    exact hother
  obtain ⟨tenantId, hreported⟩ := hclaim loginServer _ s loginServer_collisionFree hmigrated hrun
    loginRows hrows [] (loginRow firstLogin) [loginRow secondLogin] loginRows_split
    (loginRow secondLogin) (by simp [loginRows]) rfl
    ⟨1, 2, firstLogin_seq, secondLogin_seq, by decide⟩ .ip _ hvalue
  rw [events_set loginRows_split rfl, hrows] at hreported
  refine hreported (h.verifyChain_iff.mpr ?_ tenantId)
  rintro table tenant ⟨⟨r, hr, -, hnone⟩, -⟩
  rw [← hrows] at hr
  cases table with
  | securityEvents => cases hr
  | auditEvents =>
      simp only [events, loginRows, List.map_cons, List.map_nil, List.mem_cons, List.not_mem_nil,
        or_false] at hr
      rcases hr with rfl | rfl
      · cases hnone
      · cases hnone

end Nexora.Audit
