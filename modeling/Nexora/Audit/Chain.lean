import Nexora.Core.Context
import Nexora.Foundations.Runs
import Mathlib.Data.List.Sort
import Mathlib.Logic.Function.Basic

/-!
# The audit chain

The migration `0024_phase_11_audit_chain` gives every row of `audit_events` and
`security_events` the hash of its predecessor, by a `BEFORE INSERT` trigger, and
`verify_chain` of `app/modules/audit/chain.py` recomputes the hashes.

Writer and verifier must agree on the predecessor of a row.  The trigger takes the
last row of the tenant in the order of `chain_seq`, under an advisory lock that
keeps the tenant's other writers out until the transaction ends.  The verifier
takes the row before it in the same order.  Rows from before the migration have no
`chain_seq`, and `NULL` sorts last.  So for the trigger such a row is always the
latest one, with no hash to link to, and for the verifier the first of them follows
the last chained row.

`verifyChain_empty_iff` says when nothing is reported: exactly when no tenant has
rows of both kinds in one table.
-/

namespace Nexora.Audit

open Nexora

/-- Transactions. -/
abbrev Tid := Nat

/-- `ChainedTable`. -/
inductive ChainedTable where
  | auditEvents
  | securityEvents
deriving DecidableEq, Repr

def ChainedTable.name : ChainedTable → String
  | .auditEvents => "audit_events"
  | .securityEvents => "security_events"

/-- The columns of a row that the chain reads or writes. -/
structure Event where
  id : Uuid
  tenantId : Option Uuid
  actorUserId : Option Uuid
  action : String
  resourceType : String
  resourceId : Option Uuid
  occurredAt : Nat
  metadata : String
  prevHash : Option String
  hash : Option String
  chainSeq : Option Nat
deriving DecidableEq

/-- What the server computes for the chain: `hashtext`, the hex digest, and the
text of a timestamp in the time zone of the sessions. -/
structure Server where
  hashtext : String → Int
  sha256 : String → String
  timestampText : Nat → String

/-! ## Writer and verifier -/

/-- `nexora_chain_hash`. -/
def Server.chainHash (sv : Server) (prev : Option String) (e : Event) : String :=
  sv.sha256 (prev.getD "" ++ "\n" ++ (e.tenantId.map toString).getD "" ++ "\n" ++
    (e.actorUserId.map toString).getD "" ++ "\n" ++ e.action ++ "\n" ++ e.resourceType ++ "\n" ++
    (e.resourceId.map toString).getD "" ++ "\n" ++ sv.timestampText e.occurredAt ++ "\n" ++
    e.metadata)

/-- `ORDER BY chain_seq`: ascending, and `NULL` last. -/
def byChainSeq {α : Type} (seq : α → Option Nat) (rows : List α) : List α :=
  (rows.filter fun r => (seq r).isSome).mergeSort (fun a b => (seq a).getD 0 ≤ (seq b).getD 0) ++
    rows.filter fun r => (seq r).isNone

/-- The rows of one tenant. -/
def rowsOf (tenantId : Option Uuid) (rows : List Event) : List Event :=
  rows.filter (·.tenantId = tenantId)

/-- `SELECT hash … ORDER BY chain_seq DESC LIMIT 1`: the descending order is the
ascending one backwards, so `NULL` comes first. -/
def latestHash (tenantId : Option Uuid) (rows : List Event) : Option String :=
  (byChainSeq Event.chainSeq (rowsOf tenantId rows)).getLast?.bind Event.hash

/-- `nexora_chain_audit_events` and `nexora_chain_security_events`, past the lock:
`visible` are the rows the transaction sees, `seq` the value of `nextval`. -/
def Server.chain (sv : Server) (visible : List Event) (seq : Nat) (new : Event) : Event :=
  let prev := latestHash new.tenantId visible
  { new with
    chainSeq := some seq
    prevHash := prev
    hash := some (sv.chainHash prev new) }

/-- `LAG(hash) OVER (ORDER BY chain_seq)`: each row with the hash before it. -/
def lag (prev : Option String) : List Event → List (Event × Option String)
  | [] => []
  | e :: es => (e, prev) :: lag e.hash es

/-- The `WHERE` of the verifier's query.  A comparison with a `NULL` hash is not
true, so it reports nothing. -/
def Server.isBroken (sv : Server) (row : Event × Option String) : Bool :=
  row.1.prevHash ≠ row.2 || row.1.hash.any (· ≠ sv.chainHash row.2 row.1)

/-- `BrokenLink`. -/
structure BrokenLink where
  table : ChainedTable
  rowId : Uuid
  occurredAt : Nat
  linkBroken : Bool
  hashBroken : Bool

/-- The partitions the verifier's query walks: one tenant, or all of them. -/
def partitions (tenantId : Option Uuid) (rows : List Event) : List (List Event) :=
  match tenantId with
  | some t => [rowsOf (some t) rows]
  | none => (rows.map (·.tenantId)).dedup.map fun t => rowsOf t rows

/-- The verifier's query on one table. -/
def Server.brokenRows (sv : Server) (tenantId : Option Uuid) (rows : List Event) :
    List (Event × Option String) :=
  byChainSeq (·.1.chainSeq) ((partitions tenantId rows).flatMap fun part =>
    (lag none (byChainSeq Event.chainSeq part)).filter sv.isBroken)

/-- `verify_chain` on both tables. -/
def Server.verifyChain (sv : Server) (tenantId : Option Uuid)
    (rows : ChainedTable → List Event) : List BrokenLink :=
  [ChainedTable.auditEvents, .securityEvents].flatMap fun table =>
    if table = .auditEvents ∧ tenantId = none then []
    else (sv.brokenRows tenantId (rows table)).map fun row =>
      { table := table
        rowId := row.1.id
        occurredAt := row.1.occurredAt
        linkBroken := row.1.prevHash ≠ row.2
        hashBroken := row.1.hash ≠ some (sv.chainHash row.2 row.1) }

/-! ## Inserting transactions -/

/-- Committed rows, the sequences, advisory locks, and the rows each open
transaction has inserted. -/
structure ChainSystem where
  committed : ChainedTable → List Event
  sequence : ChainedTable → Nat
  locks : Int → Option Tid
  writing : Tid → Option (ChainedTable → List Event)

inductive ChainAction where
  | begin (t : Tid)
  | insert (t : Tid) (table : ChainedTable) (new : Event)
  | commit (t : Tid)
  | abort (t : Tid)

/-- The key of `pg_advisory_xact_lock`. -/
def Server.lockKey (sv : Server) (table : ChainedTable) (tenantId : Option Uuid) : Int :=
  sv.hashtext (table.name ++ ":" ++ (tenantId.map toString).getD "null")

/-- The end of a transaction: its locks are free again. -/
def ChainSystem.finish (s : ChainSystem) (t : Tid) : ChainSystem :=
  { s with
    locks := fun key => if s.locks key = some t then none else s.locks key
    writing := Function.update s.writing t none }

/-- One statement of one transaction.  `none` is a step that is not enabled, such
as an insert whose lock another transaction holds. -/
def Server.step (sv : Server) (s : ChainSystem) : ChainAction → Option ChainSystem
  | .begin t =>
      match s.writing t with
      | none => some { s with writing := Function.update s.writing t (some fun _ => []) }
      | some _ => none
  | .insert t table new =>
      match s.writing t with
      | none => none
      | some own =>
          if s.locks (sv.lockKey table new.tenantId) ≠ none ∧
              s.locks (sv.lockKey table new.tenantId) ≠ some t then none
          -- `audit_events.tenant_id` is `NOT NULL`.
          else if table = .auditEvents ∧ new.tenantId = none then some (s.finish t)
          else
            let row := sv.chain (s.committed table ++ own table) (s.sequence table) new
            some { s with
              sequence := Function.update s.sequence table (s.sequence table + 1)
              locks := Function.update s.locks (sv.lockKey table new.tenantId) (some t)
              writing := Function.update s.writing t
                (some (Function.update own table (own table ++ [row]))) }
  | .commit t =>
      match s.writing t with
      | none => none
      | some own =>
          some { s.finish t with committed := fun table => s.committed table ++ own table }
  | .abort t =>
      match s.writing t with
      | none => none
      | some _ => some (s.finish t)

/-- The tables right after the migration, with no transaction open. -/
structure ChainSystem.Premigration (s : ChainSystem) : Prop where
  null : ∀ table, ∀ r ∈ s.committed table, r.prevHash = none ∧ r.hash = none ∧ r.chainSeq = none
  tenant : ∀ r ∈ s.committed .auditEvents, r.tenantId ≠ none
  idle : ∀ t, s.writing t = none

/-! ## The rows of one tenant -/

/-- Each row carries the hash of the row before it and its own. -/
def Server.Linked (sv : Server) : Option String → List Event → Prop
  | _, [] => True
  | prev, e :: es => e.prevHash = prev ∧ e.hash = some (sv.chainHash prev e) ∧ sv.Linked e.hash es

/-- Rows from before the migration, then rows in the order of their sequence
numbers.  Without the former, the latter are linked. -/
structure Server.Chained (sv : Server) (next : Nat) (old new : List Event) : Prop where
  null : ∀ r ∈ old, r.prevHash = none ∧ r.hash = none ∧ r.chainSeq = none
  hashed : ∀ r ∈ new, r.hash.isSome ∧ ∃ n < next, r.chainSeq = some n
  sorted : new.Pairwise fun a b => a.chainSeq.getD 0 < b.chainSeq.getD 0
  linked : old = [] → sv.Linked none new

variable {sv : Server}

theorem getLast?_cons_elim {a : Event} {as : List Event} {prev : Option String} :
    (a :: as).getLast?.elim prev Event.hash = as.getLast?.elim a.hash Event.hash := by
  cases as with
  | nil => rfl
  | cons b as =>
      rw [List.getLast?_cons_cons, List.getLast?_eq_some_getLast (by simp)]
      rfl

theorem Server.linked_snoc {prev : Option String} {es : List Event} {e : Event} :
    sv.Linked prev (es ++ [e]) ↔ sv.Linked prev es ∧
      e.prevHash = (es.getLast?.elim prev Event.hash) ∧
      e.hash = some (sv.chainHash (es.getLast?.elim prev Event.hash) e) := by
  induction es generalizing prev with
  | nil => simp [Linked]
  | cons a es ih =>
      rw [getLast?_cons_elim, List.cons_append]
      simp only [Linked, ih, and_assoc]

/-- Rows without a sequence number come after the others. -/
theorem byChainSeq_append {old new : List Event} (hold : ∀ r ∈ old, r.chainSeq = none)
    (hnew : ∀ r ∈ new, r.chainSeq.isSome)
    (hsorted : new.Pairwise fun a b => a.chainSeq.getD 0 < b.chainSeq.getD 0) :
    byChainSeq Event.chainSeq (old ++ new) = new ++ old := by
  have hplaced : (old ++ new).filter (fun r => r.chainSeq.isSome) = new := by
    rw [List.filter_append, List.filter_eq_nil_iff.mpr, List.nil_append, List.filter_eq_self.mpr]
    · exact hnew
    · intro r hr
      rw [hold r hr]
      decide
  have hunplaced : (old ++ new).filter (fun r => r.chainSeq.isNone) = old := by
    rw [List.filter_append, List.filter_eq_self.mpr, List.filter_eq_nil_iff.mpr, List.append_nil]
    · intro r hr
      rw [Option.isNone_iff_eq_none, ← Option.not_isSome_iff_eq_none]
      exact not_not_intro (hnew r hr)
    · intro r hr
      rw [hold r hr]
      rfl
  have hle : new.Pairwise fun a b => decide (a.chainSeq.getD 0 ≤ b.chainSeq.getD 0) = true :=
    hsorted.imp fun hlt => by simpa using Nat.le_of_lt hlt
  unfold byChainSeq
  rw [hplaced, hunplaced, List.mergeSort_of_pairwise hle]

namespace Server.Chained

variable {next : Nat} {old new : List Event}

theorem mono (h : sv.Chained next old new) {next' : Nat} (hle : next ≤ next') :
    sv.Chained next' old new where
  null := h.null
  hashed := by
    intro r hr
    obtain ⟨hhash, n, hn, hseq⟩ := h.hashed r hr
    exact ⟨hhash, n, Nat.lt_of_lt_of_le hn hle, hseq⟩
  sorted := h.sorted
  linked := h.linked

/-- In the order of `chain_seq` the rows from before the migration come last. -/
theorem byChainSeq_eq (h : sv.Chained next old new) :
    byChainSeq Event.chainSeq (old ++ new) = new ++ old := by
  refine byChainSeq_append (fun r hr => (h.null r hr).2.2) (fun r hr => ?_) h.sorted
  obtain ⟨-, n, -, hseq⟩ := h.hashed r hr
  rw [hseq]
  rfl

/-- The trigger links to the last chained row, or to nothing when there are rows
from before the migration. -/
theorem latest (h : sv.Chained next old new) :
    (byChainSeq Event.chainSeq (old ++ new)).getLast?.bind Event.hash =
      if old = [] then new.getLast?.elim none Event.hash else none := by
  rw [h.byChainSeq_eq]
  split
  next hold =>
    subst hold
    rw [List.append_nil]
    cases new.getLast? with
    | none => rfl
    | some r => rfl
  next hold =>
    rw [List.getLast?_append_of_ne_nil _ hold, List.getLast?_eq_some_getLast hold]
    exact (h.null _ (List.getLast_mem hold)).2.1

/-- A row the trigger made extends the chain. -/
theorem snoc (h : sv.Chained next old new) {e : Event}
    (hprev : e.prevHash = (byChainSeq Event.chainSeq (old ++ new)).getLast?.bind Event.hash)
    (hhash : e.hash = some (sv.chainHash e.prevHash e)) (hseq : e.chainSeq = some next) :
    sv.Chained (next + 1) old (new ++ [e]) where
  null := h.null
  hashed := by
    intro r hr
    rcases List.mem_append.mp hr with hr | hr
    · exact (h.mono (Nat.le_succ next)).hashed r hr
    · rw [List.mem_singleton.mp hr, hhash]
      exact ⟨rfl, next, Nat.lt_succ_self next, hseq⟩
  sorted := by
    refine List.pairwise_append.mpr ⟨h.sorted, List.pairwise_singleton _ _, ?_⟩
    intro a ha b hb
    obtain ⟨-, n, hn, hseqa⟩ := h.hashed a ha
    rw [List.mem_singleton.mp hb, hseq, hseqa]
    exact hn
  linked := by
    intro hold
    rw [h.latest, if_pos hold] at hprev
    rw [hprev] at hhash
    exact Server.linked_snoc.mpr ⟨h.linked hold, hprev, hhash⟩

end Server.Chained

/-! ## What the verifier reports -/

theorem lag_append (prev : Option String) (as bs : List Event) :
    lag prev (as ++ bs) = lag prev as ++ lag (as.getLast?.elim prev Event.hash) bs := by
  induction as generalizing prev with
  | nil => rfl
  | cons a as ih =>
      rw [getLast?_cons_elim, List.cons_append]
      simp only [lag, ih, List.cons_append]

/-- A linked chain has nothing to report. -/
theorem Server.Linked.not_isBroken {prev : Option String} {es : List Event}
    (h : sv.Linked prev es) : ∀ row ∈ lag prev es, sv.isBroken row = false := by
  induction es generalizing prev with
  | nil => exact nofun
  | cons e es ih =>
      obtain ⟨hprev, hhash, hrest⟩ := h
      intro row hrow
      rcases List.mem_cons.mp hrow with rfl | hrow
      · simp [isBroken, hprev, hhash]
      · exact ih hrest row hrow

/-- Rows from before the migration report nothing among themselves. -/
theorem Server.not_isBroken_of_null {es : List Event}
    (h : ∀ r ∈ es, r.prevHash = none ∧ r.hash = none ∧ r.chainSeq = none) :
    ∀ row ∈ lag none es, sv.isBroken row = false := by
  induction es with
  | nil => exact nofun
  | cons e es ih =>
      obtain ⟨hprev, hhash, -⟩ := h e List.mem_cons_self
      intro row hrow
      simp only [lag, hhash, List.mem_cons] at hrow
      rcases hrow with rfl | hrow
      · simp [isBroken, hprev, hhash]
      · exact ih (fun r hr => h r (List.mem_cons_of_mem e hr)) row hrow

/-- Rows of both kinds are reported: the first row without a hash is expected to link to the last
one that has one. -/
theorem Server.exists_isBroken_of_both {old new : List Event} (hnull : ∀ r ∈ old, r.prevHash = none)
    (hhash : ∀ r ∈ new, r.hash.isSome) (hold : old ≠ []) (hnew : new ≠ []) :
    ∃ row ∈ lag none (new ++ old), sv.isBroken row = true := by
  obtain ⟨r, old, rfl⟩ := List.exists_cons_of_ne_nil hold
  obtain ⟨hash, heq⟩ := Option.isSome_iff_exists.mp (hhash _ (List.getLast_mem hnew))
  refine ⟨(r, some hash), ?_, ?_⟩
  · rw [lag_append, List.getLast?_eq_some_getLast hnew]
    refine List.mem_append_right _ ?_
    simp [lag, heq]
  · simp [isBroken, hnull r List.mem_cons_self]

/-- A tenant's partition is reported on exactly when it has rows of both kinds. -/
theorem Server.Chained.clean_iff {next : Nat} {old new : List Event}
    (h : sv.Chained next old new) :
    (∀ row ∈ lag none (byChainSeq Event.chainSeq (old ++ new)), sv.isBroken row = false) ↔
      old = [] ∨ new = [] := by
  rw [h.byChainSeq_eq]
  constructor
  · intro hclean
    by_contra hboth
    rw [not_or] at hboth
    obtain ⟨row, hrow, hbroken⟩ := sv.exists_isBroken_of_both
      (fun r hr => (h.null r hr).1) (fun r hr => (h.hashed r hr).1) hboth.1 hboth.2
    rw [hclean row hrow] at hbroken
    cases hbroken
  · rintro (rfl | rfl)
    · rw [List.append_nil]
      exact (h.linked rfl).not_isBroken
    · exact Server.not_isBroken_of_null h.null

/-! ## The invariant -/

/-- The rows of a tenant split into old and chained ones. -/
def Server.IsChained (sv : Server) (next : Nat) (rows : List Event) : Prop :=
  ∃ old new, rows = old ++ new ∧ sv.Chained next old new

theorem Server.IsChained.mono {next next' : Nat} {rows : List Event} (h : sv.IsChained next rows)
    (hle : next ≤ next') : sv.IsChained next' rows := by
  obtain ⟨old, new, hrows, hchained⟩ := h
  exact ⟨old, new, hrows, hchained.mono hle⟩

theorem Server.IsChained.chain {next : Nat} {visible : List Event} {e : Event}
    (h : sv.IsChained next (rowsOf e.tenantId visible)) :
    sv.IsChained (next + 1) (rowsOf e.tenantId visible ++ [sv.chain visible next e]) := by
  obtain ⟨old, new, hrows, hchained⟩ := h
  have hprev : (sv.chain visible next e).prevHash =
      (byChainSeq Event.chainSeq (old ++ new)).getLast?.bind Event.hash := by
    show latestHash e.tenantId visible = _
    rw [latestHash, hrows]
  refine ⟨old, new ++ [sv.chain visible next e], by rw [hrows, List.append_assoc], ?_⟩
  exact hchained.snoc hprev rfl rfl

/-- Every tenant's rows are chained, both the committed ones and those an open
transaction sees, and who has inserted for a tenant holds the tenant's lock. -/
structure ChainSystem.Consistent (sv : Server) (s : ChainSystem) : Prop where
  lock : ∀ t own table r, s.writing t = some own → r ∈ own table →
    s.locks (sv.lockKey table r.tenantId) = some t
  committed : ∀ table tenantId,
    sv.IsChained (s.sequence table) (rowsOf tenantId (s.committed table))
  visible : ∀ t own table tenantId, s.writing t = some own →
    sv.IsChained (s.sequence table) (rowsOf tenantId (s.committed table ++ own table))
  tenant : ∀ r ∈ s.committed .auditEvents, r.tenantId ≠ none
  ownTenant : ∀ t own, s.writing t = some own → ∀ r ∈ own .auditEvents, r.tenantId ≠ none

namespace ChainSystem.Consistent

variable {s : ChainSystem} {t : Tid} {own : ChainedTable → List Event} {table : ChainedTable}
  {new : Event}

theorem begin (h : s.Consistent sv) :
    Consistent sv { s with writing := Function.update s.writing t (some fun _ => []) } where
  lock := by
    intro t' own' table' r hw hr
    rcases Foundations.update_eq_some.mp hw with ⟨-, hnew⟩ | ⟨-, hold⟩
    · cases hnew
      cases hr
    · exact h.lock t' own' table' r hold hr
  committed := h.committed
  visible := by
    intro t' own' table' tenantId hw
    rcases Foundations.update_eq_some.mp hw with ⟨-, hnew⟩ | ⟨-, hold⟩
    · cases hnew
      simpa using h.committed table' tenantId
    · exact h.visible t' own' table' tenantId hold
  tenant := h.tenant
  ownTenant := by
    intro t' own' hw r hr
    rcases Foundations.update_eq_some.mp hw with ⟨-, hnew⟩ | ⟨-, hold⟩
    · cases hnew
      cases hr
    · exact h.ownTenant t' own' hold r hr

theorem lock_finish (h : s.Consistent sv) {t' : Tid} {own' : ChainedTable → List Event}
    {r : Event} (hne : t' ≠ t) (hw : s.writing t' = some own') (hr : r ∈ own' table) :
    (s.finish t).locks (sv.lockKey table r.tenantId) = some t' := by
  have hlock := h.lock t' own' table r hw hr
  simp only [finish, hlock, Option.some.injEq, hne, if_false]

theorem finish (h : s.Consistent sv) : (s.finish t).Consistent sv where
  lock := by
    intro t' own' table' r hw hr
    rcases Foundations.update_eq_some.mp hw with ⟨-, hnew⟩ | ⟨hne, hold⟩
    · cases hnew
    · exact h.lock_finish hne hold hr
  committed := h.committed
  visible := by
    intro t' own' table' tenantId hw
    rcases Foundations.update_eq_some.mp hw with ⟨-, hnew⟩ | ⟨-, hold⟩
    · cases hnew
    · exact h.visible t' own' table' tenantId hold
  tenant := h.tenant
  ownTenant := by
    intro t' own' hw r hr
    rcases Foundations.update_eq_some.mp hw with ⟨-, hnew⟩ | ⟨-, hold⟩
    · cases hnew
    · exact h.ownTenant t' own' hold r hr

/-- Another open transaction has no rows of a tenant whose lock `t` has. -/
theorem rowsOf_eq_nil (h : s.Consistent sv) {t' : Tid} {own' : ChainedTable → List Event}
    {tenantId : Option Uuid} (hne : t' ≠ t) (hw : s.writing t' = some own')
    (hlock : s.locks (sv.lockKey table tenantId) = some t) :
    rowsOf tenantId (own' table) = [] := by
  refine List.filter_eq_nil_iff.mpr fun r hr htenant => hne ?_
  have hother := h.lock t' own' table r hw hr
  rw [of_decide_eq_true htenant, hlock] at hother
  exact (Option.some.inj hother).symm

/-- A row of a transaction after an insert is the new one or an old one. -/
theorem mem_inserted {row r : Event} {table' : ChainedTable}
    (hr : r ∈ Function.update own table (own table ++ [row]) table') :
    r ∈ own table' ∨ table' = table ∧ r = row := by
  rcases eq_or_ne table' table with rfl | hne
  · rw [Function.update_self] at hr
    rcases List.mem_append.mp hr with hr | hr
    · exact .inl hr
    · exact .inr ⟨rfl, List.mem_singleton.mp hr⟩
  · rw [Function.update_of_ne hne] at hr
    exact .inl hr

theorem insert (h : s.Consistent sv) (hw : s.writing t = some own)
    (hlock : s.locks (sv.lockKey table new.tenantId) = none ∨
      s.locks (sv.lockKey table new.tenantId) = some t)
    (htenant : ¬(table = .auditEvents ∧ new.tenantId = none)) :
    Consistent sv { s with
      sequence := Function.update s.sequence table (s.sequence table + 1)
      locks := Function.update s.locks (sv.lockKey table new.tenantId) (some t)
      writing := Function.update s.writing t (some (Function.update own table (own table ++
        [sv.chain (s.committed table ++ own table) (s.sequence table) new]))) } := by
  set row := sv.chain (s.committed table ++ own table) (s.sequence table) new with hrow
  have hseq : ∀ table', s.sequence table' ≤
      Function.update s.sequence table (s.sequence table + 1) table' := by
    intro table'
    rcases eq_or_ne table' table with rfl | hne
    · rw [Function.update_self]
      exact Nat.le_succ _
    · rw [Function.update_of_ne hne]
  -- A lock that was there before is still there.
  have hkeep : ∀ key t', s.locks key = some t' →
      Function.update s.locks (sv.lockKey table new.tenantId) (some t) key = some t' := by
    intro key t' hkey
    rcases eq_or_ne key (sv.lockKey table new.tenantId) with rfl | hne
    · rcases hlock with hnone | hsome
      · rw [hnone] at hkey
        cases hkey
      · rw [Function.update_self, ← hsome, hkey]
    · rw [Function.update_of_ne hne, hkey]
  refine ⟨?_, ?_, ?_, h.tenant, ?_⟩
  · intro t' own' table' r hw' hr
    rcases Foundations.update_eq_some.mp hw' with ⟨rfl, hnew⟩ | ⟨-, hold⟩
    · cases hnew
      rcases mem_inserted hr with hr | ⟨rfl, rfl⟩
      · exact hkeep _ _ (h.lock t' own table' r hw hr)
      · exact Function.update_self ..
    · exact hkeep _ _ (h.lock t' own' table' r hold hr)
  · intro table' tenantId
    exact (h.committed table' tenantId).mono (hseq table')
  · intro t' own' table' tenantId hw'
    rcases Foundations.update_eq_some.mp hw' with ⟨rfl, hnew⟩ | ⟨-, hold⟩
    · cases hnew
      show sv.IsChained (Function.update s.sequence table (s.sequence table + 1) table')
        (rowsOf tenantId (s.committed table' ++
          Function.update own table (own table ++ [row]) table'))
      rcases eq_or_ne table' table with rfl | hne
      · rw [Function.update_self, Function.update_self, ← List.append_assoc, rowsOf,
          List.filter_append]
        by_cases hten : new.tenantId = tenantId
        · subst hten
          have hself : [row].filter (fun r => decide (r.tenantId = new.tenantId)) = [row] := by
            simp [hrow, Server.chain]
          rw [hself]
          exact (h.visible t' own table' new.tenantId hw).chain
        · have hself : [row].filter (fun r => decide (r.tenantId = tenantId)) = [] := by
            simp [hrow, Server.chain, hten]
          rw [hself, List.append_nil]
          exact (h.visible t' own table' tenantId hw).mono (Nat.le_succ _)
      · rw [Function.update_of_ne hne, Function.update_of_ne hne]
        exact h.visible t' own table' tenantId hw
    · exact (h.visible t' own' table' tenantId hold).mono (hseq table')
  · intro t' own' hw' r hr
    rcases Foundations.update_eq_some.mp hw' with ⟨rfl, hnew⟩ | ⟨-, hold⟩
    · cases hnew
      rcases mem_inserted hr with hr | ⟨rfl, rfl⟩
      · exact h.ownTenant t' own hw r hr
      · exact fun hnone => htenant ⟨rfl, hnone⟩
    · exact h.ownTenant t' own' hold r hr

theorem commit (h : s.Consistent sv) (hw : s.writing t = some own) :
    Consistent sv { s.finish t with
      committed := fun table => s.committed table ++ own table } where
  lock := h.finish.lock
  committed := fun table' tenantId => h.visible t own table' tenantId hw
  visible := by
    intro t' own' table' tenantId hw'
    rcases Foundations.update_eq_some.mp hw' with ⟨-, hnew⟩ | ⟨hne, hold⟩
    · cases hnew
    -- At most one of the two transactions has rows of the tenant.
    · show sv.IsChained _ (rowsOf tenantId (s.committed table' ++ own table' ++ own' table'))
      by_cases hown : rowsOf tenantId (own table') = []
      · have hskip : rowsOf tenantId (s.committed table' ++ own table' ++ own' table') =
            rowsOf tenantId (s.committed table' ++ own' table') := by
          simp only [rowsOf, List.filter_append] at hown ⊢
          rw [hown, List.append_nil]
        rw [hskip]
        exact h.visible t' own' table' tenantId hold
      · obtain ⟨r, hr⟩ := List.exists_mem_of_ne_nil _ hown
        obtain ⟨hr, htenant⟩ := List.mem_filter.mp hr
        have hlock := h.lock t own table' r hw hr
        rw [of_decide_eq_true htenant] at hlock
        have hother := h.rowsOf_eq_nil hne hold hlock
        have hskip : rowsOf tenantId (s.committed table' ++ own table' ++ own' table') =
            rowsOf tenantId (s.committed table' ++ own table') := by
          simp only [rowsOf, List.filter_append] at hother ⊢
          rw [hother, List.append_nil]
        rw [hskip]
        exact h.visible t own table' tenantId hw
  tenant := by
    intro r hr
    rcases List.mem_append.mp hr with hr | hr
    · exact h.tenant r hr
    · exact h.ownTenant t own hw r hr
  ownTenant := h.finish.ownTenant

theorem step {s s' : ChainSystem} {a : ChainAction} (h : s.Consistent sv)
    (hs : sv.step s a = some s') : s'.Consistent sv := by
  cases a with
  | begin t =>
      simp only [Server.step] at hs
      split at hs
      next =>
        cases hs
        exact h.begin
      next => cases hs
  | insert t table new =>
      simp only [Server.step] at hs
      split at hs
      next => cases hs
      next own hw =>
        split at hs
        next => cases hs
        next hlock =>
          split at hs
          next =>
            cases hs
            exact h.finish
          next htenant =>
            cases hs
            rw [not_and_or, not_not, not_not] at hlock
            exact h.insert hw hlock htenant
  | commit t =>
      simp only [Server.step] at hs
      split at hs
      next => cases hs
      next own hw =>
        cases hs
        exact h.commit hw
  | abort t =>
      simp only [Server.step] at hs
      split at hs
      next => cases hs
      next =>
        cases hs
        exact h.finish

theorem of_premigration {s : ChainSystem} (h : s.Premigration) : s.Consistent sv where
  lock := by
    intro t own table r hw
    rw [h.idle] at hw
    cases hw
  committed := by
    intro table tenantId
    refine ⟨rowsOf tenantId (s.committed table), [], (List.append_nil _).symm, ?_⟩
    exact ⟨fun r hr => h.null table r (List.mem_of_mem_filter hr), nofun, List.Pairwise.nil,
      fun _ => trivial⟩
  visible := by
    intro t own table tenantId hw
    rw [h.idle] at hw
    cases hw
  tenant := h.tenant
  ownTenant := by
    intro t own hw
    rw [h.idle] at hw
    cases hw

end ChainSystem.Consistent

/-! ## No false alarm -/

/-- A tenant has rows from before the migration and chained rows in one table. -/
def ChainSystem.Mixed (s : ChainSystem) (table : ChainedTable) (tenantId : Option Uuid) : Prop :=
  (∃ r ∈ s.committed table, r.tenantId = tenantId ∧ r.chainSeq = none) ∧
    ∃ r ∈ s.committed table, r.tenantId = tenantId ∧ r.chainSeq ≠ none

theorem byChainSeq_eq_nil {α : Type} {seq : α → Option Nat} {rows : List α} :
    byChainSeq seq rows = [] ↔ rows = [] := by
  constructor
  · intro h
    rw [byChainSeq, List.append_eq_nil_iff, List.filter_eq_nil_iff] at h
    have hperm := List.mergeSort_perm (rows.filter fun r => (seq r).isSome)
      fun a b => decide ((seq a).getD 0 ≤ (seq b).getD 0)
    rw [h.1] at hperm
    have hsome := List.filter_eq_nil_iff.mp hperm.symm.eq_nil
    refine List.eq_nil_iff_forall_not_mem.mpr fun r hr => ?_
    cases hseq : seq r with
    | none => exact h.2 r hr (by rw [hseq]; rfl)
    | some n => exact hsome r hr (by rw [hseq]; rfl)
  · rintro rfl
    simp [byChainSeq]

/-- The partition of a tenant is clean unless the tenant is mixed. -/
theorem ChainSystem.Consistent.clean_iff {s : ChainSystem} (h : s.Consistent sv)
    (table : ChainedTable) (tenantId : Option Uuid) :
    (lag none (byChainSeq Event.chainSeq (rowsOf tenantId (s.committed table)))).filter
      sv.isBroken = [] ↔ ¬s.Mixed table tenantId := by
  obtain ⟨old, new, hrows, hchained⟩ := h.committed table tenantId
  have hmem : ∀ r, r ∈ old ++ new ↔ r ∈ s.committed table ∧ r.tenantId = tenantId := by
    intro r
    rw [← hrows, rowsOf, List.mem_filter, decide_eq_true_eq]
  rw [hrows, List.filter_eq_nil_iff]
  simp only [Bool.not_eq_true]
  rw [hchained.clean_iff]
  constructor
  · rintro hor ⟨⟨r, hr, hten, hnone⟩, ⟨r', hr', hten', hsome⟩⟩
    rcases hor with rfl | rfl
    · obtain ⟨-, n, -, hseq⟩ := hchained.hashed r (by simpa using (hmem r).mpr ⟨hr, hten⟩)
      rw [hnone] at hseq
      cases hseq
    · exact hsome (hchained.null r' (by simpa using (hmem r').mpr ⟨hr', hten'⟩)).2.2
  · intro hmixed
    by_contra hboth
    rw [not_or] at hboth
    obtain ⟨r, hr⟩ := List.exists_mem_of_ne_nil _ hboth.1
    obtain ⟨r', hr'⟩ := List.exists_mem_of_ne_nil _ hboth.2
    obtain ⟨hc, hten⟩ := (hmem r).mp (List.mem_append_left _ hr)
    obtain ⟨hc', hten'⟩ := (hmem r').mp (List.mem_append_right _ hr')
    obtain ⟨-, n, -, hseq⟩ := hchained.hashed r' hr'
    exact hmixed ⟨⟨r, hc, hten, (hchained.null r hr).2.2⟩,
      ⟨r', hc', hten', by rw [hseq]; exact nofun⟩⟩

/-- What an empty report says, table by table and partition by partition. -/
theorem Server.verifyChain_eq_nil {rows : ChainedTable → List Event} {tenantId : Option Uuid} :
    sv.verifyChain tenantId rows = [] ↔ ∀ table, ¬(table = .auditEvents ∧ tenantId = none) →
      ∀ part ∈ partitions tenantId (rows table),
        (lag none (byChainSeq Event.chainSeq part)).filter sv.isBroken = [] := by
  simp only [verifyChain, List.flatMap_eq_nil_iff, List.mem_cons, List.not_mem_nil, or_false]
  constructor
  · intro h table hskip part hpart
    have htable := h table (by cases table <;> simp)
    rw [if_neg hskip, List.map_eq_nil_iff, brokenRows, byChainSeq_eq_nil,
      List.flatMap_eq_nil_iff] at htable
    exact htable part hpart
  · intro h table _
    split
    next => rfl
    next hskip =>
      rw [List.map_eq_nil_iff, brokenRows, byChainSeq_eq_nil, List.flatMap_eq_nil_iff]
      exact h table hskip

theorem ChainSystem.Consistent.verifyChain_iff {s : ChainSystem} (h : s.Consistent sv) :
    (∀ tenantId, sv.verifyChain tenantId s.committed = []) ↔
      ∀ table tenantId, ¬s.Mixed table tenantId := by
  simp only [Server.verifyChain_eq_nil]
  constructor
  · intro hclean table tenantId hmixed
    have hpart : rowsOf tenantId (s.committed table) ∈ partitions tenantId (s.committed table) := by
      cases tenantId with
      | some t => exact List.mem_singleton_self _
      | none =>
          obtain ⟨⟨r, hr, hten, -⟩, -⟩ := hmixed
          refine List.mem_map.mpr ⟨none, List.mem_dedup.mpr ?_, rfl⟩
          exact List.mem_map.mpr ⟨r, hr, hten⟩
    have hskip : ¬(table = .auditEvents ∧ tenantId = none) := by
      rintro ⟨rfl, rfl⟩
      obtain ⟨⟨r, hr, hten, -⟩, -⟩ := hmixed
      exact h.tenant r hr hten
    exact (h.clean_iff table tenantId).mp (hclean tenantId table hskip _ hpart) hmixed
  · intro hpure tenantId table _ part hpart
    cases tenantId with
    | some t =>
        rw [List.mem_singleton.mp hpart]
        exact (h.clean_iff table (some t)).mpr (hpure table (some t))
    | none =>
        obtain ⟨t, -, rfl⟩ := List.mem_map.mp hpart
        exact (h.clean_iff table t).mpr (hpure table t)

/-- After every run from the migrated tables, in any interleaving, the verifier
reports nothing for any tenant exactly when no tenant has rows of both kinds in one
table. -/
theorem verifyChain_empty_iff {s₀ s : ChainSystem} (h₀ : s₀.Premigration)
    (hrun : Foundations.Run (fun _ _ => True) (fun s a s' => sv.step s a = some s') s₀ s) :
    (∀ tenantId, sv.verifyChain tenantId s.committed = []) ↔
      ∀ table tenantId, ¬s.Mixed table tenantId := by
  have h : s.Consistent sv :=
    hrun.invariant (fun _ _ _ hs _ hstep => hs.step hstep) (.of_premigration h₀)
  exact h.verifyChain_iff

/-- A login recorded for tenant `1`. -/
def loginEvent : Event :=
  ⟨1, some 1, some 7, "auth.login", "user", some 7, 0, "\x7b\x7d", none, none, none⟩

/-- Tables with these rows of `security_events` from before the migration. -/
def migrated (rows : List Event) : ChainSystem where
  committed
    | .auditEvents => []
    | .securityEvents => rows
  sequence := fun _ => 1
  locks := fun _ => none
  writing := fun _ => none

theorem migrated_premigration {rows : List Event}
    (h : ∀ r ∈ rows, r.prevHash = none ∧ r.hash = none ∧ r.chainSeq = none) :
    (migrated rows).Premigration where
  null := by
    intro table r hr
    cases table with
    | auditEvents => cases hr
    | securityEvents => exact h r hr
  tenant := nofun
  idle := fun _ => rfl

/-- The row that one login adds to a table. -/
theorem login_run (sv : Server) (rows : List Event) :
    ∃ s row, Foundations.Run (fun _ _ => True) (fun s a s' => sv.step s a = some s')
        (migrated rows) s ∧ row.tenantId = some 1 ∧ row.chainSeq = some 1 ∧
      s.committed .securityEvents = rows ++ [row] ∧ s.committed .auditEvents = [] := by
  refine ⟨_, sv.chain (rows ++ []) 1 loginEvent, Foundations.Run.of_foldlM
    [.begin 0, .insert 0 .securityEvents loginEvent, .commit 0] rfl, ?_⟩
  exact ⟨rfl, rfl, rfl, rfl⟩

/-- On a table without old rows one login is reported on no server. -/
theorem verifyChain_empty_login :
    ¬∃ sv : Server, ¬∃ s, Foundations.Run (fun _ _ => True)
      (fun s a s' => sv.step s a = some s') (migrated []) s ∧
      s.committed .securityEvents ≠ [] ∧ ∀ tenantId, sv.verifyChain tenantId s.committed = [] := by
  rintro ⟨sv, hnone⟩
  obtain ⟨s, row, hrun, -, hseq, hsecurity, haudit⟩ := login_run sv []
  have hmigrated : (migrated []).Premigration := migrated_premigration (by simp)
  refine hnone ⟨s, hrun, by simp [hsecurity], ?_⟩
  refine (verifyChain_empty_iff hmigrated hrun).mpr ?_
  rintro table tenantId ⟨⟨r, hr, -, hnull⟩, -⟩
  cases table with
  | auditEvents =>
      rw [haudit] at hr
      cases hr
  | securityEvents =>
      rw [hsecurity, List.nil_append, List.mem_singleton] at hr
      rw [hr, hseq] at hnull
      cases hnull

/-- With one row from before the migration, one login is reported on every server. -/
theorem verifyChain_false_alarm :
    ¬∃ sv : Server, ∀ s₀ s : ChainSystem, s₀.Premigration →
      Foundations.Run (fun _ _ => True) (fun s a s' => sv.step s a = some s') s₀ s →
      ∀ tenantId, sv.verifyChain tenantId s.committed = [] := by
  rintro ⟨sv, hclaim⟩
  have hmigrated : (migrated [loginEvent]).Premigration :=
    migrated_premigration (by simp [loginEvent])
  obtain ⟨s, row, hrun, hten, hseq, hsecurity, -⟩ := login_run sv [loginEvent]
  have hconsistent : s.Consistent sv :=
    hrun.invariant (fun _ _ _ hs _ hstep => hs.step hstep) (.of_premigration hmigrated)
  refine hconsistent.verifyChain_iff.mp (hclaim _ s hmigrated hrun) .securityEvents (some 1) ?_
  refine ⟨⟨loginEvent, ?_, rfl, rfl⟩, ⟨row, ?_, hten, by rw [hseq]; exact nofun⟩⟩
  · rw [hsecurity]
    exact List.mem_cons_self
  · rw [hsecurity]
    exact List.mem_cons_of_mem _ (List.mem_singleton_self _)

end Nexora.Audit
