import Nexora.Audit.Chain
import Nexora.Foundations.Delimited
import Mathlib.Data.List.Nodup
import Mathlib.Logic.Equiv.List

/-!
# Tamper evidence

What `verify_chain` finds when someone with access to the tables has rewritten hashed
fields, deleted rows or moved rows to other places of the order.

The text under the hash tells the fields of a row and the hash before it, so without
collisions the last hash of a chain tells the whole chain (`Server.Linked.content_eq`).  A
table that the verifier accepts is a chain whose last hash the trigger has written, and so it
is the chain that the trigger wrote up to there (`tamper_evident`).
-/

namespace Nexora.Audit

open Nexora Foundations

/-! ## The text under the hash -/

/-- The digest has no collisions, digests and timestamps are written on one line, and the text
of a timestamp tells the timestamp. -/
structure Server.CollisionFree (sv : Server) : Prop where
  sha256 : Function.Injective sv.sha256
  digestLine : ∀ text, sv.sha256 text ≠ "" ∧ '\n' ∉ (sv.sha256 text).toList
  timestamp : Function.Injective sv.timestampText
  timestampLine : ∀ occurredAt, '\n' ∉ (sv.timestampText occurredAt).toList

/-- The fields of a row that its hash covers. -/
structure HashedFields where
  tenantId : Option Uuid
  actorUserId : Option Uuid
  action : String
  resourceType : String
  resourceId : Option Uuid
  occurredAt : Nat
  metadata : String
deriving DecidableEq

def Event.fields (e : Event) : HashedFields :=
  ⟨e.tenantId, e.actorUserId, e.action, e.resourceType, e.resourceId, e.occurredAt, e.metadata⟩

/-- The action and the type of the resource are words on one line. -/
def Event.OneLine (e : Event) : Prop :=
  '\n' ∉ e.action.toList ∧ '\n' ∉ e.resourceType.toList

/-- `COALESCE(…::text, '')`. -/
def uuidText (id : Option Uuid) : String :=
  (id.map toString).getD ""

theorem uuidText_injective : Function.Injective uuidText := by
  have hne : ∀ id : Uuid, toString id ≠ "" := fun id => Nat.repr_ne_empty
  intro id id' h
  cases id with
  | none =>
      cases id' with
      | none => rfl
      | some id' => exact absurd h.symm (hne id')
  | some id =>
      cases id' with
      | none => exact absurd h (hne id)
      | some id' => exact congrArg some (toString_injective h)

theorem newline_notMem_uuidText (id : Option Uuid) : '\n' ∉ (uuidText id).toList := by
  cases id with
  | none => exact List.not_mem_nil
  | some id =>
      show '\n' ∉ (toString id).toList
      rw [Nat.toString_eq_repr, Nat.toList_repr]
      exact notMem_toDigits (by decide) id

variable {sv : Server}

/-- The hash before a row is a digest, when there is one. -/
def Server.IsDigest (sv : Server) (prev : Option String) : Prop :=
  ∀ hash ∈ prev, ∃ text, hash = sv.sha256 text

theorem Server.CollisionFree.newline_notMem {prev : Option String} (h : sv.CollisionFree)
    (hprev : sv.IsDigest prev) : '\n' ∉ (prev.getD "").toList := by
  cases prev with
  | none => exact List.not_mem_nil
  | some hash =>
      obtain ⟨text, rfl⟩ := hprev hash rfl
      exact (h.digestLine text).2

theorem Server.CollisionFree.getD_inj {prev prev' : Option String} (h : sv.CollisionFree)
    (hprev : sv.IsDigest prev) (hprev' : sv.IsDigest prev')
    (heq : prev.getD "" = prev'.getD "") : prev = prev' := by
  cases prev with
  | none =>
      cases prev' with
      | none => rfl
      | some hash =>
          obtain ⟨text, rfl⟩ := hprev' hash rfl
          exact absurd heq.symm (h.digestLine text).1
  | some hash =>
      cases prev' with
      | none =>
          obtain ⟨text, rfl⟩ := hprev hash rfl
          exact absurd heq (h.digestLine text).1
      | some hash' => exact congrArg some heq

/-- The fields as they stand in the text, up to the metadata. -/
def Server.textFields (sv : Server) (prev : Option String) (e : Event) : List (List Char) :=
  [(prev.getD "").toList, (uuidText e.tenantId).toList, (uuidText e.actorUserId).toList,
    e.action.toList, e.resourceType.toList, (uuidText e.resourceId).toList,
    (sv.timestampText e.occurredAt).toList]

/-- The hash is one of the fields, line by line, and the metadata. -/
theorem Server.chainHash_eq (sv : Server) (prev : Option String) (e : Event) :
    sv.chainHash prev e =
      sv.sha256 (.ofList (delimited '\n' (sv.textFields prev e) e.metadata.toList)) := by
  unfold chainHash
  congr 1
  refine String.toList_injective ?_
  simp [textFields, delimited, uuidText]

theorem Server.CollisionFree.textFields_lines (h : sv.CollisionFree) {prev : Option String}
    {e : Event} (hprev : sv.IsDigest prev) (he : e.OneLine) :
    ∀ field ∈ sv.textFields prev e, '\n' ∉ field := by
  simp only [textFields, List.forall_mem_cons]
  exact ⟨h.newline_notMem hprev, newline_notMem_uuidText _, newline_notMem_uuidText _, he.1, he.2,
    newline_notMem_uuidText _, h.timestampLine _, nofun⟩

/-- The hash of a row tells its fields and the hash before it. -/
theorem Server.CollisionFree.chainHash_inj (h : sv.CollisionFree) {prev prev' : Option String}
    {e e' : Event} (hprev : sv.IsDigest prev) (hprev' : sv.IsDigest prev') (he : e.OneLine)
    (he' : e'.OneLine) (heq : sv.chainHash prev e = sv.chainHash prev' e') :
    prev = prev' ∧ e.fields = e'.fields := by
  rw [Server.chainHash_eq, Server.chainHash_eq] at heq
  have htext := String.ofList_injective (h.sha256 heq)
  have hlength : (sv.textFields prev e).length = (sv.textFields prev' e').length := rfl
  obtain ⟨hfields, hmetadata⟩ := delimited_inj hlength (h.textFields_lines hprev he)
    (h.textFields_lines hprev' he') htext
  simp only [Server.textFields, List.cons.injEq, String.toList_inj, and_true] at hfields
  obtain ⟨hprevText, htenant, hactor, haction, htype, hresource, htime⟩ := hfields
  refine ⟨h.getD_inj hprev hprev' hprevText, ?_⟩
  simp only [Event.fields, HashedFields.mk.injEq]
  exact ⟨uuidText_injective htenant, uuidText_injective hactor, haction, htype,
    uuidText_injective hresource, h.timestamp htime, String.toList_injective hmetadata⟩

/-! ## Chains -/

/-- What a hash binds: the hashed fields, and the hashes as they are stored. -/
def Event.content (e : Event) : HashedFields × Option String × Option String :=
  (e.fields, e.prevHash, e.hash)

/-- The hash of the last row, or `prev` when there is none. -/
def lastHash (prev : Option String) (es : List Event) : Option String :=
  es.getLast?.elim prev Event.hash

theorem lastHash_snoc (prev : Option String) (es : List Event) (e : Event) :
    lastHash prev (es ++ [e]) = e.hash := by
  simp [lastHash]

theorem Server.Linked.isDigest {es : List Event} (h : sv.Linked none es) :
    sv.IsDigest (lastHash none es) := by
  induction es using List.reverseRecOn with
  | nil => exact nofun
  | append_singleton es e _ =>
      obtain ⟨-, -, hhash⟩ := Server.linked_snoc.mp h
      rw [lastHash_snoc, hhash, Server.chainHash_eq]
      rintro _ ⟨⟩
      exact ⟨_, rfl⟩

theorem Server.linked_append {prev : Option String} {es es' : List Event} :
    sv.Linked prev (es ++ es') ↔ sv.Linked prev es ∧ sv.Linked (lastHash prev es) es' := by
  induction es generalizing prev with
  | nil => simp [Linked, lastHash]
  | cons e es ih =>
      rw [List.cons_append]
      simp only [Linked, ih, and_assoc]
      rw [lastHash, lastHash, getLast?_cons_elim]

/-- Two chains with the same last hash are the same chain. -/
theorem Server.Linked.content_eq (h : sv.CollisionFree) {as bs : List Event}
    (has : sv.Linked none as) (hbs : sv.Linked none bs) (hlineA : ∀ e ∈ as, e.OneLine)
    (hlineB : ∀ e ∈ bs, e.OneLine) (hlast : lastHash none as = lastHash none bs) :
    as.map Event.content = bs.map Event.content := by
  induction as using List.reverseRecOn generalizing bs with
  | nil =>
      induction bs using List.reverseRecOn with
      | nil => rfl
      | append_singleton bs b _ =>
          obtain ⟨-, -, hhash⟩ := Server.linked_snoc.mp hbs
          rw [lastHash_snoc, hhash] at hlast
          cases hlast
  | append_singleton as a ih =>
      obtain ⟨hA, hprevA, hhashA⟩ := Server.linked_snoc.mp has
      induction bs using List.reverseRecOn with
      | nil =>
          rw [lastHash_snoc, hhashA] at hlast
          cases hlast
      | append_singleton bs b _ =>
          obtain ⟨hB, hprevB, hhashB⟩ := Server.linked_snoc.mp hbs
          simp only [List.forall_mem_append, List.forall_mem_singleton] at hlineA hlineB
          rw [lastHash_snoc, lastHash_snoc] at hlast
          have hhash := hlast
          rw [hhashA, hhashB] at hhash
          -- The last rows have the same hash before them, so the chains agree up to there.
          obtain ⟨hprev, hfields⟩ := h.chainHash_inj hA.isDigest hB.isDigest hlineA.2 hlineB.2
            (Option.some.inj hhash)
          rw [List.map_append, List.map_append, ih hA hB hlineA.1 hlineB.1 hprev, List.map_singleton,
            List.map_singleton]
          have hcontent : a.content = b.content := by
            rw [Event.content, Event.content, hfields, hprevA, hprevB, hlast]
            exact congrArg (fun prev => (b.fields, prev, b.hash)) hprev
          rw [hcontent]

/-- A chain up to one of its rows. -/
theorem Server.Linked.upTo {es : List Event} (hes : sv.Linked none es) {e : Event} (he : e ∈ es) :
    ∃ before after, es = before ++ e :: after ∧ sv.Linked none (before ++ [e]) := by
  obtain ⟨before, after, rfl⟩ := List.append_of_mem he
  refine ⟨before, after, rfl, ?_⟩
  rw [← List.singleton_append, ← List.append_assoc] at hes
  exact (Server.linked_append.mp hes).1

theorem Server.Linked.hash_isSome {prev : Option String} {es : List Event}
    (h : sv.Linked prev es) : ∀ e ∈ es, e.hash.isSome := by
  induction es generalizing prev with
  | nil => exact nofun
  | cons e es ih =>
      obtain ⟨-, hhash, hrest⟩ := h
      rw [List.forall_mem_cons, hhash]
      exact ⟨rfl, ih hrest⟩

/-- No two rows of a chain have the same hash. -/
theorem Server.Linked.nodup (h : sv.CollisionFree) {es : List Event} (hes : sv.Linked none es)
    (hline : ∀ e ∈ es, e.OneLine) : (es.map Event.hash).Nodup := by
  induction es using List.reverseRecOn with
  | nil => exact List.nodup_nil
  | append_singleton es e ih =>
      have hinit := (Server.linked_append.mp hes).1
      rw [List.map_append, List.map_singleton, List.nodup_append_comm, List.singleton_append,
        List.nodup_cons]
      refine ⟨fun hmem => ?_, ih hinit fun e' he' => hline e' (List.mem_append_left _ he')⟩
      obtain ⟨twin, htwin, hhash⟩ := List.mem_map.mp hmem
      obtain ⟨before, after, rfl, hbefore⟩ := hinit.upTo htwin
      -- The chain up to the twin has the same last hash, but it is shorter.
      have hcontent := hbefore.content_eq h hes
        (fun e' he' => hline e' (by
          rw [List.mem_append, List.mem_singleton] at he'
          rcases he' with he' | rfl <;> simp [*]))
        hline (by rw [lastHash_snoc, lastHash_snoc, hhash])
      have hlength := congrArg List.length hcontent
      simp at hlength

/-- What the verifier does not report is a chain, if its rows have hashes. -/
theorem Server.linked_of_not_isBroken {prev : Option String} {es : List Event}
    (hhash : ∀ e ∈ es, e.hash.isSome) (h : ∀ row ∈ lag prev es, sv.isBroken row = false) :
    sv.Linked prev es := by
  induction es generalizing prev with
  | nil => trivial
  | cons e es ih =>
      rw [List.forall_mem_cons] at hhash
      obtain ⟨hhead, htail⟩ := List.forall_mem_cons.mp h
      obtain ⟨hash, heq⟩ := Option.isSome_iff_exists.mp hhash.1
      simp only [isBroken, heq, Option.any_some, Bool.or_eq_false_iff, decide_eq_false_iff_not,
        not_not] at hhead
      exact ⟨hhead.1, by rw [heq, hhead.2], ih hhash.2 htail⟩

/-! ## Tampering -/

def Event.withFields (e : Event) (fields : HashedFields) : Event :=
  { e with
    tenantId := fields.tenantId
    actorUserId := fields.actorUserId
    action := fields.action
    resourceType := fields.resourceType
    resourceId := fields.resourceId
    occurredAt := fields.occurredAt
    metadata := fields.metadata }

/-- A row without its place in the order. -/
def Event.unplaced (e : Event) : Event :=
  { e with chainSeq := none }

/-- One rewriting of a table behind the back of the trigger. -/
inductive Tamper : List Event → List Event → Prop where
  | alter (before after : List Event) (e : Event) (fields : HashedFields) :
    Tamper (before ++ e :: after) (before ++ e.withFields fields :: after)
  | delete (before after : List Event) (e : Event) :
    Tamper (before ++ e :: after) (before ++ after)
  | permute {rows rows' : List Event} :
    rows'.map Event.unplaced = rows.map Event.unplaced →
    (rows'.map Event.chainSeq).Perm (rows.map Event.chainSeq) →
    Tamper rows rows'

/-- Any number of rewritings. -/
def Tampered : List Event → List Event → Prop :=
  Relation.ReflTransGen Tamper

/-- A row that is left still has the id and the hashes of a row the trigger wrote. -/
theorem Tampered.stored {rows rows' : List Event} (h : Tampered rows rows') :
    ∀ e' ∈ rows', ∃ e ∈ rows, e'.id = e.id ∧ e'.prevHash = e.prevHash ∧ e'.hash = e.hash := by
  induction h with
  | refl => exact fun e he => ⟨e, he, rfl, rfl, rfl⟩
  | tail _ hstep ih =>
      cases hstep with
      | alter before after e fields =>
          intro e' he'
          rcases List.mem_append.mp he' with he' | he'
          · exact ih e' (List.mem_append_left _ he')
          · rcases List.mem_cons.mp he' with rfl | he'
            · exact ih e (by simp)
            · exact ih e' (by simp [he'])
      | delete before after e =>
          intro e' he'
          rcases List.mem_append.mp he' with he' | he'
          · exact ih e' (List.mem_append_left _ he')
          · exact ih e' (by simp [he'])
      | permute hrows _ =>
          intro e' he'
          have hmem := List.mem_map_of_mem (f := Event.unplaced) he'
          rw [hrows] at hmem
          obtain ⟨e, he, heq⟩ := List.mem_map.mp hmem
          simp only [Event.unplaced, Event.mk.injEq] at heq
          obtain ⟨e₀, he₀, hid, hprev, hhash⟩ := ih e he
          exact ⟨e₀, he₀, heq.1.symm.trans hid, heq.2.2.2.2.2.2.2.2.1.symm.trans hprev,
            heq.2.2.2.2.2.2.2.2.2.1.symm.trans hhash⟩

/-! ## The rows the trigger writes -/

/-- The inserts are of events on one line. -/
def ChainAction.OneLine : ChainSystem → ChainAction → Prop
  | _, .insert _ _ new => new.OneLine
  | _, _ => True

/-- Every row, committed or not, is one that the trigger wrote for an event on one line. -/
structure ChainSystem.Triggered (s : ChainSystem) : Prop where
  committed : ∀ table, ∀ r ∈ s.committed table, r.chainSeq.isSome ∧ r.OneLine
  own : ∀ t own, s.writing t = some own → ∀ table, ∀ r ∈ own table, r.chainSeq.isSome ∧ r.OneLine

namespace ChainSystem.Triggered

variable {s s' : ChainSystem}

theorem finish (h : s.Triggered) (t : Tid) : (s.finish t).Triggered where
  committed := h.committed
  own := by
    intro t' own hw
    rcases Foundations.update_eq_some.mp hw with ⟨-, hnew⟩ | ⟨-, hold⟩
    · cases hnew
    · exact h.own t' own hold

theorem step {action : ChainAction} (h : s.Triggered) (hline : action.OneLine s)
    (hstep : sv.step s action = some s') : s'.Triggered := by
  cases action with
  | begin t =>
      simp only [Server.step] at hstep
      split at hstep
      next =>
        cases hstep
        refine ⟨h.committed, fun t' own hw => ?_⟩
        rcases Foundations.update_eq_some.mp hw with ⟨-, hnew⟩ | ⟨-, hold⟩
        · cases hnew
          exact fun table r hr => absurd hr List.not_mem_nil
        · exact h.own t' own hold
      next => cases hstep
  | insert t table new =>
      simp only [Server.step] at hstep
      split at hstep
      next => cases hstep
      next own hw =>
        split_ifs at hstep
        · cases hstep
          exact h.finish t
        · cases hstep
          refine ⟨h.committed, fun t' own' hw' => ?_⟩
          rcases Foundations.update_eq_some.mp hw' with ⟨rfl, hnew⟩ | ⟨-, hold⟩
          · cases hnew
            intro table' r hr
            rcases ChainSystem.Consistent.mem_inserted hr with hr | ⟨rfl, rfl⟩
            · exact h.own t' own hw table' r hr
            · exact ⟨rfl, hline⟩
          · exact h.own t' own' hold
  | commit t =>
      simp only [Server.step] at hstep
      split at hstep
      next => cases hstep
      next own hw =>
        cases hstep
        refine ⟨fun table r hr => ?_, (h.finish t).own⟩
        rcases List.mem_append.mp hr with hr | hr
        · exact h.committed table r hr
        · exact h.own t own hw table r hr
  | abort t =>
      simp only [Server.step] at hstep
      split at hstep
      next => cases hstep
      next =>
        cases hstep
        exact h.finish t

end ChainSystem.Triggered

/-! ## Tamper evidence -/

/-- The rows of a tenant in the order of the chain. -/
def chainOf (tenantId : Option Uuid) (rows : List Event) : List Event :=
  byChainSeq Event.chainSeq (rowsOf tenantId rows)

theorem mem_byChainSeq {α : Type} {seq : α → Option Nat} {rows : List α} {r : α} :
    r ∈ byChainSeq seq rows ↔ r ∈ rows := by
  rw [byChainSeq, List.mem_append, List.mem_mergeSort, List.mem_filter, List.mem_filter]
  cases seq r <;> simp

theorem mem_chainOf {tenantId : Option Uuid} {rows : List Event} {r : Event} :
    r ∈ chainOf tenantId rows ↔ r ∈ rows ∧ r.tenantId = tenantId := by
  rw [chainOf, mem_byChainSeq, rowsOf, List.mem_filter, decide_eq_true_eq]

/-- A tenant's rows are one chain in the order of their sequence numbers. -/
structure Server.LinearChain (sv : Server) (rows : List Event) : Prop where
  linked : sv.Linked none rows
  ordered : ∃ seqs : List Nat, rows.map Event.chainSeq = seqs.map some ∧ seqs.Pairwise (· < ·)
  /-- No hash is followed by two rows. -/
  unforked : (rows.map Event.hash).Nodup

theorem ChainSystem.Consistent.linearChain {s : ChainSystem} (h : s.Consistent sv)
    (htriggered : s.Triggered) (hsv : sv.CollisionFree) (table : ChainedTable)
    (tenantId : Option Uuid) : sv.LinearChain (chainOf tenantId (s.committed table)) := by
  obtain ⟨old, new, hrows, hchained⟩ := h.committed table tenantId
  have hold : old = [] := by
    refine List.eq_nil_iff_forall_not_mem.mpr fun r hr => ?_
    have hmem : r ∈ rowsOf tenantId (s.committed table) := by
      rw [hrows]
      exact List.mem_append_left _ hr
    have hsome := (htriggered.committed table r (List.mem_filter.mp hmem).1).1
    rw [(hchained.null r hr).2.2] at hsome
    cases hsome
  have hchain : chainOf tenantId (s.committed table) = new := by
    rw [chainOf, hrows, hchained.byChainSeq_eq, hold, List.append_nil]
  have hline : ∀ r ∈ new, r.OneLine := by
    intro r hr
    rw [← hchain] at hr
    exact (htriggered.committed table r (mem_chainOf.mp hr).1).2
  rw [hchain]
  refine ⟨hchained.linked hold, ⟨new.map fun r => r.chainSeq.getD 0, ?_, ?_⟩, ?_⟩
  · rw [List.map_map]
    refine List.map_congr_left fun r hr => ?_
    obtain ⟨-, n, -, hseq⟩ := hchained.hashed r hr
    simp [hseq]
  · exact List.pairwise_map.mpr hchained.sorted
  · exact (hchained.linked hold).nodup hsv hline

/-- The hash of a row of the chain is the one of its fields. -/
theorem Server.Linked.chainHash {prev : Option String} {es : List Event} (h : sv.Linked prev es)
    (hprev : sv.IsDigest prev) :
    ∀ e ∈ es, sv.IsDigest e.prevHash ∧ e.hash = some (sv.chainHash e.prevHash e) := by
  induction es generalizing prev with
  | nil => exact nofun
  | cons e es ih =>
      obtain ⟨hlink, hhash, hrest⟩ := h
      refine List.forall_mem_cons.mpr ⟨by rw [hlink]; exact ⟨hprev, hhash⟩, ih hrest ?_⟩
      rw [hhash, Server.chainHash_eq]
      rintro _ ⟨⟩
      exact ⟨_, rfl⟩

/-- Rows with the same content are the same but for their places, if the hash tells the id. -/
theorem map_unplaced_eq {rows rows' : List Event}
    (hcontent : rows.map Event.content = rows'.map Event.content)
    (hid : ∀ e ∈ rows, ∀ e' ∈ rows', e.hash = e'.hash → e.id = e'.id) :
    rows.map Event.unplaced = rows'.map Event.unplaced := by
  induction rows generalizing rows' with
  | nil =>
      rw [List.map_nil, eq_comm, List.map_eq_nil_iff] at hcontent
      rw [hcontent]
  | cons e rows ih =>
      cases rows' with
      | nil => cases hcontent
      | cons e' rows' =>
          rw [List.map_cons, List.map_cons, List.cons.injEq] at hcontent
          have hhead := hid e List.mem_cons_self e' List.mem_cons_self
            (congrArg (fun content => content.2.2) hcontent.1)
          have htail := ih hcontent.2 fun r hr r' hr' =>
            hid r (List.mem_cons_of_mem e hr) r' (List.mem_cons_of_mem e' hr')
          have hunplaced : e.unplaced = e'.unplaced := by
            have hfields := hcontent.1
            simp only [Event.content, Event.fields, Prod.mk.injEq, HashedFields.mk.injEq] at hfields
            simp [Event.unplaced, hhead, hfields]
          rw [List.map_cons, List.map_cons, hunplaced, htail]

/-- A chain made of rows whose ids and hashes the trigger wrote is the start of the chain that
the trigger wrote. -/
theorem Server.Linked.prefix_of_stored (hsv : sv.CollisionFree) {chain rows : List Event}
    (hrows : sv.Linked none rows) (hchain : sv.LinearChain chain) (hlineR : ∀ e ∈ rows, e.OneLine)
    (hlineC : ∀ e ∈ chain, e.OneLine)
    (hstored : ∀ e ∈ rows, ∃ c ∈ chain, e.id = c.id ∧ e.hash = c.hash) :
    rows.map Event.unplaced <+: chain.map Event.unplaced := by
  rcases List.eq_nil_or_concat rows with rfl | ⟨init, last, rfl⟩
  · exact List.nil_prefix
  · rw [List.concat_eq_append] at *
    obtain ⟨c, hc, -, hhash⟩ := hstored last (by simp)
    obtain ⟨before, after, rfl, hbefore⟩ := hchain.linked.upTo hc
    have hcontent := hrows.content_eq hsv hbefore hlineR
      (fun e he => hlineC e (by
        rw [List.mem_append, List.mem_singleton] at he
        rcases he with he | rfl <;> simp [*]))
      (by rw [lastHash_snoc, lastHash_snoc, hhash])
    -- Rows with the same content have the same id, for the chain has no hash twice.
    have hsame : (init ++ [last]).map Event.unplaced = (before ++ [c]).map Event.unplaced := by
      refine map_unplaced_eq hcontent fun e he e' he' heq => ?_
      obtain ⟨twin, htwin, hid, hhash⟩ := hstored e he
      have hmem : e' ∈ before ++ c :: after := by
        rw [List.mem_append, List.mem_singleton] at he'
        rcases he' with he' | rfl <;> simp [*]
      rw [hid, List.inj_on_of_nodup_map hchain.unforked htwin hmem (hhash.symm.trans heq)]
    rw [hsame]
    exact ⟨after.map Event.unplaced, by simp⟩

/-- Every row has the hash that the trigger computed for it. -/
theorem ChainSystem.Consistent.chainHash {s : ChainSystem} (h : s.Consistent sv)
    (htriggered : s.Triggered) (hsv : sv.CollisionFree) {table : ChainedTable} {r : Event}
    (hr : r ∈ s.committed table) :
    sv.IsDigest r.prevHash ∧ r.hash = some (sv.chainHash r.prevHash r) :=
  (h.linearChain htriggered hsv table r.tenantId).linked.chainHash nofun r
    (mem_chainOf.mpr ⟨hr, rfl⟩)

/-- A row that is left and the verifier accepts was written for the same tenant. -/
theorem ChainSystem.Consistent.stored {s : ChainSystem} (h : s.Consistent sv)
    (htriggered : s.Triggered) (hsv : sv.CollisionFree) {table : ChainedTable}
    {tenantId : Option Uuid} {rows' : List Event} (htampered : Tampered (s.committed table) rows')
    (hline : ∀ r ∈ rows', r.OneLine) (hlinked : sv.Linked none (chainOf tenantId rows')) :
    ∀ e ∈ chainOf tenantId rows', ∃ c ∈ chainOf tenantId (s.committed table),
      e.id = c.id ∧ e.hash = c.hash := by
  intro e he
  obtain ⟨hmem, htenant⟩ := mem_chainOf.mp he
  obtain ⟨c, hc, hid, -, hhash⟩ := htampered.stored e hmem
  obtain ⟨hdigest, heHash⟩ := hlinked.chainHash nofun e he
  obtain ⟨hdigest', hcHash⟩ := h.chainHash htriggered hsv hc
  have hsame : sv.chainHash e.prevHash e = sv.chainHash c.prevHash c :=
    Option.some.inj (heHash.symm.trans (hhash.trans hcHash))
  obtain ⟨-, hfields⟩ := hsv.chainHash_inj hdigest hdigest' (hline e hmem)
    (htriggered.committed table c hc).2 hsame
  have hcTenant : e.tenantId = c.tenantId := congrArg HashedFields.tenantId hfields
  exact ⟨c, mem_chainOf.mpr ⟨hc, hcTenant.symm.trans htenant⟩, hid, hhash⟩

theorem Server.verifyChain_of_linked {rows : ChainedTable → List Event} {tenantId : Uuid}
    (h : ∀ table, sv.Linked none (chainOf (some tenantId) (rows table))) :
    sv.verifyChain (some tenantId) rows = [] := by
  refine Server.verifyChain_eq_nil.mpr fun table _ part hpart => ?_
  rw [List.mem_singleton.mp hpart]
  refine List.filter_eq_nil_iff.mpr fun row hrow => ?_
  exact Bool.eq_false_iff.mp ((h table).not_isBroken row hrow)

/-- From empty tables on, in any interleaving of one-line inserts, the rows of a tenant are one
linear chain.  Whatever of the tables is then rewritten, deleted or moved, if `verify_chain`
reports nothing for the tenant, the tenant's rows are an unaltered start of that chain. -/
theorem tamper_evident {s₀ s : ChainSystem} (hsv : sv.CollisionFree) (h₀ : s₀.Premigration)
    (hempty : ∀ table, s₀.committed table = [])
    (hrun : Run ChainAction.OneLine (fun s a s' => sv.step s a = some s') s₀ s) (tenantId : Uuid) :
    (∀ table, sv.LinearChain (chainOf (some tenantId) (s.committed table))) ∧
      ∀ rows' : ChainedTable → List Event, (∀ table, Tampered (s.committed table) (rows' table)) →
        (∀ table, ∀ r ∈ rows' table, r.OneLine) → sv.verifyChain (some tenantId) rows' = [] →
          ∀ table, (chainOf (some tenantId) (rows' table)).map Event.unplaced <+:
            (chainOf (some tenantId) (s.committed table)).map Event.unplaced := by
  have htriggered : s.Triggered := by
    refine hrun.invariant (fun _ _ _ hs hline hstep => hs.step hline hstep) ⟨?_, ?_⟩
    · intro table r hr
      rw [hempty] at hr
      cases hr
    · intro t own hw
      rw [h₀.idle] at hw
      cases hw
  have hs : s.Consistent sv :=
    hrun.invariant (fun _ _ _ hs _ hstep => hs.step hstep) (.of_premigration h₀)
  refine ⟨fun table => hs.linearChain htriggered hsv table (some tenantId), ?_⟩
  intro rows' htampered hline hverified table
  have hclean := Server.verifyChain_eq_nil.mp hverified table (by simp) _ (List.mem_singleton_self _)
  have hhash : ∀ e ∈ chainOf (some tenantId) (rows' table), e.hash.isSome := by
    intro e he
    obtain ⟨c, hc, -, -, hhash⟩ := (htampered table).stored e (mem_chainOf.mp he).1
    rw [hhash, (hs.chainHash htriggered hsv hc).2]
    rfl
  have hlinked : sv.Linked none (chainOf (some tenantId) (rows' table)) := by
    refine Server.linked_of_not_isBroken hhash fun row hrow => ?_
    exact Bool.eq_false_iff.mpr (List.filter_eq_nil_iff.mp hclean row hrow)
  refine hlinked.prefix_of_stored hsv (hs.linearChain htriggered hsv table (some tenantId)) ?_ ?_ ?_
  · exact fun e he => hline table e (mem_chainOf.mp he).1
  · exact fun e he => (htriggered.committed table e (mem_chainOf.mp he).1).2
  · exact hs.stored htriggered hsv (htampered table) (hline table) hlinked

/-- A digest without collisions, which is SHA-256 on the text of one login after no other row. -/
def loginServer : Server where
  hashtext := fun _ => 0
  sha256 := Function.update
    (fun text => "f" ++ toString (Encodable.encode (text.toList.map Char.toNat)))
    "\n1\n7\nauth.login\nuser\n7\n1970-01-01 00:00:00+00\n\x7b\x7d"
    "8dd04bdac994934b71fbb40c7a4f8ec393ff316e41634776e7921fb8fefcc7b0"
  timestampText := Function.update (fun occurredAt => toString occurredAt) 0 "1970-01-01 00:00:00+00"

theorem injective_update {α β : Type} [DecidableEq α] {f : α → β} (hf : Function.Injective f)
    {a : α} {b : β} (hb : ∀ x, f x ≠ b) : Function.Injective (Function.update f a b) := by
  intro x y h
  rw [Function.update_apply, Function.update_apply] at h
  split_ifs at h with hx hy hy
  · rw [hx, hy]
  · exact absurd h.symm (hb y)
  · exact absurd h (hb x)
  · exact hf h

theorem loginServer_collisionFree : loginServer.CollisionFree where
  sha256 := by
    unfold loginServer
    refine injective_update (fun text text' h => ?_) fun text h => ?_
    · have hnumeral := toString_injective (String.append_right_inj _ |>.mp h)
      exact String.toList_injective
        (List.map_injective_iff.mpr (fun _ _ => Char.toNat_inj.mp) (Encodable.encode_injective hnumeral))
    · have hfirst := congrArg (fun text => text.toList.head?) h
      simp at hfirst
  digestLine := by
    intro text
    unfold loginServer
    dsimp only
    rw [Function.update_apply]
    split
    · decide
    · refine ⟨fun h => ?_, fun h => ?_⟩
      · simp at h
      · simp [Nat.toList_repr, notMem_toDigits] at h
  timestamp := by
    unfold loginServer
    refine injective_update toString_injective fun occurredAt h => ?_
    have hdash : '-' ∈ (toString occurredAt).toList := by
      rw [h]
      decide
    rw [Nat.toString_eq_repr, Nat.toList_repr] at hdash
    exact notMem_toDigits (by decide) occurredAt hdash
  timestampLine := by
    intro occurredAt
    unfold loginServer
    dsimp only
    rw [Function.update_apply]
    split
    · decide
    · rw [Nat.toString_eq_repr, Nat.toList_repr]
      exact notMem_toDigits (by decide) occurredAt

instance (s : ChainSystem) (action : ChainAction) : Decidable (ChainAction.OneLine s action) :=
  match action with
  | .begin _ | .commit _ | .abort _ => .isTrue trivial
  | .insert _ _ e => inferInstanceAs (Decidable ('\n' ∉ e.action.toList ∧ '\n' ∉ e.resourceType.toList))

/-- The rows of two logins of tenant `1`. -/
def firstLogin : Event :=
  loginServer.chain [] 1 loginEvent

def secondLogin : Event :=
  loginServer.chain [firstLogin] 2 loginEvent

theorem logins_run : ∃ s, Run ChainAction.OneLine (fun s a s' => loginServer.step s a = some s')
    (migrated []) s ∧ s.committed .auditEvents = [] ∧
      s.committed .securityEvents = [firstLogin, secondLogin] :=
  ⟨_, Run.of_guarded [.begin 0, .insert 0 .securityEvents loginEvent, .commit 0, .begin 1,
    .insert 1 .securityEvents loginEvent, .commit 1] rfl, rfl, rfl⟩

/-- Of two logins the second is deleted.  The verifier does not see it, and what it sees is the
start of the chain. -/
theorem tamper_evident_deleted :
    ∃ s : ChainSystem, s.committed .securityEvents = [firstLogin, secondLogin] ∧
      loginServer.verifyChain (some 1) (fun table =>
        if table = .securityEvents then [firstLogin] else []) = [] ∧
      (chainOf (some 1) [firstLogin]).map Event.unplaced <+:
        (chainOf (some 1) (s.committed .securityEvents)).map Event.unplaced := by
  obtain ⟨s, hrun, haudit, hsecurity⟩ := logins_run
  have hverified : loginServer.verifyChain (some 1) (fun table =>
      if table = .securityEvents then [firstLogin] else []) = [] := by
    refine Server.verifyChain_of_linked fun table => ?_
    cases table with
    | auditEvents => simp [chainOf, rowsOf, byChainSeq, Server.Linked]
    | securityEvents =>
        simp [chainOf, rowsOf, byChainSeq, Server.Linked, firstLogin, Server.chain, loginEvent,
          latestHash, Server.chainHash]
  refine ⟨s, hsecurity, hverified, ?_⟩
  refine (tamper_evident loginServer_collisionFree (migrated_premigration (by simp)) ?_ hrun
    1).2 _ ?_ ?_ hverified .securityEvents
  · intro table
    cases table <;> rfl
  · intro table
    cases table with
    | auditEvents =>
        rw [haudit]
        exact .refl
    | securityEvents =>
        rw [hsecurity]
        exact .single (.delete [firstLogin] [] secondLogin)
  · intro table r hr
    cases table with
    | auditEvents => cases hr
    | securityEvents =>
        rw [List.mem_singleton.mp hr]
        exact ⟨by decide, by decide⟩

end Nexora.Audit
