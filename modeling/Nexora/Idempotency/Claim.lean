import Nexora.Core.Context
import Nexora.Foundations.Runs

/-!
# Idempotency keys

`claim` and `complete` of `app/modules/idempotency/service.py`, and the five
endpoints that use them, as concurrent transactions under `READ COMMITTED`.

A request claims its key by inserting the key row (`INSERT ... ON CONFLICT DO
NOTHING`).  The insert waits while another transaction has an uncommitted row for
the key.  A request that wins executes, writes its response into the row, and
commits both together.  A request that loses reads the committed row and either
raises or returns the entity recorded in it.

What the endpoints do between `claim` and `complete` is left open: a request may
write any rows as long as they hold the entity it reports, and it may raise at
any point.  Nothing deletes a key row or one of these entities.

`System.Sound` is the invariant: a committed key row is the record of exactly one
committed request, and a request that is executing holds the uncommitted row of a
key that has no committed one.
-/

namespace Nexora.Idempotency

open Nexora

/-! ## Tables -/

/-- `IN_PROGRESS` and `COMPLETED`. -/
inductive KeyStatus where
  | inProgress
  | completed
deriving DecidableEq, Repr

/-- The unique columns `(endpoint, key)` of a key row. -/
abbrev Slot := String × String

/-- `IdempotencyKey` under its slot.  `response_body` is always `{"id": ...}`. -/
structure IdempotencyKey (Digest : Type) where
  requestHash : Digest
  status : KeyStatus
  responseStatus : Option Nat
  responseBody : Option Uuid
deriving DecidableEq, Repr

/-- A written version of a business row, with the columns a replay reads. -/
inductive BusinessRow where
  | sale (id branchId : Uuid)
  | receipt (saleId : Uuid)
  | saleReturn (id : Uuid)
  | invoice (id branchId : Uuid)
  | payment (id : Uuid)
  /-- A row of any other table. -/
  | other (id : Uuid)
deriving DecidableEq, Repr

/-- The branch of a sale.  The latest version of a row comes first. -/
def saleBranch (rows : List BusinessRow) (id : Uuid) : Option Uuid :=
  rows.findSome? fun
    | .sale id' branchId => if id' = id then some branchId else none
    | _ => none

/-- The branch of an invoice. -/
def invoiceBranch (rows : List BusinessRow) (id : Uuid) : Option Uuid :=
  rows.findSome? fun
    | .invoice id' branchId => if id' = id then some branchId else none
    | _ => none

/-! ## Endpoints -/

/-- The operations that take an `Idempotency-Key`. -/
inductive Endpoint where
  | checkout
  | refund
  | issueInvoice
  | salesPayment
  | purchasePayment
deriving DecidableEq, Repr

/-- The endpoint column of the key row. -/
def Endpoint.path : Endpoint → String
  | .checkout => "POST /pos/checkout"
  | .refund => "POST /pos/refunds"
  | .issueInvoice => "POST /invoices/\x7bid\x7d/issue"
  | .salesPayment => "POST /sales/payments"
  | .purchasePayment => "POST /purchases/payments"

/-- The status passed to `complete`. -/
def Endpoint.responseStatus : Endpoint → Nat
  | .issueInvoice => 200
  | _ => 201

/-- What a lost claim does with the stored identifier.  `none` is the fall through
to the operation when the entity is not found. -/
def Endpoint.replay (rows : List BusinessRow) (context : TenantContext) (id : Uuid) :
    Endpoint → Except Err (Option Uuid)
  | .checkout =>
      match saleBranch rows id with
      | none => .ok none
      | some branchId => do
          context.requireBranch branchId
          if .receipt id ∈ rows then .ok (some id)
          else .error (.runtime "Completed sale is missing its receipt")
  | .refund => .ok (if .saleReturn id ∈ rows then some id else none)
  | .issueInvoice =>
      match invoiceBranch rows id with
      | none => .ok none
      | some branchId => do
          context.requireBranch branchId
          .ok (some id)
  | .salesPayment => .ok (if .payment id ∈ rows then some id else none)
  | .purchasePayment => .ok (if .payment id ∈ rows then some id else none)

/-- The rows hold the entity an operation reports as its result. -/
def Endpoint.produces (rows : List BusinessRow) (id : Uuid) : Endpoint → Bool
  | .checkout => (saleBranch rows id).isSome && .receipt id ∈ rows
  | .refund => .saleReturn id ∈ rows
  | .issueInvoice => (invoiceBranch rows id).isSome
  | .salesPayment => .payment id ∈ rows
  | .purchasePayment => .payment id ∈ rows

/-! ## Requests -/

structure Request (Payload : Type) where
  endpoint : Endpoint
  key : String
  payload : Payload
  context : TenantContext
  /-- `payload.branch_id` of a payment. -/
  branchId : Uuid

def Request.slot {Payload : Type} (request : Request Payload) : Slot :=
  (request.endpoint.path, request.key)

/-- What an endpoint raises before it claims. -/
def Request.accept {Payload : Type} (request : Request Payload) : Except Err Unit :=
  match request.endpoint with
  | .salesPayment => request.context.requireBranch request.branchId
  | .purchasePayment => request.context.requireBranch request.branchId
  | _ => .ok ()

/-- `REQUEST_IN_PROGRESS`. -/
def requestInProgress : Err :=
  .conflict "REQUEST_IN_PROGRESS" "An identical request is already being processed."

/-- `IDEMPOTENCY_KEY_REUSE`. -/
def idempotencyKeyReuse : Err :=
  .domainValidation "IDEMPOTENCY_KEY_REUSE"
    "This Idempotency-Key was already used with a different request body."

section Service

variable {Payload Digest : Type}

/-- The rest of `claim` once the insert has lost, on the row the `SELECT` found. -/
def claimExisting [DecidableEq Digest] (digest : Digest) :
    Option (IdempotencyKey Digest) → Except Err (Option Uuid × Option Nat)
  | none => .error requestInProgress
  | some existing =>
      if existing.requestHash ≠ digest then .error idempotencyKeyReuse
      else if existing.status = .inProgress then .error requestInProgress
      else .ok (existing.responseBody, existing.responseStatus)

/-- A lost claim and the lookup of what it stored.  `none` goes on to the operation. -/
def replayStored [DecidableEq Digest] (rows : List BusinessRow) (request : Request Payload)
    (digest : Digest) (existing : Option (IdempotencyKey Digest)) : Except Err (Option Uuid) := do
  let (stored, _) ← claimExisting digest existing
  match stored with
  | none => .ok none
  | some id => request.endpoint.replay rows request.context id

/-! ## The system -/

/-- What a request that succeeds returns: the entity and the `replayed` flag. -/
structure Response where
  id : Uuid
  replayed : Bool
deriving DecidableEq, Repr

/-- How far a request has come. -/
inductive Phase where
  /-- Before the insert. -/
  | claiming
  /-- The insert found a row; before the `SELECT`. -/
  | lost
  /-- In the operation. -/
  | executing
  /-- The operation is done; before `complete`. -/
  | completing (id : Uuid)
  /-- The body has returned; before the commit. -/
  | returning (response : Response)
  /-- Committed or rolled back. -/
  | finished (outcome : Except Err Response)
deriving DecidableEq

/-- A request with the rows its transaction has written. -/
structure Tx (Payload : Type) where
  request : Request Payload
  phase : Phase
  rows : List BusinessRow

/-- Committed rows, uncommitted key rows with the transaction that wrote them, and
the requests so far. -/
structure System (Payload Digest : Type) where
  keys : Slot → Option (IdempotencyKey Digest)
  pending : Slot → Option (Nat × IdempotencyKey Digest)
  rows : List BusinessRow
  txs : Nat → Option (Tx Payload)

inductive Action (Payload : Type) where
  | begin (r : Nat) (request : Request Payload)
  | insert (r : Nat)
  | select (r : Nat)
  /-- The operation returns, having written `rows`. -/
  | execute (r : Nat) (rows : List BusinessRow) (id : Uuid)
  | complete (r : Nat)
  | commit (r : Nat)
  /-- The request raises, or its connection is lost. -/
  | fail (r : Nat) (e : Err)
  /-- Another transaction of the program commits rows. -/
  | background (rows : List BusinessRow)

def System.setTx (s : System Payload Digest) (r : Nat) (tx : Tx Payload) :
    System Payload Digest :=
  { s with txs := Function.update s.txs r (some tx) }

/-- The key row of `r` is no longer uncommitted. -/
def System.release (s : System Payload Digest) (r : Nat) : System Payload Digest :=
  { s with pending := fun k => (s.pending k).filter fun held => held.1 ≠ r }

/-- The rollback of `r`. -/
def System.rollback (s : System Payload Digest) (r : Nat) (tx : Tx Payload) (e : Err) :
    System Payload Digest :=
  (s.release r).setTx r { tx with phase := .finished (.error e), rows := [] }

/-- Another transaction has an uncommitted row for the slot. -/
def System.blocked (s : System Payload Digest) (r : Nat) (k : Slot) : Bool :=
  (s.pending k).any fun held => held.1 ≠ r

/-- The key row a statement of `r` that is not blocked sees: its own, or the
committed one. -/
def System.visibleKey (s : System Payload Digest) (k : Slot) : Option (IdempotencyKey Digest) :=
  match s.pending k with
  | some (_, row) => some row
  | none => s.keys k

/-- A write of `r` to the key row. -/
def System.writeKey (s : System Payload Digest) (r : Nat) (k : Slot)
    (row : IdempotencyKey Digest) : System Payload Digest :=
  { s with pending := Function.update s.pending k (some (r, row)) }

/-- `UPDATE idempotency_keys SET status = 'COMPLETED', ...`. -/
def IdempotencyKey.complete (row : IdempotencyKey Digest) (responseStatus : Nat) (id : Uuid) :
    IdempotencyKey Digest :=
  { row with
    status := .completed
    responseStatus := some responseStatus
    responseBody := some id }

/-- The commit of `r`: what it wrote becomes visible. -/
def System.publish (s : System Payload Digest) (r : Nat) (rows : List BusinessRow) :
    System Payload Digest :=
  { s.release r with
    keys := fun k =>
      match (s.pending k).filter fun held => held.1 = r with
      | some (_, row) => some row
      | none => s.keys k
    rows := rows ++ s.rows }

/-- One statement of one request.  `none` is a step that is not enabled, such as an
insert that waits for another transaction. -/
def System.step [DecidableEq Digest] (requestHash : Payload → Digest)
    (s : System Payload Digest) : Action Payload → Option (System Payload Digest)
  | .begin r request =>
      match s.txs r, request.accept with
      | some _, _ => none
      | none, .ok () => some (s.setTx r ⟨request, .claiming, []⟩)
      | none, .error e => some (s.setTx r ⟨request, .finished (.error e), []⟩)
  | .insert r =>
      match s.txs r with
      | some ⟨request, .claiming, rows⟩ =>
          if s.blocked r request.slot then none
          else
            match s.visibleKey request.slot with
            | some _ => some (s.setTx r ⟨request, .lost, rows⟩)
            | none =>
                some ((s.writeKey r request.slot
                  ⟨requestHash request.payload, .inProgress, none, none⟩).setTx r
                  ⟨request, .executing, rows⟩)
      | _ => none
  | .select r =>
      match s.txs r with
      | some ⟨request, .lost, rows⟩ =>
          match replayStored s.rows request (requestHash request.payload)
              (s.keys request.slot) with
          | .error e => some (s.rollback r ⟨request, .lost, rows⟩ e)
          | .ok none => some (s.setTx r ⟨request, .executing, rows⟩)
          | .ok (some id) => some (s.setTx r ⟨request, .returning ⟨id, true⟩, rows⟩)
      | _ => none
  | .execute r written id =>
      match s.txs r with
      | some ⟨request, .executing, rows⟩ =>
          if request.endpoint.produces written id then
            some (s.setTx r ⟨request, .completing id, written ++ rows⟩)
          else none
      | _ => none
  | .complete r =>
      match s.txs r with
      | some ⟨request, .completing id, rows⟩ =>
          if s.blocked r request.slot then none
          else
            match s.visibleKey request.slot with
            | none => some (s.setTx r ⟨request, .returning ⟨id, false⟩, rows⟩)
            | some row =>
                some ((s.writeKey r request.slot
                  (row.complete request.endpoint.responseStatus id)).setTx r
                  ⟨request, .returning ⟨id, false⟩, rows⟩)
      | _ => none
  | .commit r =>
      match s.txs r with
      | some ⟨request, .returning response, rows⟩ =>
          some ((s.publish r rows).setTx r ⟨request, .finished (.ok response), rows⟩)
      | _ => none
  | .fail r e =>
      match s.txs r with
      | some ⟨_, .finished _, _⟩ => none
      | some tx => some (s.rollback r tx e)
      | none => none
  | .background rows => some { s with rows := rows ++ s.rows }

/-! ## What replays and claims say -/

/-- Entities are never deleted: more rows keep those that are there. -/
theorem Endpoint.produces_of_subset {endpoint : Endpoint} {rows rows' : List BusinessRow}
    {id : Uuid} (h : endpoint.produces rows id = true) (hsub : rows ⊆ rows') :
    endpoint.produces rows' id = true := by
  have hfind : ∀ f : BusinessRow → Option Uuid, (rows.findSome? f).isSome = true →
      (rows'.findSome? f).isSome = true := by
    intro f hf
    rw [List.findSome?_isSome_iff] at hf ⊢
    obtain ⟨row, hrow, hf⟩ := hf
    exact ⟨row, hsub hrow, hf⟩
  cases endpoint with
  | checkout =>
      simp only [produces, Bool.and_eq_true, decide_eq_true_eq] at h ⊢
      exact ⟨hfind _ h.1, hsub h.2⟩
  | refund =>
      simp only [produces, decide_eq_true_eq] at h ⊢
      exact hsub h
  | issueInvoice => exact hfind _ h
  | salesPayment =>
      simp only [produces, decide_eq_true_eq] at h ⊢
      exact hsub h
  | purchasePayment =>
      simp only [produces, decide_eq_true_eq] at h ⊢
      exact hsub h

/-- A replay of an entity that is there returns it, if it returns. -/
theorem Endpoint.replay_eq_ok {endpoint : Endpoint} {rows : List BusinessRow}
    {context : TenantContext} {id : Uuid} {found : Option Uuid}
    (hthere : endpoint.produces rows id = true)
    (h : endpoint.replay rows context id = .ok found) : found = some id := by
  cases endpoint with
  | checkout =>
      simp only [produces, Bool.and_eq_true, decide_eq_true_eq] at hthere
      obtain ⟨branchId, hbranch⟩ := Option.isSome_iff_exists.mp hthere.1
      simp only [replay, hbranch, if_pos hthere.2] at h
      obtain ⟨_, -, h⟩ := Foundations.bind_eq_ok.mp h
      cases h
      rfl
  | refund =>
      simp only [produces, decide_eq_true_eq] at hthere
      simp only [replay, if_pos hthere] at h
      cases h
      rfl
  | issueInvoice =>
      obtain ⟨branchId, hbranch⟩ := Option.isSome_iff_exists.mp hthere
      simp only [replay, hbranch] at h
      obtain ⟨_, -, h⟩ := Foundations.bind_eq_ok.mp h
      cases h
      rfl
  | salesPayment =>
      simp only [produces, decide_eq_true_eq] at hthere
      simp only [replay, if_pos hthere] at h
      cases h
      rfl
  | purchasePayment =>
      simp only [produces, decide_eq_true_eq] at hthere
      simp only [replay, if_pos hthere] at h
      cases h
      rfl

theorem Endpoint.path_injective : Function.Injective Endpoint.path := by
  intro a b h
  cases a <;> cases b <;> first | rfl | (exact absurd h (by decide))

/-! ## The invariant -/

/-- `r` has written the uncommitted key row of its request. -/
def System.Holds (requestHash : Payload → Digest) (s : System Payload Digest) (r : Nat)
    (request : Request Payload) (status : KeyStatus) (body : Option Uuid) : Prop :=
  ∃ row, s.pending request.slot = some (r, row) ∧ s.keys request.slot = none ∧
    row.requestHash = requestHash request.payload ∧ row.status = status ∧ row.responseBody = body

/-- The committed key row of a request records its payload and the entity `id`. -/
def System.Records (requestHash : Payload → Digest) (s : System Payload Digest)
    (request : Request Payload) (id : Uuid) : Prop :=
  ∃ row, s.keys request.slot = some row ∧ row.requestHash = requestHash request.payload ∧
    row.responseBody = some id

/-- What is known of a request from how far it has come. -/
def System.TxSound (requestHash : Payload → Digest) (s : System Payload Digest) (r : Nat)
    (tx : Tx Payload) : Prop :=
  match tx.phase with
  | .claiming => tx.rows = []
  | .lost => tx.rows = [] ∧ ∃ row, s.keys tx.request.slot = some row
  | .executing => tx.rows = [] ∧ s.Holds requestHash r tx.request .inProgress none
  | .completing id =>
      tx.request.endpoint.produces tx.rows id = true ∧
        s.Holds requestHash r tx.request .inProgress none
  | .returning ⟨id, false⟩ =>
      tx.request.endpoint.produces tx.rows id = true ∧
        s.Holds requestHash r tx.request .completed (some id)
  | .returning ⟨id, true⟩ => tx.rows = [] ∧ s.Records requestHash tx.request id
  | .finished (.ok ⟨id, false⟩) =>
      tx.request.endpoint.produces tx.rows id = true ∧ s.Records requestHash tx.request id
  | .finished (.ok ⟨id, true⟩) => tx.rows = [] ∧ s.Records requestHash tx.request id
  | .finished (.error _) => tx.rows = []

/-- The request has executed its operation and committed, with the entity `id`. -/
def Tx.Executed (tx : Tx Payload) (id : Uuid) : Prop :=
  tx.phase = .finished (.ok ⟨id, false⟩)

/-- Past a claim that was won and before the end. -/
def Phase.isOpen : Phase → Bool
  | .executing => true
  | .completing _ => true
  | .returning response => !response.replayed
  | _ => false

/-- The invariant of the key table and the requests. -/
structure System.Sound (requestHash : Payload → Digest) (s : System Payload Digest) : Prop where
  tx : ∀ r tx, s.txs r = some tx → s.TxSound requestHash r tx
  /-- A committed key row is the record of a request that executed. -/
  recorded : ∀ k row, s.keys k = some row → row.status = .completed ∧
    ∃ r tx id, s.txs r = some tx ∧ tx.request.slot = k ∧ tx.Executed id ∧
      row.requestHash = requestHash tx.request.payload ∧ row.responseBody = some id ∧
      tx.request.endpoint.produces s.rows id = true
  /-- An uncommitted key row belongs to an open request. -/
  held : ∀ k r row, s.pending k = some (r, row) →
    ∃ tx, s.txs r = some tx ∧ tx.request.slot = k ∧ tx.phase.isOpen = true
  once : ∀ r r' tx tx' id id', s.txs r = some tx → s.txs r' = some tx' →
    tx.request.slot = tx'.request.slot → tx.Executed id → tx'.Executed id' → r = r'

namespace System

variable {requestHash : Payload → Digest} {s s' : System Payload Digest} {r : Nat}
  {tx : Tx Payload}

theorem Records.frame {request : Request Payload} {id : Uuid}
    (h : s.Records requestHash request id)
    (hkeys : ∀ k row, s.keys k = some row → s'.keys k = some row) :
    s'.Records requestHash request id := by
  obtain ⟨row, hrow, hhash, hbody⟩ := h
  exact ⟨row, hkeys _ _ hrow, hhash, hbody⟩

/-- Other requests may commit key rows and release theirs. -/
theorem TxSound.frame (h : s.TxSound requestHash r tx)
    (hkeys : ∀ k row, s.keys k = some row → s'.keys k = some row)
    (hpending : ∀ k row, s.pending k = some (r, row) → s.keys k = none →
      s'.pending k = some (r, row) ∧ s'.keys k = none) :
    s'.TxSound requestHash r tx := by
  have hholds : ∀ status body, s.Holds requestHash r tx.request status body →
      s'.Holds requestHash r tx.request status body := by
    rintro status body ⟨row, hrow, hnone, hrest⟩
    obtain ⟨hrow', hnone'⟩ := hpending _ row hrow hnone
    exact ⟨row, hrow', hnone', hrest⟩
  obtain ⟨request, phase, rows⟩ := tx
  match phase, h with
  | .claiming, h => exact h
  | .lost, ⟨hrows, row, hrow⟩ => exact ⟨hrows, row, hkeys _ _ hrow⟩
  | .executing, ⟨hrows, h⟩ => exact ⟨hrows, hholds _ _ h⟩
  | .completing _, ⟨hrows, h⟩ => exact ⟨hrows, hholds _ _ h⟩
  | .returning ⟨_, false⟩, ⟨hrows, h⟩ => exact ⟨hrows, hholds _ _ h⟩
  | .returning ⟨_, true⟩, ⟨hrows, h⟩ => exact ⟨hrows, h.frame hkeys⟩
  | .finished (.ok ⟨_, false⟩), ⟨hrows, h⟩ => exact ⟨hrows, h.frame hkeys⟩
  | .finished (.ok ⟨_, true⟩), ⟨hrows, h⟩ => exact ⟨hrows, h.frame hkeys⟩
  | .finished (.error _), h => exact h

/-- A step of `r` that commits nothing. -/
theorem Sound.advance (h : s.Sound requestHash)
    (hold : ∀ old id, s.txs r = some old → ¬old.Executed id)
    (htxs : s'.txs = Function.update s.txs r (some tx)) (hkeys : s'.keys = s.keys)
    (hrows : s'.rows = s.rows)
    (hpending : ∀ k r' row, r' ≠ r →
      (s'.pending k = some (r', row) ↔ s.pending k = some (r', row)))
    (hown : ∀ k row, s'.pending k = some (r, row) →
      tx.request.slot = k ∧ tx.phase.isOpen = true)
    (hnew : ∀ id, ¬tx.Executed id) (hsound : s'.TxSound requestHash r tx) :
    s'.Sound requestHash where
  tx := by
    intro r' tx' htx'
    rw [htxs] at htx'
    rcases Foundations.update_eq_some.mp htx' with ⟨rfl, heq⟩ | ⟨hne, htx'⟩
    · cases heq
      exact hsound
    · refine (h.tx r' tx' htx').frame (fun k row hrow => hkeys ▸ hrow) fun k row hrow hnone => ?_
      exact ⟨(hpending k r' row hne).mpr hrow, hkeys ▸ hnone⟩
  recorded := by
    intro k row hrow
    rw [hkeys] at hrow
    obtain ⟨hstatus, r', tx', id, htx', hslot, hexecuted, hhash, hbody, hthere⟩ :=
      h.recorded k row hrow
    have hne : r' ≠ r := by
      rintro rfl
      exact hold tx' id htx' hexecuted
    refine ⟨hstatus, r', tx', id, ?_, hslot, hexecuted, hhash, hbody, hrows ▸ hthere⟩
    rw [htxs]
    exact Foundations.update_eq_some.mpr (.inr ⟨hne, htx'⟩)
  held := by
    intro k r' row hrow
    rw [htxs]
    by_cases hr : r' = r
    · subst hr
      obtain ⟨hslot, hopen⟩ := hown k row hrow
      exact ⟨tx, Function.update_self _ _ _, hslot, hopen⟩
    · obtain ⟨tx', htx', hslot, hopen⟩ := h.held k r' row ((hpending k r' row hr).mp hrow)
      exact ⟨tx', Foundations.update_eq_some.mpr (.inr ⟨hr, htx'⟩), hslot, hopen⟩
  once := by
    intro r₁ r₂ tx₁ tx₂ id₁ id₂ h₁ h₂ hslot hex₁ hex₂
    rw [htxs] at h₁ h₂
    rcases Foundations.update_eq_some.mp h₁ with ⟨-, heq⟩ | ⟨-, h₁⟩
    · cases heq
      exact absurd hex₁ (hnew id₁)
    · rcases Foundations.update_eq_some.mp h₂ with ⟨-, heq⟩ | ⟨-, h₂⟩
      · cases heq
        exact absurd hex₂ (hnew id₂)
      · exact h.once r₁ r₂ tx₁ tx₂ id₁ id₂ h₁ h₂ hslot hex₁ hex₂

/-- A request that has not passed its claim, or has ended, holds no key row. -/
theorem Sound.not_held (h : s.Sound requestHash)
    (hclosed : ∀ tx, s.txs r = some tx → tx.phase.isOpen = false) (k : Slot)
    (row : IdempotencyKey Digest) : s.pending k ≠ some (r, row) := by
  intro hrow
  obtain ⟨tx, htx, -, hopen⟩ := h.held k r row hrow
  rw [hclosed tx htx] at hopen
  cases hopen

theorem pending_release {k : Slot} {r' : Nat} {row : IdempotencyKey Digest} :
    (s.release r).pending k = some (r', row) ↔ r' ≠ r ∧ s.pending k = some (r', row) := by
  show ((s.pending k).filter fun held => held.1 ≠ r) = some (r', row) ↔ _
  rw [Option.filter_eq_some_iff]
  simp [and_comm]

theorem pending_writeKey_of_ne {k k' : Slot} {r' : Nat} {row row' : IdempotencyKey Digest}
    (hfree : s.blocked r k = false) (hne : r' ≠ r) :
    (s.writeKey r k row).pending k' = some (r', row') ↔ s.pending k' = some (r', row') := by
  show Function.update s.pending k (some (r, row)) k' = some (r', row') ↔ _
  rw [Foundations.update_eq_some]
  constructor
  · rintro (⟨-, heq⟩ | ⟨-, hold⟩)
    · cases heq
      exact absurd rfl hne
    · exact hold
  · intro hold
    refine .inr ⟨?_, hold⟩
    rintro rfl
    simp [blocked, hold, hne] at hfree

/-- The rollback of `r` leaves the invariant, the committed rows and the other
requests as they were. -/
theorem Sound.rollback (h : s.Sound requestHash) (htx : s.txs r = some tx)
    (hopen : ∀ id, ¬tx.Executed id) (e : Err) : (s.rollback r tx e).Sound requestHash := by
  refine h.advance (r := r) ?_ rfl rfl rfl (fun k r' row hne => ?_) (fun k row hrow => ?_) nofun rfl
  · intro old id hold
    rw [htx] at hold
    cases hold
    exact hopen id
  · exact pending_release.trans (and_iff_right hne)
  · exact absurd rfl (pending_release.mp hrow).1

/-- A request that goes on without writing to the key table. -/
theorem Sound.setTx {old new : Tx Payload} (h : s.Sound requestHash) (htx : s.txs r = some old)
    (hold : ∀ id, ¬old.Executed id) (hslot : new.request = old.request)
    (hopen : old.phase.isOpen = true → new.phase.isOpen = true) (hnew : ∀ id, ¬new.Executed id)
    (hsound : (s.setTx r new).TxSound requestHash r new) : (s.setTx r new).Sound requestHash := by
  refine h.advance (r := r) ?_ rfl rfl rfl (fun _ _ _ _ => Iff.rfl) ?_ hnew hsound
  · intro old' id hold'
    rw [htx] at hold'
    cases hold'
    exact hold id
  · intro k row hrow
    obtain ⟨tx, htx', hk, ho⟩ := h.held k r row hrow
    rw [htx] at htx'
    cases htx'
    exact ⟨hslot ▸ hk, hopen ho⟩

/-- A request that writes the key row of its slot. -/
theorem Sound.writeKey {request : Request Payload} {phase : Phase} {rows : List BusinessRow}
    {new : Tx Payload} {row : IdempotencyKey Digest} (h : s.Sound requestHash)
    (htx : s.txs r = some ⟨request, phase, rows⟩) (hold : ∀ id, phase ≠ .finished (.ok ⟨id, false⟩))
    (hfree : s.blocked r request.slot = false) (hslot : new.request = request)
    (hopen : new.phase.isOpen = true) (hnew : ∀ id, ¬new.Executed id)
    (hsound : ((s.writeKey r request.slot row).setTx r new).TxSound requestHash r new) :
    ((s.writeKey r request.slot row).setTx r new).Sound requestHash := by
  refine h.advance (r := r) ?_ rfl rfl rfl
    (fun k r' row' hne => pending_writeKey_of_ne hfree hne) ?_ hnew hsound
  · intro old id hold'
    rw [htx] at hold'
    cases hold'
    exact hold id
  · intro k row' hrow'
    rcases Foundations.update_eq_some.mp hrow' with ⟨rfl, -⟩ | ⟨-, hrow'⟩
    · exact ⟨by rw [hslot], hopen⟩
    · obtain ⟨tx, htx', hk, -⟩ := h.held k r row' hrow'
      rw [htx] at htx'
      cases htx'
      exact ⟨by rw [hslot]; exact hk, hopen⟩

/-- An insert that does not wait sees the committed rows. -/
theorem Sound.visibleKey_claiming {request : Request Payload} {rows : List BusinessRow}
    (h : s.Sound requestHash) (htx : s.txs r = some ⟨request, .claiming, rows⟩)
    (hfree : s.blocked r request.slot = false) :
    s.visibleKey request.slot = s.keys request.slot := by
  cases hp : s.pending request.slot with
  | none => simp [visibleKey, hp]
  | some held =>
      obtain ⟨r', row⟩ := held
      have hr : r' = r := by simpa [blocked, hp] using hfree
      subst hr
      obtain ⟨tx, htx', -, hopen⟩ := h.held _ _ row hp
      rw [htx] at htx'
      cases htx'
      cases hopen

theorem keys_publish_of_held {k : Slot} {row : IdempotencyKey Digest} (rows : List BusinessRow)
    (h : s.pending k = some (r, row)) : (s.publish r rows).keys k = some row := by
  simp [publish, h, Option.filter]

theorem keys_publish_of_not_held {k : Slot} (rows : List BusinessRow)
    (h : ∀ row, s.pending k ≠ some (r, row)) : (s.publish r rows).keys k = s.keys k := by
  have hfilter : ((s.pending k).filter fun held => held.1 = r) = none := by
    rw [Option.filter_eq_none_iff]
    rintro ⟨r', row⟩ hrow hr
    have hr : r' = r := by simpa using hr
    exact h row (hr ▸ hrow)
  simp [publish, hfilter]

/-- The commit of a request that returned a recorded entity. -/
theorem Sound.publish_replay {request : Request Payload} {id : Uuid} {rows : List BusinessRow}
    (h : s.Sound requestHash) (htx : s.txs r = some ⟨request, .returning ⟨id, true⟩, rows⟩) :
    ((s.publish r rows).setTx r ⟨request, .finished (.ok ⟨id, true⟩), rows⟩).Sound
      requestHash := by
  obtain ⟨hrows, hrecords⟩ : rows = [] ∧ s.Records requestHash request id := h.tx r _ htx
  subst hrows
  have hnot : ∀ k row, s.pending k ≠ some (r, row) := by
    refine h.not_held fun tx htx' => ?_
    rw [htx] at htx'
    cases htx'
    rfl
  have hkeys : (s.publish r []).keys = s.keys := by
    funext k
    exact keys_publish_of_not_held [] (hnot k)
  refine h.advance (r := r) ?_ rfl hkeys rfl (fun k r' row hne => ?_) (fun k row hrow => ?_) nofun
    ⟨rfl, hrecords.frame fun k row hrow => hkeys ▸ hrow⟩
  · intro old id hold
    rw [htx] at hold
    cases hold
    exact nofun
  · exact pending_release.trans (and_iff_right hne)
  · exact absurd rfl (pending_release.mp hrow).1

/-- Nobody has executed on a slot without a committed key row. -/
theorem Sound.not_executed (h : s.Sound requestHash) {slot : Slot} (hnone : s.keys slot = none)
    {r' : Nat} {tx : Tx Payload} {id : Uuid} (htx : s.txs r' = some tx)
    (hexecuted : tx.Executed id) : tx.request.slot ≠ slot := by
  obtain ⟨request, phase, rows⟩ := tx
  intro hslot
  cases hexecuted
  obtain ⟨-, row, hrow, -⟩ : _ ∧ s.Records requestHash request id := h.tx r' _ htx
  rw [hslot, hnone] at hrow
  cases hrow

/-- The commit of a request that has executed its operation. -/
theorem Sound.publish {request : Request Payload} {id : Uuid} {rows : List BusinessRow}
    (h : s.Sound requestHash) (htx : s.txs r = some ⟨request, .returning ⟨id, false⟩, rows⟩) :
    ((s.publish r rows).setTx r ⟨request, .finished (.ok ⟨id, false⟩), rows⟩).Sound
      requestHash := by
  obtain ⟨hproduces, row, hpending, hnone, hhash, hstatus, hbody⟩ :
    request.endpoint.produces rows id = true ∧ s.Holds requestHash r request .completed (some id) :=
    h.tx r _ htx
  -- the slot of `r` is the only one whose committed row changes
  have hheld : ∀ k, k ≠ request.slot → ∀ row', s.pending k ≠ some (r, row') := by
    intro k hk row' hrow'
    obtain ⟨tx, htx', hslot, -⟩ := h.held k r row' hrow'
    rw [htx] at htx'
    cases htx'
    exact hk hslot.symm
  have hown : (s.publish r rows).keys request.slot = some row := keys_publish_of_held rows hpending
  have hother : ∀ k, k ≠ request.slot → (s.publish r rows).keys k = s.keys k :=
    fun k hk => keys_publish_of_not_held rows (hheld k hk)
  have hkeep : ∀ k row', s.keys k = some row' → (s.publish r rows).keys k = some row' := by
    intro k row' hrow'
    have hk : k ≠ request.slot := by
      rintro rfl
      rw [hnone] at hrow'
      cases hrow'
    rw [hother k hk]
    exact hrow'
  have hopen : ∀ old id', s.txs r = some old → ¬old.Executed id' := by
    intro old id' hold
    rw [htx] at hold
    cases hold
    exact nofun
  refine ⟨?_, ?_, ?_, ?_⟩
  · intro r' tx' htx'
    rcases Foundations.update_eq_some.mp htx' with ⟨rfl, heq⟩ | ⟨hne, htx'⟩
    · cases heq
      exact ⟨hproduces, row, hown, hhash, hbody⟩
    · refine (h.tx r' tx' htx').frame hkeep fun k row' hrow' hnone' => ?_
      have hk : k ≠ request.slot := by
        rintro rfl
        rw [hpending] at hrow'
        cases hrow'
        exact hne rfl
      exact ⟨pending_release.mpr ⟨hne, hrow'⟩, (hother k hk).trans hnone'⟩
  · intro k row' hrow'
    by_cases hk : k = request.slot
    · subst hk
      have heq : row' = row := Option.some.inj (hrow'.symm.trans hown)
      subst heq
      exact ⟨hstatus, r, _, id, Function.update_self _ _ _, rfl, rfl, hhash, hbody,
        Endpoint.produces_of_subset hproduces (List.subset_append_left rows _)⟩
    · obtain ⟨hstatus', r', tx', id', htx', hslot, hexecuted, hrest⟩ :=
        h.recorded k row' ((hother k hk).symm.trans hrow')
      have hne : r' ≠ r := by
        rintro rfl
        exact hopen tx' id' htx' hexecuted
      obtain ⟨hhash', hbody', hthere⟩ := hrest
      exact ⟨hstatus', r', tx', id', Foundations.update_eq_some.mpr (.inr ⟨hne, htx'⟩), hslot,
        hexecuted, hhash', hbody',
        Endpoint.produces_of_subset hthere (List.subset_append_right rows _)⟩
  · intro k r' row' hrow'
    obtain ⟨hne, hrow'⟩ := pending_release.mp hrow'
    obtain ⟨tx', htx', hslot, hopen'⟩ := h.held k r' row' hrow'
    exact ⟨tx', Foundations.update_eq_some.mpr (.inr ⟨hne, htx'⟩), hslot, hopen'⟩
  · intro r₁ r₂ tx₁ tx₂ id₁ id₂ h₁ h₂ hslot hex₁ hex₂
    rcases Foundations.update_eq_some.mp h₁ with ⟨rfl, heq₁⟩ | ⟨-, h₁⟩
    · rcases Foundations.update_eq_some.mp h₂ with ⟨rfl, -⟩ | ⟨-, h₂⟩
      · rfl
      · cases heq₁
        exact absurd hslot.symm (h.not_executed hnone h₂ hex₂)
    · rcases Foundations.update_eq_some.mp h₂ with ⟨rfl, heq₂⟩ | ⟨-, h₂⟩
      · cases heq₂
        exact absurd hslot (h.not_executed hnone h₁ hex₁)
      · exact h.once r₁ r₂ tx₁ tx₂ id₁ id₂ h₁ h₂ hslot hex₁ hex₂

theorem Sound.background {rows : List BusinessRow} (h : s.Sound requestHash) :
    ({ s with rows := rows ++ s.rows } : System Payload Digest).Sound requestHash where
  tx := fun r tx htx => (h.tx r tx htx).frame (fun _ _ => id) fun _ _ hrow hnone => ⟨hrow, hnone⟩
  recorded := by
    intro k row hrow
    obtain ⟨hstatus, r, tx, id, htx, hslot, hexecuted, hhash, hbody, hthere⟩ :=
      h.recorded k row hrow
    exact ⟨hstatus, r, tx, id, htx, hslot, hexecuted, hhash, hbody,
      Endpoint.produces_of_subset hthere (List.subset_append_right rows _)⟩
  held := h.held
  once := h.once

/-! ## Steps -/

section Steps

variable [DecidableEq Digest]

theorem Sound.begin {request : Request Payload} (h : s.Sound requestHash)
    (hstep : s.step requestHash (.begin r request) = some s') : s'.Sound requestHash := by
  have hfresh : s.txs r = none := by
    cases htx : s.txs r with
    | none => rfl
    | some _ => simp [step, htx] at hstep
  have hadvance : ∀ tx : Tx Payload, (∀ id, ¬tx.Executed id) →
      (s.setTx r tx).TxSound requestHash r tx → (s.setTx r tx).Sound requestHash := by
    intro tx hnew hsound
    refine h.advance (r := r) ?_ rfl rfl rfl (fun _ _ _ _ => Iff.rfl) ?_ hnew hsound
    · intro old id hold
      rw [hfresh] at hold
      cases hold
    · intro k row hrow
      refine absurd hrow (h.not_held (fun tx htx => ?_) k row)
      rw [hfresh] at htx
      cases htx
  simp only [step, hfresh] at hstep
  split at hstep
  next => cases hstep
  next =>
    cases hstep
    exact hadvance _ nofun rfl
  next =>
    cases hstep
    exact hadvance _ nofun rfl

theorem Sound.insert (h : s.Sound requestHash)
    (hstep : s.step requestHash (.insert r) = some s') : s'.Sound requestHash := by
  simp only [step] at hstep
  split at hstep
  next request rows htx =>
    have hrows : rows = [] := h.tx r _ htx
    split at hstep
    next => cases hstep
    next hfree =>
      have hfree : s.blocked r request.slot = false := by simpa using hfree
      rw [h.visibleKey_claiming htx hfree] at hstep
      split at hstep
      next row hrow =>
        cases hstep
        exact h.setTx htx nofun rfl nofun nofun ⟨hrows, row, hrow⟩
      next hnone =>
        cases hstep
        refine h.writeKey htx nofun hfree rfl rfl nofun ⟨hrows, _, Function.update_self _ _ _, ?_⟩
        exact ⟨hnone, rfl, rfl, rfl⟩
  next => cases hstep

/-- What a lost claim comes to: the row is the record of a committed request, so
the claim raises or returns the entity of that request. -/
theorem Sound.replayStored {request : Request Payload} {found : Option Uuid}
    (h : s.Sound requestHash) (hlost : ∃ row, s.keys request.slot = some row)
    (hfound : Idempotency.replayStored s.rows request (requestHash request.payload)
      (s.keys request.slot) = .ok found) :
    ∃ id, found = some id ∧ s.Records requestHash request id := by
  obtain ⟨row, hrow⟩ := hlost
  obtain ⟨-, r, tx, id, -, hslot, -, -, hbody, hthere⟩ := h.recorded _ row hrow
  obtain ⟨⟨stored, status⟩, hclaim, hreplay⟩ := Foundations.bind_eq_ok.mp hfound
  rw [hrow] at hclaim
  obtain ⟨hhash, hclaim⟩ := Foundations.ite_error_eq_ok.mp hclaim
  obtain ⟨-, hclaim⟩ := Foundations.ite_error_eq_ok.mp hclaim
  rw [hbody] at hclaim
  cases hclaim
  have hendpoint : tx.request.endpoint = request.endpoint :=
    Endpoint.path_injective (congrArg Prod.fst hslot)
  rw [hendpoint] at hthere
  exact ⟨id, Endpoint.replay_eq_ok hthere hreplay, row, hrow, by simpa using hhash, hbody⟩

theorem Sound.select (h : s.Sound requestHash)
    (hstep : s.step requestHash (.select r) = some s') : s'.Sound requestHash := by
  simp only [step] at hstep
  split at hstep
  next request rows htx =>
    obtain ⟨hrows, hlost⟩ : rows = [] ∧ ∃ row, s.keys request.slot = some row := h.tx r _ htx
    split at hstep
    next e _ =>
      cases hstep
      exact h.rollback htx nofun e
    next hfound =>
      obtain ⟨id, heq, -⟩ := h.replayStored hlost hfound
      cases heq
    next id hfound =>
      cases hstep
      obtain ⟨id', heq, hrecords⟩ := h.replayStored hlost hfound
      cases heq
      exact h.setTx htx nofun rfl nofun nofun ⟨hrows, hrecords⟩
  next => cases hstep

theorem Sound.execute {written : List BusinessRow} {id : Uuid} (h : s.Sound requestHash)
    (hstep : s.step requestHash (.execute r written id) = some s') : s'.Sound requestHash := by
  simp only [step] at hstep
  split at hstep
  next request rows htx =>
    obtain ⟨hrows, hholds⟩ : rows = [] ∧ s.Holds requestHash r request .inProgress none :=
      h.tx r _ htx
    subst hrows
    split at hstep
    next hproduces =>
      cases hstep
      refine h.setTx htx nofun rfl (fun _ => rfl) nofun ⟨?_, hholds⟩
      simpa using hproduces
    next => cases hstep
  next => cases hstep

theorem Sound.complete (h : s.Sound requestHash)
    (hstep : s.step requestHash (.complete r) = some s') : s'.Sound requestHash := by
  simp only [step] at hstep
  split at hstep
  next request id rows htx =>
    obtain ⟨hproduces, row, hrow, hnone, hhash, -, -⟩ :
      request.endpoint.produces rows id = true ∧ s.Holds requestHash r request .inProgress none :=
      h.tx r _ htx
    have hvisible : s.visibleKey request.slot = some row := by simp [visibleKey, hrow]
    split at hstep
    next => cases hstep
    next hfree =>
      have hfree : s.blocked r request.slot = false := by simpa using hfree
      rw [hvisible] at hstep
      cases hstep
      refine h.writeKey htx nofun hfree rfl rfl nofun
        ⟨hproduces, _, Function.update_self _ _ _, ?_⟩
      exact ⟨hnone, hhash, rfl, rfl⟩
  next => cases hstep

theorem Sound.fail {e : Err} (h : s.Sound requestHash)
    (hstep : s.step requestHash (.fail r e) = some s') : s'.Sound requestHash := by
  simp only [step] at hstep
  split at hstep
  next => cases hstep
  next tx hopen htx =>
    cases hstep
    refine h.rollback htx (fun id hexecuted => ?_) e
    obtain ⟨request, phase, rows⟩ := tx
    cases hexecuted
    exact hopen request _ rows rfl
  next => cases hstep

theorem Sound.commit (h : s.Sound requestHash)
    (hstep : s.step requestHash (.commit r) = some s') : s'.Sound requestHash := by
  simp only [step] at hstep
  split at hstep
  next request response rows htx =>
    cases hstep
    obtain ⟨id, replayed⟩ := response
    cases replayed with
    | false => exact h.publish htx
    | true => exact h.publish_replay htx
  next => cases hstep

theorem Sound.step {a : Action Payload} (h : s.Sound requestHash)
    (hstep : s.step requestHash a = some s') : s'.Sound requestHash := by
  cases a with
  | begin r request => exact h.begin hstep
  | insert r => exact h.insert hstep
  | select r => exact h.select hstep
  | execute r written id => exact h.execute hstep
  | complete r => exact h.complete hstep
  | commit r => exact h.commit hstep
  | fail r e => exact h.fail hstep
  | background rows =>
      cases hstep
      exact h.background

end Steps

end System

/-! ## At most once -/

/-- No request has started and no key is taken. -/
structure System.Fresh (s : System Payload Digest) : Prop where
  keys : ∀ k, s.keys k = none
  pending : ∀ k, s.pending k = none
  txs : ∀ r, s.txs r = none

theorem System.Fresh.sound {requestHash : Payload → Digest} {s : System Payload Digest}
    (h : s.Fresh) : s.Sound requestHash where
  tx := by
    intro r tx htx
    rw [h.txs] at htx
    cases htx
  recorded := by
    intro k row hrow
    rw [h.keys] at hrow
    cases hrow
  held := by
    intro k r row hrow
    rw [h.pending] at hrow
    cases hrow
  once := by
    intro r r' tx tx' id id' htx
    rw [h.txs] at htx
    cases htx

/-- The business rows a request has committed. -/
def System.effects (s : System Payload Digest) (r : Nat) : List BusinessRow :=
  match s.txs r with
  | some ⟨_, .finished (.ok _), rows⟩ => rows
  | _ => []

/-- The requests that carry the key of a slot. -/
def System.Carries (s : System Payload Digest) (r : Nat) (k : Slot) : Prop :=
  ∃ tx, s.txs r = some tx ∧ tx.request.slot = k

/-- What an idempotency key promises, in one state of the system. -/
structure System.Idempotent [DecidableEq Digest] (requestHash : Payload → Digest)
    (s : System Payload Digest) (k : Slot) : Prop where
  /-- At most one request commits business rows. -/
  once : ∀ r r', s.Carries r k → s.Carries r' k → s.effects r ≠ [] → s.effects r' ≠ [] → r = r'
  /-- A request that succeeds returns the entity of the one that committed, which
  had the same payload. -/
  same : ∀ r request response rows,
    s.txs r = some ⟨request, .finished (.ok response), rows⟩ → request.slot = k →
    ∃ r₀ request₀ rows₀, s.txs r₀ = some ⟨request₀, .finished (.ok ⟨response.id, false⟩), rows₀⟩ ∧
      request₀.slot = k ∧ s.effects r₀ ≠ [] ∧
      request.endpoint.produces (s.effects r₀) response.id = true ∧
      request₀.payload = request.payload
  /-- A request whose hash differs from that of the one that committed has
  committed nothing.  It is still before its claim, or it has raised, or the next
  thing it does is raise `IDEMPOTENCY_KEY_REUSE`. -/
  rejected : ∀ r₀ tx₀ r tx, s.txs r₀ = some tx₀ → tx₀.request.slot = k → s.effects r₀ ≠ [] →
    s.txs r = some tx → tx.request.slot = k →
    requestHash tx.request.payload ≠ requestHash tx₀.request.payload →
    s.effects r = [] ∧
      ((tx.phase = .claiming ∧ ∀ s', s.step requestHash (.insert r) = some s' →
          s'.txs r = some { tx with phase := .lost }) ∨
        (tx.phase = .lost ∧ s.step requestHash (.select r) =
          some (s.rollback r tx idempotencyKeyReuse)) ∨
        ∃ e, tx.phase = .finished (.error e))
  /-- A rollback gives back the key and changes no committed row. -/
  released : ∀ r e s', s.Carries r k → s.step requestHash (.fail r e) = some s' →
    s'.keys = s.keys ∧ s'.rows = s.rows ∧ s'.effects r = [] ∧
      ∀ row, s'.pending k ≠ some (r, row)
  /-- While no request has committed, and none is between its claim and its end,
  the next insert wins. -/
  usable : (∀ r, s.Carries r k → s.effects r = []) →
    (∀ r tx, s.txs r = some tx → tx.request.slot = k → tx.phase.isOpen = false) →
    ∀ r tx, s.txs r = some tx → tx.request.slot = k → tx.phase = .claiming →
    ∃ s', s.step requestHash (.insert r) = some s' ∧
      s'.txs r = some { tx with phase := .executing }

namespace System

variable {requestHash : Payload → Digest} {s s' : System Payload Digest} {k : Slot}

/-- A request with committed rows has executed. -/
theorem Sound.executed_of_effects {r : Nat} (h : s.Sound requestHash) (heff : s.effects r ≠ []) :
    ∃ request id rows, s.txs r = some ⟨request, .finished (.ok ⟨id, false⟩), rows⟩ ∧
      s.effects r = rows ∧ request.endpoint.produces rows id = true ∧
      s.Records requestHash request id := by
  unfold effects at heff ⊢
  split at heff
  next request response rows htx =>
    obtain ⟨id, replayed⟩ := response
    cases replayed with
    | false =>
        obtain ⟨hproduces, hrecords⟩ : request.endpoint.produces rows id = true ∧
          s.Records requestHash request id := h.tx r _ htx
        exact ⟨request, id, rows, htx, rfl, hproduces, hrecords⟩
    | true =>
        obtain ⟨hrows, -⟩ : rows = [] ∧ _ := h.tx r _ htx
        exact absurd hrows heff
  next => exact absurd rfl heff

/-- A request that executed has committed rows. -/
theorem Sound.effects_of_executed {r : Nat} {tx : Tx Payload} {id : Uuid}
    (h : s.Sound requestHash) (htx : s.txs r = some tx) (hexecuted : tx.Executed id) :
    s.effects r = tx.rows ∧ tx.request.endpoint.produces (s.effects r) id = true ∧
      s.effects r ≠ [] := by
  obtain ⟨request, phase, rows⟩ := tx
  cases hexecuted
  obtain ⟨hproduces, -⟩ : request.endpoint.produces rows id = true ∧ _ := h.tx r _ htx
  have heff : s.effects r = rows := by simp [effects, htx]
  rw [heff]
  refine ⟨rfl, hproduces, ?_⟩
  rintro rfl
  cases hendpoint : request.endpoint <;> rw [hendpoint] at hproduces <;> cases hproduces

theorem Sound.same_entity (h : s.Sound requestHash) (hhash : Function.Injective requestHash)
    {r : Nat} {request : Request Payload} {response : Response} {rows : List BusinessRow}
    (htx : s.txs r = some ⟨request, .finished (.ok response), rows⟩) :
    ∃ r₀ request₀ rows₀, s.txs r₀ = some ⟨request₀, .finished (.ok ⟨response.id, false⟩), rows₀⟩ ∧
      request₀.slot = request.slot ∧ s.effects r₀ ≠ [] ∧
      request.endpoint.produces (s.effects r₀) response.id = true ∧
      request₀.payload = request.payload := by
  obtain ⟨row, hrow, hrequest, hbody⟩ : s.Records requestHash request response.id := by
    obtain ⟨id, replayed⟩ := response
    cases replayed with
    | false => exact (h.tx r _ htx).2
    | true => exact (h.tx r _ htx).2
  obtain ⟨-, r₀, ⟨request₀, phase₀, rows₀⟩, id, htx₀, hslot, hexecuted, hhash₀, hbody₀, -⟩ :=
    h.recorded _ row hrow
  have hid : id = response.id := Option.some.inj (hbody₀.symm.trans hbody)
  subst hid
  obtain ⟨-, hproduces, hne⟩ := h.effects_of_executed htx₀ hexecuted
  cases hexecuted
  have hendpoint : request₀.endpoint = request.endpoint :=
    Endpoint.path_injective (congrArg Prod.fst hslot)
  exact ⟨r₀, request₀, rows₀, htx₀, hslot, hne, hendpoint ▸ hproduces,
    hhash (hhash₀.symm.trans hrequest)⟩

/-- A request with another hash than that of the committed row is stopped by the
claim. -/
theorem Sound.rejects [DecidableEq Digest] (h : s.Sound requestHash) {r : Nat} {tx : Tx Payload}
    {row : IdempotencyKey Digest} (hrow : s.keys tx.request.slot = some row)
    (htx : s.txs r = some tx) (hhash : row.requestHash ≠ requestHash tx.request.payload) :
    s.effects r = [] ∧
      ((tx.phase = .claiming ∧ ∀ s', s.step requestHash (.insert r) = some s' →
          s'.txs r = some { tx with phase := .lost }) ∨
        (tx.phase = .lost ∧ s.step requestHash (.select r) =
          some (s.rollback r tx idempotencyKeyReuse)) ∨
        ∃ e, tx.phase = .finished (.error e)) := by
  have hnotHolds : ∀ status body, ¬s.Holds requestHash r tx.request status body := by
    rintro status body ⟨row', -, hnone, -⟩
    rw [hrow] at hnone
    cases hnone
  have hnotRecords : ∀ id, ¬s.Records requestHash tx.request id := by
    rintro id ⟨row', hrow', hhash', -⟩
    rw [hrow] at hrow'
    cases hrow'
    exact hhash hhash'
  have heff : s.effects r = [] := by
    by_contra hne
    obtain ⟨request, id, rows, htx', -, -, hrecords⟩ := h.executed_of_effects hne
    rw [htx] at htx'
    cases htx'
    exact hnotRecords id hrecords
  refine ⟨heff, ?_⟩
  obtain ⟨request, phase, rows⟩ := tx
  have hsound := h.tx r _ htx
  match phase, hsound with
  | .claiming, _ =>
      refine .inl ⟨rfl, fun s' hstep => ?_⟩
      simp only [System.step, htx] at hstep
      split at hstep
      next => cases hstep
      next hfree =>
        rw [h.visibleKey_claiming htx (by simpa using hfree), hrow] at hstep
        cases hstep
        exact Function.update_self _ _ _
  | .lost, _ =>
      refine .inr (.inl ⟨rfl, ?_⟩)
      have hclaim : Idempotency.replayStored s.rows request (requestHash request.payload)
          (s.keys request.slot) = .error idempotencyKeyReuse := by
        rw [hrow]
        simp only [Idempotency.replayStored, claimExisting, if_pos hhash]
        rfl
      simp only [System.step, htx, hclaim]
  | .executing, hs => exact absurd hs.2 (hnotHolds _ _)
  | .completing _, hs => exact absurd hs.2 (hnotHolds _ _)
  | .returning ⟨_, false⟩, hs => exact absurd hs.2 (hnotHolds _ _)
  | .returning ⟨_, true⟩, hs => exact absurd hs.2 (hnotRecords _)
  | .finished (.ok ⟨_, false⟩), hs => exact absurd hs.2 (hnotRecords _)
  | .finished (.ok ⟨_, true⟩), hs => exact absurd hs.2 (hnotRecords _)
  | .finished (.error e), _ => exact .inr (.inr ⟨e, rfl⟩)

theorem Sound.idempotent [DecidableEq Digest] (h : s.Sound requestHash)
    (hhash : Function.Injective requestHash) (k : Slot) : s.Idempotent requestHash k where
  once := by
    rintro r r' ⟨tx, htx, hslot⟩ ⟨tx', htx', hslot'⟩ heff heff'
    obtain ⟨request, id, rows, hex, -⟩ := h.executed_of_effects heff
    obtain ⟨request', id', rows', hex', -⟩ := h.executed_of_effects heff'
    rw [htx] at hex
    rw [htx'] at hex'
    cases hex
    cases hex'
    exact h.once r r' _ _ id id' htx htx' (hslot.trans hslot'.symm) rfl rfl
  same := by
    rintro r request response rows htx rfl
    exact h.same_entity hhash htx
  rejected := by
    intro r₀ tx₀ r tx htx₀ hslot₀ heff htx hslot hne
    obtain ⟨request, id, rows, hex, -, -, row, hrow, hhash₀, -⟩ := h.executed_of_effects heff
    rw [htx₀] at hex
    cases hex
    have hrow' : s.keys tx.request.slot = some row := by
      rw [hslot, ← hslot₀]
      exact hrow
    exact h.rejects hrow' htx fun heq => hne (heq.symm.trans hhash₀)
  released := by
    intro r e s' hcarries hstep
    simp only [System.step] at hstep
    split at hstep
    next => cases hstep
    next tx _ htx =>
      cases hstep
      refine ⟨rfl, rfl, ?_, fun row hrow => (pending_release.mp hrow).1 rfl⟩
      simp [effects, System.rollback, System.setTx]
    next => cases hstep
  usable := by
    rintro hnone hclosed r ⟨request, phase, rows⟩ htx rfl rfl
    have hkeys : s.keys request.slot = none := by
      cases hk : s.keys request.slot with
      | none => rfl
      | some row =>
          obtain ⟨-, r₀, tx₀, id, htx₀, hslot₀, hexecuted, -⟩ := h.recorded _ row hk
          exact absurd (hnone r₀ ⟨tx₀, htx₀, hslot₀⟩) (h.effects_of_executed htx₀ hexecuted).2.2
    have hfree : s.blocked r request.slot = false := by
      cases hp : s.pending request.slot with
      | none => simp [blocked, hp]
      | some held =>
          obtain ⟨tx₀, htx₀, hslot₀, hopen⟩ := h.held _ held.1 held.2 hp
          rw [hclosed _ tx₀ htx₀ hslot₀] at hopen
          cases hopen
    have hstep : s.step requestHash (.insert r) = some ((s.writeKey r request.slot
        ⟨requestHash request.payload, .inProgress, none, none⟩).setTx r
        ⟨request, .executing, rows⟩) := by
      simp [System.step, htx, hfree, h.visibleKey_claiming htx hfree, hkeys]
    exact ⟨_, hstep, Function.update_self _ _ _⟩

/-- In every order of the statements of any number of requests, with any of them
raising at any point, every key keeps its promise. -/
theorem idempotent_of_run [DecidableEq Digest] (hhash : Function.Injective requestHash)
    (hfresh : s.Fresh)
    (hrun : Foundations.Run (fun _ _ => True) (fun s a s' => s.step requestHash a = some s') s s')
    (k : Slot) : s'.Idempotent requestHash k := by
  have hsound : s'.Sound requestHash :=
    hrun.invariant (fun s a s' hs _ hstep => hs.step hstep) hfresh.sound
  exact hsound.idempotent hhash k

end System

end Service

/-! A checkout that fails, its retry, a second retry and a reused key. -/

def noRequests : System Nat Nat := ⟨fun _ => none, fun _ => none, [], fun _ => none⟩

/-- A checkout with the key `"k"`. -/
def checkoutOf (payload : Nat) : Request Nat :=
  ⟨.checkout, "k", payload, ⟨0, 1, 2, ∅, ∅, none⟩, 0⟩

def retriedCheckout : List (Action Nat) :=
  [.begin 0 (checkoutOf 5), .insert 0, .begin 1 (checkoutOf 5), .begin 2 (checkoutOf 5),
    .begin 3 (checkoutOf 6), .fail 0 (.runtime "connection lost"), .insert 1,
    .execute 1 [.sale 7 1, .receipt 7] 7, .complete 1, .commit 1, .insert 2, .insert 3, .select 2,
    .commit 2, .select 3]

theorem System.idempotent_of_run_retry :
    ∃ s' : System Nat Nat,
      Foundations.Run (fun _ _ => True) (fun s a s' => s.step id a = some s') noRequests s' ∧
      (s'.txs 1).map Tx.phase = some (.finished (.ok ⟨7, false⟩)) ∧
      (s'.txs 2).map Tx.phase = some (.finished (.ok ⟨7, true⟩)) ∧
      (s'.txs 3).map Tx.phase = some (.finished (.error idempotencyKeyReuse)) ∧
      s'.Idempotent id (checkoutOf 5).slot := by
  obtain ⟨s', hrun, h₁, h₂, h₃⟩ : ∃ s' : System Nat Nat,
      Foundations.Run (fun _ _ => True) (fun s a s' => s.step id a = some s') noRequests s' ∧
      (s'.txs 1).map Tx.phase = some (.finished (.ok ⟨7, false⟩)) ∧
      (s'.txs 2).map Tx.phase = some (.finished (.ok ⟨7, true⟩)) ∧
      (s'.txs 3).map Tx.phase = some (.finished (.error idempotencyKeyReuse)) :=
    ⟨_, Foundations.Run.of_foldlM retriedCheckout rfl, rfl, rfl, rfl⟩
  have hfresh : noRequests.Fresh := ⟨fun _ => rfl, fun _ => rfl, fun _ => rfl⟩
  exact ⟨s', hrun, h₁, h₂, h₃, idempotent_of_run Function.injective_id hfresh hrun _⟩

end Nexora.Idempotency
