import Nexora.Foundations.Interleaving
import Nexora.Tenant.Documents

/-!
# Concurrent documents

A request on documents first locks the rows of the documents that it is about, `FOR UPDATE` and
one after another, and keeps the rows that it has read.  What it then does to the documents is
worked out from those rows.  Stock, ledger, register and catalogue are whatever it finds them to
be (`DocumentPhase.writing`).

A request writes no document that it has not locked (`Writes.frame`), so a document that one
request has read is the same when that request commits, and what the requests keep one after
another they keep in every interleaving (`documents_sound`).
-/

namespace Nexora.Tenant

open Nexora Nexora.Sales Nexora.Purchasing Foundations

/-! ## The system -/

/-- A request on documents. -/
structure DocumentCall where
  request : Request
  op : Op
  isDocument : op.isDocument

/-- The phases of a request. -/
inductive DocumentPhase where
  /-- It has read and locked some rows, and others are left. -/
  | reading (call : DocumentCall) (seen : List ReadRow) (todo : List DocumentRow)
  /-- It has all rows, and what else it reads. -/
  | writing (call : DocumentCall) (seen : List ReadRow) (around : TenantDb)
  /-- A row is not there. -/
  | raised (seen : List ReadRow)

def DocumentPhase.seen : DocumentPhase → List ReadRow
  | .reading _ seen _ => seen
  | .writing _ seen _ => seen
  | .raised seen => seen

/-- The next statement: a row is read and locked. -/
def DocumentPhase.run (docs : Documents) (phase : DocumentPhase) (around : TenantDb) :
    Option (Documents × DocumentPhase) :=
  match phase with
  | .reading call seen (row :: todo) =>
      match docs.read row with
      | some r => some (docs, .reading call (seen ++ [r]) todo)
      | none => some (docs, .raised seen)
  | .reading call seen [] => some (docs, .writing call seen around)
  | .writing .. | .raised _ => none

/-- The end of the transaction. -/
def DocumentPhase.finish (docs : Documents) : DocumentPhase → Option Documents
  | .reading .. => none
  | .writing call seen around =>
      match call.op.body call.request (around.withDocuments (docs.seeAll seen)) with
      | .ok db => some db.documents
      | .error _ => some docs
  | .raised _ => some docs

def documents : Protocol Documents DocumentCall DocumentPhase TenantDb DocumentRow where
  start docs call := .reading call [] (call.op.lockPlan docs)
  run := DocumentPhase.run
  finish := DocumentPhase.finish
  locks phase := phase.seen.map fun r => (r.row, .update)

/-- The tables before any document. -/
def Documents.empty : Documents := ⟨.empty, .empty⟩

/-! ## Frames -/

variable {request : Request} {docs docs' : Documents} {op : Op}

/-- Other rows of a table outlive a write. -/
theorem read_replace {Doc X : Type} {key : Doc → Uuid} {docs docs' : Table key} {id k : Uuid}
    {old new : Doc} {f : Doc → X} {r : X} (hget : docs.get k = some old)
    (h : docs.replace (key old) new = some docs') (hkey : key new = key old) (hne : id ≠ k)
    (hread : (docs.get id).map f = some r) : (docs'.get id).map f = some r := by
  rw [Table.map_get_replace f hget h hkey, if_neg]
  · exact hread
  · rw [(Table.get_mem hget).2]
    exact hne

theorem read_insert {Doc X : Type} {key : Doc → Uuid} {docs docs' : Table key} {id : Uuid}
    {new : Doc} {f : Doc → X} {r : X} (h : docs.insert new = some docs')
    (hread : (docs.get id).map f = some r) : (docs'.get id).map f = some r := by
  obtain ⟨doc, hget, rfl⟩ := Option.map_eq_some_iff.mp hread
  rw [Table.get_of_append hget (Table.insert_eq_some h).1]
  rfl

/-- The documents that a payment does not name. -/
theorem read_pays {Doc : Type} {key : Doc → Uuid}
    {pay : Doc → PaymentAllocation → Except Err Doc} {status : Doc → InvoiceStatus}
    {items : List PaymentAllocation} {docs docs' : Table key} {id : Uuid} {f : Doc → ReadRow}
    {r : ReadRow} (h : PaysEach pay status items docs docs')
    (hne : ∀ item ∈ sortedAllocations items, item.targetId ≠ id)
    (hread : (docs.get id).map f = some r) : (docs'.get id).map f = some r := by
  have hperm : (sortedAllocations items).Perm items := List.perm_insertionSort _ _
  rw [h.others id fun item hitem => hne item (hperm.mem_iff.mpr hitem)]
  exact hread

/-- A request writes no row that it does not lock. -/
theorem Writes.frame {row : DocumentRow} {r : ReadRow} (h : Writes request docs op docs')
    (hrow : row ∉ op.targets) (hread : docs.read row = some r) : docs'.read row = some r := by
  cases h with
  | createSalesOrder _ hinsert =>
      cases row with
      | salesOrder id => exact read_insert hinsert hread
      | _ => exact hread
  | confirmSalesOrder hget _ hreplace | cancelSalesOrder hget _ _ hreplace
  | fulfil hget _ _ _ _ hreplace =>
      cases row with
      | salesOrder id =>
          refine read_replace hget hreplace rfl (fun h => hrow ?_) hread
          exact h ▸ List.mem_singleton_self _
      | _ => exact hread
  | createInvoice hget _ _ _ _ _ _ hreplace hinsert =>
      cases row with
      | salesOrder id =>
          refine read_replace hget hreplace rfl (fun h => hrow ?_) hread
          exact h ▸ List.mem_singleton_self _
      | invoice id => exact read_insert hinsert hread
      | _ => exact hread
  | issueInvoice hget _ hreplace =>
      cases row with
      | invoice id =>
          refine read_replace hget hreplace rfl (fun h => hrow ?_) hread
          exact h ▸ List.mem_singleton_self _
      | _ => exact hread
  | recordCustomerPayment _ _ _ hpays _ =>
      cases row with
      | invoice id =>
          refine read_pays hpays (fun item hitem h => hrow ?_) hread
          exact h ▸ List.mem_map_of_mem hitem
      | _ => exact hread
  | issueCreditNote hget hface hreplace =>
      cases row with
      | invoice id =>
          refine read_replace hget hreplace (congrArg Prod.fst hface) (fun h => hrow ?_) hread
          exact h ▸ List.mem_singleton_self _
      | _ => exact hread
  | createPurchaseOrder _ hinsert =>
      cases row with
      | purchaseOrder id => exact read_insert hinsert hread
      | _ => exact hread
  | confirmPurchaseOrder hget _ hreplace | cancelPurchaseOrder hget _ _ hreplace
  | receive hget _ _ _ _ hreplace =>
      cases row with
      | purchaseOrder id =>
          refine read_replace hget hreplace rfl (fun h => hrow ?_) hread
          exact h ▸ List.mem_singleton_self _
      | _ => exact hread
  | createBill hget _ _ _ _ _ _ hreplace hinsert =>
      cases row with
      | purchaseOrder id =>
          refine read_replace hget hreplace rfl (fun h => hrow ?_) hread
          exact h ▸ List.mem_singleton_self _
      | supplierBill id => exact read_insert hinsert hread
      | _ => exact hread
  | issueBill hget _ hreplace =>
      cases row with
      | supplierBill id =>
          refine read_replace hget hreplace rfl (fun h => hrow ?_) hread
          exact h ▸ List.mem_singleton_self _
      | _ => exact hread
  | recordSupplierPayment _ _ _ hpays _ =>
      cases row with
      | supplierBill id =>
          refine read_pays hpays (fun item hitem h => hrow ?_) hread
          exact h ▸ List.mem_map_of_mem hitem
      | _ => exact hread

/-! ## Replays -/

theorem replayed_of_kept {Doc : Type} {key : Doc → Uuid} {docs docs' : Table key}
    {claim : Except Err (Option Uuid)} (hkept : ∀ id, (docs.get id).isSome → (docs'.get id).isSome)
    (h : replayed claim docs.get = true) : replayed claim docs'.get = true := by
  cases claim with
  | error e => cases h
  | ok stored =>
      cases stored with
      | none => cases h
      | some id => exact hkept id h

theorem isSome_replace {Doc : Type} {key : Doc → Uuid} {docs docs' : Table key} {id k : Uuid}
    {old new : Doc} (hget : docs.get k = some old) (h : docs.replace (key old) new = some docs')
    (hkey : key new = key old) (hsome : (docs.get id).isSome) : (docs'.get id).isSome := by
  rw [Table.get_replace (Table.get_self hget) hkey h id]
  split_ifs
  · rfl
  · exact hsome

theorem isSome_pays {Doc : Type} {key : Doc → Uuid}
    {pay : Doc → PaymentAllocation → Except Err Doc} {status : Doc → InvoiceStatus}
    {items : List PaymentAllocation} {docs docs' : Table key} {id : Uuid}
    (h : PaysEach pay status items docs docs') (hsome : (docs.get id).isSome) :
    (docs'.get id).isSome := by
  by_cases hnamed : ∃ item ∈ items, item.targetId = id
  · obtain ⟨item, hitem, rfl⟩ := hnamed
    obtain ⟨_, paid, -, -, -, hpaid⟩ := h.named item hitem
    rw [hpaid]
    rfl
  · rw [h.others id fun item hitem heq => hnamed ⟨item, hitem, heq⟩]
    exact hsome

theorem Writes.invoice_kept (h : Writes request docs op docs') (id : Uuid)
    (hsome : (docs.sales.invoices.get id).isSome) : (docs'.sales.invoices.get id).isSome := by
  cases h with
  | createInvoice _ _ _ _ _ _ _ _ hinsert =>
      exact (congrArg Option.isSome (Table.get_insert_of_some hinsert hsome)).trans hsome
  | issueInvoice hget _ hreplace => exact isSome_replace hget hreplace rfl hsome
  | recordCustomerPayment _ _ _ hpays _ => exact isSome_pays hpays hsome
  | issueCreditNote hget hface hreplace =>
      exact isSome_replace hget hreplace (congrArg Prod.fst hface) hsome
  | _ => exact hsome

theorem Writes.payment_kept (h : Writes request docs op docs') (id : Uuid)
    (hsome : (docs.sales.payments.get id).isSome) : (docs'.sales.payments.get id).isSome := by
  cases h with
  | recordCustomerPayment _ _ _ _ hinsert | recordSupplierPayment _ _ _ _ hinsert =>
      exact (congrArg Option.isSome (Table.get_insert_of_some hinsert hsome)).trans hsome
  | _ => exact hsome

/-- A request that was answered stays so. -/
theorem Writes.replays (h : Writes request docs op docs') {other : Op}
    (hreplays : other.replays docs = true) : other.replays docs' = true := by
  cases other with
  | issueInvoice id claim => exact replayed_of_kept h.invoice_kept hreplays
  | recordCustomerPayment payload claim | recordSupplierPayment payload claim =>
      exact replayed_of_kept h.payment_kept hreplays
  | _ => cases hreplays

theorem Writes.lockPlan (h : Writes request docs op docs') {other : Op} {row : DocumentRow}
    (hrow : row ∈ other.lockPlan docs') : row ∈ other.lockPlan docs := by
  cases hreplays : other.replays docs with
  | false =>
      rw [Op.lockPlan, hreplays, if_neg Bool.false_ne_true]
      unfold Op.lockPlan at hrow
      split at hrow
      · cases hrow
      · exact hrow
  | true =>
      rw [Op.lockPlan, h.replays hreplays, if_pos rfl] at hrow
      cases hrow

/-! ## The rule -/

/-- The rows that are left to read. -/
def DocumentPhase.todo : DocumentPhase → List DocumentRow
  | .reading _ _ todo => todo
  | .writing .. | .raised _ => []

/-- The request of a phase that may still commit. -/
def DocumentPhase.call : DocumentPhase → Option DocumentCall
  | .reading call .. | .writing call .. => some call
  | .raised _ => none

/-- The rows that a request has read are still the same, and it reads all that it writes. -/
structure DocumentPhase.Reads (docs : Documents) (phase : DocumentPhase) : Prop where
  seen : ∀ r ∈ phase.seen, docs.read r.row = some r
  covers : ∀ call ∈ phase.call, ∀ row ∈ call.op.lockPlan docs,
    row ∈ phase.seen.map ReadRow.row ∨ row ∈ phase.todo

theorem DocumentPhase.run_committed {phase phase' : DocumentPhase} {around : TenantDb}
    (h : phase.run docs around = some (docs', phase')) : docs' = docs := by
  cases phase with
  | reading call seen todo =>
      cases todo with
      | nil =>
          cases h
          rfl
      | cons row todo =>
          simp only [DocumentPhase.run] at h
          split at h
          · cases h
            rfl
          · cases h
            rfl
  | writing call seen around => cases h
  | raised seen => cases h

theorem DocumentPhase.Reads.run {phase phase' : DocumentPhase} {around : TenantDb}
    (h : phase.Reads docs) (hrun : phase.run docs around = some (docs', phase')) :
    phase'.Reads docs := by
  cases phase with
  | reading call seen todo =>
      cases todo with
      | nil =>
          cases hrun
          exact ⟨h.seen, h.covers⟩
      | cons row todo =>
          simp only [DocumentPhase.run] at hrun
          split at hrun
          next r hread =>
            cases hrun
            have hrow := Documents.row_of_read hread
            refine ⟨fun r' hr' => ?_, fun call' hcall row' hrow' => ?_⟩
            · rcases List.mem_append.mp hr' with hr' | hr'
              · exact h.seen r' hr'
              · rw [List.mem_singleton.mp hr', hrow]
                exact hread
            · show row' ∈ (seen ++ [r]).map ReadRow.row ∨ row' ∈ todo
              rw [List.map_append, List.map_singleton, hrow, List.mem_append, List.mem_singleton]
              rcases h.covers call' hcall row' hrow' with hmem | hmem
              · exact .inl (.inl hmem)
              · rcases List.mem_cons.mp hmem with rfl | hmem
                · exact .inl (.inr rfl)
                · exact .inr hmem
          next =>
            cases hrun
            exact ⟨h.seen, fun call' hcall => by cases hcall⟩
  | writing call seen around => cases hrun
  | raised seen => cases hrun

/-- What the end of a request makes of the documents: nothing, or what its body writes. -/
theorem DocumentPhase.Reads.commit {phase : DocumentPhase} (h : phase.Reads docs)
    (hfinish : phase.finish docs = some docs') :
    docs' = docs ∨ ∃ call seen around db, phase = .writing call seen around ∧
      call.op.body call.request (around.withDocuments docs) = .ok db ∧ db.documents = docs' ∧
      call.op.replays docs = false ∧ Writes call.request docs call.op docs' := by
  cases phase with
  | reading call seen todo => cases hfinish
  | raised seen =>
      cases hfinish
      exact .inl rfl
  | writing call seen around =>
      have hseen : docs.seeAll seen = docs := Documents.seeAll_eq h.seen
      simp only [DocumentPhase.finish, hseen] at hfinish
      split at hfinish
      next db hbody =>
        cases hfinish
        rcases Op.writes call.isDocument hbody with ⟨-, rfl⟩ | ⟨hfirst, hwrites⟩
        · exact .inl rfl
        · exact .inr ⟨call, seen, around, db, rfl, hbody, rfl, hfirst, hwrites⟩
      next =>
        cases hfinish
        exact .inl rfl

theorem DocumentPhase.Reads.finish {phase : DocumentPhase} (h : phase.Reads docs)
    (hfinish : phase.finish docs = some docs') :
    docs' = docs ∨ ∃ call ∈ phase.call, call.op.replays docs = false ∧
      Writes call.request docs call.op docs' ∧ phase.todo = [] := by
  rcases h.commit hfinish with rfl | ⟨call, seen, around, db, rfl, -, -, hfirst, hwrites⟩
  · exact .inl rfl
  · exact .inr ⟨call, rfl, hfirst, hwrites, rfl⟩

/-- Another request commits. -/
theorem DocumentPhase.Reads.stable {phase other : DocumentPhase} (h : phase.Reads docs)
    (hother : other.Reads docs)
    (hfree : locksConflict (documents.locks other) (documents.locks phase) = false)
    (hfinish : phase.finish docs = some docs') : other.Reads docs' := by
  rcases h.finish hfinish with rfl | ⟨call, hcall, hfirst, hwrites, htodo⟩
  · exact hother
  refine ⟨fun r hr => ?_, fun call' hcall' row hrow => ?_⟩
  · refine hwrites.frame (fun htarget => ?_) (hother.seen r hr)
    have hplan : r.row ∈ call.op.lockPlan docs := by
      rw [Op.lockPlan, hfirst, if_neg Bool.false_ne_true]
      exact htarget
    have hlocked : r.row ∈ phase.seen.map ReadRow.row := by
      rcases h.covers call hcall r.row hplan with hmem | hmem
      · exact hmem
      · rw [htodo] at hmem
        cases hmem
    refine notMem_of_update hfree (List.mem_map_of_mem hr) ?_
    rw [show documents.locks phase = phase.seen.map fun r => (r.row, .update) from rfl, List.map_map]
    exact hlocked
  · exact hother.covers call' hcall' row (hwrites.lockPlan hrow)

/-- Documents change at the end of a request that goes through, and at no other time. -/
theorem documents_committed {s s' : Interleaved Documents DocumentPhase}
    {action : TxAction DocumentCall TenantDb} (h : documents.step s action = some s')
    (hne : s'.committed ≠ s.committed) :
    ∃ t call seen around db, action = .finish t ∧
      s.txs.get t = some (t, .writing call seen around) ∧
        call.op.body call.request (around.withDocuments (s.committed.seeAll seen)) = .ok db ∧
          s'.committed = db.documents := by
  rcases Protocol.step_committed h with hsame | ⟨t, ⟨t', phase⟩, htx, hstep⟩
  · exact absurd hsame hne
  obtain rfl : t' = t := (Table.get_mem htx).2
  rcases hstep with ⟨around, phase', -, hrun⟩ | ⟨rfl, hfinish⟩
  · exact absurd (DocumentPhase.run_committed hrun) hne
  cases phase with
  | reading call seen todo => cases hfinish
  | raised seen => exact absurd (Option.some.inj hfinish).symm hne
  | writing call seen around =>
      simp only [documents, DocumentPhase.finish] at hfinish
      split at hfinish
      next db hbody =>
        exact ⟨t', call, seen, around, db, rfl, htx, hbody, (Option.some.inj hfinish).symm⟩
      next => exact absurd (Option.some.inj hfinish).symm hne

/-- What the bodies of requests keep one after another, where each meets `Q`, they keep in every
interleaving in which each meets `Q`. -/
theorem documents_sound_under {I : Documents → Prop} {Q : Documents → DocumentPhase → Prop}
    (hI : ∀ (call : DocumentCall) (seen : List ReadRow) (around : TenantDb) (docs : Documents)
      (db : TenantDb), I docs → Q docs (.writing call seen around) →
      call.op.body call.request (around.withDocuments docs) = .ok db →
      Writes call.request docs call.op db.documents → I db.documents) :
    documents.Sound Q I fun docs phase => phase.Reads docs where
  start docs call _ := by
    refine ⟨fun r hr => ?_, fun call' hcall row hrow => .inr ?_⟩
    · cases hr
    · cases hcall
      exact hrow
  run docs phase around docs' phase' h hreads hrun := by
    have hreads' := hreads.run hrun
    obtain rfl := DocumentPhase.run_committed hrun
    exact ⟨h, hreads'⟩
  run_stable docs phase around docs' phase' other _ _ hother hrun := by
    obtain rfl := DocumentPhase.run_committed hrun
    exact hother
  finish docs phase docs' h hreads hQ hfinish := by
    rcases hreads.commit hfinish with rfl | ⟨call, seen, around, db, rfl, hbody, rfl, -, hwrites⟩
    · exact h
    · exact hI call seen around docs db h hQ hbody hwrites
  finish_stable docs phase docs' other _ hreads _ hother hfree hfinish :=
    hreads.stable hother hfree hfinish

/-- What the requests keep one after another, they keep in every interleaving. -/
theorem documents_sound {I : Documents → Prop}
    (hI : ∀ (call : DocumentCall) (docs docs' : Documents), I docs →
      Writes call.request docs call.op docs' → I docs') :
    documents.Sound (fun _ _ => True) I fun docs phase => phase.Reads docs :=
  documents_sound_under fun call _ _ docs db h _ _ hwrites => hI call docs db.documents h hwrites

/-! ## Requests of the shop -/

/-- A request that runs while no other does, and locks some rows. -/
def DocumentCall.alone (t : Nat) (call : DocumentCall) (rows : Nat) :
    List (TxAction DocumentCall TenantDb) :=
  .begin t call :: (List.replicate (rows + 1) (.run t (.start corner)) ++ [.finish t])

/-- An order of two hours of the service. -/
def serviceOrder (n : Nat) : DocumentCall :=
  ⟨cornerRequest n, .createSalesOrder
    { customerId := 1
      branchId := 4
      warehouseId := 1
      orderDate := ⟨2026, 1, 15⟩
      lines := [⟨8, 2000000, 50000, 0, 0, Sample.twoPieces_pos, Sample.twoPieces_lt,
        Sample.five_nonneg, Sample.zero_rate, Sample.zero_rate⟩] }, rfl⟩

/-- An order is confirmed. -/
def confirmation (n : Nat) (salesOrderId : Uuid) : DocumentCall :=
  ⟨cornerRequest n, .confirmSalesOrder salesOrderId, rfl⟩

/-- An order is cancelled. -/
def cancellation (n : Nat) (salesOrderId : Uuid) : DocumentCall :=
  ⟨cornerRequest n, .cancelSalesOrder salesOrderId, rfl⟩

/-- All of an order is invoiced. -/
def invoicing (n : Nat) (salesOrderId : Uuid) : DocumentCall :=
  ⟨cornerRequest n, .createInvoice ⟨salesOrderId, ⟨2026, 1, 15⟩, none, false⟩, rfl⟩

end Nexora.Tenant
