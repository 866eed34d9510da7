import Nexora.Vat.Returns
import Nexora.Foundations.Interleaving

/-!
# Filing returns

Documents, drafts and filings under `READ COMMITTED`, statement by statement.  A filing locks its
return, and its `UPDATE` locks each row that it claims and looks at it again, so that a row which
another filing has claimed in the meantime is passed over.  It then totals what carries its id.

`filing_claims_once` says what holds of every interleaving: a claimed row belongs to a filed return
and is never claimed again, and a filed return has the totals of the rows it has claimed, for good.

`vat_return_iff` says for which periods a return can be prepared and filed: those in which the
reversals do not exceed the sales.  The `CHECK` of the table refuses the others.
-/

namespace Nexora.Vat.Filing

open Nexora Nexora.Vat Foundations
open Nexora.Accounting (Money Date)

/-! ## Documents -/

/-- The documents that record tax. -/
inductive Document where
  | invoice
  | creditNote
  | posSale
  | posReturn
  | supplierBill
deriving DecidableEq, Repr

def Document.sourceType : Document → String
  | .invoice => "invoice"
  | .creditNote => "credit_note"
  | .posSale => "pos_sale"
  | .posReturn => "pos_return"
  | .supplierBill => "supplier_bill"

def Document.direction : Document → VatDirection
  | .supplierBill => .input
  | _ => .output

def Document.isReversal : Document → Bool
  | .creditNote | .posReturn => true
  | _ => false

/-- A document with the rates, net amounts and taxes of its lines, and the identifiers drawn for
its rows. -/
structure Recording where
  document : Document
  occurredOn : Date
  sourceId : Uuid
  lines : List RateTotal
  newId : Nat → Uuid

def Recording.event (recording : Recording) : TaxableEvent where
  direction := recording.document.direction
  occurredOn := recording.occurredOn
  sourceType := recording.document.sourceType
  sourceId := recording.sourceId
  isReversal := recording.document.isReversal

/-- The register with the rows of a document. -/
def recordDocument (db : VatDb) (recording : Recording) : Except Err VatDb := do
  let rows ← recording.event.recordLines recording.newId recording.lines
  let register ← insertRows db.register rows
  .ok { db with register := register }

/-! ## Statements -/

inductive Request where
  | record (recording : Recording)
  | prepare (request : ReturnPrepare)
  | file (request : ReturnFile)

inductive Phase where
  | record (recording : Recording)
  | prepare (request : ReturnPrepare)
  /-- There is no return of the period yet. -/
  | total (request : ReturnPrepare)
  | insert (request : ReturnPrepare) (totals : Totals)
  | file (request : ReturnFile)
  /-- The return is locked. -/
  | claim (request : ReturnFile) (ret : VatReturn)
  /-- The rows that the `UPDATE` has still to come to, and those it has claimed. -/
  | claiming (request : ReturnFile) (ret : VatReturn) (todo claimed : List Uuid)
  | save (request : ReturnFile) (ret : VatReturn) (claimed : List Uuid) (totals : Totals)

/-- Which row the `UPDATE` comes to next is for the database to choose. -/
inductive Choice where
  | next
  | row (id : Uuid)

inductive Row where
  | ret (id : Uuid)
  | transaction (id : Uuid)
deriving DecidableEq

def start (_ : VatDb) : Request → Phase
  | .record recording => .record recording
  | .prepare request => .prepare request
  | .file request => .file request

/-- The check for a return of the period.  A request that raises here is over. -/
def checkPeriod (db : VatDb) (request : ReturnPrepare) : Option Phase :=
  if request.periodEnd < request.periodStart then none
  else if db.returnOf request.periodStart request.periodEnd ≠ none then none
  else some (.total request)

/-- `SELECT ... FOR UPDATE` of the return, with the checks on what it finds. -/
def lockReturn (db : VatDb) (request : ReturnFile) : Option Phase :=
  match db.returns.get request.returnId with
  | none => none
  | some ret => if ret.status = .filed then none else some (.claim request ret)

/-- The `UPDATE` comes to a row: it checks its condition again, on the row as it now is. -/
def claimNext (db : VatDb) (request : ReturnFile) (ret : VatReturn) (todo claimed : List Uuid)
    (id : Uuid) : Option Phase :=
  if id ∈ todo then
    if (db.register.get id).any (·.unfiledIn ret.periodStart ret.periodEnd) then
      some (.claiming request ret (todo.erase id) (id :: claimed))
    else some (.claiming request ret (todo.erase id) claimed)
  else none

/-- The next statement. -/
def run (db : VatDb) : Phase → Choice → Option (VatDb × Phase)
  | .prepare request, .next => (checkPeriod db request).map (db, ·)
  | .total request, .next =>
      some (db, .insert request (totals (db.unfiled request.periodStart request.periodEnd)))
  | .file request, .next => (lockReturn db request).map (db, ·)
  | .claim request ret, .next =>
      some (db, .claiming request ret
        ((db.unfiled ret.periodStart ret.periodEnd).map VatTransaction.id) [])
  | .claiming request ret todo claimed, .row id =>
      (claimNext db request ret todo claimed id).map (db, ·)
  -- The transaction reads its own rows as it has claimed them.
  | .claiming request ret [] claimed, .next =>
      some (db, .save request ret claimed
        (totals (claimedBy (claim db.register ret.id claimed) ret.id)))
  | _, _ => none

/-- The writes of `file_return`. -/
def endFile (db : VatDb) (request : ReturnFile) (ret : VatReturn) (claimed : List Uuid)
    (totals : Totals) : Except Err VatDb := do
  let filed ← request.filed ret totals
  .ok ({ db with register := claim db.register ret.id claimed }.saveReturn filed)

/-- The end of a transaction. -/
def finish (db : VatDb) : Phase → Option VatDb
  | .record recording => (recordDocument db recording).toOption
  | .insert request totals => ((request.draft totals).bind db.insertReturn).toOption
  | .save request ret claimed totals => (endFile db request ret claimed totals).toOption
  | _ => none

/-- The row locks: `FOR UPDATE` on the return, and those of the `UPDATE`. -/
def filingLocks (ret : VatReturn) (claimed : List Uuid) : List (Row × LockMode) :=
  (.ret ret.id, .update) :: claimed.map fun id => (.transaction id, .noKeyUpdate)

def locks : Phase → List (Row × LockMode)
  | .claim _ ret => filingLocks ret []
  | .claiming _ ret _ claimed => filingLocks ret claimed
  | .save _ ret claimed _ => filingLocks ret claimed
  | _ => []

/-- Documents, drafts and filings. -/
def protocol : Protocol VatDb Request Phase Choice Row where
  start := start
  run := run
  finish := finish
  locks := locks

/-! ## The invariant -/

/-- A claimed row belongs to a filed return of its period, a filed return has the totals of its
rows, and what a bill records is no reversal. -/
structure Filed (db : VatDb) : Prop where
  claimed : ∀ row ∈ db.register.rows, ∀ id, row.vatReturnId = some id →
    ∃ ret ∈ db.returns.get id, ret.status = .filed ∧ ret.periodStart ≤ row.occurredOn ∧
      row.occurredOn ≤ ret.periodEnd
  totals : ∀ ret ∈ db.returns.rows, ret.status = .filed →
    ret.totals = Vat.totals (claimedBy db.register ret.id) ∧ ret.netVat = ret.totals.netVat
  bills : ∀ row ∈ db.register.rows, row.direction = .input → row.isReversal = false

/-- The return is a draft, and the rows are free and in its period. -/
structure Claims (db : VatDb) (ret : VatReturn) (claimed : List Uuid) : Prop where
  found : db.returns.get ret.id = some ret
  draft : ret.status = .draft
  rows : ∀ id ∈ claimed, ∃ row ∈ db.register.get id, row.unfiledIn ret.periodStart ret.periodEnd

/-- What an open filing relies on. -/
def Relies (db : VatDb) : Phase → Prop
  | .claim _ ret => Claims db ret []
  | .claiming _ ret _ claimed => Claims db ret claimed
  | .save _ ret claimed totals => Claims db ret claimed ∧
      totals = Vat.totals (claimedBy (claim db.register ret.id claimed) ret.id)
  | _ => True

variable {db db' : VatDb} {ret : VatReturn} {claimed : List Uuid}

/-! ## Claiming -/

/-- Rows that differ only where they are left out. -/
theorem filter_map_congr {α β : Type} {p : β → Bool} {f g : α → β} {l : List α}
    (h : ∀ a ∈ l, f a = g a ∨ p (f a) = false ∧ p (g a) = false) :
    (l.map f).filter p = (l.map g).filter p := by
  induction l with
  | nil => rfl
  | cons a l ih =>
      have ih := ih fun b hb => h b (List.mem_cons_of_mem a hb)
      rw [List.map_cons, List.map_cons]
      rcases h a List.mem_cons_self with heq | ⟨hf, hg⟩
      · rw [heq, List.filter_cons, List.filter_cons, ih]
      · rw [List.filter_cons_of_neg (by simp [hf]), List.filter_cons_of_neg (by simp [hg]), ih]

/-- A row that a filing is about to claim is free. -/
theorem Claims.free (h : Claims db ret claimed) {row : VatTransaction}
    (hrow : row ∈ db.register.rows) (hid : row.id ∈ claimed) :
    row.unfiledIn ret.periodStart ret.periodEnd := by
  obtain ⟨row', hget, hfree⟩ := h.rows row.id hid
  have hsame := Table.get_eq_some.mpr ⟨hrow, rfl⟩
  rw [hget] at hsame
  cases hsame
  exact hfree

theorem unfiledIn_iff {periodStart periodEnd : Date} {row : VatTransaction} :
    row.unfiledIn periodStart periodEnd ↔
      periodStart ≤ row.occurredOn ∧ row.occurredOn ≤ periodEnd ∧ row.vatReturnId = none := by
  simp [VatTransaction.unfiledIn]

/-- A claim takes no row from another return. -/
theorem Claims.claimedBy_other (h : Claims db ret claimed) {id : Uuid} (hne : id ≠ ret.id) :
    claimedBy (claim db.register ret.id claimed) id = claimedBy db.register id := by
  show (db.register.rows.map _).filter _ = _
  conv_rhs => rw [claimedBy, ← List.map_id db.register.rows]
  refine filter_map_congr fun row hrow => ?_
  by_cases hid : row.id ∈ claimed
  · have hnone := (unfiledIn_iff.mp (h.free hrow hid)).2.2
    exact .inr ⟨by simp [claimRow, hid, hne.symm], by simp [hnone]⟩
  · exact .inl (if_neg hid)

/-- Filings of different returns claim different rows. -/
theorem Claims.claimedBy_apart {other : VatReturn} {taken : List Uuid} (h : Claims db ret claimed)
    (hne : other.id ≠ ret.id)
    (hapart : ∀ id ∈ claimed, id ∉ taken) :
    claimedBy (claim (claim db.register ret.id claimed) other.id taken) other.id =
      claimedBy (claim db.register other.id taken) other.id := by
  show ((db.register.rows.map _).map _).filter _ = (db.register.rows.map _).filter _
  rw [List.map_map]
  refine filter_map_congr fun row hrow => ?_
  by_cases hid : row.id ∈ claimed
  · have hnot := hapart _ hid
    have hnone := (unfiledIn_iff.mp (h.free hrow hid)).2.2
    exact .inr ⟨by simp [claimRow, hid, hnot, hne.symm], by simp [claimRow, hnot, hnone]⟩
  · exact .inl (by simp [claimRow, hid])

/-! ## Documents -/

theorem record_eq_ok {event : TaxableEvent} {id : Uuid} {total : RateTotal} {row : VatTransaction}
    (h : event.record id total = .ok row) :
    row.direction = event.direction ∧ row.isReversal = event.isReversal ∧
      row.vatReturnId = none := by
  simp only [TaxableEvent.record] at h
  split at h
  next =>
    simp only [ite_error_eq_ok] at h
    cases h.2.2
    exact ⟨rfl, rfl, rfl⟩
  next => cases h

/-- Rows that no return has claimed, at the end of the register. -/
structure Appends (db db' : VatDb) (rows : List VatTransaction) : Prop where
  register : db'.register.rows = db.register.rows ++ rows
  returns : db'.returns = db.returns
  free : ∀ row ∈ rows, row.vatReturnId = none
  bills : ∀ row ∈ rows, row.direction = .input → row.isReversal = false

theorem recordDocument_appends {recording : Recording} (h : recordDocument db recording = .ok db') :
    ∃ rows, Appends db db' rows := by
  obtain ⟨rows, hrows, h⟩ := bind_eq_ok.mp h
  obtain ⟨register, hinsert, h⟩ := bind_eq_ok.mp h
  cases h
  have hrecorded : ∀ row ∈ rows, row.direction = recording.event.direction ∧
      row.isReversal = recording.event.isReversal ∧ row.vatReturnId = none :=
    mapM_forall (fun _ _ => record_eq_ok) hrows
  refine ⟨rows, insertRows_eq_ok hinsert, rfl, fun row hrow => (hrecorded row hrow).2.2, ?_⟩
  intro row hrow hinput
  obtain ⟨hdirection, hreversal, -⟩ := hrecorded row hrow
  rw [hdirection] at hinput
  rw [hreversal]
  cases hdocument : recording.document with
  | supplierBill => simp [Recording.event, Document.isReversal, hdocument]
  | _ => simp [Recording.event, Document.direction, hdocument] at hinput

section Appends

variable {rows : List VatTransaction}

theorem Appends.claimedBy (h : Appends db db' rows) (id : Uuid) :
    Vat.claimedBy db'.register id = Vat.claimedBy db.register id := by
  have hnone : rows.filter (fun row => row.vatReturnId = some id) = [] :=
    List.filter_eq_nil_iff.mpr fun row hrow => by simp [h.free row hrow]
  rw [Vat.claimedBy, h.register, List.filter_append, hnone, List.append_nil, Vat.claimedBy]

/-- The rows that a filing has claimed are not the new ones. -/
theorem Appends.notMem (h : Appends db db' rows) (hclaims : Claims db ret claimed)
    {row : VatTransaction} (hrow : row ∈ rows) : row.id ∉ claimed := by
  intro hid
  obtain ⟨old, hget, -⟩ := hclaims.rows row.id hid
  obtain ⟨hold, hkey⟩ := Table.get_mem hget
  have hnodup := db'.register.nodup
  rw [h.register, List.map_append] at hnodup
  exact List.disjoint_of_nodup_append hnodup (List.mem_map_of_mem hold)
    (hkey.symm ▸ List.mem_map_of_mem hrow)

theorem Appends.claimedBy_claim (h : Appends db db' rows) (hclaims : Claims db ret claimed) :
    Vat.claimedBy (claim db'.register ret.id claimed) ret.id =
      Vat.claimedBy (claim db.register ret.id claimed) ret.id := by
  have hnone : (rows.map (claimRow ret.id claimed)).filter
      (fun row => row.vatReturnId = some ret.id) = [] := by
    refine List.filter_eq_nil_iff.mpr fun row' hrow' => ?_
    obtain ⟨row, hrow, rfl⟩ := List.mem_map.mp hrow'
    simp [claimRow, h.notMem hclaims hrow, h.free row hrow]
  show (db'.register.rows.map _).filter _ = (db.register.rows.map _).filter _
  rw [h.register, List.map_append, List.filter_append, hnone, List.append_nil]

theorem Appends.claims (h : Appends db db' rows) (hclaims : Claims db ret claimed) :
    Claims db' ret claimed where
  found := by
    rw [h.returns]
    exact hclaims.found
  draft := hclaims.draft
  rows id hid := by
    obtain ⟨row, hget, hfree⟩ := hclaims.rows id hid
    exact ⟨row, Table.get_of_append hget h.register, hfree⟩

theorem Appends.filed (h : Appends db db' rows) (hfiled : Filed db) : Filed db' where
  claimed row hrow id hid := by
    rw [h.register] at hrow
    rw [h.returns]
    rcases List.mem_append.mp hrow with hrow | hrow
    · exact hfiled.claimed row hrow id hid
    · rw [h.free row hrow] at hid
      cases hid
  totals ret hret hstatus := by
    rw [h.returns] at hret
    rw [h.claimedBy]
    exact hfiled.totals ret hret hstatus
  bills row hrow := by
    rw [h.register] at hrow
    rcases List.mem_append.mp hrow with hrow | hrow
    · exact hfiled.bills row hrow
    · exact h.bills row hrow

end Appends

/-! ## Drafts -/

/-- A draft beside the returns that there were. -/
structure Drafts (db db' : VatDb) : Prop where
  register : db'.register = db.register
  returns : ∃ ret, ret.status = .draft ∧ db'.returns.rows = db.returns.rows ++ [ret]

theorem insertReturn_drafts {request : ReturnPrepare} {totals : Totals}
    (h : (request.draft totals).bind db.insertReturn = .ok db') : Drafts db db' := by
  obtain ⟨ret, hdraft, h⟩ := bind_eq_ok.mp h
  unfold VatDb.insertReturn at h
  simp only [ite_error_eq_ok] at h
  obtain ⟨returns, hinsert, h⟩ := bind_eq_ok.mp h.2
  cases h
  exact ⟨rfl, ret, (ReturnPrepare.draft_eq_ok hdraft).2.2.2.1,
    (Table.insert_eq_some (orRaise_eq_ok.mp hinsert)).1⟩

theorem Drafts.get (h : Drafts db db') {id : Uuid} (hget : db.returns.get id = some ret) :
    db'.returns.get id = some ret := by
  obtain ⟨draft, -, hrows⟩ := h.returns
  exact Table.get_of_append hget hrows

theorem Drafts.claims (h : Drafts db db') (hclaims : Claims db ret claimed) :
    Claims db' ret claimed where
  found := h.get hclaims.found
  draft := hclaims.draft
  rows := by
    rw [h.register]
    exact hclaims.rows

theorem Drafts.filed (h : Drafts db db') (hfiled : Filed db) : Filed db' where
  claimed row hrow id hid := by
    rw [h.register] at hrow
    obtain ⟨ret, hget, hret⟩ := hfiled.claimed row hrow id hid
    exact ⟨ret, h.get hget, hret⟩
  totals ret hret hstatus := by
    obtain ⟨draft, hdraft, hrows⟩ := h.returns
    rw [h.register]
    rw [hrows] at hret
    rcases List.mem_append.mp hret with hret | hret
    · exact hfiled.totals ret hret hstatus
    · rw [List.mem_singleton.mp hret, hdraft] at hstatus
      cases hstatus
  bills := by
    rw [h.register]
    exact hfiled.bills

/-! ## Filings -/

/-- The claimed rows carry the return, which is filed with their totals. -/
structure Files (db : VatDb) (ret : VatReturn) (claimed : List Uuid) (db' : VatDb)
    (filed : VatReturn) : Prop where
  register : db'.register = claim db.register ret.id claimed
  returns : db'.returns = db.returns.put filed
  id : filed.id = ret.id
  periodStart : filed.periodStart = ret.periodStart
  periodEnd : filed.periodEnd = ret.periodEnd
  status : filed.status = .filed
  totals : filed.totals = Vat.totals (claimedBy db'.register ret.id)
  netVat : filed.netVat = filed.totals.netVat

theorem endFile_files {request : ReturnFile} {totals : Totals}
    (htotals : totals = Vat.totals (claimedBy (claim db.register ret.id claimed) ret.id))
    (h : endFile db request ret claimed totals = .ok db') : ∃ filed, Files db ret claimed db' filed := by
  obtain ⟨filed, hfiled, h⟩ := bind_eq_ok.mp h
  cases h
  obtain ⟨hid, hstart, hend, hstatus, htotals', hnet⟩ := ReturnFile.filed_eq_ok hfiled
  exact ⟨filed, rfl, rfl, hid, hstart, hend, hstatus, htotals'.trans htotals, htotals' ▸ hnet⟩

section Files

variable {saved : VatReturn}

theorem Files.get_other (h : Files db ret claimed db' saved) {id : Uuid} (hne : id ≠ ret.id) :
    db'.returns.get id = db.returns.get id := by
  rw [h.returns, Table.get_put, h.id, if_neg hne]

theorem Files.get_self (h : Files db ret claimed db' saved) :
    db'.returns.get ret.id = some saved := by
  rw [h.returns, Table.get_put, if_pos h.id.symm]

theorem Files.claimedBy_other (h : Files db ret claimed db' saved) (hclaims : Claims db ret claimed)
    {id : Uuid} (hne : id ≠ ret.id) : claimedBy db'.register id = claimedBy db.register id := by
  rw [h.register]
  exact hclaims.claimedBy_other hne

theorem Files.filed (h : Files db ret claimed db' saved) (hclaims : Claims db ret claimed)
    (hfiled : Filed db) : Filed db' where
  claimed row' hrow' id hid := by
    rw [h.register] at hrow'
    obtain ⟨row, hrow, rfl⟩ := List.mem_map.mp hrow'
    unfold claimRow at hid ⊢
    split at hid
    next hmem =>
      cases hid
      obtain ⟨hstart, hend, -⟩ := unfiledIn_iff.mp (hclaims.free hrow hmem)
      rw [if_pos hmem]
      exact ⟨saved, h.get_self, h.status, h.periodStart ▸ hstart, h.periodEnd ▸ hend⟩
    next hmem =>
      rw [if_neg hmem]
      obtain ⟨other, hget, hstatus, hperiod⟩ := hfiled.claimed row hrow id hid
      -- The return of a claimed row is filed, so it is not the one that is being filed.
      have hne : id ≠ ret.id := by
        rintro rfl
        have hsame := hclaims.found.symm.trans hget
        cases hsame
        rw [hclaims.draft] at hstatus
        cases hstatus
      exact ⟨other, (h.get_other hne).trans hget, hstatus, hperiod⟩
  totals other hother hstatus := by
    rw [h.returns] at hother
    rcases Table.mem_put.mp hother with ⟨hother, hne⟩ | rfl
    · rw [h.claimedBy_other hclaims (h.id ▸ hne)]
      exact hfiled.totals other hother hstatus
    · rw [h.id]
      exact ⟨h.totals, h.netVat⟩
  bills row' hrow' := by
    rw [h.register] at hrow'
    obtain ⟨row, hrow, rfl⟩ := List.mem_map.mp hrow'
    unfold claimRow
    split
    · exact hfiled.bills row hrow
    · exact hfiled.bills row hrow

/-- A filing of another return is not disturbed. -/
theorem Files.claims (h : Files db ret claimed db' saved) {other : VatReturn} {taken : List Uuid}
    (hother : Claims db other taken) (hne : other.id ≠ ret.id)
    (hapart : ∀ id ∈ claimed, id ∉ taken) : Claims db' other taken where
  found := (h.get_other hne).trans hother.found
  draft := hother.draft
  rows id hid := by
    obtain ⟨row, hget, hfree⟩ := hother.rows id hid
    have hkey := (Table.get_mem hget).2
    refine ⟨row, ?_, hfree⟩
    show db'.register.get id = some row
    rw [h.register, claim, Table.get_modify, show db.register.get id = some row from hget,
      Option.map_some, claimRow, if_neg]
    exact fun hmem => hapart row.id hmem (hkey.symm ▸ hid)

end Files

/-! ## The rule -/

theorem Relies.run {phase phase' : Phase} {choice : Choice} (h : Relies db phase)
    (hrun : Filing.run db phase choice = some (db', phase')) : db' = db ∧ Relies db phase' := by
  cases phase with
  | prepare request =>
      cases choice with
      | next =>
          obtain ⟨phase, hphase, heq⟩ := Option.map_eq_some_iff.mp hrun
          cases heq
          simp only [checkPeriod] at hphase
          split at hphase
          next => cases hphase
          next =>
            split at hphase
            next => cases hphase
            next =>
              cases hphase
              exact ⟨rfl, trivial⟩
      | row id => cases hrun
  | total request =>
      cases choice with
      | next =>
          cases hrun
          exact ⟨rfl, trivial⟩
      | row id => cases hrun
  | file request =>
      cases choice with
      | next =>
          obtain ⟨phase, hphase, heq⟩ := Option.map_eq_some_iff.mp hrun
          cases heq
          unfold lockReturn at hphase
          split at hphase
          next => cases hphase
          next ret hget =>
            split at hphase
            next => cases hphase
            next hstatus =>
              cases hphase
              refine ⟨rfl, Table.get_self hget, ?_, nofun⟩
              cases hdraft : ret.status with
              | draft => rfl
              | filed => exact absurd hdraft hstatus
      | row id => cases hrun
  | claim request ret =>
      cases choice with
      | next =>
          cases hrun
          exact ⟨rfl, h⟩
      | row id => cases hrun
  | claiming request ret todo claimed =>
      cases choice with
      | next =>
          cases todo with
          | nil =>
              cases hrun
              exact ⟨rfl, h, rfl⟩
          | cons id todo => cases hrun
      | row id =>
          have hrun' : (claimNext db request ret todo claimed id).map (db, ·) = some (db', phase') := by
            cases todo with
            | nil => exact hrun
            | cons _ _ => exact hrun
          obtain ⟨phase, hphase, heq⟩ := Option.map_eq_some_iff.mp hrun'
          cases heq
          unfold claimNext at hphase
          split at hphase
          next =>
            split at hphase
            next hany =>
              cases hphase
              have hclaims : Claims db ret claimed := h
              obtain ⟨row, hget, hfree⟩ := Option.any_eq_true _ _ |>.mp hany
              refine ⟨rfl, hclaims.found, hclaims.draft, fun id' hid' => ?_⟩
              rcases List.mem_cons.mp hid' with rfl | hid'
              · exact ⟨row, hget, hfree⟩
              · exact hclaims.rows id' hid'
            next =>
              cases hphase
              exact ⟨rfl, h⟩
          next => cases hphase
  | _ => cases hrun

/-- What the end of a transaction does. -/
theorem finish_cases {phase : Phase} (hrelies : Relies db phase)
    (h : Filing.finish db phase = some db') :
    (∃ rows, Appends db db' rows) ∨ Drafts db db' ∨
      ∃ ret claimed filed, Claims db ret claimed ∧ Files db ret claimed db' filed ∧
        locks phase = filingLocks ret claimed := by
  cases phase with
  | record recording => exact .inl (recordDocument_appends (toOption_eq_some.mp h))
  | insert request totals => exact .inr (.inl (insertReturn_drafts (toOption_eq_some.mp h)))
  | save request ret claimed totals =>
      obtain ⟨hclaims, htotals⟩ := hrelies
      obtain ⟨filed, hfiles⟩ := endFile_files htotals (toOption_eq_some.mp h)
      exact .inr (.inr ⟨ret, claimed, filed, hclaims, hfiles, rfl⟩)
  | _ => cases h

/-- The locks keep filings apart. -/
theorem apart_of_locks {other : VatReturn} {taken : List Uuid}
    (h : locksConflict (filingLocks other taken) (filingLocks ret claimed) = false) :
    other.id ≠ ret.id ∧ ∀ id ∈ claimed, id ∉ taken := by
  constructor
  · intro heq
    refine notMem_of_update h List.mem_cons_self ?_
    rw [heq]
    exact List.mem_map_of_mem List.mem_cons_self
  · intro id hid htaken
    have hconflict := locksConflict_eq_false.mp h (.transaction id) .noKeyUpdate .noKeyUpdate
      (List.mem_cons_of_mem _ (List.mem_map_of_mem htaken))
      (List.mem_cons_of_mem _ (List.mem_map_of_mem hid))
    cases hconflict

/-- The phases of a filing that rely on the tables. -/
theorem Relies.of_claims {phase : Phase} (hrelies : Relies db phase)
    (h : ∀ ret claimed, locks phase = filingLocks ret claimed → Claims db ret claimed →
      Claims db' ret claimed ∧ claimedBy (claim db'.register ret.id claimed) ret.id =
        claimedBy (claim db.register ret.id claimed) ret.id) : Relies db' phase := by
  cases phase with
  | claim request ret => exact (h ret [] rfl hrelies).1
  | claiming request ret todo claimed => exact (h ret claimed rfl hrelies).1
  | save request ret claimed totals =>
      obtain ⟨hclaims, htotals⟩ := hrelies
      obtain ⟨hclaims', hsame⟩ := h ret claimed rfl hclaims
      exact ⟨hclaims', hsame ▸ htotals⟩
  | _ => exact trivial

theorem sound : protocol.Sound (fun _ _ => True) Filed Relies where
  start db request _ := by
    cases request with
    | _ => exact trivial
  run db phase choice db' phase' h hrelies hrun := by
    obtain ⟨rfl, hrelies'⟩ := Relies.run hrelies hrun
    exact ⟨h, hrelies'⟩
  run_stable db phase choice db' phase' other h hrelies hother hrun := by
    obtain ⟨rfl, -⟩ := Relies.run hrelies hrun
    exact hother
  finish db phase db' h hrelies _ hfinish := by
    rcases finish_cases hrelies hfinish with ⟨rows, happends⟩ | hdrafts |
      ⟨ret, claimed, filed, hclaims, hfiles, -⟩
    · exact happends.filed h
    · exact hdrafts.filed h
    · exact hfiles.filed hclaims h
  finish_stable db phase db' other h hrelies _ hother hfree hfinish := by
    rcases finish_cases hrelies hfinish with ⟨rows, happends⟩ | hdrafts |
      ⟨ret, claimed, filed, hclaims, hfiles, hlocks⟩
    · exact hother.of_claims fun ret claimed _ hclaims =>
        ⟨happends.claims hclaims, happends.claimedBy_claim hclaims⟩
    · refine hother.of_claims fun ret claimed _ hclaims => ⟨hdrafts.claims hclaims, ?_⟩
      rw [hdrafts.register]
    · refine hother.of_claims fun ret' taken hlocks' hclaims' => ?_
      have hlocksFree : locksConflict (locks other) (locks phase) = false := hfree
      rw [hlocks, hlocks'] at hlocksFree
      obtain ⟨hne, hapart⟩ := apart_of_locks hlocksFree
      refine ⟨hfiles.claims hclaims' hne hapart, ?_⟩
      rw [hfiles.register]
      exact hclaims.claimedBy_apart hne hapart

/-! ## Filed returns stay -/

/-- The returns that were filed are there as they were, with the rows they had claimed. -/
def Kept (before db : VatDb) : Prop :=
  ∀ ret ∈ before.returns.rows, ret.status = .filed →
    db.returns.get ret.id = some ret ∧
      claimedBy db.register ret.id = claimedBy before.register ret.id

theorem Kept.refl (db : VatDb) : Kept db db :=
  fun _ hret _ => ⟨Table.get_eq_some.mpr ⟨hret, rfl⟩, rfl⟩

theorem Kept.finish {before : VatDb} {phase : Phase} (h : Kept before db) (hrelies : Relies db phase)
    (hfinish : Filing.finish db phase = some db') : Kept before db' := by
  intro ret hret hstatus
  obtain ⟨hget, hclaimed⟩ := h ret hret hstatus
  rcases finish_cases hrelies hfinish with ⟨rows, happends⟩ | hdrafts |
    ⟨other, claimed, filed, hclaims, hfiles, -⟩
  · rw [happends.returns, happends.claimedBy]
    exact ⟨hget, hclaimed⟩
  · rw [hdrafts.register]
    exact ⟨hdrafts.get hget, hclaimed⟩
  · have hne : ret.id ≠ other.id := by
      intro heq
      have hsame := hclaims.found
      rw [← heq, hget] at hsame
      cases hsame
      rw [hclaims.draft] at hstatus
      cases hstatus
    rw [hfiles.get_other hne, hfiles.claimedBy_other hclaims hne]
    exact ⟨hget, hclaimed⟩

theorem sound_kept (before : VatDb) :
    protocol.Sound (fun _ _ => True) (fun db => Filed db ∧ Kept before db) Relies :=
  sound.and
    (fun db phase choice db' phase' _ hrelies hkept hrun => by
      obtain ⟨rfl, -⟩ := Relies.run hrelies hrun
      exact hkept)
    fun db phase db' _ hrelies _ hkept hfinish => hkept.finish hrelies hfinish

theorem filed_new : Filed .new :=
  ⟨List.forall_mem_nil _, List.forall_mem_nil _, List.forall_mem_nil _⟩

/-- In every interleaving of documents, drafts and filings, whatever their periods: a claimed row
belongs to a filed return of its period; a filed return has the totals of exactly the rows it has
claimed, and its net tax is the difference; and from then on neither the return nor the rows it
has claimed change, so that no row is claimed twice. -/
theorem filing_claims_once {s : Interleaved VatDb Phase}
    (h : protocol.Reaches (Protocol.init .new) s) :
    (∀ row ∈ s.committed.register.rows, ∀ id, row.vatReturnId = some id →
      ∃ ret ∈ s.committed.returns.get id, ret.status = .filed ∧
        ret.periodStart ≤ row.occurredOn ∧ row.occurredOn ≤ ret.periodEnd) ∧
    (∀ ret ∈ s.committed.returns.rows, ret.status = .filed →
      ret.totals = totals (claimedBy s.committed.register ret.id) ∧
        ret.netVat = ret.totals.outputVat - ret.totals.inputVat) ∧
    ∀ s', protocol.Reaches s s' →
      (∀ ret ∈ s.committed.returns.rows, ret.status = .filed →
        s'.committed.returns.get ret.id = some ret ∧
          claimedBy s'.committed.register ret.id = claimedBy s.committed.register ret.id) ∧
      ∀ row ∈ s.committed.register.rows, row.vatReturnId ≠ none →
        row ∈ s'.committed.register.rows := by
  have hinv := sound.runs h (.init filed_new)
  refine ⟨hinv.committed.claimed, hinv.committed.totals, fun s' hreaches => ?_⟩
  have hkept := ((sound_kept s.committed).runs hreaches
    ⟨⟨hinv.committed, .refl _⟩, hinv.opened, hinv.exclusive⟩).committed.2
  refine ⟨hkept, fun row hrow hclaimed => ?_⟩
  obtain ⟨id, hid⟩ := Option.ne_none_iff_exists'.mp hclaimed
  obtain ⟨ret, hget, hstatus, -⟩ := hinv.committed.claimed row hrow id hid
  obtain ⟨hret, rfl⟩ := Table.get_mem hget
  have hmem : row ∈ claimedBy s.committed.register ret.id :=
    List.mem_filter.mpr ⟨hrow, by simpa using hid⟩
  rw [← (hkept ret hret hstatus).2] at hmem
  exact (List.mem_filter.mp hmem).1

/-- An invoice of January. -/
def januaryInvoice : Recording := ⟨.invoice, ⟨2026, 1, 10⟩, 1, invoiceLines, fun _ => 11⟩

/-- Another one, while the first is being claimed. -/
def lateInvoice : Recording := ⟨.invoice, ⟨2026, 1, 15⟩, 2, invoiceLines, fun _ => 12⟩

/-- A return for January and one for January and February, filed at once. -/
def overlappingFilings : List (TxAction Request Choice) :=
  [.begin 1 (.record januaryInvoice), .finish 1,
   .begin 2 (.prepare ⟨21, ⟨2026, 1, 1⟩, ⟨2026, 1, 31⟩⟩), .run 2 .next, .run 2 .next, .finish 2,
   .begin 3 (.prepare ⟨22, ⟨2026, 1, 1⟩, ⟨2026, 2, 28⟩⟩), .run 3 .next, .run 3 .next, .finish 3,
   .begin 4 (.file ⟨21, 1, 100⟩), .run 4 .next, .run 4 .next,
   .begin 5 (.file ⟨22, 1, 101⟩), .run 5 .next, .run 5 .next,
   .run 4 (.row 11), .begin 6 (.record lateInvoice), .finish 6, .run 4 .next, .finish 4,
   .run 5 (.row 11), .run 5 .next, .finish 5]

/-- Both come to the invoice, and the second one passes it over. -/
theorem filing_claims_once_overlapping : ∃ s : Interleaved VatDb Phase,
    protocol.Reaches (Protocol.init .new) s ∧
      s.committed.register.rows.map (fun row => (row.id, row.vatReturnId)) =
        [(11, some 21), (12, none)] ∧
      s.committed.returns.rows.map (fun ret => (ret.id, ret.totals.outputVat)) =
        [(21, 3000000), (22, 0)] ∧
      ∀ ret ∈ s.committed.returns.rows, ret.status = .filed →
        ret.totals = totals (claimedBy s.committed.register ret.id) ∧
          ret.netVat = ret.totals.outputVat - ret.totals.inputVat := by
  have hfacts : (overlappingFilings.foldlM protocol.step (Protocol.init .new)).any fun s =>
      s.committed.register.rows.map (fun row => (row.id, row.vatReturnId)) =
        [(11, some 21), (12, none)] ∧
      s.committed.returns.rows.map (fun ret => (ret.id, ret.totals.outputVat)) =
        [(21, 3000000), (22, 0)] := by decide +kernel
  obtain ⟨s, hreaches, hrows, hreturns⟩ :=
    Protocol.Reaches.exists_of_any overlappingFilings hfacts
  exact ⟨s, hreaches, hrows, hreturns, (filing_claims_once hreaches).2.1⟩

/-! ## Returns for every period -/

/-- The tax of the sales in a period that no return has claimed. -/
def salesVat (db : VatDb) (periodStart periodEnd : Date) : Money :=
  sumOf VatTransaction.isSale VatTransaction.vatAmount (db.unfiled periodStart periodEnd)

/-- The tax of the reversals in a period that no return has claimed. -/
def reversedVat (db : VatDb) (periodStart periodEnd : Date) : Money :=
  sumOf VatTransaction.isSaleReversal VatTransaction.vatAmount (db.unfiled periodStart periodEnd)

/-- The totals that a filing computes. -/
def fileTotals (db : VatDb) (ret : VatReturn) : Totals :=
  totals (claimedBy (claim db.register ret.id
    ((db.unfiled ret.periodStart ret.periodEnd).map VatTransaction.id)) ret.id)

/-- The tax of bills is never negative. -/
theorem Filed.inputVat_nonneg (h : Filed db) (periodStart periodEnd : Date) :
    0 ≤ (Vat.totals (db.unfiled periodStart periodEnd)).inputVat := by
  show 0 ≤ (List.map _ (List.filter _ (db.unfiled periodStart periodEnd))).sum
  refine List.sum_nonneg fun amount hamount => ?_
  obtain ⟨row, hrow, rfl⟩ := List.mem_map.mp hamount
  obtain ⟨hrow, hinput⟩ := List.mem_filter.mp hrow
  rcases row.reversal_sign with ⟨hsign, -⟩ | ⟨-, hreversal⟩
  · exact hsign
  · rw [h.bills row (List.mem_filter.mp hrow).1 (of_decide_eq_true hinput)] at hreversal
    cases hreversal

/-- The totals of a period satisfy the check when its reversals do not exceed its sales. -/
theorem Filed.nonnegative_iff (h : Filed db) (periodStart periodEnd : Date) :
    (Vat.totals (db.unfiled periodStart periodEnd)).Nonnegative ↔
      reversedVat db periodStart periodEnd ≤ salesVat db periodStart periodEnd := by
  have hinput := h.inputVat_nonneg periodStart periodEnd
  rw [Totals.Nonnegative, and_iff_left hinput, outputVat_eq, sub_nonneg]
  exact Iff.rfl

/-- A claim changes no amount. -/
theorem totals_map_claimRow (id : Uuid) (ids : List Uuid) (rows : List VatTransaction) :
    totals (rows.map (claimRow id ids)) = totals rows := by
  have hsame : ∀ row : VatTransaction, (claimRow id ids row).direction = row.direction ∧
      (claimRow id ids row).vatAmount = row.vatAmount ∧
      (claimRow id ids row).taxableAmount = row.taxableAmount := by
    intro row
    unfold claimRow
    split
    · exact ⟨rfl, rfl, rfl⟩
    · exact ⟨rfl, rfl, rfl⟩
  simp [totals, registerVat, registerTaxable, List.filter_map, Function.comp_def, hsame]

/-- A filing totals what a draft of its period would total. -/
theorem Filed.fileTotals_eq (h : Filed db) (hget : db.returns.get ret.id = some ret)
    (hdraft : ret.status = .draft) :
    fileTotals db ret = Vat.totals (db.unfiled ret.periodStart ret.periodEnd) := by
  have hrows : claimedBy (claim db.register ret.id
      ((db.unfiled ret.periodStart ret.periodEnd).map VatTransaction.id)) ret.id =
      (db.unfiled ret.periodStart ret.periodEnd).map (claimRow ret.id
        ((db.unfiled ret.periodStart ret.periodEnd).map VatTransaction.id)) := by
    show (db.register.rows.map _).filter _ = (db.register.rows.filter _).map _
    rw [List.filter_map]
    refine congrArg _ (List.filter_congr fun row hrow => ?_)
    rw [Function.comp_apply, claimRow, Bool.eq_iff_iff, decide_eq_true_eq]
    split
    next hmem =>
      obtain ⟨row', hrow', hid⟩ := List.mem_map.mp hmem
      obtain ⟨hrow', hfree⟩ := List.mem_filter.mp hrow'
      rw [Table.eq_of_mem hrow hrow' hid.symm]
      simp [hfree]
    next hmem =>
      constructor
      · intro hclaimed
        -- Only a filed return has rows.
        obtain ⟨other, hother, hstatus, -⟩ := h.claimed row hrow ret.id hclaimed
        cases hget.symm.trans hother
        rw [hdraft] at hstatus
        cases hstatus
      · exact fun hfree =>
          absurd (List.mem_map_of_mem (List.mem_filter.mpr ⟨hrow, hfree⟩)) hmem
  rw [fileTotals, hrows, totals_map_claimRow]

theorem check_ne_integrity {totals : Totals} (h : totals.Nonnegative) (c : String) :
    totals.check ≠ .error (.integrity c) := by
  unfold Totals.check
  split
  · nofun
  · nofun

/-- A draft of a valid period is refused on a constraint only for its totals. -/
theorem prepareReturn_ne_integrity {request : ReturnPrepare}
    (hperiod : request.periodStart ≤ request.periodEnd)
    (hnone : db.returnOf request.periodStart request.periodEnd = none)
    (hfresh : db.returns.get request.id = none)
    (h : (totals (db.unfiled request.periodStart request.periodEnd)).Nonnegative) (c : String) :
    prepareReturn db request ≠ .error (.integrity c) := by
  intro herror
  rw [prepareReturn, if_neg (not_lt.mpr hperiod), if_neg (by simp [hnone])] at herror
  rcases bind_eq_error.mp herror with hdraft | ⟨ret, hdraft, herror⟩
  · rw [ReturnPrepare.draft, dif_pos hperiod] at hdraft
    rcases bind_eq_error.mp hdraft with hcheck | ⟨⟨_⟩, -, hdraft⟩
    · exact check_ne_integrity h c hcheck
    · cases hdraft
  · obtain ⟨hid, hstart, hend, -⟩ := ReturnPrepare.draft_eq_ok hdraft
    obtain ⟨returns, hinsert⟩ := Table.insert_of_fresh (hid ▸ hfresh)
    rw [VatDb.insertReturn, hstart, hend, if_neg (by simp [hnone]), hinsert] at herror
    cases herror

/-- A draft is filed, or refused for its totals. -/
theorem fileReturn_ne_integrity {request : ReturnFile} (hget : db.returns.get request.returnId = some ret)
    (hdraft : ret.status = .draft) (h : (fileTotals db ret).Nonnegative) (c : String) :
    fileReturn db request ≠ .error (.integrity c) := by
  intro herror
  simp only [fileReturn, hget] at herror
  rw [if_neg (by simp [hdraft])] at herror
  rcases bind_eq_error.mp herror with hfiled | ⟨filed, -, herror⟩
  · rcases bind_eq_error.mp hfiled with hcheck | ⟨⟨_⟩, -, hfiled⟩
    · exact check_ne_integrity h c hcheck
    · cases hfiled
  · cases herror

/-- In every state that documents, drafts and filings reach: the totals of a valid period satisfy
the checks of the table, and the draft is refused on no constraint, exactly when the tax of the
reversals in the period does not exceed the tax of its sales; and so for the filing of a draft. -/
theorem vat_return_iff {s : Interleaved VatDb Phase}
    (h : protocol.Reaches (Protocol.init .new) s) :
    (∀ request : ReturnPrepare, request.periodStart ≤ request.periodEnd →
      s.committed.returnOf request.periodStart request.periodEnd = none →
      s.committed.returns.get request.id = none →
      ((totals (s.committed.unfiled request.periodStart request.periodEnd)).Nonnegative ∧
          (∀ c, prepareReturn s.committed request ≠ .error (.integrity c)) ↔
        reversedVat s.committed request.periodStart request.periodEnd ≤
          salesVat s.committed request.periodStart request.periodEnd)) ∧
    ∀ request : ReturnFile, ∀ ret ∈ s.committed.returns.get request.returnId, ret.status = .draft →
      ((fileTotals s.committed ret).Nonnegative ∧
          (∀ c, fileReturn s.committed request ≠ .error (.integrity c)) ↔
        reversedVat s.committed ret.periodStart ret.periodEnd ≤
          salesVat s.committed ret.periodStart ret.periodEnd) := by
  have hfiled := (sound.runs h (.init filed_new)).committed
  constructor
  · intro request hperiod hnone hfresh
    rw [and_iff_left_of_imp fun hnonneg => prepareReturn_ne_integrity hperiod hnone hfresh hnonneg]
    exact hfiled.nonnegative_iff _ _
  · intro request ret hget hdraft
    rw [and_iff_left_of_imp fun hnonneg => fileReturn_ne_integrity hget hdraft hnonneg,
      hfiled.fileTotals_eq (Table.get_self hget) hdraft]
    exact hfiled.nonnegative_iff _ _

/-- A credit note of February over the whole of the invoice of January. -/
def februaryCreditNote : Recording := ⟨.creditNote, ⟨2026, 2, 5⟩, 3, invoiceLines, fun _ => 13⟩

def february : ReturnPrepare := ⟨23, ⟨2026, 2, 1⟩, ⟨2026, 2, 28⟩⟩

def firstQuarter : ReturnPrepare := ⟨24, ⟨2026, 1, 1⟩, ⟨2026, 3, 31⟩⟩

/-- The invoice of January and the credit note of February. -/
def creditedLater : List (TxAction Request Choice) :=
  [.begin 1 (.record januaryInvoice), .finish 1, .begin 2 (.record februaryCreditNote), .finish 2]

/-- Over the quarter the reversals do not exceed the sales. -/
theorem vat_return_quarter : ∃ s : Interleaved VatDb Phase,
    protocol.Reaches (Protocol.init .new) s ∧
      ∀ c, prepareReturn s.committed firstQuarter ≠ .error (.integrity c) := by
  have hfacts : (creditedLater.foldlM protocol.step (Protocol.init .new)).any fun s =>
      s.committed.returnOf firstQuarter.periodStart firstQuarter.periodEnd = none ∧
        s.committed.returns.get firstQuarter.id = none ∧
        reversedVat s.committed firstQuarter.periodStart firstQuarter.periodEnd ≤
          salesVat s.committed firstQuarter.periodStart firstQuarter.periodEnd := by decide +kernel
  obtain ⟨s, hreaches, hnone, hfresh, hle⟩ :=
    Protocol.Reaches.exists_of_any creditedLater hfacts
  exact ⟨s, hreaches,
    (((vat_return_iff hreaches).1 firstQuarter (by decide) hnone hfresh).mpr hle).2⟩

/-- The draft for February is there before the credit note. -/
def draftedBefore : List (TxAction Request Choice) :=
  [.begin 1 (.record januaryInvoice), .finish 1,
   .begin 2 (.prepare february), .run 2 .next, .run 2 .next, .finish 2,
   .begin 3 (.record februaryCreditNote), .finish 3]

/-- There is no return for February: its draft is refused, and a draft from before the credit note
cannot be filed. -/
theorem february_refused :
    (∃ s : Interleaved VatDb Phase, protocol.Reaches (Protocol.init .new) s ∧
      february.periodStart ≤ february.periodEnd ∧
      s.committed.returnOf february.periodStart february.periodEnd = none ∧
      prepareReturn s.committed february =
        .error (.integrity "ck_vat_returns_totals_nonnegative")) ∧
    ∃ s : Interleaved VatDb Phase, protocol.Reaches (Protocol.init .new) s ∧
      (s.committed.returns.get 23).map VatReturn.status = some .draft ∧
      fileReturn s.committed ⟨23, 1, 100⟩ =
        .error (.integrity "ck_vat_returns_totals_nonnegative") := by
  constructor
  · have hfacts : (creditedLater.foldlM protocol.step (Protocol.init .new)).any fun s =>
        s.committed.returnOf february.periodStart february.periodEnd = none ∧
          raised (prepareReturn s.committed february) =
            some (.integrity "ck_vat_returns_totals_nonnegative") := by decide +kernel
    obtain ⟨s, hreaches, hnone, hraised⟩ := Protocol.Reaches.exists_of_any creditedLater hfacts
    exact ⟨s, hreaches, by decide, hnone, raised_eq_some.mp hraised⟩
  · have hfacts : (draftedBefore.foldlM protocol.step (Protocol.init .new)).any fun s =>
        (s.committed.returns.get 23).map VatReturn.status = some .draft ∧
          raised (fileReturn s.committed ⟨23, 1, 100⟩) =
            some (.integrity "ck_vat_returns_totals_nonnegative") := by decide +kernel
    obtain ⟨s, hreaches, hdraft, hraised⟩ := Protocol.Reaches.exists_of_any draftedBefore hfacts
    exact ⟨s, hreaches, hdraft, raised_eq_some.mp hraised⟩

end Nexora.Vat.Filing
