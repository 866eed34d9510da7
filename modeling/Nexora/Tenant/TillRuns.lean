import Nexora.Foundations.LockedReads
import Nexora.Tenant.DocumentRuns
import Nexora.Tenant.Drafts
import Nexora.Tenant.FairSales

/-!
# Concurrent requests of the till

`checkout`, `refund` and `close_session` begin with the row of their session, `FOR UPDATE`, and a
refund then locks its sale.  `close_session` adds up the cash of the session with a statement of
its own, after it has the row.  `tillService` is these requests as `LockedReads`: stock, ledger,
register and terminals are whatever a request finds them to be.

`TillWrites` is what they write.  A sale or a refund goes into a session that is open when it
commits, since it holds the row of the session.
-/

namespace Nexora.Pos

open Nexora Nexora.Catalog Nexora.Sales Nexora.Tenant Foundations
open Nexora.Accounting (Money)

/-- `close_session`, with the cash that a statement before has added up. -/
def closeSessionAt (cashNet : Money) (request : Request) (db : TenantDb) (sessionId : Uuid)
    (countedCash : Money) : Except Err TenantDb := do
  let (session, _) ← requireSession request db sessionId
  let expected := session.openingFloat + cashNet
  storeMoney "expected_cash" expected
  storeMoney "counted_cash" countedCash
  storeMoney "cash_variance" (countedCash - expected)
  let sessions ← orRaise (.integrity "pk_pos_sessions")
    (db.pos.sessions.replace session.id { session with
      status := .closed
      closedByMembershipId := some request.env.context.membershipId
      expectedCash := some expected
      countedCash := some countedCash
      cashVariance := some (countedCash - expected) })
  .ok { db with pos := { db.pos with sessions := sessions } }

theorem closeSession_eq (request : Request) (db : TenantDb) (sessionId : Uuid)
    (countedCash : Money) :
    closeSession request db sessionId countedCash =
      closeSessionAt (db.pos.cashNet sessionId) request db sessionId countedCash := rfl

end Nexora.Pos

namespace Nexora.Tenant

open Nexora Nexora.Catalog Nexora.Sales Nexora.Pos Foundations
open Nexora.Accounting (Money)
open Nexora.Inventory (InventoryDb)

/-! ## The system -/

/-- The tables that requests of the till write, and the entries that they have posted. -/
structure TillState where
  sessions : Table PosSession.id
  sales : Table SaleRow.id
  returns : Table SaleReturn.id
  entries : List Entry

/-- A till before any session. -/
def TillState.empty : TillState := ⟨.empty _, .empty _, .empty _, []⟩

def TenantDb.withTill (db : TenantDb) (till : TillState) : TenantDb :=
  { db with pos := ⟨db.pos.terminals, till.sessions, till.sales, till.returns⟩ }

/-- `repository.cash_net`. -/
def TillState.cashNet (till : TillState) (sessionId : Uuid) : Money :=
  PosDb.cashNet ⟨.empty _, till.sessions, till.sales, till.returns⟩ sessionId

/-- A request of the till. -/
structure TillCall where
  request : Request
  op : Op
  isTill : op.isTill

inductive TillRow where
  | session (id : Uuid)
  | sale (id : Uuid)
deriving DecidableEq

/-- A row as a request has read it. -/
inductive SeenRow where
  | session (opened : PosSession)
  | sale (sold : SaleRow)

def SeenRow.row : SeenRow → TillRow
  | .session opened => .session opened.id
  | .sale sold => .sale sold.id

def TillState.read (till : TillState) : TillRow → Option SeenRow
  | .session id => (till.sessions.get id).map .session
  | .sale id => (till.sales.get id).map .sale

/-- The tables with a row as it was read. -/
def TillState.see (till : TillState) : SeenRow → TillState
  | .session session =>
      { till with sessions := (till.sessions.replace session.id session).getD till.sessions }
  | .sale row => { till with sales := (till.sales.replace row.id row).getD till.sales }

def TillState.seeAll (till : TillState) (seen : List SeenRow) : TillState := seen.foldl see till

/-- The rows that a request locks, in this order. -/
def Op.tillRows : Op → List TillRow
  | .closeSession id _ => [.session id]
  | .checkout payload _ => [.session payload.sessionId]
  | .refund payload _ => [.session payload.sessionId, .sale payload.saleId]
  | _ => []

/-- The idempotency service answers for the request. -/
def Op.tillReplays (till : TillState) : Op → Bool
  | .checkout _ claim => replayed claim till.sales.get
  | .refund _ claim => replayed claim till.returns.get
  | _ => false

def Op.tillPlan (till : TillState) (op : Op) : List TillRow :=
  if op.tillReplays till then [] else op.tillRows

/-- What a request adds up once it has its rows. -/
def Op.tillView (till : TillState) : Op → Money
  | .closeSession id _ => till.cashNet id
  | _ => 0

/-- A request up to its postings. -/
def Op.tillDraft (request : Request) (db : TenantDb) (cashNet : Money) : Op → Except Err Draft
  | .openSession payload => (Pos.openSession request db payload).map .replayed
  | .closeSession id countedCash =>
      (closeSessionAt cashNet request db id countedCash).map .replayed
  | .checkout payload claim => checkoutDraft request db payload claim
  | .refund payload claim => refundDraft request db payload claim
  | _ => .ok (.replayed db)

/-- What a request makes of the tables as it has read them. -/
def TillState.write (till : TillState) (call : TillCall) (seen : List SeenRow) (cashNet : Money)
    (around : TenantDb) : Option TillState :=
  match call.op.tillDraft call.request (around.withTill (till.seeAll seen)) cashNet with
  | .error _ => none
  | .ok draft =>
      match draft.book call.request with
      | .error _ => none
      | .ok db =>
          some ⟨db.pos.sessions, db.pos.sales, db.pos.returns, till.entries ++ draft.entries⟩

def tillService : LockedReads TillState TillCall TillRow SeenRow Money TenantDb where
  plan till call := call.op.tillPlan till
  more _ _ := []
  read := TillState.read
  row := SeenRow.row
  view till call := call.op.tillView till
  write := TillState.write

/-! ## What the requests write -/

/-- A sale that the till has rung up. -/
structure Rung (row : SaleRow) : Prop where
  fair : FairSale row.sale.lines
  totals : ∀ line ∈ row.sale.lines, line.totalAmount = line.netAmount + line.taxAmount
  netAmount : row.sale.netAmount = (row.sale.lines.map SaleLine.netAmount).sum
  taxAmount : row.sale.taxAmount = (row.sale.lines.map SaleLine.taxAmount).sum
  tendered : (row.payments.map fun payment => payment.amount - payment.changeGiven).sum =
    row.sale.netAmount + row.sale.taxAmount

/-- A refund of some lines of a sale. -/
structure TakesBack (row : SaleRow) (sale : Sale) (saleReturn : SaleReturn) (state : RefundState) :
    Prop where
  loop : ∃ (inventory : InventoryDb) (items : List RequestedLine), (items.map (·.lineId)).Nodup ∧
    (∀ item ∈ items, item.lineId ∈ row.sale.lines.map SaleLine.id) ∧
      (items.map refundLineOf).foldlM (refundItem inventory.product nothingElsewhere)
        ⟨row.sale.lines, 0, ⟨0, 0, 0, []⟩⟩ = .ok state
  lines : sale.lines = state.lines
  netAmount : sale.netAmount = row.sale.netAmount
  taxAmount : sale.taxAmount = row.sale.taxAmount
  amount : saleReturn.amount = state.total

/-- What the requests of the till write. -/
inductive TillWrites (till : TillState) : Op → TillState → Prop
  | openSession {payload : SessionOpen} {session : PosSession} {sessions : Table PosSession.id}
      (hopen : session.status = .opened) (hinsert : till.sessions.insert session = some sessions) :
      TillWrites till (.openSession payload) { till with sessions := sessions }
  | closeSession {id : Uuid} {countedCash : Money} {session closed : PosSession}
      {sessions : Table PosSession.id} (hget : till.sessions.get id = some session)
      (hopen : session.status = .opened) (hid : closed.id = session.id)
      (hfloat : closed.openingFloat = session.openingFloat) (hclosed : closed.status = .closed)
      (hexpected : closed.expectedCash = some (session.openingFloat + till.cashNet id))
      (hreplace : till.sessions.replace session.id closed = some sessions) :
      TillWrites till (.closeSession id countedCash) { till with sessions := sessions }
  | checkout {payload : CheckoutCreate} {claim : Except Err (Option Uuid)} {session : PosSession}
      {row : SaleRow} {sales : Table SaleRow.id} (hnew : replayed claim till.sales.get = false)
      (hget : till.sessions.get payload.sessionId = some session) (hopen : session.status = .opened)
      (hsession : row.sessionId = payload.sessionId) (hrung : Rung row)
      (hinsert : till.sales.insert row = some sales) :
      TillWrites till (.checkout payload claim)
        { till with sales := sales, entries := till.entries ++ row.entries }
  | refund {payload : RefundCreate} {claim : Except Err (Option Uuid)} {session : PosSession}
      {row : SaleRow} {sale : Sale} {saleReturn : SaleReturn} {state : RefundState}
      {sales : Table SaleRow.id} {returns : Table SaleReturn.id}
      (hnew : replayed claim till.returns.get = false)
      (hget : till.sessions.get payload.sessionId = some session) (hopen : session.status = .opened)
      (hsale : till.sales.get payload.saleId = some row)
      (hsession : saleReturn.sessionId = payload.sessionId)
      (htakes : TakesBack row sale saleReturn state)
      (hinsert : till.returns.insert saleReturn = some returns)
      (hreplace : till.sales.replace row.id { row with sale := sale } = some sales) :
      TillWrites till (.refund payload claim)
        ⟨till.sessions, sales, returns, till.entries ++ saleReturn.entries state.booking⟩

variable {request : Request} {db db' : TenantDb} {till till' : TillState} {op : Op}

theorem requireSession_eq_ok {sessionId : Uuid} {session : PosSession} {terminal : PosTerminal}
    (h : requireSession request db sessionId = .ok (session, terminal)) :
    db.pos.sessions.get sessionId = some session ∧ session.status = .opened := by
  obtain ⟨session', hget, h⟩ := bind_eq_ok.mp h
  obtain ⟨terminal', -, h⟩ := bind_eq_ok.mp h
  obtain ⟨_, hopen, h⟩ := bind_eq_ok.mp h
  obtain ⟨_, -, h⟩ := bind_eq_ok.mp h
  obtain ⟨_, -, h⟩ := bind_eq_ok.mp h
  cases h
  refine ⟨orRaise_eq_ok.mp hget, ?_⟩
  unfold requireOpen at hopen
  split at hopen
  next hstatus => exact hstatus
  next => cases hopen

theorem Till.checkout_rung {registry : Till} {items : List CartLine} {row : SaleRow}
    (h : registry.checkout items row.payments = .ok row.sale) : Rung row := by
  obtain ⟨hlines, hnet, htax, -, -⟩ := Till.checkout_figures h
  refine ⟨Till.checkout_fair h,
    mapM_forall (fun _ _ hline => (Till.sellLine_eq_ok hline).2) hlines, hnet, htax, ?_⟩
  obtain ⟨_, -, h⟩ := bind_eq_ok.mp h
  obtain ⟨_, -, h⟩ := bind_eq_ok.mp h
  obtain ⟨lines, -, h⟩ := bind_eq_ok.mp h
  obtain ⟨discount, -, h⟩ := bind_eq_ok.mp h
  obtain ⟨_, htender, h⟩ := bind_eq_ok.mp h
  obtain ⟨_, -, h⟩ := bind_eq_ok.mp h
  obtain ⟨_, -, h⟩ := bind_eq_ok.mp h
  obtain ⟨_, -, h⟩ := bind_eq_ok.mp h
  obtain ⟨_, -, h⟩ := bind_eq_ok.mp h
  obtain ⟨_, -, h⟩ := bind_eq_ok.mp h
  unfold requireTender at htender
  split at htender
  next hsum =>
    have hsale := Except.ok.inj h
    rw [← hsale]
    exact hsum
  next => cases htender

theorem TillWrites.of_refund {payload : RefundCreate} {claim : Except Err (Option Uuid)}
    {draft : Draft} (h : refundDraft request (db.withTill till) payload claim = .ok draft) :
    draft = .replayed (db.withTill till) ∨
      TillWrites till (.refund payload claim) ⟨draft.tables.pos.sessions, draft.tables.pos.sales,
        draft.tables.pos.returns, till.entries ++ draft.entries⟩ := by
  obtain ⟨stored, hclaim, h⟩ := bind_eq_ok.mp h
  split at h
  next existing hexisting =>
    cases h
    exact .inl rfl
  next hexisting =>
    obtain ⟨⟨session, terminal⟩, hsession, h⟩ := bind_eq_ok.mp h
    obtain ⟨row, hrow, h⟩ := bind_eq_ok.mp h
    obtain ⟨_, -, h⟩ := bind_eq_ok.mp h
    obtain ⟨_, -, h⟩ := bind_eq_ok.mp h
    obtain ⟨_, hdistinct, h⟩ := bind_eq_ok.mp h
    obtain ⟨_, hlines, h⟩ := bind_eq_ok.mp h
    obtain ⟨state, hloop, h⟩ := bind_eq_ok.mp h
    obtain ⟨sale, hsale, h⟩ := bind_eq_ok.mp h
    obtain ⟨_, -, h⟩ := bind_eq_ok.mp h
    obtain ⟨inventory, -, h⟩ := bind_eq_ok.mp h
    obtain ⟨returns, hinsert, h⟩ := bind_eq_ok.mp h
    obtain ⟨sales, hreplace, h⟩ := bind_eq_ok.mp h
    obtain ⟨rows, -, h⟩ := bind_eq_ok.mp h
    cases h
    obtain ⟨hget, hopen⟩ := requireSession_eq_ok hsession
    have hperm : (payload.sorted row.sale.lines).Perm payload.lines := List.perm_insertionSort _ _
    obtain ⟨hstate, hfigures⟩ := Sale.storeRefund_eq_ok hsale
    refine .inr (.refund ?_ hget hopen (orRaise_eq_ok.mp hrow) (Table.get_mem hget).2
      ⟨⟨_, _, (hperm.map (·.lineId)).nodup_iff.mpr (requireDistinct_eq_ok hdistinct),
        fun item hitem => ?_, hloop⟩, hstate, hfigures.netAmount, hfigures.taxAmount, rfl⟩ (orRaise_eq_ok.mp hinsert)
      (orRaise_eq_ok.mp hreplace))
    · simp only [replayed, hclaim]
      exact congrArg Option.isSome hexisting
    · exact requireLines_eq_ok hlines (refundLineOf item)
        (List.mem_map_of_mem (hperm.mem_iff.mp hitem))

theorem TillWrites.of_checkout {payload : CheckoutCreate} {claim : Except Err (Option Uuid)}
    {draft : Draft} (h : checkoutDraft request (db.withTill till) payload claim = .ok draft) :
    draft = .replayed (db.withTill till) ∨
      TillWrites till (.checkout payload claim) ⟨draft.tables.pos.sessions, draft.tables.pos.sales,
        draft.tables.pos.returns, till.entries ++ draft.entries⟩ := by
  obtain ⟨stored, hclaim, h⟩ := bind_eq_ok.mp h
  split at h
  next existing hexisting =>
    obtain ⟨_, -, h⟩ := bind_eq_ok.mp h
    cases h
    exact .inl rfl
  next hexisting =>
    obtain ⟨⟨session, terminal⟩, hsession, h⟩ := bind_eq_ok.mp h
    obtain ⟨_, -, h⟩ := bind_eq_ok.mp h
    obtain ⟨sale, hsale, h⟩ := bind_eq_ok.mp h
    obtain ⟨_, -, h⟩ := bind_eq_ok.mp h
    obtain ⟨inventory, -, h⟩ := bind_eq_ok.mp h
    obtain ⟨sales, hinsert, h⟩ := bind_eq_ok.mp h
    obtain ⟨rows, -, h⟩ := bind_eq_ok.mp h
    cases h
    obtain ⟨hget, hopen⟩ := requireSession_eq_ok hsession
    refine .inr (.checkout ?_ hget hopen (Table.get_mem hget).2 (Till.checkout_rung hsale)
      (orRaise_eq_ok.mp hinsert))
    simp only [replayed, hclaim]
    exact congrArg Option.isSome hexisting

theorem TillWrites.of_close {sessionId : Uuid} {countedCash : Money}
    (h : closeSessionAt (till.cashNet sessionId) request (db.withTill till) sessionId countedCash =
      .ok db') :
    TillWrites till (.closeSession sessionId countedCash)
      ⟨db'.pos.sessions, db'.pos.sales, db'.pos.returns, till.entries⟩ := by
  obtain ⟨⟨session, terminal⟩, hsession, h⟩ := bind_eq_ok.mp h
  obtain ⟨_, -, h⟩ := bind_eq_ok.mp h
  obtain ⟨_, -, h⟩ := bind_eq_ok.mp h
  obtain ⟨_, -, h⟩ := bind_eq_ok.mp h
  obtain ⟨sessions, hreplace, h⟩ := bind_eq_ok.mp h
  cases h
  obtain ⟨hget, hopen⟩ := requireSession_eq_ok hsession
  refine .closeSession hget hopen ?_ ?_ ?_ ?_ (orRaise_eq_ok.mp hreplace)
  · rfl
  · rfl
  · rfl
  · rfl

theorem TillWrites.of_open {payload : SessionOpen}
    (h : Pos.openSession request (db.withTill till) payload = .ok db') :
    TillWrites till (.openSession payload)
      ⟨db'.pos.sessions, db'.pos.sales, db'.pos.returns, till.entries⟩ := by
  obtain ⟨terminal, -, h⟩ := bind_eq_ok.mp h
  obtain ⟨_, -, h⟩ := bind_eq_ok.mp h
  obtain ⟨_, -, h⟩ := bind_eq_ok.mp h
  obtain ⟨sessions, hinsert, h⟩ := bind_eq_ok.mp h
  cases h
  exact .openSession rfl (orRaise_eq_ok.mp hinsert)

/-- A request that goes through writes what its rows tell it to, or nothing. -/
theorem TillState.write_eq_some {call : TillCall} {seen : List SeenRow} {around : TenantDb}
    (hseen : till.seeAll seen = till)
    (h : till.write call seen (call.op.tillView till) around = some till') :
    till' = till ∨ TillWrites till call.op till' := by
  have hreplayed : ∀ {draft : Draft}, draft = .replayed (around.withTill till) →
      TillState.mk draft.tables.pos.sessions draft.tables.pos.sales draft.tables.pos.returns
        (till.entries ++ draft.entries) = till := by
    rintro _ rfl
    show TillState.mk till.sessions till.sales till.returns (till.entries ++ []) = till
    rw [List.append_nil]
  obtain ⟨request, op, hop⟩ := call
  simp only [write, hseen] at h
  split at h
  next => cases h
  next draft hdraft =>
    split at h
    next => cases h
    next db hbook =>
      have hpos : db.pos = draft.tables.pos := by
        obtain ⟨ledger, -, hbook⟩ := bind_eq_ok.mp hbook
        obtain ⟨register, -, hbook⟩ := bind_eq_ok.mp hbook
        cases hbook
        rfl
      rw [hpos] at h
      cases h
      cases op with
      | openSession payload =>
          obtain ⟨db₁, hopen, rfl⟩ := map_eq_ok.mp hdraft
          refine .inr ?_
          have hwrites := TillWrites.of_open hopen
          rwa [← List.append_nil till.entries] at hwrites
      | closeSession id countedCash =>
          obtain ⟨db₁, hclose, rfl⟩ := map_eq_ok.mp hdraft
          refine .inr ?_
          have hwrites := TillWrites.of_close hclose
          rwa [← List.append_nil till.entries] at hwrites
      | checkout payload claim => exact (TillWrites.of_checkout hdraft).imp_left hreplayed
      | refund payload claim => exact (TillWrites.of_refund hdraft).imp_left hreplayed
      | _ => cases hop

/-! ## Rows -/

theorem TillState.row_of_read {row : TillRow} {r : SeenRow} (h : till.read row = some r) :
    r.row = row := by
  cases row with
  | session id =>
      obtain ⟨session, hget, rfl⟩ := Option.map_eq_some_iff.mp h
      exact congrArg TillRow.session (Table.get_mem hget).2
  | sale id =>
      obtain ⟨row, hget, rfl⟩ := Option.map_eq_some_iff.mp h
      exact congrArg TillRow.sale (Table.get_mem hget).2

theorem TillState.see_eq {r : SeenRow} (h : till.read r.row = some r) : till.see r = till := by
  cases r with
  | session session =>
      obtain ⟨_, hget, heq⟩ := Option.map_eq_some_iff.mp h
      cases heq
      simp only [see, Table.replace_self hget]
      rfl
  | sale row =>
      obtain ⟨_, hget, heq⟩ := Option.map_eq_some_iff.mp h
      cases heq
      simp only [see, Table.replace_self hget]
      rfl

theorem TillState.seeAll_eq {seen : List SeenRow} (h : ∀ r ∈ seen, till.read r.row = some r) :
    till.seeAll seen = till := by
  induction seen with
  | nil => rfl
  | cons r seen ih =>
      rw [seeAll, List.foldl_cons, see_eq (h r List.mem_cons_self)]
      exact ih fun r' hr' => h r' (List.mem_cons_of_mem _ hr')

/-- The rows of a request that is not answered from before. -/
theorem TillWrites.tillPlan (h : TillWrites till op till') : op.tillPlan till = op.tillRows := by
  cases h with
  | openSession => rfl
  | closeSession => rfl
  | checkout hnew => exact if_neg (by simpa [Op.tillReplays] using hnew)
  | refund hnew => exact if_neg (by simpa [Op.tillReplays] using hnew)

theorem TillWrites.frame {row : TillRow} {r : SeenRow} (h : TillWrites till op till')
    (hrow : row ∉ op.tillRows) (hread : till.read row = some r) : till'.read row = some r := by
  cases h with
  | openSession _ hinsert =>
      cases row with
      | session id => exact read_insert hinsert hread
      | sale id => exact hread
  | closeSession hget _ hid _ _ _ hreplace =>
      cases row with
      | session id =>
          refine read_replace hget hreplace hid (fun h => hrow ?_) hread
          exact h ▸ List.mem_singleton_self _
      | sale id => exact hread
  | checkout _ _ _ _ _ hinsert =>
      cases row with
      | session id => exact hread
      | sale id => exact read_insert hinsert hread
  | refund _ _ _ hsale _ _ _ hreplace =>
      cases row with
      | session id => exact hread
      | sale id =>
          refine read_replace hsale hreplace rfl (fun h => hrow ?_) hread
          exact h ▸ List.mem_cons_of_mem _ (List.mem_singleton_self _)

theorem TillWrites.sale_kept (h : TillWrites till op till') (id : Uuid)
    (hsome : (till.sales.get id).isSome) : (till'.sales.get id).isSome := by
  cases h with
  | checkout _ _ _ _ _ hinsert =>
      exact (congrArg Option.isSome (Table.get_insert_of_some hinsert hsome)).trans hsome
  | refund _ _ _ hsale _ _ _ hreplace => exact isSome_replace hsale hreplace rfl hsome
  | _ => exact hsome

theorem TillWrites.return_kept (h : TillWrites till op till') (id : Uuid)
    (hsome : (till.returns.get id).isSome) : (till'.returns.get id).isSome := by
  cases h with
  | refund _ _ _ _ _ _ hinsert =>
      exact (congrArg Option.isSome (Table.get_insert_of_some hinsert hsome)).trans hsome
  | _ => exact hsome

/-- A request that was answered stays so. -/
theorem TillWrites.replays (h : TillWrites till op till') {other : Op}
    (hreplays : other.tillReplays till = true) : other.tillReplays till' = true := by
  cases other with
  | checkout payload claim => exact replayed_of_kept h.sale_kept hreplays
  | refund payload claim => exact replayed_of_kept h.return_kept hreplays
  | _ => cases hreplays

theorem TillWrites.plan_subset (h : TillWrites till op till') {other : Op} {row : TillRow}
    (hrow : row ∈ other.tillPlan till') : row ∈ other.tillPlan till := by
  unfold Op.tillPlan at hrow ⊢
  cases hreplays : other.tillReplays till with
  | true =>
      rw [h.replays hreplays] at hrow
      cases hrow
  | false =>
      split at hrow
      · cases hrow
      · exact hrow

/-! ## The cash of a session -/

/-- What `cash_net` reads of a sale. -/
def SaleRow.cashFace (row : SaleRow) : Uuid × List TenderInput := (row.sessionId, row.payments)

theorem TillState.cashNet_congr
    (h : till'.sales.rows.map SaleRow.cashFace = till.sales.rows.map SaleRow.cashFace)
    (sessionId : Uuid) : till'.cashNet sessionId = till.cashNet sessionId := by
  have hface : ∀ rows : List SaleRow,
      (rows.filter (·.sessionId = sessionId)).map (fun row =>
        ((row.payments.filter (·.tender = .cash)).map fun payment =>
          payment.amount - payment.changeGiven).sum) =
      ((rows.map SaleRow.cashFace).filter (·.1 = sessionId)).map (fun face =>
        ((face.2.filter (·.tender = .cash)).map fun payment =>
          payment.amount - payment.changeGiven).sum) := by
    intro rows
    rw [List.filter_map, List.map_map]
    rfl
  rw [cashNet, cashNet, PosDb.cashNet, PosDb.cashNet, hface, hface, h]

/-- A refund leaves the payments of its sale alone. -/
theorem cashFace_replace {sales sales' : Table SaleRow.id} {id : Uuid} {row : SaleRow} {sale : Sale}
    (hget : sales.get id = some row)
    (hreplace : sales.replace row.id { row with sale := sale } = some sales') :
    sales'.rows.map SaleRow.cashFace = sales.rows.map SaleRow.cashFace := by
  obtain ⟨before, after, hold, hnew⟩ := Table.replace_eq_some (Table.get_self hget) hreplace
  simp [hold, hnew, SaleRow.cashFace]

/-- Another request adds no cash to a session that it does not hold. -/
theorem TillWrites.cashNet_eq {sessionId : Uuid} (h : TillWrites till op till')
    (hrow : .session sessionId ∉ op.tillRows) : till'.cashNet sessionId = till.cashNet sessionId := by
  cases h with
  | openSession => rfl
  | closeSession => rfl
  | checkout _ _ _ hsession _ hinsert =>
      have hne : ¬_ = sessionId := fun heq => hrow (heq ▸ List.mem_singleton_self _)
      rw [← hsession] at hne
      simp [TillState.cashNet, PosDb.cashNet, (Table.insert_eq_some hinsert).1, hne]
  | refund _ _ _ hsale _ _ _ hreplace =>
      exact TillState.cashNet_congr (cashFace_replace hsale hreplace) sessionId

theorem tillService_rules : tillService.Rules fun till call till' => TillWrites till call.op till' where
  row_of_read := TillState.row_of_read
  write hseen _ hwrite := TillState.write_eq_some (TillState.seeAll_eq hseen) hwrite
  frame {_ _ _ _ _} h hrow hread := by
    refine h.frame (fun hmem => hrow (.plan ?_)) hread
    rw [← h.tillPlan] at hmem
    exact hmem
  plan h hrow := h.plan_subset hrow
  view {till call till' other} h hdisjoint := by
    obtain ⟨request, op, hop⟩ := other
    cases op with
    | closeSession id countedCash =>
        refine h.cashNet_eq fun hmem => ?_
        rw [← h.tillPlan] at hmem
        exact hdisjoint _ (.plan (List.mem_singleton_self _)) (.plan hmem)
    | _ => rfl

end Nexora.Tenant
