import Nexora.Idempotency.Claim
import Nexora.Inventory.Replays
import Nexora.Tenant.CashDrawer

/-!
# Checkouts

`PosService.checkout` with all that it writes: the key of the request, the sale with its lines and
tenders, the stock, the entries, the register, the number and the receipt.

What goes through is consistent, and what raises leaves every table as it was
(`checkout_all_or_nothing`).  A request whose key is known returns the sale of the first one with
its receipt.  Refunds may have come in between, but they leave the figures of the sale alone
(`Op.keeps_rung`), so what is returned is consistent too.
-/

namespace Nexora.Pos

open Nexora Nexora.Catalog Nexora.Sales Nexora.Tenant Foundations
open Nexora.Accounting (Money Date)
open Nexora.Idempotency (IdempotencyKey KeyStatus Slot Endpoint claimExisting)

/-! ## Receipts -/

/-- A line of the snapshot of a receipt. -/
structure ReceiptLine where
  productId : Uuid
  quantity : Quantity
  unitPrice : Money
  total : Money
deriving DecidableEq

/-- `Receipt`, with its snapshot.  The name of the terminal is left out. -/
structure Receipt where
  receiptNumber : String
  saleId : Uuid
  occurredOn : Date
  total : Money
  lines : List ReceiptLine
  payments : List TenderInput
deriving DecidableEq

def SaleLine.snapshot (line : SaleLine) : ReceiptLine where
  productId := line.productId
  quantity := line.quantity
  unitPrice := line.unitPrice
  total := line.totalAmount

/-- The receipt of a sale. -/
def SaleRow.receipt (row : SaleRow) : Receipt where
  receiptNumber := row.saleNumber
  saleId := row.id
  occurredOn := row.occurredOn
  total := row.sale.totalAmount
  lines := row.sale.lines.map SaleLine.snapshot
  payments := row.payments

/-! ## The request -/

section Counter

variable {Digest : Type}

/-- The tables that a checkout writes, with the keys of the idempotency service. -/
structure CounterDb (Digest : Type) where
  tenant : TenantDb
  receipts : Table Receipt.saleId
  keys : Slot → Option (IdempotencyKey Digest)

/-- `claim`: the answer, and the keys after it. -/
def claimKey [DecidableEq Digest] (keys : Slot → Option (IdempotencyKey Digest)) (slot : Slot)
    (digest : Digest) : Except Err (Option Uuid × (Slot → Option (IdempotencyKey Digest))) :=
  match keys slot with
  | none => .ok (none, Function.update keys slot (some ⟨digest, .inProgress, none, none⟩))
  | some existing =>
      (claimExisting digest (some existing)).map fun stored => (stored.1, keys)

/-- `complete`. -/
def completeKey (keys : Slot → Option (IdempotencyKey Digest)) (slot : Slot) (id : Uuid) :
    Slot → Option (IdempotencyKey Digest) :=
  Function.update keys slot ((keys slot).map fun key =>
    { key with
      status := .completed
      responseStatus := some Endpoint.checkout.responseStatus
      responseBody := some id })

theorem completeKey_self {keys : Slot → Option (IdempotencyKey Digest)} {slot : Slot} {id : Uuid}
    (h : (keys slot).isSome) : ∃ k, completeKey keys slot id slot = some k ∧
      k.status = .completed ∧ k.responseBody = some id := by
  obtain ⟨k, hk⟩ := Option.isSome_iff_exists.mp h
  rw [completeKey, Function.update_self, hk]
  exact ⟨_, rfl, rfl, rfl⟩

/-- The checks of `sale_payments`. -/
def requirePayments (payments : List TenderInput) : Except Err Unit :=
  if ¬payments.all fun payment => 0 < payment.amount then .error (.integrity "amount_positive")
  else if ¬payments.all fun payment =>
      0 ≤ payment.changeGiven ∧ payment.changeGiven ≤ payment.amount then
    .error (.integrity "change_within_amount")
  else .ok ()

/-- `uq_receipts_tenant_id_receipt_number`. -/
def requireReceiptNumber (receipts : Table Receipt.saleId) (number : String) : Except Err Unit :=
  if receipts.rows.any (·.receiptNumber = number) then
    .error (.integrity "uq_receipts_tenant_id_receipt_number")
  else .ok ()

/-- What a checkout returns. -/
structure CheckedOut where
  row : SaleRow
  receipt : Receipt
  replayed : Bool

variable [DecidableEq Digest] (hash : CheckoutCreate → Digest)

/-- The body of `checkout`.  The sale that `Pos.checkout` stores has the identifier of the
request. -/
def CounterDb.checkoutBody (request : Request) (payload : CheckoutCreate) (key : String)
    (db : CounterDb Digest) : Except Err (CounterDb Digest × CheckedOut) := do
  let slot := (Endpoint.checkout.path, key)
  let (stored, keys) ← claimKey db.keys slot (hash payload)
  match stored.bind db.tenant.pos.sales.get with
  | some row => do
      request.env.context.requireBranch row.branchId
      let receipt ← orRaise (.runtime "Completed sale is missing its receipt")
        (db.receipts.get row.id)
      .ok ({ db with keys := keys }, ⟨row, receipt, true⟩)
  | none => do
      let tenant ← Pos.checkout request db.tenant payload (.ok none)
      requirePayments payload.payments
      let row ← orRaise .notFound (tenant.pos.sales.get request.documentId)
      requireReceiptNumber db.receipts row.receipt.receiptNumber
      let receipts ← orRaise (.integrity "uq_receipts_tenant_id_sale_id")
        (db.receipts.insert row.receipt)
      .ok (⟨tenant, receipts, completeKey keys slot row.id⟩, ⟨row, row.receipt, false⟩)

/-- `PosService.checkout`. -/
def CounterDb.checkout (db : CounterDb Digest) (request : Request) (payload : CheckoutCreate)
    (key : String) : CounterDb Digest × Except Err CheckedOut :=
  serviceTransaction db (checkoutBody hash request payload key)

end Counter

end Nexora.Pos

namespace Nexora.Inventory

open Nexora Nexora.Catalog Foundations

/-- A posting without a key adds what it was asked for. -/
theorem postMovement_face_of_noKey {db db' : InventoryDb} {request : MovementRequest}
    {movement : Movement} (hkey : request.idempotencyKey = none)
    (h : postMovement db request = .ok (db', movement)) :
    db'.movements = db.movements ++ [movement] ∧ movement.face = request.face.kept := by
  have hadds := (postMovement_adds_of_noKey hkey h).1
  obtain ⟨_, -, h⟩ := bind_eq_ok.mp h
  split at h
  next existing hexisting => simp [MovementRequest.existing, hkey] at hexisting
  next =>
    obtain ⟨balance, -, h⟩ := bind_eq_ok.mp h
    obtain ⟨cost, -, h⟩ := bind_eq_ok.mp h
    obtain ⟨movement', hmovement, h⟩ := bind_eq_ok.mp h
    obtain ⟨db₁, -, h⟩ := bind_eq_ok.mp h
    cases h
    exact ⟨hadds.movements, (MovementRequest.movement_face hmovement).1⟩

end Nexora.Inventory

namespace Nexora.Tenant

open Nexora Nexora.Catalog Nexora.Sales Nexora.Pos Foundations
open Nexora.Accounting (Money anySource)
open Nexora.Inventory (InventoryDb Movement decimal)
open Nexora.Idempotency (IdempotencyKey Slot)

variable {request : Request} {db db' : TenantDb} {row : SaleRow}

/-! ## Stock -/

/-- The movement of a quantity of a product that a sale takes out of a warehouse. -/
structure TakesOut (warehouseId saleId : Uuid) (sold : Uuid × Quantity) (m : Movement) : Prop where
  warehouse : m.warehouseId = warehouseId
  product : m.productId = sold.1
  movementType : m.movementType = .sale
  quantity : m.quantity = -sold.2
  reference : m.referenceType = some "pos_sale" ∧ m.referenceId = some saleId

/-- The lines of a sale whose products track stock. -/
def trackedLines (inventory : InventoryDb) (sold : List (Uuid × Quantity)) :
    List (Uuid × Quantity) :=
  sold.filter fun line => inventory.tracks line.1

/-- One movement for each line whose product tracks stock, and no other. -/
def TakesStock (warehouseId saleId : Uuid) (sold : List (Uuid × Quantity))
    (inventory inventory' : InventoryDb) : Prop :=
  ∃ movements, inventory'.movements = inventory.movements ++ movements ∧
    List.Forall₂ (TakesOut warehouseId saleId) (trackedLines inventory sold) movements

/-- What a line of a cart sells. -/
def cartFace (item : CartLine) : Uuid × Quantity := (item.productId, item.quantity)

theorem sellStock_takes {warehouseId saleId : Uuid} {inventory inventory' : InventoryDb}
    {item : CartLine} (h : sellStock warehouseId saleId inventory item = .ok inventory') :
    inventory'.tracks = inventory.tracks ∧
      TakesStock warehouseId saleId [cartFace item] inventory inventory' := by
  obtain ⟨product, hproduct, hpost⟩ := bind_eq_ok.mp h
  have hany := Inventory.InventoryDb.anyProduct_of_product (orRaise_eq_ok.mp hproduct)
  have htracks : inventory.tracks item.productId = product.isStockTracked := by
    simp [InventoryDb.tracks, hany]
  rcases Inventory.postMovementForDocument_adds hpost with
    ⟨huntracked, rfl⟩ | ⟨htracked, -, _, hadds, -⟩
  · refine ⟨rfl, [], (List.append_nil _).symm, ?_⟩
    simp [trackedLines, cartFace, htracks, huntracked]
  · refine ⟨hadds.tracks, ?_⟩
    simp only [postStock, Inventory.postMovementForDocument, htracked, if_true] at hpost
    obtain ⟨⟨inventory₁, m⟩, hmove, hpost⟩ := bind_eq_ok.mp hpost
    cases hpost
    obtain ⟨hmovements, hface⟩ := Inventory.postMovement_face_of_noKey rfl hmove
    have hquantity := congrArg Inventory.RequestFace.quantity hface
    have hstored : decimal m.quantity = decimal (-item.quantity) :=
      hquantity.trans (congrArg decimal (Inventory.stored_outward item.item.abs_quantity_lt))
    refine ⟨[m], hmovements, ?_⟩
    simp only [trackedLines, cartFace, htracks, htracked, List.filter_cons, List.filter_nil,
      if_true]
    refine .cons ⟨congrArg Inventory.RequestFace.warehouseId hface, ?_,
      congrArg Inventory.RequestFace.movementType hface, ?_,
      congrArg Inventory.RequestFace.referenceType hface,
      congrArg Inventory.RequestFace.referenceId hface⟩ .nil
    · exact (congrArg Inventory.RequestFace.productId hface).trans
        (Inventory.InventoryDb.anyProduct_id hany)
    · have hround := congrArg Inventory.stored hstored
      rwa [Inventory.stored_decimal, Inventory.stored_decimal] at hround

theorem sellStock_takesStock {warehouseId saleId : Uuid} {items : List CartLine}
    {inventory inventory' : InventoryDb}
    (h : items.foldlM (sellStock warehouseId saleId) inventory = .ok inventory') :
    TakesStock warehouseId saleId (items.map cartFace) inventory inventory' := by
  induction items generalizing inventory with
  | nil =>
      cases h
      exact ⟨[], (List.append_nil _).symm, .nil⟩
  | cons item items ih =>
      rw [List.foldlM_cons] at h
      obtain ⟨inventory₁, hfirst, h⟩ := bind_eq_ok.mp h
      obtain ⟨htracks, movements, hmovements, hone⟩ := sellStock_takes hfirst
      obtain ⟨movements', hmovements', hrest⟩ := ih h
      refine ⟨movements ++ movements', ?_, ?_⟩
      · rw [hmovements', hmovements, List.append_assoc]
      · have hsplit : trackedLines inventory ((item :: items).map cartFace) =
            trackedLines inventory [cartFace item] ++
              trackedLines inventory₁ (items.map cartFace) := by
          simp only [trackedLines, htracks, List.map_cons]
          rw [← List.filter_append]
          rfl
        rw [hsplit]
        exact List.rel_append hone hrest

/-! ## Sales as they were rung up -/

/-- A sale, whatever was refunded of it. -/
def rungUp (row : SaleRow) : SaleRow :=
  { row with
    sale := { row.sale with
      lines := row.sale.lines.map soldLine
      refundedAmount := 0
      returns := [] } }

/-- The figures of a sale are those of its lines, and its tenders less the change come to its
total. -/
structure Figures (row : SaleRow) : Prop where
  net : row.sale.netAmount = (row.sale.lines.map SaleLine.netAmount).sum
  tax : row.sale.taxAmount = (row.sale.lines.map SaleLine.taxAmount).sum
  total : row.sale.totalAmount = (row.sale.lines.map SaleLine.totalAmount).sum
  tendered : (row.payments.map fun payment => payment.amount - payment.changeGiven).sum =
    row.sale.totalAmount

/-- A receipt shows a sale with its lines and its tenders. -/
structure Shows (receipt : Receipt) (row : SaleRow) : Prop where
  number : receipt.receiptNumber = row.saleNumber ∧ receipt.saleId = row.id
  total : receipt.total = row.sale.totalAmount
  lines : List.Forall₂ (fun shown line => shown = SaleLine.snapshot line) receipt.lines
    row.sale.lines
  sum : (receipt.lines.map (·.total)).sum = receipt.total
  payments : receipt.payments = row.payments

theorem receipt_rungUp (row : SaleRow) : (rungUp row).receipt = row.receipt := by
  simp only [SaleRow.receipt, rungUp, List.map_map]
  rfl

theorem figures_rungUp : Figures (rungUp row) ↔ Figures row := by
  have hsums : ∀ f : SaleLine → Money, (∀ line, f (soldLine line) = f line) →
      ((rungUp row).sale.lines.map f).sum = (row.sale.lines.map f).sum := by
    intro f hf
    show ((row.sale.lines.map soldLine).map f).sum = _
    rw [List.map_map, show f ∘ soldLine = f from funext hf]
  constructor
  · intro h
    exact ⟨h.net.trans (hsums _ fun _ => rfl), h.tax.trans (hsums _ fun _ => rfl),
      h.total.trans (hsums _ fun _ => rfl), h.tendered⟩
  · intro h
    exact ⟨h.net.trans (hsums _ fun _ => rfl).symm, h.tax.trans (hsums _ fun _ => rfl).symm,
      h.total.trans (hsums _ fun _ => rfl).symm, h.tendered⟩

theorem Figures.shows (h : Figures row) : Shows row.receipt row := by
  refine ⟨⟨rfl, rfl⟩, rfl, ?_, ?_, rfl⟩
  · exact List.forall₂_map_left_iff.mpr (List.forall₂_same.mpr fun _ _ => rfl)
  · simp only [SaleRow.receipt, List.map_map]
    exact h.total.symm

theorem checkout_figures {registry : Till} {items : List CartLine}
    (h : registry.checkout items row.payments = .ok row.sale) : Figures row := by
  have hrung := Till.checkout_rung h
  have htotal := (Till.checkout_completed h).total
  refine ⟨hrung.netAmount, hrung.taxAmount, htotal, ?_⟩
  rw [hrung.tendered, htotal, hrung.netAmount, hrung.taxAmount, ← List.sum_map_add]
  exact congrArg List.sum (List.map_congr_left fun line hline => (hrung.totals line hline).symm)

def isCheckout : Op → Bool
  | .checkout .. => true
  | _ => false

/-- Only a checkout adds a sale, and no request changes one but for what is refunded of it. -/
theorem Op.keeps_rung {op : Op} (hop : isCheckout op = false) (hdb : db.ledger.Linked)
    (hok : op.body request db = .ok db') :
    db'.pos.sales.rows.map rungUp = db.pos.sales.rows.map rungUp := by
  cases op with
  | openSession payload =>
      obtain ⟨_, htables⟩ := (openSession_eq_ok hok).tables
      rw [htables]
  | closeSession id countedCash =>
      obtain ⟨_, htables⟩ := (closeSession_eq_ok hok).tables
      rw [htables]
  | checkout payload claim => cases hop
  | refund payload claim =>
      obtain ⟨-, rfl⟩ | ⟨-, row, state, sale, _, _, _, sales, _, hget, -, hloop, ⟨hlines, hfigures⟩,
        -, -, hreplace, -, -, htables⟩ := refund_eq_ok hdb hok
      · rfl
      · have hsold : sale.lines.map soldLine = row.sale.lines.map soldLine := by
          rw [hlines]
          exact refundItems_sold hloop
        have hrung : rungUp { row with sale := sale } = rungUp row := by
          simp only [rungUp, hsold, hfigures.netAmount, hfigures.discountAmount, hfigures.taxAmount,
            hfigures.totalAmount, hfigures.costAmount]
        obtain ⟨before, after, hold, hnew⟩ := Table.replace_eq_some (Table.get_self hget) hreplace
        rw [htables]
        simp [hold, hnew, hrung]
  | _ => rw [(Op.keeps_till hdb rfl hok).sales]

/-! ## Checkouts in a run -/

/-- The requests at the counter. -/
inductive CounterCall where
  | checkout (request : Request) (payload : CheckoutCreate) (key : String)
  | other (call : Call) (isOther : isCheckout call.op = false)

section Runs

variable {Digest : Type} [DecidableEq Digest] {hash : CheckoutCreate → Digest}
  {counter counter' : CounterDb Digest} {payload : CheckoutCreate} {key : String} {out : CheckedOut}

/-- A new tenant, without receipts and keys. -/
def counterStart (configuration : Configuration) : CounterDb Digest :=
  ⟨.start configuration, .empty _, fun _ => none⟩

/-- The committed tables after a request. -/
def counterStep (hash : CheckoutCreate → Digest) (counter : CounterDb Digest) :
    CounterCall → CounterDb Digest
  | .checkout request payload key => (counter.checkout hash request payload key).1
  | .other call _ => { counter with tenant := counter.tenant.step call }

def counterRun (hash : CheckoutCreate → Digest) (counter : CounterDb Digest)
    (calls : List CounterCall) : CounterDb Digest := calls.foldl (counterStep hash) counter

/-- The product and the quantity of a line. -/
def lineSold (line : SaleLine) : Uuid × Quantity := (line.productId, line.quantity)

/-- A new sale of a cart, with all that comes with it. -/
structure SellsCart (payload : CheckoutCreate) (key : String) (counter counter' : CounterDb Digest)
    (out : CheckedOut) : Prop where
  lines : (out.row.sale.lines.map lineSold).Perm (payload.lines.map cartFace)
  tenders : out.row.payments = payload.payments
  stored : counter'.tenant.pos.sales.get out.row.id = some out.row
  receipt : counter'.receipts.get out.row.id = some out.receipt
  stock : TakesStock out.row.warehouseId out.row.id (out.row.sale.lines.map lineSold)
    counter.tenant.inventory counter'.tenant.inventory
  cash : ∀ p, counter'.tenant.ledger.postings p "CASH" = counter.tenant.ledger.postings p "CASH" ++
    if p "pos_sale" out.row.id then [out.row.sale.totalAmount] else []
  answered : ∃ k, counter'.keys (Idempotency.Endpoint.checkout.path, key) = some k ∧
    k.status = .completed ∧ k.responseBody = some out.row.id

/-- What is kept of every sale and every receipt. -/
structure CounterKept (counter : CounterDb Digest) : Prop where
  linked : counter.tenant.ledger.Linked
  figures : ∀ row ∈ counter.tenant.pos.sales.rows.map rungUp, Figures row
  receipts : ∀ receipt ∈ counter.receipts.rows,
    ∃ row ∈ counter.tenant.pos.sales.rows.map rungUp, row.receipt = receipt

/-- A key that is new is there after its claim. -/
theorem claimKey_eq_ok {keys keys' : Slot → Option (IdempotencyKey Digest)} {slot : Slot}
    {digest : Digest} {stored : Option Uuid} (h : claimKey keys slot digest = .ok (stored, keys')) :
    (stored.isSome → keys' = keys) ∧ (keys' slot).isSome := by
  unfold claimKey at h
  split at h
  next =>
    cases h
    exact ⟨nofun, by simp⟩
  next existing hexisting =>
    obtain ⟨answer, -, heq⟩ := map_eq_ok.mp h
    cases heq
    exact ⟨fun _ => rfl, by simp [hexisting]⟩

theorem cashPostings_sale {p : String → Uuid → Bool} (h : Rung row)
    (htotal : row.sale.totalAmount = row.sale.netAmount + row.sale.taxAmount) :
    entryPostings p "CASH" row.entries =
      if p "pos_sale" row.id then [row.sale.totalAmount] else [] := by
  rw [entryPostings_of_source (SaleRow.sources row), h.cashPostings, htotal]

/-- A checkout that goes through answers for an earlier one, or sells the cart. -/
theorem checkoutBody_eq_ok (hdb : counter.tenant.ledger.Linked)
    (h : counter.checkoutBody hash request payload key = .ok (counter', out)) :
    (out.replayed = true ∧ counter' = counter ∧
      counter.tenant.pos.sales.get out.row.id = some out.row ∧
      counter.receipts.get out.row.id = some out.receipt) ∨
    (out.replayed = false ∧ SellsCart payload key counter counter' out ∧ Figures out.row ∧
      out.receipt = out.row.receipt ∧ counter'.tenant.ledger.Linked ∧
      counter'.tenant.pos.sales.rows = counter.tenant.pos.sales.rows ++ [out.row] ∧
      counter'.receipts.rows = counter.receipts.rows ++ [out.receipt]) := by
  obtain ⟨⟨stored, keys⟩, hclaim, h⟩ := bind_eq_ok.mp h
  obtain ⟨hsame, hkey⟩ := claimKey_eq_ok hclaim
  dsimp only at h
  split at h
  next row hrow =>
    obtain ⟨_, -, h⟩ := bind_eq_ok.mp h
    obtain ⟨receipt, hreceipt, h⟩ := bind_eq_ok.mp h
    cases h
    obtain ⟨id, rfl, hget⟩ := Option.bind_eq_some_iff.mp hrow
    refine .inl ⟨rfl, ?_, Table.get_self hget, orRaise_eq_ok.mp hreceipt⟩
    rw [hsame rfl]
  next =>
    obtain ⟨tenant, hcheckout, h⟩ := bind_eq_ok.mp h
    obtain ⟨_, -, h⟩ := bind_eq_ok.mp h
    obtain ⟨row, hget, h⟩ := bind_eq_ok.mp h
    obtain ⟨_, -, h⟩ := bind_eq_ok.mp h
    obtain ⟨receipts, hinsert, h⟩ := bind_eq_ok.mp h
    cases h
    rw [orRaise_eq_ok] at hget hinsert
    obtain ⟨hreplayed, -⟩ | ⟨-, new, inventory, sales, rows, hsale, -, ⟨hid, hpaid⟩, hstock, hnew,
      -, hbooks, htables⟩ := checkout_eq_ok hdb hcheckout
    · cases hreplayed
    have hsales : tenant.pos.sales = sales := by rw [htables]
    have hrows := (Table.insert_eq_some hnew).1
    have hfound : sales.get request.documentId = some new :=
      Table.get_eq_some.mpr ⟨hrows ▸ List.mem_append_right _ List.mem_cons_self, hid⟩
    rw [hsales, hfound] at hget
    obtain rfl := Option.some.inj hget
    rw [← hpaid] at hsale
    have hrung := Till.checkout_rung hsale
    have hfigures := checkout_figures hsale
    -- The lines are sold in the order of their products.
    have hlines : new.sale.lines.map lineSold =
        (payload.lines.insertionSort fun a b => a.productId ≤ b.productId).map cartFace := by
      refine mapM_map_eq (fun item line hline => ?_) (Till.checkout_figures hsale).1
      obtain ⟨-, hproduct, hquantity, -⟩ := Till.sellLine_stored hline
      rw [lineSold, hproduct, hquantity, cartFace]
    have htotal : new.sale.totalAmount = new.sale.netAmount + new.sale.taxAmount := by
      rw [← hfigures.tendered, hrung.tendered]
    refine .inr ⟨rfl, ⟨?_, hpaid, ?_, ?_, ?_, fun p => ?_, ?_⟩, hfigures, rfl, hbooks.linked, ?_,
      ?_⟩
    · rw [hlines]
      exact (List.perm_insertionSort _ _).map cartFace
    · rw [hsales, hid]
      exact hfound
    · exact Table.get_eq_some.mpr
        ⟨(Table.insert_eq_some hinsert).1 ▸ List.mem_append_right _ List.mem_cons_self, rfl⟩
    · have htakes := sellStock_takesStock hstock
      rw [hlines, hid, show tenant.inventory = inventory by rw [htables]]
      exact htakes
    · rw [hbooks.postings, cashPostings_sale hrung htotal]
    · exact completeKey_self hkey
    · rw [hsales, hrows]
    · exact (Table.insert_eq_some hinsert).1

/-- A checkout that is made keeps what is kept, and one that is answered changes nothing. -/
theorem CounterKept.checkout (h : CounterKept counter)
    (hok : counter.checkoutBody hash request payload key = .ok (counter', out)) :
    CounterKept counter' := by
  rcases checkoutBody_eq_ok h.linked hok with
    ⟨-, rfl, -, -⟩ | ⟨-, -, hfigures, hreceipt, hlinked, hrows, hreceipts⟩
  · exact h
  · refine ⟨hlinked, ?_, ?_⟩
    · rw [hrows, List.map_append, List.map_singleton, List.forall_mem_append,
        List.forall_mem_singleton, figures_rungUp]
      exact ⟨h.figures, hfigures⟩
    · rw [hreceipts, hrows, List.map_append, List.forall_mem_append, List.forall_mem_singleton]
      refine ⟨fun receipt hmem => ?_, rungUp out.row, ?_, ?_⟩
      · obtain ⟨row, hrow, heq⟩ := h.receipts receipt hmem
        exact ⟨row, List.mem_append_left _ hrow, heq⟩
      · exact List.mem_append_right _ (List.mem_singleton_self _)
      · rw [receipt_rungUp, hreceipt]

theorem CounterKept.step (h : CounterKept counter) (call : CounterCall) :
    CounterKept (counterStep hash counter call) := by
  cases call with
  | checkout request payload key =>
      exact serviceTransaction_preserves h fun _ _ hok => h.checkout hok
  | other call hother =>
      rcases counter.tenant.step_cases call with ⟨-, hsame⟩ | ⟨tenant, hok, -, hstep⟩
      · rw [counterStep, hsame]
        exact h
      · obtain ⟨_, _, hbooks, -⟩ := Op.books h.linked hok
        have hrung := Op.keeps_rung hother h.linked hok
        rw [counterStep, hstep]
        refine ⟨hbooks.linked, ?_, ?_⟩
        · rw [hrung]
          exact h.figures
        · rw [hrung]
          exact h.receipts

theorem CounterKept.run (h : CounterKept counter) (calls : List CounterCall) :
    CounterKept (counterRun hash counter calls) := by
  induction calls generalizing counter with
  | nil => exact h
  | cons call calls ih => exact ih (h.step call)

/-- In every run, a checkout that raises leaves all tables as they were.  One that goes through
returns a sale with the figures of its lines and of its tenders, and a receipt that shows it; it has
sold the cart, unless it answers for an earlier request. -/
theorem checkout_all_or_nothing (hash : CheckoutCreate → Digest) (configuration : Configuration)
    (calls : List CounterCall) (request : Request) (payload : CheckoutCreate) (key : String) :
    let counter := counterRun hash (counterStart configuration) calls
    let result := counter.checkout hash request payload key
    (∀ e, result.2 = .error e → result.1 = counter) ∧
      ∀ out, result.2 = .ok out → Figures out.row ∧ Shows out.receipt out.row ∧
        (out.replayed = true ∧ result.1 = counter ∨
          out.replayed = false ∧ SellsCart payload key counter result.1 out) := by
  have hkept : CounterKept (counterRun hash (counterStart configuration) calls) :=
    CounterKept.run
      ⟨Accounting.LedgerDb.linked_empty, List.forall_mem_nil _, List.forall_mem_nil _⟩ calls
  intro counter result
  refine ⟨fun e => serviceTransaction_error, fun out hout => ?_⟩
  obtain ⟨counter', hbody, hfinal⟩ := serviceTransaction_ok hout
  rw [show result.1 = counter' from hfinal]
  rcases checkoutBody_eq_ok hkept.linked hbody with
    ⟨hreplayed, rfl, hrow, hreceipt⟩ | ⟨hnew, hsells, hfigures, hreceipt, -⟩
  · -- Receipts belong to the sales they were made for.
    have hmem := (Table.get_mem hrow).1
    have hfigures := figures_rungUp.mp (hkept.figures _ (List.mem_map_of_mem hmem))
    obtain ⟨shown, hshown, heq⟩ := hkept.receipts _ (Table.get_mem hreceipt).1
    obtain ⟨row, hrowMem, rfl⟩ := List.mem_map.mp hshown
    rw [receipt_rungUp] at heq
    have hid : row.id = out.row.id := by
      have hkey := (Table.get_mem hreceipt).2
      rw [← heq] at hkey
      exact hkey
    obtain rfl := Table.eq_of_mem hrowMem hmem hid
    rw [← heq]
    exact ⟨hfigures, hfigures.shows, .inl ⟨hreplayed, rfl⟩⟩
  · rw [hreceipt]
    exact ⟨hfigures, hfigures.shows, .inr ⟨hnew, hsells⟩⟩

end Runs

/-! ## A pair is sold -/

/-- Two pieces and a service. -/
def pairCart : CheckoutCreate where
  sessionId := 1
  customerId := none
  lines := [⟨8, 1000000, 0, Sample.onePiece_pos, Sample.onePiece_lt, Sample.zero_le,
      Sample.zero_le_rate⟩,
    ⟨7, 2000000, 0, Sample.twoPieces_pos, Sample.twoPieces_lt, Sample.zero_le,
      Sample.zero_le_rate⟩]
  payments := [⟨.card, 100000, 0⟩, ⟨.cash, 80000, 7500⟩]

/-- Ten pieces are received, and the session is opened. -/
def pairCalls : List CounterCall :=
  [.other (costReceipt 9 2) rfl, .other ⟨cornerRequest 1, .openSession ⟨5, 0, Sample.zero_money⟩⟩ rfl]

theorem checkout_sells_pair : ∃ out : CheckedOut,
    SellsCart pairCart "pair" (counterRun (fun _ => ()) (counterStart corner) pairCalls)
      ((counterRun (fun _ => ()) (counterStart corner) pairCalls).checkout (fun _ => ())
        (cornerRequest 2) pairCart "pair").1 out := by
  have hresult := checkout_all_or_nothing (fun _ => ()) corner pairCalls (cornerRequest 2) pairCart
    "pair"
  have hnew : (((counterRun (fun _ => ()) (counterStart corner) pairCalls).checkout (fun _ => ())
      (cornerRequest 2) pairCart "pair").2.toOption).any (!·.replayed) := by decide +kernel
  obtain ⟨out, hout, hreplayed⟩ := (Option.any_eq_true _ _).mp hnew
  obtain ⟨-, -, ⟨hanswered, -⟩ | ⟨-, hsells⟩⟩ := hresult.2 out (toOption_eq_some.mp hout)
  · simp [hanswered] at hreplayed
  · exact ⟨out, hsells⟩

end Nexora.Tenant
