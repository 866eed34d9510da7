import Nexora.Foundations.RowServices
import Nexora.Tenant.Documents

/-!
# Quotations and their orders

An accepted quotation becomes an order once.  The requests on quotations and orders run interleaved, each
holding the row that it changes, and the other tables are whatever the request finds.

In every interleaving the orders of quotations and the converted quotations are one to one: the order has
the party, the branch, the totals and the lines that were quoted, whatever was shipped and invoiced of it
since (`quotations_sound`).  A converted quotation is never changed again (`quotations_follow`).
-/

namespace Nexora.Tenant

open Nexora Nexora.Catalog Nexora.Sales Foundations

/-! ## Requests -/

/-- Quotations and orders with their lines. -/
structure Papers where
  quotations : Table Quotation.id
  orders : Table SalesOrder.id

def Papers.empty : Papers := ⟨.empty _, .empty _⟩

def Documents.papers (docs : Documents) : Papers := ⟨docs.sales.quotations, docs.sales.orders⟩

def TenantDb.papers (db : TenantDb) : Papers := db.documents.papers

/-- The tables of a request: these, and the others as it finds them. -/
def Papers.among (papers : Papers) (around : TenantDb) : TenantDb :=
  { around with
    sales := { around.sales with quotations := papers.quotations, orders := papers.orders } }

inductive PaperRow where
  | quotation (id : Uuid)
  | order (id : Uuid)
deriving DecidableEq

inductive SeenPaper where
  | quotation (quotation : Quotation)
  | order (order : SalesOrder)

def SeenPaper.row : SeenPaper → PaperRow
  | quotation q => .quotation q.id
  | order o => .order o.id

inductive PaperOp where
  | createQuotation (payload : QuotationCreate)
  | setQuotationStatus (quotationId : Uuid) (status : QuotationStatus)
  | convertQuotation (quotationId : Uuid) (payload : QuotationConvert)
  | createOrder (payload : SalesOrderCreate)
  | confirmOrder (orderId : Uuid)
  | cancelOrder (orderId : Uuid)
  | fulfil (orderId : Uuid) (lines : Option (List RequestedLine))
  | createInvoice (payload : InvoiceCreate)

/-- The row that is read `FOR UPDATE`. -/
def PaperOp.rows : PaperOp → List PaperRow
  | setQuotationStatus id _ | convertQuotation id _ => [.quotation id]
  | confirmOrder id | cancelOrder id | fulfil id _ => [.order id]
  | createInvoice payload => [.order payload.salesOrderId]
  | createQuotation _ | createOrder _ => []

def PaperOp.body (request : Request) (db : TenantDb) : PaperOp → Except Err TenantDb
  | createQuotation payload => Sales.createQuotation request db payload
  | setQuotationStatus id status => Sales.setQuotationStatus request db id status
  | convertQuotation id payload => Sales.convertQuotation request db id payload
  | createOrder payload => Sales.createOrder request db payload
  | confirmOrder id => Sales.confirmOrder request db id
  | cancelOrder id => Sales.cancelOrder request db id
  | fulfil id lines => Sales.fulfil request db id lines
  | createInvoice payload => Sales.createInvoice request db payload

/-- A request, with the other tables as it finds them. -/
structure PaperCall where
  request : Request
  op : PaperOp
  around : TenantDb

namespace Papers

def read (papers : Papers) : PaperRow → Option SeenPaper
  | .quotation id => (papers.quotations.get id).map .quotation
  | .order id => (papers.orders.get id).map .order

/-- The tables with a row as it was read. -/
def see (papers : Papers) : SeenPaper → Papers
  | .quotation q =>
      { papers with quotations := (papers.quotations.replace q.id q).getD papers.quotations }
  | .order o => { papers with orders := (papers.orders.replace o.id o).getD papers.orders }

end Papers

def paperService : RowService Papers PaperCall PaperRow SeenPaper where
  rows call := call.op.rows
  read := Papers.read
  row := SeenPaper.row
  see := Papers.see
  body papers call :=
    (call.op.body call.request (papers.among call.around)).toOption.map TenantDb.papers

/-! ## What a request writes -/

/-- The terms of an order, which stay when it is shipped and invoiced. -/
def orderTerms (order : SalesOrder) :=
  (order.orderNumber, order.customerId, order.branchId, order.warehouseId, order.quotationId,
    order.orderDate, order.amounts, order.lines.map (·.toPricedLine))

/-- What was quoted. -/
def quotationTerms (quotation : Quotation) :=
  (quotation.quotationNumber, quotation.customerId, quotation.branchId, quotation.amounts,
    quotation.lines)

/-- The order has what was quoted. -/
structure OrderOf (quotation : Quotation) (order : SalesOrder) : Prop where
  quotationId : order.quotationId = some quotation.id
  customerId : order.customerId = quotation.customerId
  branchId : order.branchId = quotation.branchId
  amounts : order.amounts = quotation.amounts
  lines : order.lines.map (·.toPricedLine) = sortedLines quotation.lines

/-- What a request makes of quotations and orders, that holds some rows. -/
inductive PaperStep (papers : Papers) (rows : List PaperRow) : Papers → Prop
  | quotationCreated {quotation : Quotation} {quotations : Table Quotation.id}
      (hnew : quotation.convertedOrderId = none)
      (hsorted : sortedLines quotation.lines = quotation.lines)
      (hinsert : papers.quotations.insert quotation = some quotations) :
      PaperStep papers rows { papers with quotations := quotations }
  | statusSet {quotation : Quotation} {status : QuotationStatus} {quotations : Table Quotation.id}
      (hget : papers.quotations.get quotation.id = some quotation)
      (hrow : .quotation quotation.id ∈ rows) (hlegal : quotation.status ∈ status.legal)
      (hsave : papers.quotations.replace quotation.id { quotation with status := status } =
        some quotations) : PaperStep papers rows { papers with quotations := quotations }
  | converted {quotation : Quotation} {order : SalesOrder} {quotations : Table Quotation.id}
      {orders : Table SalesOrder.id} (hget : papers.quotations.get quotation.id = some quotation)
      (hrow : .quotation quotation.id ∈ rows) (haccepted : quotation.status = .accepted)
      (hnone : quotation.convertedOrderId = none) (horder : OrderOf quotation order)
      (hinsert : papers.orders.insert order = some orders)
      (hsave : papers.quotations.replace quotation.id
        { quotation with convertedOrderId := some order.id } = some quotations) :
      PaperStep papers rows ⟨quotations, orders⟩
  | orderCreated {order : SalesOrder} {orders : Table SalesOrder.id} (hnew : order.quotationId = none)
      (hinsert : papers.orders.insert order = some orders) :
      PaperStep papers rows { papers with orders := orders }
  | orderSaved {order order' : SalesOrder} {orders : Table SalesOrder.id}
      (hget : papers.orders.get order.id = some order) (hrow : .order order.id ∈ rows)
      (hid : order'.id = order.id) (hterms : orderTerms order' = orderTerms order)
      (hsave : papers.orders.replace order.id order' = some orders) :
      PaperStep papers rows { papers with orders := orders }

variable {papers papers' : Papers} {rows : List PaperRow} {request : Request} {around db' : TenantDb}
  {op : PaperOp}

theorem sortedLines_sortedLines (lines : List PricedLine) :
    sortedLines (sortedLines lines) = sortedLines lines :=
  (List.pairwise_insertionSort (fun a b : PricedLine => a.productId ≤ b.productId) lines).insertionSort_eq

theorem newOrderLines_priced {priced : List PricedLine} {lines : List SalesOrderLine}
    (h : newOrderLines request priced = .ok lines) :
    lines.map (·.toPricedLine) = sortedLines priced := by
  simp only [newOrderLines] at h
  split at h
  next =>
    cases h
    rw [List.map_map]
    exact List.zipIdx_map_fst 0 _
  next => cases h

theorem fulfilLine_priced {warehouseId documentId : Uuid} {items : List RequestedLine}
    {state state' : FulfilState} {line : SalesOrderLine}
    (h : fulfilLine warehouseId documentId items state line = .ok state') :
    state'.lines.map (·.toPricedLine) = state.lines.map (·.toPricedLine) ++ [line.toPricedLine] := by
  unfold fulfilLine at h
  split at h
  next =>
    cases h
    rw [List.map_append, List.map_singleton]
  next =>
    split at h
    next =>
      obtain ⟨product, -, h⟩ := bind_eq_ok.mp h
      obtain ⟨inventory, -, h⟩ := bind_eq_ok.mp h
      cases h
      rw [List.map_append, List.map_singleton]
      rfl
    next => cases h

theorem invoiceLine_priced {fulfilledOnly : Bool} {state state' : InvoiceState}
    {row : SalesOrderLine × Nat} (h : invoiceLine request fulfilledOnly state row = .ok state') :
    state'.lines.map (·.toPricedLine) = state.lines.map (·.toPricedLine) ++ [row.1.toPricedLine] := by
  unfold invoiceLine at h
  split at h
  next =>
    obtain ⟨priced, -, h⟩ := bind_eq_ok.mp h
    cases h
    rw [List.map_append, List.map_singleton]
    rfl
  next =>
    cases h
    rw [List.map_append, List.map_singleton]

/-- An order whose status is set, and whose lines are counted. -/
theorem orderTerms_of_lines {order : SalesOrder} {status : SalesOrderStatus}
    {lines : List SalesOrderLine}
    (h : lines.map (·.toPricedLine) = order.lines.map (·.toPricedLine)) :
    orderTerms { order with status := status, lines := lines } = orderTerms order := by
  simp only [orderTerms, h]

/-- An order that is written back by a request that holds its row. -/
theorem saveOrder_step {db : TenantDb} {order order' : SalesOrder} {id : Uuid}
    (hdb : db.papers = papers) (hget : papers.orders.get id = some order)
    (hsave : saveOrder db order' = .ok db') (hid : order'.id = order.id)
    (hterms : orderTerms order' = orderTerms order) : PaperStep papers [.order id] db'.papers := by
  obtain ⟨orders, hreplace, rfl⟩ := saveOrder_eq_ok hsave
  obtain rfl := (Table.get_mem hget).2
  subst hdb
  rw [hid] at hreplace
  exact .orderSaved hget (List.mem_singleton_self _) hid hterms hreplace

theorem convertQuotation_step {quotationId : Uuid} {payload : QuotationConvert}
    (h : Sales.convertQuotation request (papers.among around) quotationId payload = .ok db') :
    PaperStep papers [.quotation quotationId] db'.papers := by
  obtain ⟨quotation, hfound, h⟩ := bind_eq_ok.mp h
  obtain ⟨_, -, h⟩ := bind_eq_ok.mp h
  obtain ⟨_, -, h⟩ := bind_eq_ok.mp h
  obtain ⟨_, hstatus, h⟩ := bind_eq_ok.mp h
  obtain ⟨_, hunconverted, h⟩ := bind_eq_ok.mp h
  obtain ⟨lines, hlines, h⟩ := bind_eq_ok.mp h
  obtain ⟨orders, hinsert, h⟩ := bind_eq_ok.mp h
  obtain ⟨quotations, hsave, h⟩ := bind_eq_ok.mp h
  cases h
  have hget : papers.quotations.get quotationId = some quotation := orRaise_eq_ok.mp hfound
  obtain rfl := (Table.get_mem hget).2
  have hnone : quotation.convertedOrderId = none := by
    unfold requireNotConverted at hunconverted
    split at hunconverted
    next hnone => exact Option.isNone_iff_eq_none.mp hnone
    next => cases hunconverted
  exact .converted hget (List.mem_singleton_self _) (List.mem_singleton.mp (requireStatus_eq_ok hstatus))
    hnone ⟨rfl, rfl, rfl, rfl, newOrderLines_priced hlines⟩ (orRaise_eq_ok.mp hinsert)
    (orRaise_eq_ok.mp hsave)

/-- Every request that goes through is one of the steps, on the rows that it holds. -/
theorem PaperOp.body_step (h : op.body request (papers.among around) = .ok db') :
    PaperStep papers op.rows db'.papers := by
  cases op with
  | createQuotation payload =>
      obtain ⟨_, -, h⟩ := bind_eq_ok.mp h
      obtain ⟨_, -, h⟩ := bind_eq_ok.mp h
      obtain ⟨_, -, h⟩ := bind_eq_ok.mp h
      obtain ⟨lines, -, h⟩ := bind_eq_ok.mp h
      obtain ⟨amounts, -, h⟩ := bind_eq_ok.mp h
      obtain ⟨quotations, hinsert, h⟩ := bind_eq_ok.mp h
      cases h
      exact .quotationCreated rfl (sortedLines_sortedLines lines) (orRaise_eq_ok.mp hinsert)
  | setQuotationStatus quotationId status =>
      obtain ⟨quotation, hfound, hrest⟩ := bind_eq_ok.mp h
      obtain ⟨_, -, hrest⟩ := bind_eq_ok.mp hrest
      obtain ⟨_, hlegal, hrest⟩ := bind_eq_ok.mp hrest
      obtain ⟨quotations, hsave, hrest⟩ := bind_eq_ok.mp hrest
      cases hrest
      have hget : papers.quotations.get quotationId = some quotation := orRaise_eq_ok.mp hfound
      obtain rfl := (Table.get_mem hget).2
      exact .statusSet hget (List.mem_singleton_self _) (requireStatus_eq_ok hlegal)
        (orRaise_eq_ok.mp hsave)
  | convertQuotation quotationId payload => exact convertQuotation_step h
  | createOrder payload =>
      obtain ⟨_, -, h⟩ := bind_eq_ok.mp h
      obtain ⟨_, -, h⟩ := bind_eq_ok.mp h
      obtain ⟨_, -, h⟩ := bind_eq_ok.mp h
      obtain ⟨priced, -, h⟩ := bind_eq_ok.mp h
      obtain ⟨lines, -, h⟩ := bind_eq_ok.mp h
      obtain ⟨amounts, -, h⟩ := bind_eq_ok.mp h
      obtain ⟨orders, hinsert, h⟩ := bind_eq_ok.mp h
      cases h
      exact .orderCreated rfl (orRaise_eq_ok.mp hinsert)
  | confirmOrder orderId =>
      obtain ⟨order, hfind, h⟩ := bind_eq_ok.mp h
      obtain ⟨_, -, h⟩ := bind_eq_ok.mp h
      exact saveOrder_step rfl (findOrder_eq_ok hfind) h rfl rfl
  | cancelOrder orderId =>
      obtain ⟨order, hfind, h⟩ := bind_eq_ok.mp h
      obtain ⟨_, -, h⟩ := bind_eq_ok.mp h
      obtain ⟨_, -, h⟩ := bind_eq_ok.mp h
      exact saveOrder_step rfl (findOrder_eq_ok hfind) h rfl rfl
  | fulfil orderId lines =>
      obtain ⟨order, hfind, h⟩ := bind_eq_ok.mp h
      obtain ⟨_, -, h⟩ := bind_eq_ok.mp h
      obtain ⟨items, -, h⟩ := bind_eq_ok.mp h
      obtain ⟨_, -, h⟩ := bind_eq_ok.mp h
      obtain ⟨state, hloop, h⟩ := bind_eq_ok.mp h
      obtain ⟨db₁, hsave, h⟩ := bind_eq_ok.mp h
      obtain ⟨fulfillments, -, h⟩ := bind_eq_ok.mp h
      have hdocuments := TenantDb.book_documents h
      have hbook : db'.papers = db₁.papers := by
        show db'.documents.papers = db₁.papers
        rw [hdocuments]
        rfl
      rw [hbook]
      refine saveOrder_step rfl (findOrder_eq_ok hfind) hsave rfl (orderTerms_of_lines ?_)
      exact foldlM_appends (fun s => s.lines.map (·.toPricedLine)) (fun _ _ _ => fulfilLine_priced) hloop
  | createInvoice payload =>
      obtain ⟨order, hfind, h⟩ := bind_eq_ok.mp h
      obtain ⟨_, -, h⟩ := bind_eq_ok.mp h
      obtain ⟨state, hloop, h⟩ := bind_eq_ok.mp h
      obtain ⟨_, -, h⟩ := bind_eq_ok.mp h
      obtain ⟨invoice, -, h⟩ := bind_eq_ok.mp h
      obtain ⟨db₁, hsave, h⟩ := bind_eq_ok.mp h
      obtain ⟨invoices, -, h⟩ := bind_eq_ok.mp h
      cases h
      have hlines : state.lines.map (·.toPricedLine) =
          order.lines.zipIdx.map fun row => row.1.toPricedLine :=
        foldlM_appends (fun s => s.lines.map (·.toPricedLine)) (fun _ _ _ => invoiceLine_priced) hloop
      show PaperStep papers _ db₁.papers
      refine saveOrder_step rfl (findOrder_eq_ok hfind) hsave rfl (orderTerms_of_lines ?_)
      rw [hlines, ← List.zipIdx_map_fst 0 order.lines, List.map_map, List.zipIdx_map_fst]
      rfl

/-- A step leaves the rows alone that the request does not hold. -/
theorem PaperStep.frame {row : PaperRow} (h : PaperStep papers rows papers') (hrow : row ∉ rows) :
    papers'.read row = papers.read row ∨ papers.read row = none := by
  have hne : ∀ {held : PaperRow}, held ∈ rows → row ≠ held := by
    rintro held hheld rfl
    exact hrow hheld
  cases h with
  | quotationCreated _ _ hinsert =>
      cases row with
      | quotation id => exact Table.map_get_insert_same hinsert _ id
      | order id => exact .inl rfl
  | statusSet _ hheld _ hsave =>
      cases row with
      | quotation id =>
          have hother : id ≠ _ := fun heq => hne hheld (congrArg PaperRow.quotation heq)
          exact .inl (congrArg (Option.map SeenPaper.quotation)
            (Table.get_replace_other hsave rfl hother))
      | order id => exact .inl rfl
  | converted _ hheld _ _ _ hinsert hsave =>
      cases row with
      | quotation id =>
          have hother : id ≠ _ := fun heq => hne hheld (congrArg PaperRow.quotation heq)
          exact .inl (congrArg (Option.map SeenPaper.quotation)
            (Table.get_replace_other hsave rfl hother))
      | order id => exact Table.map_get_insert_same hinsert _ id
  | orderCreated _ hinsert =>
      cases row with
      | quotation id => exact .inl rfl
      | order id => exact Table.map_get_insert_same hinsert _ id
  | orderSaved _ hheld hid _ hsave =>
      cases row with
      | quotation id => exact .inl rfl
      | order id =>
          have hother : id ≠ _ := fun heq => hne hheld (congrArg PaperRow.order heq)
          exact .inl (congrArg (Option.map SeenPaper.order) (Table.get_replace_other hsave hid hother))

theorem Papers.see_eq {r : SeenPaper} (h : papers.read r.row = some r) : papers.see r = papers := by
  cases r with
  | quotation found | order found =>
      obtain ⟨_, hget, heq⟩ := Option.map_eq_some_iff.mp h
      cases heq
      simp only [see, Table.replace_self hget, Option.getD_some]

theorem paperService_step {call : PaperCall} (h : paperService.body papers call = some papers') :
    PaperStep papers call.op.rows papers' := by
  obtain ⟨db', hbody, rfl⟩ := Option.map_eq_some_iff.mp h
  exact PaperOp.body_step (toOption_eq_some.mp hbody)

theorem paperService_lawful : paperService.Lawful where
  row_of_read {papers row r} h := by
    cases row with
    | quotation id | order id =>
        obtain ⟨found, hget, rfl⟩ := Option.map_eq_some_iff.mp h
        obtain rfl := (Table.get_mem hget).2
        rfl
  see_eq := Papers.see_eq
  frame h hrow := (paperService_step h).frame hrow

/-! ## What stays -/

/-- The status that a quotation can have next. -/
def QuotationNext (s t : QuotationStatus) : Prop := s ∈ t.legal

/-- A quotation keeps its terms and moves on, unless it was converted. -/
structure QuotationBecomes (quotation quotation' : Quotation) : Prop where
  terms : quotationTerms quotation' = quotationTerms quotation
  status : Relation.ReflTransGen QuotationNext quotation.status quotation'.status
  converted : quotation.convertedOrderId.isSome → quotation' = quotation

/-- A later state of quotations and orders. -/
structure PapersFollow (papers papers' : Papers) : Prop where
  quotations : Table.Later QuotationBecomes papers.quotations papers'.quotations
  orders : Table.Later (fun order order' => orderTerms order' = orderTerms order) papers.orders
    papers'.orders

theorem QuotationBecomes.refl (quotation : Quotation) : QuotationBecomes quotation quotation :=
  ⟨rfl, .refl, fun _ => rfl⟩

theorem QuotationBecomes.trans {q q' q'' : Quotation} (h : QuotationBecomes q q')
    (h' : QuotationBecomes q' q'') : QuotationBecomes q q'' where
  terms := h'.terms.trans h.terms
  status := h.status.trans h'.status
  converted := by
    intro hconverted
    obtain rfl := h.converted hconverted
    exact h'.converted hconverted

theorem PapersFollow.refl (papers : Papers) : PapersFollow papers papers where
  quotations := .refl QuotationBecomes.refl _
  orders := Table.Later.refl (fun order => Eq.refl (orderTerms order)) _

theorem PapersFollow.trans {papers'' : Papers} (h : PapersFollow papers papers')
    (h' : PapersFollow papers' papers'') : PapersFollow papers papers'' where
  quotations := h.quotations.trans .trans h'.quotations
  orders := h.orders.trans (fun hterms hterms' => hterms'.trans hterms) h'.orders

/-! ## What holds at all times -/

/-- A quotation and the order that it became. -/
structure QuotationSound (papers : Papers) (quotation : Quotation) : Prop where
  sorted : sortedLines quotation.lines = quotation.lines
  converted : ∀ id ∈ quotation.convertedOrderId, quotation.status = .accepted ∧
    ∃ order, papers.orders.get id = some order ∧ OrderOf quotation order

structure PapersSound (papers : Papers) : Prop where
  quotations : ∀ quotation ∈ papers.quotations.rows, QuotationSound papers quotation
  orders : ∀ order ∈ papers.orders.rows, ∀ id ∈ order.quotationId, ∃ quotation,
    papers.quotations.get id = some quotation ∧ quotation.convertedOrderId = some order.id

theorem accepted_not_legal (status : QuotationStatus) : QuotationStatus.accepted ∉ status.legal := by
  cases status with
  | draft | sent | accepted | rejected | expired => simp [QuotationStatus.legal]

/-- A quotation whose status can be set has not become an order. -/
theorem QuotationSound.unconverted {quotation : Quotation} {status : QuotationStatus}
    (h : QuotationSound papers quotation) (hlegal : quotation.status ∈ status.legal) :
    quotation.convertedOrderId = none := by
  cases hconverted : quotation.convertedOrderId with
  | none => rfl
  | some id =>
      rw [(h.converted id hconverted).1] at hlegal
      exact absurd hlegal (accepted_not_legal status)

theorem PaperStep.follows (h : PaperStep papers rows papers') (hpapers : PapersSound papers) :
    PapersFollow papers papers' := by
  have hsame := PapersFollow.refl papers
  cases h with
  | quotationCreated _ _ hinsert =>
      exact { hsame with quotations := .insert QuotationBecomes.refl hinsert }
  | @statusSet quotation status quotations hget _ hlegal hsave =>
      have hnone := (hpapers.quotations _ (Table.get_mem hget).1).unconverted hlegal
      have hbecomes : QuotationBecomes quotation { quotation with status := status } :=
        ⟨rfl, .single hlegal, fun hsome => by rw [hnone] at hsome; cases hsome⟩
      exact { hsame with quotations := .replace QuotationBecomes.refl hget hsave rfl hbecomes }
  | @converted quotation order quotations orders hget _ _ hnone _ hinsert hsave =>
      have hbecomes : QuotationBecomes quotation { quotation with convertedOrderId := some order.id } :=
        ⟨rfl, .refl, fun hsome => by rw [hnone] at hsome; cases hsome⟩
      exact ⟨.replace QuotationBecomes.refl hget hsave rfl hbecomes, .insert (fun _ => rfl) hinsert⟩
  | orderCreated _ hinsert => exact { hsame with orders := .insert (fun _ => rfl) hinsert }
  | orderSaved hget _ hid hterms hsave =>
      exact { hsame with orders := .replace (fun _ => rfl) hget hsave hid hterms }

/-- An order keeps what was quoted as long as it keeps its terms. -/
theorem OrderOf.of_terms {quotation : Quotation} {order order' : SalesOrder}
    (h : OrderOf quotation order) (hterms : orderTerms order' = orderTerms order) :
    OrderOf quotation order' := by
  simp only [orderTerms, Prod.mk.injEq] at hterms
  obtain ⟨-, hcustomer, hbranch, -, hquotation, -, hamounts, hlines⟩ := hterms
  exact ⟨hquotation.trans h.quotationId, hcustomer.trans h.customerId, hbranch.trans h.branchId,
    hamounts.trans h.amounts, hlines.trans h.lines⟩

theorem QuotationSound.mono {quotation : Quotation} (h : QuotationSound papers quotation)
    (hfollows : PapersFollow papers papers') : QuotationSound papers' quotation where
  sorted := h.sorted
  converted id hid := by
    obtain ⟨haccepted, order, hget, horder⟩ := h.converted id hid
    obtain ⟨order', hget', hterms⟩ := hfollows.orders id order hget
    exact ⟨haccepted, order', hget', horder.of_terms hterms⟩

theorem PaperStep.quotations (h : PaperStep papers rows papers') (hpapers : PapersSound papers) :
    ∀ quotation ∈ papers'.quotations.rows, QuotationSound papers' quotation := by
  have hfollows := h.follows hpapers
  have hquotations : ∀ quotation ∈ papers.quotations.rows, QuotationSound papers' quotation :=
    fun quotation hquotation => (hpapers.quotations quotation hquotation).mono hfollows
  cases h with
  | quotationCreated hnew hsorted hinsert =>
      refine Table.forall_insert hinsert hquotations ⟨hsorted, fun id hid => ?_⟩
      rw [hnew] at hid
      cases hid
  | @statusSet quotation status _ hget _ hlegal hsave =>
      have hquotation := hquotations _ (Table.get_mem hget).1
      have hnone := hquotation.unconverted hlegal
      refine Table.forall_replace hget hsave hquotations ⟨hquotation.sorted, fun id hid => ?_⟩
      rw [show quotation.convertedOrderId = some id from hid] at hnone
      cases hnone
  | @converted quotation order _ _ hget _ haccepted _ horder hinsert hsave =>
      have hquotation := hquotations _ (Table.get_mem hget).1
      refine Table.forall_replace hget hsave hquotations ⟨hquotation.sorted, fun id hid => ?_⟩
      obtain rfl : order.id = id := Option.some.inj hid
      refine ⟨haccepted, order, ?_, ⟨horder.quotationId, horder.customerId, horder.branchId,
        horder.amounts, horder.lines⟩⟩
      rw [Table.get_insert hinsert, if_pos rfl]
  | orderCreated _ _ => exact hquotations
  | orderSaved _ _ _ _ _ => exact hquotations

theorem PaperStep.orders (h : PaperStep papers rows papers') (hpapers : PapersSound papers) :
    ∀ order ∈ papers'.orders.rows, ∀ id ∈ order.quotationId, ∃ quotation,
      papers'.quotations.get id = some quotation ∧ quotation.convertedOrderId = some order.id := by
  have hfollows := h.follows hpapers
  -- a converted quotation is as it was
  have horders : ∀ order ∈ papers.orders.rows, ∀ id ∈ order.quotationId, ∃ quotation,
      papers'.quotations.get id = some quotation ∧ quotation.convertedOrderId = some order.id := by
    intro order horder id hid
    obtain ⟨quotation, hget, hconverted⟩ := hpapers.orders order horder id hid
    obtain ⟨quotation', hget', hbecomes⟩ := hfollows.quotations id quotation hget
    obtain rfl := hbecomes.converted (by rw [hconverted]; rfl)
    exact ⟨quotation', hget', hconverted⟩
  cases h with
  | quotationCreated _ _ _ => exact horders
  | statusSet _ _ _ _ => exact horders
  | @converted quotation order _ _ hget _ _ _ horder hinsert hsave =>
      refine Table.forall_insert hinsert horders fun id hid => ?_
      rw [horder.quotationId] at hid
      cases hid
      refine ⟨{ quotation with convertedOrderId := some order.id }, ?_, rfl⟩
      exact (Table.get_replace hget (by exact rfl) hsave _).trans (if_pos rfl)
  | orderCreated hnew hinsert =>
      refine Table.forall_insert hinsert horders fun id hid => ?_
      rw [hnew] at hid
      cases hid
  | @orderSaved order order' _ hget _ hid hterms hsave =>
      refine Table.forall_replace hget hsave horders fun id hquotation => ?_
      simp only [orderTerms, Prod.mk.injEq] at hterms
      rw [hterms.2.2.2.2.1] at hquotation
      rw [hid]
      exact horders order (Table.get_mem hget).1 id hquotation

theorem PaperStep.sound (h : PaperStep papers rows papers') (hpapers : PapersSound papers) :
    PapersSound papers' where
  quotations := h.quotations hpapers
  orders := h.orders hpapers

theorem Papers.empty_sound : PapersSound .empty where
  quotations := List.forall_mem_nil _
  orders := List.forall_mem_nil _

/-! ## Every interleaving -/

/-- A quotation becomes an order once.  Of two states of one interleaving, the later has every quotation
of the earlier with the same terms, at a status that the transitions lead to, and as it was if it was
converted, and every order with the same terms. -/
theorem quotations_follow {s t : paperService.Interleaving}
    (hs : paperService.protocol.Reaches (Protocol.init .empty) s)
    (ht : paperService.protocol.Reaches s t) : PapersFollow s.committed t.committed := by
  refine paperService_lawful.follows PapersFollow.refl PapersFollow.trans ?_ Papers.empty_sound hs ht
  intro papers call papers' hpapers hbody
  exact ⟨(paperService_step hbody).sound hpapers, (paperService_step hbody).follows hpapers⟩

/-! ## Two clerks convert one quotation -/

/-- A request of the shop, that finds its tables as they were set up. -/
def cornerPaper (n : Nat) (op : PaperOp) : PaperCall := ⟨cornerRequest n, op, .start corner⟩

/-- Two hours of the service are quoted. -/
def serviceQuotation : QuotationCreate where
  customerId := 1
  branchId := 4
  lines := [⟨8, 2000000, 50000, 0, 0, Sample.twoPieces_pos, Sample.twoPieces_lt, Sample.five_nonneg,
    Sample.zero_rate, Sample.zero_rate⟩]

/-- The customer accepts what was quoted. -/
def acceptedQuotation : List (TxAction PaperCall Unit) :=
  [.begin 1 (cornerPaper 1 (.createQuotation serviceQuotation)), .run 1 (), .finish 1,
   .begin 2 (cornerPaper 2 (.setQuotationStatus 1 .sent)), .run 2 (), .run 2 (), .finish 2,
   .begin 3 (cornerPaper 3 (.setQuotationStatus 1 .accepted)), .run 3 (), .run 3 (), .finish 3]

/-- Both clerks begin, and the second has to wait for the row. -/
def orderedTwice : List (TxAction PaperCall Unit) :=
  [.begin 4 (cornerPaper 4 (.convertQuotation 1 ⟨1, ⟨2026, 1, 15⟩⟩)),
   .begin 5 (cornerPaper 5 (.convertQuotation 1 ⟨1, ⟨2026, 1, 16⟩⟩)),
   .run 4 (), .run 4 (), .finish 4, .run 5 (), .run 5 (), .finish 5]

/-- The quotation became one order. -/
def OrderedOnce (s : paperService.Interleaving) : Prop :=
  s.committed.quotations.rows.map (·.convertedOrderId) = [some 4] ∧
    s.committed.orders.rows.map (·.quotationId) = [some 1]

instance : DecidablePred OrderedOnce := fun _ => inferInstanceAs (Decidable (_ ∧ _))

theorem orderedTwice_reaches : ∃ s t : paperService.Interleaving,
    paperService.protocol.Reaches (Protocol.init .empty) s ∧ paperService.protocol.Reaches s t ∧
      s.committed.quotations.rows.map (·.status) = [.accepted] ∧ OrderedOnce t := by
  obtain ⟨s, hs, haccepted, hordered⟩ :=
    Protocol.Reaches.exists_of_any (p := paperService.protocol) (s := Protocol.init .empty)
      (F := fun s => s.committed.quotations.rows.map (·.status) = [.accepted] ∧
        (orderedTwice.foldlM paperService.protocol.step s).any fun t => OrderedOnce t)
      acceptedQuotation (by decide +kernel)
  obtain ⟨t, ht, honce⟩ := Protocol.Reaches.exists_of_any orderedTwice hordered
  exact ⟨s, t, hs, ht, haccepted, honce⟩

theorem quotations_follow_orderedTwice : ∃ s t : paperService.Interleaving,
    s.committed.quotations.rows.map (·.status) = [.accepted] ∧ OrderedOnce t ∧
      PapersFollow s.committed t.committed := by
  obtain ⟨s, t, hs, ht, haccepted, honce⟩ := orderedTwice_reaches
  exact ⟨s, t, haccepted, honce, quotations_follow hs ht⟩

end Nexora.Tenant
