import Nexora.Foundations.LockOrder
import Nexora.Core.Context
import Mathlib.Data.List.Sort
import Mathlib.Data.Prod.Lex

/-!
# The row locks of stock operations

The rows of `products` and `inventory_balances` that each operation on stock locks, in the
order in which its code takes them.  What an operation finds in the tables is in its lines: that
a product is tracked, that a balance exists already, that an idempotency key was used, that a
receipt changes the cost of a product.

Two orders are in use.  `app/modules/inventory/service.py` locks a product before its balance,
and a checkout locks the balances that exist before any product.  Each order alone is safe:
`productsFirst_deadlock_free` and `balancesFirst_deadlock_free`.  Together they are not, by
`checkout_crosses`.
-/

namespace Nexora.Tenant.StockLocks

open Nexora Foundations

/-- A row that is locked `FOR UPDATE`, or by an `UPDATE`. -/
inductive Row where
  | product (productId : Uuid)
  | balance (warehouseId productId : Uuid)
deriving DecidableEq, Repr

/-- A line of a document, with `is_stock_tracked` of its product. -/
structure Line where
  productId : Uuid
  isStockTracked : Bool

/-- A line of a cart.  `hasBalance` when the warehouse has a balance row of the product. -/
structure CartLine extends Line where
  hasBalance : Bool

/-- A line of a transfer.  `replayed` when its idempotency key belongs to a movement. -/
structure TransferLine where
  productId : Uuid
  replayed : Bool

/-- A line of a credit note. -/
structure CreditLine extends Line where
  invoiceLineId : Uuid

/-- A line of a goods receipt.  `revalued` when it changes `cost_price` of the product. -/
structure ReceiptLine extends Line where
  revalued : Bool

/-- The lines by a key.  `sorted` is stable. -/
def sortBy {α : Type} (key : α → Uuid) (lines : List α) : List α :=
  lines.insertionSort (key · ≤ key ·)

theorem pairwise_sortBy {α : Type} (key : α → Uuid) (lines : List α) :
    (sortBy key lines).Pairwise (key · ≤ key ·) := by
  let byKey : α → α → Prop := fun a b => key a ≤ key b
  have htotal : Std.Total byKey := ⟨fun a b => le_total (key a) (key b)⟩
  have htrans : IsTrans α byKey := ⟨fun _ _ _ => le_trans⟩
  exact List.pairwise_insertionSort byKey lines

/-! ## The locks of each operation -/

/-- `_validate_pair`. -/
def validatePair (productId : Uuid) : List Row := [.product productId]

/-- `_balance_for_update`. -/
def balanceForUpdate (warehouseId productId : Uuid) : List Row := [.balance warehouseId productId]

/-- `_post_movement`: a movement of the same key is returned before any lock. -/
def postMovement (warehouseId productId : Uuid) (replayed : Bool) : List Row :=
  if replayed then [] else balanceForUpdate warehouseId productId

/-- `post_movement_for_document`, of the products that are tracked.  It has no key. -/
def postForDocument (warehouseId : Uuid) (line : Line) : List Row :=
  if line.isStockTracked then postMovement warehouseId line.productId false else []

/-- `receipt`, `issue` and `adjust`. -/
def movement (warehouseId productId : Uuid) (replayed : Bool) : List Row :=
  validatePair productId ++ postMovement warehouseId productId replayed

/-- `reserve`. -/
def reserve (warehouseId productId : Uuid) : List Row :=
  validatePair productId ++ balanceForUpdate warehouseId productId

/-- `transition_transfer`, in the warehouse that ships or receives. -/
def transitionTransfer (warehouseId : Uuid) (lines : List TransferLine) : List Row :=
  (sortBy (·.productId) lines).flatMap fun line =>
    movement warehouseId line.productId line.replayed

/-- `lock_inventory_balances`: the rows that exist. -/
def lockInventoryBalances (warehouseId : Uuid) (lines : List CartLine) : List Row :=
  (lines.filter (·.hasBalance)).map (.balance warehouseId ·.productId)

/-- `checkout` of the till. -/
def checkout (warehouseId : Uuid) (lines : List CartLine) : List Row :=
  let lines := sortBy (·.productId) lines
  lockInventoryBalances warehouseId lines ++
    lines.flatMap fun line => .product line.productId :: postForDocument warehouseId line.toLine

/-- `fulfil`, which reads its products without a lock. -/
def fulfil (warehouseId : Uuid) (lines : List Line) : List Row :=
  (sortBy (·.productId) lines).flatMap (postForDocument warehouseId)

/-- The lines of a credit note, by the invoice lines that they credit. -/
def creditedLines (lines : List CreditLine) : List Line :=
  (sortBy (·.invoiceLineId) lines).map (·.toLine)

/-- `issue_credit_note` that restocks. -/
def issueCreditNote (warehouseId : Uuid) (lines : List CreditLine) : List Row :=
  (creditedLines lines).flatMap (postForDocument warehouseId)

/-- `receive` of a purchase order.  The products that it revalues are updated when the session
flushes, by their primary keys. -/
def receive (warehouseId : Uuid) (lines : List ReceiptLine) : List Row :=
  let lines := sortBy (·.productId) lines
  (lines.map (·.toLine)).flatMap (postForDocument warehouseId) ++
    (lines.filter fun line => line.isStockTracked && line.revalued).map (.product ·.productId)

inductive Op where
  | checkout (warehouseId : Uuid) (lines : List CartLine)
  | receipt (warehouseId productId : Uuid) (replayed : Bool)
  | issue (warehouseId productId : Uuid) (replayed : Bool)
  | adjust (warehouseId productId : Uuid) (replayed : Bool)
  | reserve (warehouseId productId : Uuid)
  | ship (sourceId : Uuid) (lines : List TransferLine)
  | receiveTransfer (destinationId : Uuid) (lines : List TransferLine)
  | fulfil (warehouseId : Uuid) (lines : List Line)
  | issueCreditNote (warehouseId : Uuid) (lines : List CreditLine)
  | receive (warehouseId : Uuid) (lines : List ReceiptLine)

/-- The rows that an operation locks, unless it ends before. -/
def Op.rows : Op → List Row
  | .checkout warehouseId lines => StockLocks.checkout warehouseId lines
  | .receipt warehouseId productId replayed | .issue warehouseId productId replayed
  | .adjust warehouseId productId replayed => movement warehouseId productId replayed
  | .reserve warehouseId productId => StockLocks.reserve warehouseId productId
  | .ship warehouseId lines | .receiveTransfer warehouseId lines =>
      transitionTransfer warehouseId lines
  | .fulfil warehouseId lines => StockLocks.fulfil warehouseId lines
  | .issueCreditNote warehouseId lines => StockLocks.issueCreditNote warehouseId lines
  | .receive warehouseId lines => StockLocks.receive warehouseId lines

/-- Transactions of stock operations. -/
abbrev stockLocks : Protocol Unit Op (LockTx Row) Unit Row := lockProtocol Op.rows

/-! ## Two orders -/

/-- A product before its balances, and the products by their ids. -/
def productsFirst : Row → ℕ ×ₗ ℕ
  | .product productId => toLex (productId, 0)
  | .balance warehouseId productId => toLex (productId, warehouseId + 1)

/-- `ORDER BY (warehouse_id, product_id)` for the balances, and the products after them. -/
def balancesFirst : Row → ℕ ×ₗ ℕ ×ₗ ℕ
  | .balance warehouseId productId => toLex (0, toLex (warehouseId, productId))
  | .product productId => toLex (1, toLex (0, productId))

section Orders

variable {p p' w w' : Uuid}

@[simp] theorem productsFirst_product_lt :
    productsFirst (.product p) < productsFirst (.product p') ↔ p < p' := by
  simp [productsFirst, Prod.Lex.toLex_lt_toLex]

@[simp] theorem productsFirst_balance_lt :
    productsFirst (.balance w p) < productsFirst (.balance w p') ↔ p < p' := by
  simp [productsFirst, Prod.Lex.toLex_lt_toLex]

@[simp] theorem productsFirst_balance_lt_product :
    productsFirst (.balance w p) < productsFirst (.product p') ↔ p < p' := by
  simp [productsFirst, Prod.Lex.toLex_lt_toLex]

@[simp] theorem productsFirst_product_lt_balance :
    productsFirst (.product p) < productsFirst (.balance w p') ↔ p ≤ p' := by
  simp [productsFirst, Prod.Lex.toLex_lt_toLex, ← le_iff_lt_or_eq]

@[simp] theorem balancesFirst_product_lt :
    balancesFirst (.product p) < balancesFirst (.product p') ↔ p < p' := by
  simp [balancesFirst, Prod.Lex.toLex_lt_toLex]

@[simp] theorem balancesFirst_balance_lt :
    balancesFirst (.balance w p) < balancesFirst (.balance w p') ↔ p < p' := by
  simp [balancesFirst, Prod.Lex.toLex_lt_toLex]

@[simp] theorem balancesFirst_balance_lt_product :
    balancesFirst (.balance w p) < balancesFirst (.product p') := by
  simp [balancesFirst, Prod.Lex.toLex_lt_toLex]

end Orders

/-- Documents that move stock without a lock on a product lock balances only. -/
theorem flatMap_postForDocument (warehouseId : Uuid) (lines : List Line) :
    lines.flatMap (postForDocument warehouseId) =
      (lines.filter (·.isStockTracked)).map (.balance warehouseId ·.productId) := by
  induction lines with
  | nil => rfl
  | cons line lines ih =>
      rw [List.flatMap_cons, ih, List.filter_cons]
      unfold postForDocument
      split <;> rfl

/-- The rows of sorted lines are sorted. -/
theorem pairwise_rows {α : Type} {key : α → Uuid} (lt : Row → Row → Prop) (row : Uuid → Row)
    (hlt : ∀ p p', p < p' → lt (row p) (row p')) {lines : List α}
    (h : lines.Pairwise (key · ≤ key ·)) :
    (lines.map fun line => row (key line)).Pairwise fun row row' => row = row' ∨ lt row row' := by
  refine List.pairwise_map.mpr (h.imp fun {line line'} hle => ?_)
  rcases Nat.lt_or_eq_of_le hle with hlt' | heq
  · exact .inr (hlt _ _ hlt')
  · exact .inl (by rw [heq])

/-- Documents whose lines are in the order of their products lock balances that go up. -/
theorem ascends_document {lt : Row → Row → Prop} {warehouseId : Uuid}
    (hlt : ∀ p p', p < p' → lt (.balance warehouseId p) (.balance warehouseId p'))
    {lines : List Line}
    (h : (lines.filter (·.isStockTracked)).Pairwise (·.productId ≤ ·.productId)) :
    Ascends lt (lines.flatMap (postForDocument warehouseId)) := by
  rw [flatMap_postForDocument]
  exact .of_pairwise (pairwise_rows lt _ hlt h)

/-- Each product with its balance, along the products. -/
theorem ascends_products {α : Type} (key : α → Uuid) (moves : α → Bool) (warehouseId : Uuid)
    {lines : List α} (h : lines.Pairwise (key · ≤ key ·)) :
    Ascends (KeyBelow productsFirst)
      (lines.flatMap fun line =>
        .product (key line) :: if moves line then [.balance warehouseId (key line)] else []) := by
  rw [← List.nil_append (lines.flatMap _)]
  refine Ascends.append_flatMap (.nil _) ?_ (List.forall_mem_nil _) (h.imp fun {a b} hle => ?_)
  · intro line _
    split <;> simp
  intro row hrow row' hrow'
  have hproduct : Row.product (key a) ∈
      Row.product (key a) :: if moves a then [.balance warehouseId (key a)] else [] :=
    List.mem_cons_self
  have hrows : ∀ line row, row ∈ Row.product (key line) ::
      (if moves line then [.balance warehouseId (key line)] else []) →
      row = .product (key line) ∨ row = .balance warehouseId (key line) := by
    intro line row hrow
    refine (List.mem_cons.mp hrow).imp_right fun hrow => ?_
    split at hrow
    · exact List.mem_singleton.mp hrow
    · cases hrow
  rcases Nat.lt_or_eq_of_le hle with hlt | heq
  · right
    right
    rcases hrows a row hrow with rfl | rfl <;> rcases hrows b row' hrow' with rfl | rfl
    · exact productsFirst_product_lt.mpr hlt
    · exact productsFirst_product_lt_balance.mpr hle
    · exact productsFirst_balance_lt_product.mpr hlt
    · exact productsFirst_balance_lt.mpr hlt
  · -- Two lines of one product: only its balance can be new.
    right
    rcases hrows b row' hrow' with rfl | rfl
    · exact .inl (heq ▸ hproduct)
    · rcases hrows a row hrow with rfl | rfl
      · exact .inr (productsFirst_product_lt_balance.mpr hle)
      · exact .inl (heq ▸ hrow)

theorem movement_eq (warehouseId productId : Uuid) (replayed : Bool) :
    movement warehouseId productId replayed =
      .product productId :: if !replayed then [.balance warehouseId productId] else [] := by
  cases replayed <;> rfl

theorem ascends_movement (warehouseId productId : Uuid) (replayed : Bool) :
    Ascends (KeyBelow productsFirst)
      (movement warehouseId productId replayed) := by
  have h := ascends_products (fun _ : Unit => productId) (fun _ => !replayed) warehouseId
    (List.pairwise_singleton _ ())
  rwa [List.flatMap_singleton, ← movement_eq] at h

/-- The lines of a goods receipt are in the order of their products. -/
theorem sorted_lines (lines : List ReceiptLine) :
    (((sortBy (·.productId) lines).map (·.toLine)).filter (·.isStockTracked)).Pairwise
      (·.productId ≤ ·.productId) := by
  refine List.Pairwise.filter _ (List.pairwise_map.mpr ?_)
  exact pairwise_sortBy _ lines

/-! ## Operations that follow an order -/

/-- What locks a product before its balance. -/
def Op.ProductsFirst : Op → Prop
  | .checkout _ lines => ∀ line ∈ lines, line.hasBalance = false
  | .issueCreditNote _ lines => ((creditedLines lines).filter (·.isStockTracked)).Pairwise
      (·.productId ≤ ·.productId)
  | .receive _ lines => ∀ line ∈ lines, line.revalued = false
  | _ => True

/-- What locks balances before any product. -/
def Op.BalancesFirst : Op → Prop
  | .checkout _ lines => ∀ line ∈ lines, line.isStockTracked → line.hasBalance
  | .fulfil _ _ | .receive _ _ => True
  | .issueCreditNote _ lines => ((creditedLines lines).filter (·.isStockTracked)).Pairwise
      (·.productId ≤ ·.productId)
  | _ => False

theorem ascends_productsFirst {op : Op} (h : op.ProductsFirst) :
    Ascends (KeyBelow productsFirst) op.rows := by
  have hbalances : ∀ warehouseId p p', p < p' →
      productsFirst (.balance warehouseId p) < productsFirst (.balance warehouseId p') :=
    fun _ _ _ => productsFirst_balance_lt.mpr
  cases op with
  | checkout warehouseId lines =>
      have hfree : lockInventoryBalances warehouseId (sortBy (·.productId) lines) = [] := by
        rw [lockInventoryBalances, List.map_eq_nil_iff, List.filter_eq_nil_iff]
        intro line hline
        rw [h line ((List.mem_insertionSort _).mp hline)]
        exact Bool.false_ne_true
      simp only [Op.rows, StockLocks.checkout, hfree, List.nil_append]
      exact ascends_products _ _ warehouseId (pairwise_sortBy _ lines)
  | receipt warehouseId productId replayed | issue warehouseId productId replayed
  | adjust warehouseId productId replayed => exact ascends_movement warehouseId productId replayed
  | reserve warehouseId productId => exact ascends_movement warehouseId productId false
  | ship warehouseId lines | receiveTransfer warehouseId lines =>
      simp only [Op.rows, transitionTransfer, movement_eq]
      exact ascends_products _ _ warehouseId (pairwise_sortBy _ lines)
  | fulfil warehouseId lines =>
      exact ascends_document (hbalances warehouseId) ((pairwise_sortBy _ lines).filter _)
  | issueCreditNote warehouseId lines => exact ascends_document (hbalances warehouseId) h
  | receive warehouseId lines =>
      have hkept : ((sortBy (·.productId) lines).filter fun line =>
          line.isStockTracked && line.revalued) = [] := by
        rw [List.filter_eq_nil_iff]
        intro line hline
        rw [h line ((List.mem_insertionSort _).mp hline), Bool.and_false]
        exact Bool.false_ne_true
      simp only [Op.rows, StockLocks.receive, hkept, List.map_nil, List.append_nil]
      exact ascends_document (hbalances warehouseId) (sorted_lines lines)

theorem mem_postForDocument {warehouseId : Uuid} {line : Line} {row : Row} :
    row ∈ postForDocument warehouseId line ↔
      line.isStockTracked = true ∧ row = .balance warehouseId line.productId := by
  unfold postForDocument
  split
  next htracked => simp [htracked, postMovement, balanceForUpdate]
  next htracked => simp [htracked]

/-- A checkout has locked the balance of a line already. -/
theorem mem_lockInventoryBalances {warehouseId : Uuid} {lines : List CartLine}
    (h : ∀ line ∈ lines, line.isStockTracked → line.hasBalance) {line : CartLine}
    (hline : line ∈ lines) {row : Row} (hrow : row ∈ postForDocument warehouseId line.toLine) :
    row ∈ lockInventoryBalances warehouseId lines := by
  obtain ⟨htracked, rfl⟩ := mem_postForDocument.mp hrow
  exact List.mem_map.mpr ⟨line, List.mem_filter.mpr ⟨hline, h line hline htracked⟩, rfl⟩

theorem ascends_checkout {warehouseId : Uuid} {lines : List CartLine}
    (h : ∀ line ∈ lines, line.isStockTracked → line.hasBalance) :
    Ascends (KeyBelow balancesFirst)
      (StockLocks.checkout warehouseId lines) := by
  have hlocked : ∀ line ∈ sortBy (·.productId) lines,
      ∀ row ∈ postForDocument warehouseId line.toLine,
        row ∈ lockInventoryBalances warehouseId (sortBy (·.productId) lines) := by
    intro line hline row hrow
    exact mem_lockInventoryBalances
      (fun line hline => h line ((List.mem_insertionSort _).mp hline)) hline hrow
  have hsorted := pairwise_sortBy (fun line : CartLine => line.productId) lines
  refine Ascends.append_flatMap
    (.of_pairwise (pairwise_rows _ _ (fun _ _ => balancesFirst_balance_lt.mpr) (hsorted.filter _)))
    ?_ ?_ (hsorted.imp_of_mem fun {a b} _ hb hle => ?_)
  · intro line hline
    refine List.pairwise_cons.mpr ⟨fun row hrow => .inl (hlocked line hline row hrow), ?_⟩
    refine List.pairwise_of_forall_mem_list fun _ _ row' hrow' => ?_
    exact .inl (hlocked line hline row' hrow')
  · intro row hrow line hline row' hrow'
    obtain ⟨_, -, rfl⟩ := List.mem_map.mp hrow
    rcases List.mem_cons.mp hrow' with rfl | hrow'
    · exact .inr balancesFirst_balance_lt_product
    · exact .inl (hlocked line hline row' hrow')
  · intro row hrow row' hrow'
    rcases List.mem_cons.mp hrow' with rfl | hrow'
    · right
      rcases Nat.lt_or_eq_of_le hle with hlt | heq
      · right
        rcases List.mem_cons.mp hrow with rfl | hrow
        · exact balancesFirst_product_lt.mpr hlt
        · obtain ⟨-, rfl⟩ := mem_postForDocument.mp hrow
          exact balancesFirst_balance_lt_product
      · exact .inl (heq ▸ List.mem_cons_self)
    · exact .inl (hlocked b hb row' hrow')

theorem ascends_balancesFirst {op : Op} (h : op.BalancesFirst) :
    Ascends (KeyBelow balancesFirst) op.rows := by
  have hbalances : ∀ warehouseId p p', p < p' →
      balancesFirst (.balance warehouseId p) < balancesFirst (.balance warehouseId p') :=
    fun _ _ _ => balancesFirst_balance_lt.mpr
  cases op with
  | checkout warehouseId lines => exact ascends_checkout h
  | fulfil warehouseId lines =>
      exact ascends_document (hbalances warehouseId) ((pairwise_sortBy _ lines).filter _)
  | issueCreditNote warehouseId lines => exact ascends_document (hbalances warehouseId) h
  | receive warehouseId lines =>
      have hup : ∀ p p', p < p' → balancesFirst (.product p) < balancesFirst (.product p') :=
        fun _ _ => balancesFirst_product_lt.mpr
      have hproducts := pairwise_rows (KeyBelow balancesFirst) .product hup
        ((pairwise_sortBy (fun line : ReceiptLine => line.productId) lines).filter fun line =>
          line.isStockTracked && line.revalued)
      refine (ascends_document (hbalances warehouseId) (sorted_lines lines)).append
        (hproducts.imp .inr) fun row hrow row' hrow' => .inr ?_
      rw [flatMap_postForDocument] at hrow
      obtain ⟨_, -, rfl⟩ := List.mem_map.mp hrow
      obtain ⟨_, -, rfl⟩ := List.mem_map.mp hrow'
      exact balancesFirst_balance_lt_product
  | _ => exact h.elim

/-! ## Deadlock freedom -/

/-- While the operations that are open at one time lock their product and balance rows along one
order, no transactions wait for each other in a circle. -/
theorem stock_deadlock_free {s : Interleaved Unit (LockTx Row)}
    (h : Run (Agree Op.rows) (fun s action s' => stockLocks.step s action = some s')
      (Protocol.init ()) s) : ¬Deadlocked s :=
  not_deadlocked h

/-- Two carts with the same products in opposite orders: the second checkout waits. -/
theorem stock_deadlock_free_carts :
    ∃ s, [.begin 1 (.checkout 1 [⟨⟨1, true⟩, true⟩, ⟨⟨2, true⟩, true⟩]),
        .begin 2 (.checkout 1 [⟨⟨2, true⟩, true⟩, ⟨⟨1, true⟩, true⟩]), .run 1 (), .run 1 ()].foldlM
          stockLocks.step (Protocol.init ()) = some s ∧ Waits s 2 1 ∧ ¬Deadlocked s := by
  refine ⟨_, rfl, ⟨_, _, .balance 1 1, rfl, rfl, by decide, rfl, List.mem_cons_self⟩, ?_⟩
  refine stock_deadlock_free (agree_of_order (isStrictOrder_key balancesFirst)
    (fun _ => ascends_balancesFirst) ?_).1
  refine (((Run.refl _).snoc (l := .begin 1 (.checkout 1 [⟨⟨1, true⟩, true⟩, ⟨⟨2, true⟩, true⟩]))
    ?_ rfl).snoc (l := .begin 2 (.checkout 1 [⟨⟨2, true⟩, true⟩, ⟨⟨1, true⟩, true⟩])) ?_ rfl).snoc
    (l := .run 1 ()) trivial rfl |>.snoc (l := .run 1 ()) trivial rfl
  · simp [Protocol.opens, Op.BalancesFirst]
  · simp [Protocol.opens, Op.BalancesFirst]

/-- Operations of the inventory, with what else locks a product before its balance. -/
theorem productsFirst_deadlock_free {s : Interleaved Unit (LockTx Row)}
    (h : Run (Protocol.opens Op.ProductsFirst) (fun s action s' => stockLocks.step s action = some s')
      (Protocol.init ()) s) : ¬Deadlocked s :=
  not_deadlocked
    (agree_of_order (isStrictOrder_key productsFirst) (fun _ => ascends_productsFirst) h).1

/-- Checkouts that find the balances of their products, with sales orders and purchase orders. -/
theorem balancesFirst_deadlock_free {s : Interleaved Unit (LockTx Row)}
    (h : Run (Protocol.opens Op.BalancesFirst) (fun s action s' => stockLocks.step s action = some s')
      (Protocol.init ()) s) : ¬Deadlocked s :=
  not_deadlocked
    (agree_of_order (isStrictOrder_key balancesFirst) (fun _ => ascends_balancesFirst) h).1

/-- A checkout that finds a balance crosses any operation of the inventory on it. -/
theorem checkout_crosses {warehouseId productId : Uuid} {lines : List CartLine} {line : CartLine}
    (hline : line ∈ lines) (hproduct : line.productId = productId) (hbalance : line.hasBalance)
    {op : Op} (hop : op.rows = [.product productId, .balance warehouseId productId]) :
    ∃ s, stockLocks.Reaches (Protocol.init ()) s ∧ Deadlocked s := by
  let sorted := sortBy (·.productId) lines
  have hsorted : line ∈ sorted := (List.mem_insertionSort _).mpr hline
  have hwants : Row.product productId ∈ sorted.flatMap fun line =>
      .product line.productId :: postForDocument warehouseId line.toLine :=
    List.mem_flatMap.mpr ⟨line, hsorted, hproduct ▸ List.mem_cons_self⟩
  obtain ⟨before, after, heq, hnew⟩ := List.eq_append_cons_of_mem hwants
  have hheld : Row.balance warehouseId productId ∈ lockInventoryBalances warehouseId sorted :=
    List.mem_map.mpr ⟨line, List.mem_filter.mpr ⟨hsorted, hbalance⟩, by rw [hproduct]⟩
  have hrows : Op.rows (.checkout warehouseId lines) =
      (lockInventoryBalances warehouseId sorted ++ before) ++ .product productId :: after := by
    rw [List.append_assoc, ← heq]
    rfl
  have hrows' : op.rows = [.product productId] ++ .balance warehouseId productId :: [] := hop
  refine deadlock_of_crossing hrows hrows' ?_ List.mem_cons_self (List.mem_append_left _ hheld)
  rintro row hrow hrow'
  obtain rfl := List.mem_singleton.mp hrow'
  rcases List.mem_append.mp hrow with hrow | hrow
  · obtain ⟨_, -, hbad⟩ := List.mem_map.mp hrow
    cases hbad
  · exact hnew hrow

/-- The checkout holds the balance and wants the product, and the issue holds the product. -/
theorem checkout_meets_issue :
    ∃ s, [.begin 1 (.checkout 1 [⟨⟨7, true⟩, true⟩]), .begin 2 (.issue 1 7 false), .run 1 (),
        .run 2 ()].foldlM stockLocks.step (Protocol.init ()) = some s ∧ Deadlocked s := by
  refine ⟨_, rfl, 1, .tail (b := 2) (.single ?_) ?_⟩
  · exact ⟨_, _, .product 7, rfl, rfl, by decide, rfl, List.mem_cons_self⟩
  · exact ⟨_, _, .balance 1 7, rfl, rfl, by decide, rfl, List.mem_cons_self⟩

end Nexora.Tenant.StockLocks
