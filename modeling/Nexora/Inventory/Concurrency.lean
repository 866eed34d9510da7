import Nexora.Inventory.Ledger
import Mathlib.Algebra.Order.BigOperators.Group.List

/-!
# Concurrent stock

Transactions of the inventory, the till, sales and purchasing interleave statement by
statement.  Each statement locks its balance row with `SELECT ... FOR UPDATE`, under
`READ COMMITTED`, and keeps the lock to the end.  A row that is not there yet behaves
like an empty one: `ensure_balance` waits for a transaction that is inserting it.

The system is `Foundations.RowSystem` over the scripts of `StockOp`.  A transaction
chooses its script when it begins, which covers every script it could come to run, and
may abort at any point, which covers everything else that can raise.
-/

namespace Nexora.Inventory

open Nexora Nexora.Catalog Foundations

/-- The database of a tenant that may not sell below zero, while transactions run. -/
abbrev StockSystem := RowSystem StockOp Pair Statement Balance

/-- The interleavings from the given rows. -/
def StockSystem.Interleaving (rows : Pair → Balance) (s : StockSystem) : Prop :=
  RowSystem.Runs StockOp.script (Statement.apply false) (RowSystem.init rows) s

/-- A request that goes through does to the balances what the script of an operation on
stock does to them. -/
theorem Op.body_exec {op : Op} {db db' : InventoryDb} {u : Unit} (h : op.body db = .ok (db', u)) :
    db'.balance = db.balance ∨ ∃ stock : StockOp,
      exec (Statement.apply db.allowNegativeInventory) stock.script db.balance =
        .ok db'.balance := by
  rcases Op.body_writes h with hsame | ⟨stock, hwrites⟩
  · exact .inl hsame.balance
  · exact .inr ⟨stock, hwrites.exec⟩

/-! ## Availability -/

/-- `quantity_on_hand - reserved_quantity`. -/
def Balance.free (balance : Balance) : Quantity :=
  balance.quantityOnHand - balance.reservedQuantity

/-- What a statement adds to what is available. -/
def Statement.freed (statement : Statement) : Quantity := statement.onHand - statement.reserved

/-- What an operation adds to what is available of a pair. -/
def StockOp.freed (pair : Pair) (op : StockOp) : Quantity :=
  ((op.script.filter (·.1 = pair)).map fun statement => statement.2.freed).sum

def StockOp.isCheckout : StockOp → Bool
  | .checkout .. => true
  | _ => false

/-- What a checkout requests of a pair. -/
def StockOp.requested (pair : Pair) : StockOp → Quantity
  | .checkout warehouseId _ posted =>
      ((posted.filter fun line => (warehouseId, line.product.id) = pair).map StockLine.quantity).sum
  | _ => 0

theorem Statement.apply_free {negativeAllowed : Bool} {statement : Statement}
    {balance balance' : Balance} (h : statement.apply negativeAllowed balance = .ok balance') :
    balance'.free = balance.free + statement.freed := by
  obtain ⟨honHand, hreserved⟩ := Statement.apply_eq_ok h
  unfold Balance.free Statement.freed
  rw [honHand, hreserved]
  ring

/-- The stored quantity of a line that goes out. -/
theorem StockLine.stored_outward (line : StockLine) :
    stored (toContext (-decimal line.quantity)) = -line.quantity := by
  have hneg : -decimal line.quantity = decimal (-line.quantity) := by
    unfold decimal
    push_cast
    ring
  have hlt : |-line.quantity| < 10 ^ 28 := by
    rw [abs_neg]
    exact line.quantity_lt.trans (by norm_num)
  rw [hneg, toContext_decimal hlt, stored_decimal]

/-- A checkout takes what it requests. -/
theorem StockOp.freed_checkout (pair : Pair) {op : StockOp} (h : op.isCheckout = true) :
    op.freed pair = -op.requested pair := by
  cases op with
  | checkout warehouseId locked posted =>
      have hlocked : ((locked.map (fun pair => (pair, Statement.lock))).filter (·.1 = pair)).map
          (fun statement => statement.2.freed) =
          ((locked.filter (· = pair)).map fun _ => (0 : Quantity)) := by
        rw [List.filter_map, List.map_map]
        rfl
      have hposted : ((outward warehouseId posted).filter (·.1 = pair)).map
          (fun statement => statement.2.freed) =
          (posted.filter fun line => (warehouseId, line.product.id) = pair).map
            fun line => -line.quantity := by
        unfold outward
        rw [List.filter_map, List.map_map]
        refine List.map_congr_left fun line _ => ?_
        show stored (toContext (-decimal line.quantity)) - 0 = -line.quantity
        rw [line.stored_outward, sub_zero]
      show (((_ ++ _ : List (Pair × Statement)).filter (·.1 = pair)).map _).sum = -(List.sum _)
      rw [List.filter_append, List.map_append, List.sum_append, hlocked, hposted, List.sum_neg,
        List.map_map]
      simp [Function.comp_def]
  | _ => cases h

theorem StockOp.requested_of_not_checkout (pair : Pair) {op : StockOp}
    (h : ¬op.isCheckout = true) : op.requested pair = 0 := by
  cases op with
  | checkout => exact absurd rfl h
  | _ => rfl

/-! ## Every interleaving -/

section Interleaving

variable {rows : Pair → Balance} {s : StockSystem}

theorem StockSystem.Interleaving.notOversold (h : s.Interleaving rows)
    (hrows : ∀ pair, (rows pair).NotOversold) (pair : Pair) : (s.committed pair).NotOversold :=
  exec_preserves (fun _ _ _ _ => Statement.apply_notOversold) (RowSystem.serial h) hrows pair

theorem StockSystem.Interleaving.free (h : s.Interleaving rows) (pair : Pair) :
    (s.committed pair).free = (rows pair).free + (s.history.map (StockOp.freed pair)).sum := by
  have hmeasure := exec_measure (fun _ _ _ _ => Statement.apply_free) (RowSystem.serial h) pair
  rw [hmeasure]
  congr 1
  induction s.history with
  | nil => rfl
  | cons op history ih =>
      rw [List.flatMap_cons, List.filter_append, List.map_append, List.sum_append, ih,
        List.map_cons, List.sum_cons]
      rfl

/-- In every interleaving no committed state has more reserved than on hand, and where
only checkouts and operations that free nothing commit, the checkouts that went through
took no more than what was available. -/
theorem StockSystem.no_oversell (hrows : ∀ pair, (rows pair).NotOversold)
    (h : s.Interleaving rows) :
    (∀ pair, 0 ≤ (s.committed pair).reservedQuantity ∧
      (s.committed pair).reservedQuantity ≤ (s.committed pair).quantityOnHand) ∧
    ∀ pair, (∀ op ∈ s.history, op.isCheckout = true ∨ op.freed pair ≤ 0) →
      (s.history.map (StockOp.requested pair)).sum ≤
        (rows pair).quantityOnHand - (rows pair).reservedQuantity := by
  refine ⟨fun pair => ⟨(s.committed pair).reserved_nonnegative, h.notOversold hrows pair⟩,
    fun pair hops => ?_⟩
  have hfree := h.free pair
  have hnonneg : 0 ≤ (s.committed pair).free := sub_nonneg.mpr (h.notOversold hrows pair)
  have htaken : (s.history.map (StockOp.requested pair)).sum ≤
      (s.history.map fun op => -op.freed pair).sum := by
    refine List.sum_le_sum fun op hop => ?_
    by_cases hcheckout : op.isCheckout = true
    · rw [StockOp.freed_checkout pair hcheckout, neg_neg]
    · rw [StockOp.requested_of_not_checkout pair hcheckout]
      exact neg_nonneg.mpr ((hops op hop).resolve_left hcheckout)
  have hneg : (s.history.map fun op => -op.freed pair).sum =
      -(s.history.map (StockOp.freed pair)).sum := by
    rw [List.sum_neg, List.map_map]
    rfl
  unfold Balance.free at hfree hnonneg
  linarith

end Interleaving

/-- Ten units of the product on hand. -/
def shelf (pair : Pair) : Balance :=
  if pair = (1, 7) then .tenPieces else .zero

/-- A checkout of six units. -/
def sixUnits : StockOp :=
  .checkout 1 [(1, 7)] [⟨shopProduct, 6000000, by decide, by decide⟩]

/-- Two tills sell six units at once: the second waits for the lock and is refused. -/
def race : Option StockSystem :=
  [ RowAction.begin 1 sixUnits, .begin 2 sixUnits, .run 1, .run 1, .commit 1, .run 2,
    .run 2 ].foldlM (RowSystem.step StockOp.script (Statement.apply false)) (RowSystem.init shelf)

theorem StockSystem.no_oversell_race :
    ∃ s : StockSystem, s.Interleaving shelf ∧
      (s.history.map (StockOp.requested (1, 7))).sum = 6000000 ∧
      (s.history.map (StockOp.requested (1, 7))).sum ≤
        (shelf (1, 7)).quantityOnHand - (shelf (1, 7)).reservedQuantity ∧
      (s.committed (1, 7)).reservedQuantity ≤ (s.committed (1, 7)).quantityOnHand := by
  have hsome : race.isSome = true := by decide +kernel
  have hfacts : race.all (fun s => (s.history.map (StockOp.requested (1, 7))).sum = 6000000 ∧
      s.history.all StockOp.isCheckout) = true := by decide +kernel
  obtain ⟨s, hs⟩ := Option.isSome_iff_exists.mp hsome
  rw [hs, Option.all_some, decide_eq_true_eq] at hfacts
  have hrun : s.Interleaving shelf := Run.of_foldlM _ hs
  have hshelf : ∀ pair, (shelf pair).NotOversold := by
    intro pair
    unfold shelf
    split
    · show (0 : Int) ≤ 10000000
      decide
    · exact le_rfl
  have h := StockSystem.no_oversell hshelf hrun
  exact ⟨s, hrun, hfacts.1,
    h.2 (1, 7) fun op hop => .inl (List.all_eq_true.mp hfacts.2 op hop), (h.1 (1, 7)).2⟩

end Nexora.Inventory
