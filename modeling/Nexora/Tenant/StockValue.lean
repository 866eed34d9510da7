import Nexora.Inventory.Movements
import Nexora.Tenant.Entries
import Mathlib.Tactic.LinearCombination

/-!
# The value of what a request moves

Every request that moves stock at a cost should post that cost on the inventory account.
`Accounted` says it of one request: what it posts on the account is the rounded sum over its
movements of quantity times cost, and it posts nothing where nothing moved at a cost.

A document moves all its stock one way, so its movements do not cancel (`Moved`).  It adds up
its cost in the context of 28 digits, and a total that fits its column was added up exactly
(`amountsOf_accumulated`).
-/

namespace Nexora.Tenant

open Nexora Nexora.Catalog Nexora.Sales Nexora.Purchasing Nexora.Pos Foundations
open Nexora.Accounting
open Nexora.Inventory (InventoryDb Movement DocumentKind Adds decimal)
open Nexora.Vat (VatTransaction)

/-! ## What movements should post -/

/-- The sum of quantity times cost. -/
def movedValue (cost : Movement → UnitCost) (movements : List Movement) : ℚ :=
  (movements.map fun m => decimal m.quantity * (cost m / 10 ^ 6)).sum

/-- The posting that accounts for the movements. -/
def stockAmounts (cost : Movement → UnitCost) (movements : List Movement) : List Money :=
  let moved := movements.filter fun m => !m.movementType.isTransfer
  if moved.any fun m => cost m ≠ 0 then [roundHalfUp (movedValue cost moved * 10 ^ 4)] else []

/-- The inventory account moved as the stock did. -/
def Accounted (cost : Movement → UnitCost) (db db' : TenantDb) : Prop :=
  ∃ movements, db'.inventory.movements = db.inventory.movements ++ movements ∧
    db'.ledger.postings anySource "INVENTORY" =
      db.ledger.postings anySource "INVENTORY" ++ stockAmounts cost movements

/-- The posting of a cost. -/
def amountsOf (cost : ℚ) : List Money :=
  if 0 < cost then [roundHalfUp (cost * 10 ^ 4)] else []

/-! ## Movements in one direction -/

/-- Movements that were added, all inward (`sign` is `1`) or all outward (`-1`). -/
structure Moved (cost : Movement → UnitCost) (sign : Int) (inventory : InventoryDb)
    (movements : List Movement) (inventory' : InventoryDb) : Prop where
  adds : Adds inventory movements inventory'
  moved : ∀ m ∈ movements,
    m.movementType.isTransfer = false ∧ 0 < sign * m.quantity ∧ 0 ≤ cost m

theorem movedValue_append (cost : Movement → UnitCost) (movements movements' : List Movement) :
    movedValue cost (movements ++ movements') =
      movedValue cost movements + movedValue cost movements' := by
  simp [movedValue]

theorem Moved.refl (cost : Movement → UnitCost) (sign : Int) (inventory : InventoryDb) :
    Moved cost sign inventory [] inventory := ⟨.refl _, List.forall_mem_nil _⟩

theorem Moved.trans {cost : Movement → UnitCost} {sign : Int}
    {inventory inventory₁ inventory' : InventoryDb} {movements movements' : List Movement}
    (h : Moved cost sign inventory movements inventory₁)
    (h' : Moved cost sign inventory₁ movements' inventory') :
    Moved cost sign inventory (movements ++ movements') inventory' := by
  refine ⟨h.adds.trans h'.adds, fun m hm => ?_⟩
  rcases List.mem_append.mp hm with hm | hm
  · exact h.moved m hm
  · exact h'.moved m hm

/-- A movement in the direction of `sign` has a value in that direction. -/
theorem value_nonneg {sign : Int} {m : Movement} {c : UnitCost} (hq : 0 < sign * m.quantity)
    (hc : 0 ≤ c) : 0 ≤ sign * (decimal m.quantity * (c / 10 ^ 6)) ∧
      (0 < sign * (decimal m.quantity * (c / 10 ^ 6)) ↔ c ≠ 0) := by
  have hq' : (0 : ℚ) < sign * m.quantity := by exact_mod_cast hq
  have hc' : (0 : ℚ) ≤ c := by exact_mod_cast hc
  have heq : sign * (decimal m.quantity * (c / 10 ^ 6)) = (sign * m.quantity) * c / 10 ^ 12 := by
    simp only [decimal]
    ring
  rw [heq]
  refine ⟨by positivity, ?_⟩
  rw [div_pos_iff_of_pos_right (by norm_num), mul_pos_iff_of_pos_left hq']
  constructor
  · intro hpos hzero
    simp [hzero] at hpos
  · intro hne
    exact lt_of_le_of_ne hc' (by exact_mod_cast hne.symm)

/-- Values in one direction do not cancel. -/
theorem movedValue_nonneg {cost : Movement → UnitCost} {sign : Int} {movements : List Movement}
    (h : ∀ m ∈ movements, m.movementType.isTransfer = false ∧ 0 < sign * m.quantity ∧ 0 ≤ cost m) :
    0 ≤ sign * movedValue cost movements ∧
      (0 < sign * movedValue cost movements ↔ ∃ m ∈ movements, cost m ≠ 0) := by
  induction movements with
  | nil => simp [movedValue]
  | cons m movements ih =>
      obtain ⟨-, hq, hc⟩ := h m List.mem_cons_self
      obtain ⟨hnonneg, hpos⟩ := value_nonneg hq hc
      obtain ⟨ihnonneg, ihpos⟩ := ih fun m hm => h m (List.mem_cons_of_mem _ hm)
      have hcons : sign * movedValue cost (m :: movements) =
          sign * (decimal m.quantity * (cost m / 10 ^ 6)) + sign * movedValue cost movements := by
        simp only [movedValue, List.map_cons, List.sum_cons]
        ring
      rw [hcons]
      refine ⟨add_nonneg hnonneg ihnonneg, ?_⟩
      simp only [List.mem_cons, exists_eq_or_imp, ← hpos, ← ihpos]
      constructor
      · intro hsum
        rcases hnonneg.eq_or_lt with hzero | hlt
        · rw [← hzero, zero_add] at hsum
          exact .inr hsum
        · exact .inl hlt
      · rintro (hlt | hlt)
        · exact add_pos_of_pos_of_nonneg hlt ihnonneg
        · exact add_pos_of_nonneg_of_pos hnonneg hlt

/-- What movements in one direction should post is their cost, with the sign. -/
theorem Moved.stockAmounts {cost : Movement → UnitCost} {sign : Int}
    {inventory inventory' : InventoryDb} {movements : List Movement}
    (h : Moved cost sign inventory movements inventory') (hsign : sign = 1 ∨ sign = -1) :
    stockAmounts cost movements =
      (amountsOf (sign * movedValue cost movements)).map (sign * ·) := by
  have hfilter : movements.filter (fun m => !m.movementType.isTransfer) = movements := by
    refine List.filter_eq_self.mpr fun m hm => ?_
    simp [(h.moved m hm).1]
  obtain ⟨-, hpos⟩ := movedValue_nonneg h.moved
  have hany : (movements.any fun m => cost m ≠ 0) = true ↔
      0 < sign * movedValue cost movements := by
    rw [hpos]
    simp
  simp only [Tenant.stockAmounts, amountsOf, hfilter, hany]
  split
  · rcases hsign with rfl | rfl
    · simp
    · simp [roundHalfUp_neg]
  · rfl

/-- A request is accounted for when it posts the cost of its movements. -/
theorem Moved.accounted_iff {cost : Movement → UnitCost} {sign : Int} {db db' : TenantDb}
    {movements : List Movement} {entries : List Entry} {rows : List VatTransaction}
    (h : Moved cost sign db.inventory movements db'.inventory) (hsign : sign = 1 ∨ sign = -1)
    (hbooks : Books db entries rows db') :
    Accounted cost db db' ↔ entryPostings anySource "INVENTORY" entries =
      (amountsOf (sign * movedValue cost movements)).map (sign * ·) := by
  rw [← h.stockAmounts hsign]
  constructor
  · rintro ⟨movements', hmovements, hpostings⟩
    rw [h.adds.movements] at hmovements
    rw [hbooks.postings] at hpostings
    rw [List.append_cancel_left hpostings, List.append_cancel_left hmovements]
  · intro hpostings
    exact ⟨movements, h.adds.movements, by rw [hbooks.postings, hpostings]⟩

/-! ## Documents -/

/-- A document so far: what it moved, and the cost it added up. -/
def Tallied (cost : Movement → UnitCost) (sign : Int) (inventory inventory' : InventoryDb)
    (acc : ℚ) : Prop :=
  ∃ movements, Moved cost sign inventory movements inventory' ∧
    Accumulates 12 acc (sign * movedValue cost movements)

theorem Tallied.refl (cost : Movement → UnitCost) (sign : Int) (inventory : InventoryDb) :
    Tallied cost sign inventory inventory 0 := by
  refine ⟨[], .refl _ _ _, ?_⟩
  simpa [movedValue] using Accumulates.zero 12

/-- `cost += quantity * unit_cost` adds twelve decimals. -/
theorem addCost_accumulates {acc value : ℚ} {quantity : Quantity} {unitCost : UnitCost}
    (h : Accumulates 12 acc value) (hq : 0 ≤ quantity) (hc : 0 ≤ unitCost) :
    Accumulates 12 (addCost acc quantity unitCost)
      (value + decimal quantity * (unitCost / 10 ^ 6)) := by
  have hq' : (0 : ℚ) ≤ quantity := by exact_mod_cast hq
  have hc' : (0 : ℚ) ≤ unitCost := by exact_mod_cast hc
  refine h.add ⟨quantity * unitCost, ?_⟩ (by positivity)
  push_cast
  norm_num [zpow_neg]
  ring

/-- A posting of a document without a cost leaves the catalogue alone. -/
theorem postStock_products {kind : DocumentKind} {warehouseId documentId : Uuid}
    {inventory inventory' : InventoryDb} {product : Product} {item : RequestedLine}
    (h : postStock kind warehouseId documentId inventory product item none = .ok inventory') :
    inventory'.products = inventory.products := by
  rcases Inventory.postMovementForDocument_adds h with ⟨-, rfl⟩ | ⟨-, hproducts, -⟩
  · rfl
  · exact hproducts rfl

/-- One line of a document moves its quantity. -/
theorem postStock_moved {cost : Movement → UnitCost} {sign : Int} {kind : DocumentKind}
    {warehouseId documentId : Uuid} {inventory inventory' : InventoryDb} {product : Product}
    {item : RequestedLine} {unitCost : Option UnitCost} {c : UnitCost}
    (hsign : sign = 1 ∨ sign = -1) (hkind : kind.movementType.isTransfer = false)
    (hsigned : ∀ q, kind.signed q = sign * q)
    (hcost : ∀ m : Movement, m.productId = product.id → m.unitCost = unitCost → cost m = c)
    (hc : 0 ≤ c)
    (h : postStock kind warehouseId documentId inventory product item unitCost = .ok inventory') :
    ∃ movements, Moved cost sign inventory movements inventory' ∧
      sign * movedValue cost movements =
        if product.isStockTracked then decimal item.quantity * (c / 10 ^ 6) else 0 := by
  rcases Inventory.postMovementForDocument_adds h with
    ⟨htracked, rfl⟩ | ⟨htracked, -, m, hadds, hline⟩
  · refine ⟨[], .refl _ _ _, ?_⟩
    simp [movedValue, htracked]
  · have hsquare : sign * (sign * item.quantity) = item.quantity := by
      rcases hsign with rfl | rfl
      · ring
      · ring
    have hm : m.quantity = sign * item.quantity := hline.quantity.trans (hsigned _)
    refine ⟨[m], ⟨hadds, fun m' hm' => ?_⟩, ?_⟩
    · rw [List.mem_singleton.mp hm', hline.movementType, hm, hsquare,
        hcost m hline.productId hline.unitCost]
      exact ⟨hkind, item.quantity_pos, hc⟩
    · have hsquare' : (sign : ℚ) * (sign * item.quantity) = item.quantity := by
        exact_mod_cast hsquare
      simp only [movedValue, List.map_cons, List.map_nil, List.sum_cons, List.sum_nil, add_zero,
        htracked, if_true, hcost m hline.productId hline.unitCost, decimal, hm]
      push_cast
      linear_combination (c : ℚ) / 10 ^ 12 * hsquare'

/-- One line of a document, with what it adds to the cost. -/
theorem Tallied.postStock {cost : Movement → UnitCost} {sign : Int} {kind : DocumentKind}
    {warehouseId documentId : Uuid} {inventory inventory₁ inventory' : InventoryDb} {acc : ℚ}
    {product : Product} {item : RequestedLine} {unitCost : Option UnitCost} {c : UnitCost}
    (htallied : Tallied cost sign inventory inventory₁ acc)
    (hsign : sign = 1 ∨ sign = -1) (hkind : kind.movementType.isTransfer = false)
    (hsigned : ∀ q, kind.signed q = sign * q)
    (hcost : ∀ m : Movement, m.productId = product.id → m.unitCost = unitCost → cost m = c)
    (hc : 0 ≤ c)
    (h : Tenant.postStock kind warehouseId documentId inventory₁ product item unitCost =
      .ok inventory') :
    Tallied cost sign inventory inventory'
      (if product.isStockTracked then addCost acc item.quantity c else acc) := by
  obtain ⟨movements, hmoved, hacc⟩ := htallied
  obtain ⟨movements', hmoved', hvalue⟩ := postStock_moved hsign hkind hsigned hcost hc h
  refine ⟨movements ++ movements', hmoved.trans hmoved', ?_⟩
  rw [movedValue_append, mul_add, hvalue]
  cases product.isStockTracked with
  | false => simpa using hacc
  | true => simpa using addCost_accumulates hacc item.quantity_pos.le hc

/-- The cost of movements without one of their own is that of the product. -/
def costBefore (inventory : InventoryDb) (m : Movement) : UnitCost :=
  m.unitCost.getD (inventory.costPrice m.productId)

theorem costBefore_eq {inventory : InventoryDb} {productId : Uuid} {product : Product}
    (h : inventory.anyProduct productId = some product) {m : Movement}
    (hm : m.productId = product.id) (hcost : m.unitCost = none) :
    costBefore inventory m = product.costPrice := by
  rw [costBefore, hcost, hm, Inventory.InventoryDb.anyProduct_id h]
  simp [Inventory.InventoryDb.costPrice, h]

theorem anyProduct_congr {inventory inventory' : InventoryDb}
    (h : inventory'.products = inventory.products) :
    inventory'.anyProduct = inventory.anyProduct ∧ inventory'.product = inventory.product := by
  constructor
  · funext productId
    simp [InventoryDb.anyProduct, h]
  · funext productId
    simp [InventoryDb.product, h]

/-- A total that is posted fits its column, so it was added up exactly. -/
theorem amountsOf_accumulated {acc value : ℚ} (h : Accumulates 12 acc value)
    (hfits : 0 < acc → |roundHalfUp (acc * 10 ^ 4)| < 10 ^ 18) : acc = value := by
  rcases h.exact with hexact | hbig
  · exact hexact
  · have hbig' : (10 : ℚ) ^ 16 ≤ acc := by
      refine le_trans (le_of_eq ?_) hbig
      norm_num
    have hle : (10 : ℚ) ^ 20 ≤ acc * 10 ^ 4 := by
      linarith
    have hround := abs_roundHalfUp_sub_le (acc * 10 ^ 4)
    have hlt : |(roundHalfUp (acc * 10 ^ 4) : ℚ)| < 10 ^ 18 := by
      exact_mod_cast hfits (lt_of_lt_of_le (by norm_num) hbig')
    have hupper := (abs_lt.mp hlt).2
    have hlower := (abs_le.mp hround).1
    generalize (roundHalfUp (acc * 10 ^ 4) : ℚ) = rounded at hupper hlower
    linarith

end Nexora.Tenant
