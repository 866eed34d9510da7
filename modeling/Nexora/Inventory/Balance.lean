import Nexora.Catalog.Products
import Nexora.Foundations.Decimal
import Nexora.Foundations.Runs

/-!
# Balances

One row of `inventory_balances` and what the services do to it
(`app/modules/inventory/service.py`).  A service locks the row, reads it, compares
what is asked for with what is available, and writes the new figure back.

Requests carry arbitrary decimals.  Every sum and difference of the code rounds to 28
digits, and the columns round to six decimals.  `storeQuantity_add` is the reason why
this never loses stock: a quantity that passed the check of its unit is, in 28 digits,
a whole number of millionths, and the balance then moves by that number exactly.
-/

namespace Nexora.Inventory

open Nexora Nexora.Catalog Foundations

/-- A warehouse and a product. -/
abbrev Pair := Uuid × Uuid

/-- The decimal a quantity column holds. -/
def decimal (quantity : Quantity) : ℚ := quantity / 10 ^ 6

/-- The integer a quantity column keeps of a decimal. -/
def stored (quantity : ℚ) : Quantity := roundHalfUp (quantity * 10 ^ 6)

/-- Storage in a column `Quantity`. -/
def storeQuantity (column : String) (quantity : ℚ) : Except Err { q : Quantity // |q| < 10 ^ 20 } :=
  if h : |stored quantity| < 10 ^ 20 then .ok ⟨stored quantity, h⟩ else .error (.outOfRange column)

theorem storedQuantity_lt (quantity : { q : Quantity // |q| < 10 ^ 20 }) :
    |quantity.1| < 10 ^ 20 := quantity.2

/-- `_validate_quantity`.  `normalize` rounds to the context, and the exponent it leaves
counts the decimal places. -/
def validateQuantity (product : Product) (quantity : ℚ) : Except Err Unit :=
  if (toContext quantity * 10 ^ product.precision).den = 1 then .ok ()
  else .error (.domainValidation "VALIDATION_ERROR"
    s!"Quantity supports at most {product.precision} decimal places for this unit.")

/-! ## Rows -/

/-- `InventoryBalance`.  The bounds are those of the columns, and `reserved_nonnegative`
is the check of the table. -/
structure Balance where
  quantityOnHand : Quantity
  reservedQuantity : Quantity
  quantityOnHand_lt : |quantityOnHand| < 10 ^ 20
  reservedQuantity_lt : |reservedQuantity| < 10 ^ 20
  reserved_nonnegative : 0 ≤ reservedQuantity
deriving DecidableEq

namespace Balance

/-- The row `ensure_balance` inserts. -/
def zero : Balance := ⟨0, 0, by decide, by decide, le_rfl⟩

/-- Ten pieces, and none of them reserved. -/
def tenPieces : Balance := ⟨10000000, 0, by decide, by decide, le_rfl⟩

/-- `balance.quantity_on_hand - balance.reserved_quantity`. -/
def available (balance : Balance) : ℚ :=
  toContext (decimal balance.quantityOnHand - decimal balance.reservedQuantity)

/-- The availability check, made when `guarded`. -/
def requireAvailable (balance : Balance) (guarded : Bool) (requested : ℚ) : Except Err Unit :=
  if guarded ∧ balance.available < requested then
    .error (.conflict "INSUFFICIENT_STOCK" "Insufficient available inventory.")
  else .ok ()

/-- `balance.quantity_on_hand = quantity`. -/
def setOnHand (balance : Balance) (quantity : ℚ) : Except Err Balance := do
  let q ← storeQuantity "quantity_on_hand" quantity
  .ok { balance with quantityOnHand := q.1, quantityOnHand_lt := q.2 }

/-- `balance.reserved_quantity = quantity`, under `reserved_nonnegative`. -/
def setReserved (balance : Balance) (quantity : ℚ) : Except Err Balance := do
  let q ← storeQuantity "reserved_quantity" quantity
  if h : 0 ≤ q.1 then
    .ok { balance with
      reservedQuantity := q.1, reservedQuantity_lt := q.2, reserved_nonnegative := h }
  else .error (.integrity "reserved_nonnegative")

/-- The balance side of `_post_movement`. -/
def move (negativeAllowed : Bool) (quantity : ℚ) (balance : Balance) : Except Err Balance := do
  balance.requireAvailable (quantity < 0 && !negativeAllowed) (toContext (-quantity))
  balance.setOnHand (toContext (decimal balance.quantityOnHand + quantity))

/-- The balance side of `reserve`. -/
def reserve (negativeAllowed : Bool) (quantity : ℚ) (balance : Balance) : Except Err Balance := do
  balance.requireAvailable (!negativeAllowed) quantity
  balance.setReserved (toContext (decimal balance.reservedQuantity + quantity))

/-- The balance side of `release` and of `release_expired`. -/
def release (quantity : Quantity) (balance : Balance) : Except Err Balance :=
  balance.setReserved (toContext (decimal balance.reservedQuantity - decimal quantity))

end Balance

/-! ## Rounding -/

theorem decimal_sub (a b : Quantity) : decimal a - decimal b = decimal (a - b) := by
  unfold decimal
  push_cast
  ring

theorem toContext_decimal {n : Quantity} (h : |n| < 10 ^ 28) :
    toContext (decimal n) = decimal n := by
  refine toContext_of_digits (n := n) (k := -6) ?_ h
  unfold decimal
  norm_num [zpow_neg, div_eq_mul_inv]

theorem stored_decimal (n : Quantity) : stored (decimal n) = n := by
  have h : decimal n * 10 ^ 6 = (n : ℚ) := by
    unfold decimal
    field_simp
  unfold stored
  rw [h, roundHalfUp_intCast]

/-- A quantity that passed the check of its unit is a whole number of millionths in
the context. -/
theorem validateQuantity_eq_ok {product : Product} {quantity : ℚ} {u : Unit}
    (h : validateQuantity product quantity = .ok u) :
    ∃ m : Quantity, toContext quantity = decimal m := by
  unfold validateQuantity at h
  split at h
  next hden =>
    obtain ⟨j, hj⟩ := Nat.exists_eq_add_of_le product.precision_le
    refine ⟨(toContext quantity * 10 ^ product.precision).num * 10 ^ j, ?_⟩
    have hnum := Rat.coe_int_num_of_den_eq_one hden
    unfold decimal
    rw [eq_div_iff (by positivity), hj, pow_add, ← mul_assoc, ← hnum]
    push_cast
    rfl
  next => cases h

/-- On the millionths of a document the check is the one of the catalogue. -/
theorem validateQuantity_decimal (product : Product) {n : Quantity} (h : |n| < 10 ^ 28) :
    validateQuantity product (decimal n) = product.validateQuantity n := by
  have hiff : (toContext (decimal n) * 10 ^ product.precision).den = 1 ↔
      quantum product.precision ∣ n := by
    have hq : ((quantum product.precision : ℤ) : ℚ) ≠ 0 := by
      exact_mod_cast (quantum_pos product.precision).ne'
    have hvalue : toContext (decimal n) * 10 ^ product.precision =
        n / quantum product.precision := by
      rw [toContext_decimal h]
      unfold decimal quantum
      obtain ⟨j, hj⟩ := Nat.exists_eq_add_of_le product.precision_le
      rw [hj, Nat.add_sub_cancel_left, pow_add]
      push_cast
      field_simp
    rw [hvalue]
    exact Rat.den_div_intCast_eq_one_iff n _ (quantum_pos product.precision).ne'
  unfold validateQuantity Product.validateQuantity
  simp only [hiff]

theorem storeQuantity_eq_ok {column : String} {quantity : ℚ} {q : { q : Quantity // |q| < 10 ^ 20 }}
    (h : storeQuantity column quantity = .ok q) : q.1 = stored quantity := by
  unfold storeQuantity at h
  split at h
  next =>
    cases h
    rfl
  next => cases h

/-- A column that takes the sum of its value and a checked quantity grows by the
millionths of that quantity, and these are what any other column keeps of it. -/
theorem storeQuantity_add {column : String} {n m : Quantity} {quantity : ℚ}
    {q : { q : Quantity // |q| < 10 ^ 20 }} (hm : toContext quantity = decimal m)
    (hn : |n| < 10 ^ 20)
    (h : storeQuantity column (toContext (decimal n + quantity)) = .ok q) :
    q.1 = n + m ∧ |quantity * 10 ^ 6 - m| < 1 / 4 := by
  have hq := storeQuantity_eq_ok h
  have hbound : |(q.1 : ℚ)| < 10 ^ 20 := by exact_mod_cast q.2
  have hn' : |(n : ℚ)| < 10 ^ 20 := by exact_mod_cast hn
  have hround := abs_roundHalfUp_sub_le (toContext (decimal n + quantity) * 10 ^ 6)
  have hsum := abs_toContext_sub_le (decimal n + quantity)
  have hctx := abs_toContext_sub_le quantity
  unfold stored at hq
  rw [← hq] at hround
  rw [hm] at hctx
  have hdec : decimal n = n / 10 ^ 6 := rfl
  have hdec' : decimal m = m / 10 ^ 6 := rfl
  rw [hdec'] at hctx
  -- The sum fits the column, so the quantity is not much larger.
  have hx : |decimal n + quantity| ≤ 2 * 10 ^ 14 := by
    have htri := abs_sub_abs_le_abs_sub (decimal n + quantity) (toContext (decimal n + quantity))
    rw [abs_sub_comm] at htri
    rw [abs_le] at hround
    rw [abs_lt] at hbound
    have hctx' : |toContext (decimal n + quantity)| ≤ 10 ^ 14 + 1 := by
      rw [abs_le]
      constructor <;> linarith
    linarith
  have hsize : |quantity| ≤ 3 * 10 ^ 14 := by
    rw [abs_le] at hx ⊢
    rw [abs_lt] at hn'
    rw [hdec] at hx
    constructor <;> linarith
  have hclose : |quantity * 10 ^ 6 - m| < 1 / 4 := by
    rw [abs_le] at hctx
    rw [abs_lt]
    constructor <;> linarith
  refine ⟨?_, hclose⟩
  rw [hq]
  refine roundHalfUp_eq ?_
  rw [abs_le] at hsum
  rw [abs_lt] at hclose ⊢
  push_cast
  rw [hdec] at hsum hx ⊢
  constructor <;> linarith

/-- What a column keeps of a quantity this close. -/
theorem stored_eq {quantity : ℚ} {m : Quantity} (h : |quantity * 10 ^ 6 - m| < 1 / 4) :
    stored quantity = m :=
  roundHalfUp_eq (by linarith)

theorem stored_nonneg {quantity : ℚ} (h : 0 ≤ quantity) : 0 ≤ stored quantity :=
  roundHalfUp_nonneg (by positivity)

/-! ## What the operations do to a row -/

namespace Balance

variable {balance balance' : Balance} {quantity : ℚ} {negativeAllowed : Bool}

/-- No more is reserved than there is. -/
def NotOversold (balance : Balance) : Prop := balance.reservedQuantity ≤ balance.quantityOnHand

theorem available_eq (balance : Balance) :
    balance.available = decimal (balance.quantityOnHand - balance.reservedQuantity) := by
  have h₁ := abs_lt.mp balance.quantityOnHand_lt
  have h₂ := abs_lt.mp balance.reservedQuantity_lt
  unfold available
  rw [decimal_sub]
  refine toContext_decimal (abs_lt.mpr ?_)
  constructor <;> linarith

theorem requireAvailable_eq_ok {guarded : Bool} {requested : ℚ} {u : Unit}
    (h : balance.requireAvailable guarded requested = .ok u) (hguarded : guarded = true) :
    requested * 10 ^ 6 ≤ balance.quantityOnHand - balance.reservedQuantity := by
  unfold requireAvailable at h
  split at h
  next => cases h
  next hnot =>
    have hle : requested ≤ balance.available := by
      by_contra hlt
      exact hnot ⟨hguarded, lt_of_not_ge hlt⟩
    rw [available_eq] at hle
    unfold decimal at hle
    rw [le_div_iff₀ (by positivity)] at hle
    push_cast at hle
    exact hle

theorem setOnHand_eq_ok (h : balance.setOnHand quantity = .ok balance') :
    ∃ q, storeQuantity "quantity_on_hand" quantity = .ok q ∧ balance'.quantityOnHand = q.1 ∧
      balance'.reservedQuantity = balance.reservedQuantity := by
  obtain ⟨q, hq, h⟩ := bind_eq_ok.mp h
  cases h
  exact ⟨q, hq, rfl, rfl⟩

theorem setReserved_eq_ok (h : balance.setReserved quantity = .ok balance') :
    ∃ q, storeQuantity "reserved_quantity" quantity = .ok q ∧ balance'.reservedQuantity = q.1 ∧
      balance'.quantityOnHand = balance.quantityOnHand := by
  obtain ⟨q, hq, h⟩ := bind_eq_ok.mp h
  split at h
  next =>
    cases h
    exact ⟨q, hq, rfl, rfl⟩
  next => cases h

/-- A movement adds what its row will store. -/
theorem move_eq_ok {m : Quantity} (hm : toContext quantity = decimal m)
    (h : balance.move negativeAllowed quantity = .ok balance') :
    stored quantity = m ∧ balance'.quantityOnHand = balance.quantityOnHand + m ∧
      balance'.reservedQuantity = balance.reservedQuantity := by
  obtain ⟨_, -, h⟩ := bind_eq_ok.mp h
  obtain ⟨q, hq, honHand, hreserved⟩ := setOnHand_eq_ok h
  obtain ⟨hsum, hclose⟩ := storeQuantity_add hm balance.quantityOnHand_lt hq
  exact ⟨stored_eq hclose, honHand.trans hsum, hreserved⟩

theorem move_notOversold {m : Quantity} (hm : toContext quantity = decimal m)
    (hbalance : balance.NotOversold) (h : balance.move false quantity = .ok balance') :
    balance'.NotOversold := by
  obtain ⟨hstored, honHand, hreserved⟩ := move_eq_ok hm h
  unfold NotOversold at hbalance ⊢
  rw [honHand, hreserved]
  rcases le_or_gt 0 quantity with hsign | hsign
  · have hm0 := stored_nonneg hsign
    rw [hstored] at hm0
    linarith
  · obtain ⟨_, havailable, h⟩ := bind_eq_ok.mp h
    obtain ⟨q, hq, -⟩ := setOnHand_eq_ok h
    obtain ⟨-, hclose⟩ := storeQuantity_add hm balance.quantityOnHand_lt hq
    have hle := requireAvailable_eq_ok havailable (by simpa using hsign)
    -- The request is rounded once more by the unary minus.
    have hneg := abs_toContext_sub_le (-quantity)
    rw [abs_neg, abs_of_neg hsign, abs_le] at hneg
    have h₁ := abs_lt.mp balance.quantityOnHand_lt
    have h₂ := abs_lt.mp balance.reservedQuantity_lt
    have h₁' : (balance.quantityOnHand : ℚ) < 10 ^ 20 := by exact_mod_cast h₁.2
    have h₂' : (0 : ℚ) ≤ balance.reservedQuantity := by exact_mod_cast balance.reserved_nonnegative
    rw [abs_lt] at hclose
    have hlt : (balance.reservedQuantity : ℚ) < balance.quantityOnHand + m + 1 := by linarith
    have hlt' : balance.reservedQuantity < balance.quantityOnHand + m + 1 := by exact_mod_cast hlt
    exact Int.lt_add_one_iff.mp hlt'

/-- A reservation adds what its row will store. -/
theorem reserve_eq_ok {m : Quantity} (hm : toContext quantity = decimal m)
    (h : balance.reserve negativeAllowed quantity = .ok balance') :
    stored quantity = m ∧ balance'.quantityOnHand = balance.quantityOnHand ∧
      balance'.reservedQuantity = balance.reservedQuantity + m := by
  obtain ⟨_, -, h⟩ := bind_eq_ok.mp h
  obtain ⟨q, hq, hreserved, honHand⟩ := setReserved_eq_ok h
  obtain ⟨hsum, hclose⟩ := storeQuantity_add hm balance.reservedQuantity_lt hq
  exact ⟨stored_eq hclose, honHand, hreserved.trans hsum⟩

theorem reserve_notOversold {m : Quantity} (hm : toContext quantity = decimal m)
    (h : balance.reserve false quantity = .ok balance') : balance'.NotOversold := by
  obtain ⟨hstored, honHand, hreserved⟩ := reserve_eq_ok hm h
  obtain ⟨_, havailable, h⟩ := bind_eq_ok.mp h
  obtain ⟨q, hq, -⟩ := setReserved_eq_ok h
  obtain ⟨-, hclose⟩ := storeQuantity_add hm balance.reservedQuantity_lt hq
  have hle := requireAvailable_eq_ok havailable rfl
  unfold NotOversold
  rw [honHand, hreserved]
  rw [abs_lt] at hclose
  have hlt : (balance.reservedQuantity + m : ℚ) < balance.quantityOnHand + 1 := by linarith
  have hlt' : balance.reservedQuantity + m < balance.quantityOnHand + 1 := by exact_mod_cast hlt
  exact Int.lt_add_one_iff.mp hlt'

/-- A release takes the quantity of its reservation back. -/
theorem release_eq_ok {n : Quantity} (hn : |n| < 10 ^ 20)
    (h : balance.release n = .ok balance') :
    balance'.quantityOnHand = balance.quantityOnHand ∧
      balance'.reservedQuantity = balance.reservedQuantity - n := by
  obtain ⟨q, hq, hreserved, honHand⟩ := setReserved_eq_ok h
  have h₁ := abs_lt.mp balance.reservedQuantity_lt
  have h₂ := abs_lt.mp hn
  rw [decimal_sub, toContext_decimal (abs_lt.mpr ⟨by linarith, by linarith⟩)] at hq
  have hstored := storeQuantity_eq_ok hq
  rw [stored_decimal] at hstored
  exact ⟨honHand, hreserved.trans hstored⟩

theorem release_notOversold {n : Quantity} (hn : |n| < 10 ^ 20) (hpos : 0 < n)
    (hbalance : balance.NotOversold) (h : balance.release n = .ok balance') :
    balance'.NotOversold := by
  obtain ⟨honHand, hreserved⟩ := release_eq_ok hn h
  unfold NotOversold at hbalance ⊢
  rw [honHand, hreserved]
  linarith

end Balance

end Nexora.Inventory
