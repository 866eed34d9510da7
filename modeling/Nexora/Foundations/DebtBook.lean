import Nexora.Foundations.Amounts

/-!
# Debts that are paid in parts

A debt has a total and counts how much of it was paid.  A payment is allocated to any number of
debts, and it may name a debt more than once.

`Book` is a collection of debts with the payments of them.  `Step` is what one request may do to
it, and `Book.Kept` is what every step keeps: what is counted as paid is the sum of the
allocations, it stays between zero and the total, and the status says how much it is.
-/

namespace Foundations.DebtBook

inductive Status where
  | draft
  | issued
  | partly
  | paid
  | cancelled
deriving DecidableEq, Repr

structure Debt where
  status : Status
  total : Int
  paid : Int

structure Payment (K : Type*) where
  amount : Int
  allocated : Int
  allocations : List (K × Int)

structure Book (K : Type*) where
  debts : K → Option Debt
  payments : List (Payment K)

variable {K : Type*} [DecidableEq K]

/-- What all payments allocated to a debt. -/
def Book.allocatedTo (b : Book K) (id : K) : Int :=
  (b.payments.map fun payment => amountFor payment.allocations id).sum

/-- The status of a debt that was paid to. -/
def paidStatus (total paid : Int) : Status := if total ≤ paid then .paid else .partly

/-- The debt after a payment. -/
def Debt.pay (debt : Debt) (amount : Int) : Debt where
  status := paidStatus debt.total (debt.paid + amount)
  total := debt.total
  paid := debt.paid + amount

/-- One debt changed. -/
def Book.Sets (b b' : Book K) (id : K) (debt : Debt) : Prop :=
  ∀ k, b'.debts k = if k = id then some debt else b.debts k

/-- A payment that fits the debts that it names. -/
structure Payment.Fits (payment : Payment K) (b b' : Book K) : Prop where
  allocated : payment.allocated = (payment.allocations.map (·.2)).sum
  within : payment.allocated ≤ payment.amount
  positive : ∀ a ∈ payment.allocations, 0 < a.2
  others : ∀ id, id ∉ payment.allocations.map (·.1) → b'.debts id = b.debts id
  named : ∀ id ∈ payment.allocations.map (·.1), ∃ debt, b.debts id = some debt ∧
    debt.paid + amountFor payment.allocations id ≤ debt.total ∧
      b'.debts id = some (debt.pay (amountFor payment.allocations id))

/-- What a request may do. -/
inductive Step (b : Book K) : Book K → Prop
  | stay {b' : Book K} : (∀ k, b'.debts k = b.debts k) → b'.payments = b.payments → Step b b'
  | create {b' : Book K} {id : K} {debt : Debt} : b.debts id = none → debt.status = .draft →
      debt.paid = 0 → 0 ≤ debt.total → b.Sets b' id debt → b'.payments = b.payments → Step b b'
  | issue {b' : Book K} {id : K} {debt : Debt} : b.debts id = some debt → debt.status = .draft →
      b.Sets b' id { debt with status := .issued } → b'.payments = b.payments → Step b b'
  | pay {b' : Book K} {payment : Payment K} : payment.Fits b b' →
      b'.payments = b.payments ++ [payment] → Step b b'

/-! ## The invariant -/

/-- The status says how much is paid. -/
def Debt.Staged (debt : Debt) : Prop :=
  match debt.status with
  | .draft | .cancelled | .issued => debt.paid = 0
  | .partly => 0 < debt.paid ∧ debt.paid < debt.total
  | .paid => 0 < debt.paid ∧ debt.paid = debt.total

structure Debt.Kept (b : Book K) (id : K) (debt : Debt) : Prop where
  range : 0 ≤ debt.paid ∧ debt.paid ≤ debt.total
  paid : debt.paid = b.allocatedTo id
  staged : debt.Staged

structure Book.Kept (b : Book K) : Prop where
  debts : ∀ id debt, b.debts id = some debt → debt.Kept b id
  unknown : ∀ id, b.debts id = none → b.allocatedTo id = 0
  payments : ∀ payment ∈ b.payments,
    payment.allocated = (payment.allocations.map (·.2)).sum ∧ payment.allocated ≤ payment.amount

variable {b b' : Book K} {id : K} {debt : Debt}

omit [DecidableEq K] in
theorem Debt.staged_pay {amount : Int} (hpaid : 0 ≤ debt.paid) (hpos : 0 < amount)
    (hle : debt.paid + amount ≤ debt.total) : (debt.pay amount).Staged := by
  simp only [Staged, pay, paidStatus]
  split_ifs with hfull
  · exact ⟨by omega, by omega⟩
  · exact ⟨by omega, by omega⟩

/-- An issued debt is in the status that its payments give it. -/
theorem Debt.Staged.status (h : debt.Staged) (hrange : debt.paid ≤ debt.total)
    (hissued : debt.status = .issued ∨ debt.status = .partly ∨ debt.status = .paid) :
    (debt.status = .issued ↔ debt.paid = 0) ∧
      (debt.status = .partly ↔ 0 < debt.paid ∧ debt.paid < debt.total) ∧
      (debt.status = .paid ↔ 0 < debt.paid ∧ debt.paid = debt.total) := by
  obtain ⟨status, total, paid⟩ := debt
  simp only at hissued hrange ⊢
  rcases hissued with rfl | rfl | rfl
  · have hzero : paid = 0 := h
    simp only [reduceCtorEq, true_iff, false_iff]
    omega
  · obtain ⟨hpos, hlt⟩ : 0 < paid ∧ paid < total := h
    simp only [reduceCtorEq, true_iff, false_iff]
    omega
  · obtain ⟨hpos, heq⟩ : 0 < paid ∧ paid = total := h
    simp only [reduceCtorEq, true_iff, false_iff]
    omega

theorem Book.allocatedTo_append {payment : Payment K} (h : b'.payments = b.payments ++ [payment])
    (id : K) : b'.allocatedTo id = b.allocatedTo id + amountFor payment.allocations id := by
  rw [allocatedTo, h, List.map_append, List.sum_append, List.map_singleton, List.sum_singleton,
    allocatedTo]

theorem Book.allocatedTo_same (h : b'.payments = b.payments) (id : K) :
    b'.allocatedTo id = b.allocatedTo id := by
  rw [allocatedTo, h, allocatedTo]

/-- One debt is written, and no payment is. -/
theorem Book.Kept.sets (h : b.Kept) (hset : b.Sets b' id debt)
    (hpayments : b'.payments = b.payments) (hrange : 0 ≤ debt.paid ∧ debt.paid ≤ debt.total)
    (hpaid : debt.paid = b.allocatedTo id) (hstaged : debt.Staged) : b'.Kept where
  debts k d hd := by
    rw [hset k] at hd
    split_ifs at hd with hk
    · cases hd
      exact ⟨hrange, by rw [hk, Book.allocatedTo_same hpayments, hpaid], hstaged⟩
    · have hkept := h.debts k d hd
      exact ⟨hkept.range, by rw [Book.allocatedTo_same hpayments, hkept.paid], hkept.staged⟩
  unknown k hnone := by
    rw [hset k] at hnone
    split_ifs at hnone with hk
    rw [Book.allocatedTo_same hpayments]
    exact h.unknown k hnone
  payments := by
    rw [hpayments]
    exact h.payments

/-- A payment that fits keeps the invariant. -/
theorem Book.Kept.pay {payment : Payment K} (h : b.Kept) (hfits : payment.Fits b b')
    (hpayments : b'.payments = b.payments ++ [payment]) : b'.Kept where
  debts k d hd := by
    have hsum := Book.allocatedTo_append hpayments k
    by_cases hk : k ∈ payment.allocations.map (·.1)
    · obtain ⟨debt, hget, hle, hpaid⟩ := hfits.named k hk
      rw [hpaid] at hd
      cases hd
      have hkept := h.debts k debt hget
      have hpos := amountFor_pos hfits.positive hk
      refine ⟨⟨add_nonneg hkept.range.1 hpos.le, hle⟩, ?_, Debt.staged_pay hkept.range.1 hpos hle⟩
      show debt.paid + amountFor payment.allocations k = b'.allocatedTo k
      rw [hsum, hkept.paid]
    · rw [hfits.others k hk] at hd
      have hkept := h.debts k d hd
      refine ⟨hkept.range, ?_, hkept.staged⟩
      rw [hsum, amountFor_eq_zero hk, add_zero, hkept.paid]
  unknown k hnone := by
    have hk : k ∉ payment.allocations.map (·.1) := by
      intro hk
      obtain ⟨debt, -, -, hpaid⟩ := hfits.named k hk
      rw [hpaid] at hnone
      cases hnone
    rw [hfits.others k hk] at hnone
    rw [Book.allocatedTo_append hpayments, amountFor_eq_zero hk, add_zero]
    exact h.unknown k hnone
  payments p hp := by
    rw [hpayments] at hp
    rcases List.mem_append.mp hp with hp | hp
    · exact h.payments p hp
    · rw [List.mem_singleton.mp hp]
      exact ⟨hfits.allocated, hfits.within⟩

/-- Every step keeps the invariant. -/
theorem Book.Kept.step (h : b.Kept) (hstep : Step b b') : b'.Kept := by
  cases hstep with
  | stay hdebts hpayments =>
      refine ⟨fun k d hd => ?_, fun k hnone => ?_, ?_⟩
      · rw [hdebts] at hd
        have hkept := h.debts k d hd
        exact ⟨hkept.range, by rw [Book.allocatedTo_same hpayments, hkept.paid], hkept.staged⟩
      · rw [hdebts] at hnone
        rw [Book.allocatedTo_same hpayments]
        exact h.unknown k hnone
      · rw [hpayments]
        exact h.payments
  | @create id debt hnone hdraft hzero htotal hset hpayments =>
      refine h.sets hset hpayments ⟨hzero.ge, hzero ▸ htotal⟩ ?_ ?_
      · rw [hzero, h.unknown id hnone]
      · rw [Debt.Staged, hdraft]
        exact hzero
  | @issue id debt hget hdraft hset hpayments =>
      have hkept := h.debts id debt hget
      refine h.sets hset hpayments hkept.range hkept.paid ?_
      have hstaged := hkept.staged
      rw [Debt.Staged, hdraft] at hstaged
      exact hstaged
  | pay hfits hpayments => exact h.pay hfits hpayments

end Foundations.DebtBook
