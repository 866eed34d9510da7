import Nexora.Catalog.Products
import Nexora.Foundations.Decimal
import Nexora.Foundations.Runs
import Mathlib.Algebra.Order.BigOperators.Group.List

/-!
# Line arithmetic for priced documents

`app/modules/sales/money.py`.  Amounts are `Decimal`s in the default context, so
every product, quotient and difference is rounded to 28 digits on its own, and
`round_money` then rounds half up to the four decimals that are stored.  A rounded
amount is kept as the integer of ten-thousandths it is.  Sums of rounded amounts
have far fewer than 28 digits and are exact.
-/

namespace Nexora.Sales

open Nexora Nexora.Catalog Foundations
open Nexora.Accounting (Money)

/-- `round_money`.  `quantize` raises when the result needs more than 28 digits. -/
def roundMoney (x : ℚ) : Except Err Money :=
  if |roundHalfUp (x * 10 ^ 4)| < 10 ^ 28 then .ok (roundHalfUp (x * 10 ^ 4))
  else .error (.runtime "decimal.InvalidOperation")

/-- `line_totals`: net, tax and total of one line. -/
def lineTotals (quantity : Quantity) (unitPrice : Money) (discountRate taxRate : Rate) :
    Except Err (Money × Money × Money) := do
  let gross := toContext (quantity / 10 ^ 6 * (unitPrice / 10 ^ 4))
  let unroundedNet := toContext (gross * toContext (1 - discountRate / 10 ^ 6))
  let net ← roundMoney unroundedNet
  let tax ← roundMoney (toContext (unroundedNet * (taxRate / 10 ^ 6)))
  .ok (net, tax, net + tax)

/-- A value of a `Money` column. -/
def storeMoney (column : String) (amount : Money) : Except Err Unit :=
  if |amount| < 10 ^ 18 then .ok () else .error (.outOfRange column)

theorem roundMoney_eq_ok {x : ℚ} {m : Money} (h : roundMoney x = .ok m) :
    m = roundHalfUp (x * 10 ^ 4) := by
  unfold roundMoney at h
  split at h
  next =>
    cases h
    rfl
  next => cases h

theorem roundMoney_nonneg {x : ℚ} {m : Money} (h : roundMoney x = .ok m) (hx : 0 ≤ x) : 0 ≤ m := by
  rw [roundMoney_eq_ok h]
  exact roundHalfUp_nonneg (by positivity)

/-- `line_totals` from the product of quantity and price on. -/
def totalsOf (gross : ℚ) (discountRate taxRate : Rate) : Except Err (Money × Money × Money) := do
  let unroundedNet := toContext (gross * toContext (1 - discountRate / 10 ^ 6))
  let net ← roundMoney unroundedNet
  let tax ← roundMoney (toContext (unroundedNet * (taxRate / 10 ^ 6)))
  .ok (net, tax, net + tax)

theorem lineTotals_eq (quantity : Quantity) (unitPrice : Money) (discountRate taxRate : Rate) :
    lineTotals quantity unitPrice discountRate taxRate =
      totalsOf (toContext (quantity / 10 ^ 6 * (unitPrice / 10 ^ 4))) discountRate taxRate := rfl

theorem totalsOf_nonneg {gross : ℚ} {net tax total : Money} {discountRate taxRate : Rate}
    (hgross : 0 ≤ gross) (hd : discountRate ≤ 10 ^ 6) (ht : 0 ≤ taxRate)
    (h : totalsOf gross discountRate taxRate = .ok (net, tax, total)) :
    0 ≤ net ∧ 0 ≤ tax ∧ total = net + tax := by
  obtain ⟨net', hnet, h⟩ := bind_eq_ok.mp h
  obtain ⟨tax', htax, h⟩ := bind_eq_ok.mp h
  cases h
  have ht' : (0 : ℚ) ≤ taxRate := by exact_mod_cast ht
  have hd' : (0 : ℚ) ≤ 1 - discountRate / 10 ^ 6 := by
    have hd' : (discountRate : ℚ) ≤ 10 ^ 6 := by exact_mod_cast hd
    rw [sub_nonneg, div_le_one (by positivity)]
    exact hd'
  have hunrounded : 0 ≤ toContext (gross * toContext (1 - discountRate / 10 ^ 6)) :=
    toContext_nonneg (mul_nonneg hgross (toContext_nonneg hd'))
  refine ⟨roundMoney_nonneg hnet hunrounded, roundMoney_nonneg htax ?_, rfl⟩
  exact toContext_nonneg (mul_nonneg hunrounded (by positivity))

/-- A tax is rounded from the unrounded net amount, of which it is at most the whole. -/
theorem totalsOf_tax_le {gross : ℚ} {discountRate taxRate : Rate} {net tax total : Money}
    (hgross : 0 ≤ gross) (hd : discountRate ≤ 10 ^ 6) (ht : 0 ≤ taxRate ∧ taxRate ≤ 10 ^ 6)
    (h : totalsOf gross discountRate taxRate = .ok (net, tax, total)) : tax ≤ net := by
  obtain ⟨net', hnet, h⟩ := bind_eq_ok.mp h
  obtain ⟨tax', htax, h⟩ := bind_eq_ok.mp h
  cases h
  rw [roundMoney_eq_ok hnet, roundMoney_eq_ok htax]
  have hrate : (0 : ℚ) ≤ taxRate / 10 ^ 6 ∧ (taxRate : ℚ) / 10 ^ 6 ≤ 1 := by
    have h0 : (0 : ℚ) ≤ taxRate := by exact_mod_cast ht.1
    have h1 : (taxRate : ℚ) ≤ 10 ^ 6 := by exact_mod_cast ht.2
    exact ⟨by positivity, (div_le_one (by norm_num)).mpr h1⟩
  have hdiscount : (0 : ℚ) ≤ 1 - discountRate / 10 ^ 6 := by
    have h1 : (discountRate : ℚ) ≤ 10 ^ 6 := by exact_mod_cast hd
    rw [sub_nonneg]
    exact (div_le_one (by norm_num)).mpr h1
  have hunrounded : 0 ≤ toContext (gross * toContext (1 - discountRate / 10 ^ 6)) :=
    toContext_nonneg (mul_nonneg hgross (toContext_nonneg hdiscount))
  have htaxed : toContext (toContext (gross * toContext (1 - discountRate / 10 ^ 6)) *
      (taxRate / 10 ^ 6)) ≤ toContext (gross * toContext (1 - discountRate / 10 ^ 6)) := by
    conv_rhs => rw [← toContext_toContext]
    exact toContext_mono (mul_nonneg hunrounded hrate.1) (mul_le_of_le_one_right hunrounded hrate.2)
  refine roundHalfUp_mono ?_ (mul_le_mul_of_nonneg_right htaxed (by norm_num))
  exact mul_nonneg (toContext_nonneg (mul_nonneg hunrounded hrate.1)) (by norm_num)

theorem gross_nonneg {quantity : Quantity} {price : ℚ} (hq : 0 ≤ quantity) (hp : 0 ≤ price) :
    0 ≤ toContext (quantity / 10 ^ 6 * price) := by
  have hq' : (0 : ℚ) ≤ quantity := by exact_mod_cast hq
  exact toContext_nonneg (by positivity)

/-- The amounts of a line are not negative. -/
theorem lineTotals_nonneg {quantity : Quantity} {unitPrice net tax total : Money}
    {discountRate taxRate : Rate} (hq : 0 ≤ quantity) (hp : 0 ≤ unitPrice)
    (hd : discountRate ≤ 10 ^ 6) (ht : 0 ≤ taxRate)
    (h : lineTotals quantity unitPrice discountRate taxRate = .ok (net, tax, total)) :
    0 ≤ net ∧ 0 ≤ tax ∧ total = net + tax := by
  have hp' : (0 : ℚ) ≤ unitPrice := by exact_mod_cast hp
  exact totalsOf_nonneg (gross_nonneg hq (by positivity)) hd ht h

/-! ## Stored amounts -/

/-- `net_amount` and `tax_amount` of a line or a document.  They come from `line_totals`, so
neither is negative, and their sum fits its column. -/
structure Amounts where
  netAmount : Money
  taxAmount : Money
  netAmount_nonneg : 0 ≤ netAmount
  taxAmount_nonneg : 0 ≤ taxAmount
  total_lt : netAmount + taxAmount < 10 ^ 18
deriving DecidableEq

namespace Amounts

/-- `total_amount`. -/
def totalAmount (amounts : Amounts) : Money := amounts.netAmount + amounts.taxAmount

theorem totalAmount_nonneg (amounts : Amounts) : 0 ≤ amounts.totalAmount :=
  add_nonneg amounts.netAmount_nonneg amounts.taxAmount_nonneg

theorem nothing_paid (amounts : Amounts) : (0 : Money) ≤ 0 ∧ 0 ≤ amounts.totalAmount :=
  ⟨le_rfl, amounts.totalAmount_nonneg⟩

/-- The amounts of a line in their columns. -/
def ofLine (gross : ℚ) (discountRate taxRate : Rate) (hgross : 0 ≤ gross)
    (hd : discountRate ≤ 10 ^ 6) (ht : 0 ≤ taxRate) : Except Err Amounts :=
  match h : totalsOf gross discountRate taxRate with
  | .error e => .error e
  | .ok (net, tax, _) =>
      if hlt : net + tax < 10 ^ 18 then
        .ok ⟨net, tax, (totalsOf_nonneg hgross hd ht h).1, (totalsOf_nonneg hgross hd ht h).2.1, hlt⟩
      else .error (.outOfRange "total_amount")

theorem ofLine_eq_ok {gross : ℚ} {discountRate taxRate : Rate} {hgross : 0 ≤ gross}
    {hd : discountRate ≤ 10 ^ 6} {ht : 0 ≤ taxRate} {amounts : Amounts}
    (h : ofLine gross discountRate taxRate hgross hd ht = .ok amounts) :
    totalsOf gross discountRate taxRate =
      .ok (amounts.netAmount, amounts.taxAmount, amounts.totalAmount) := by
  unfold ofLine at h
  split at h
  next => cases h
  next net tax total htotals =>
    split at h
    next =>
      cases h
      have htotal := (totalsOf_nonneg hgross hd ht htotals).2.2
      subst htotal
      exact htotals
    next => cases h

/-- `net += line_net`, `tax += line_tax`, and the sums in their columns. -/
def total (lines : List Amounts) : Except Err Amounts :=
  if h : (lines.map netAmount).sum + (lines.map taxAmount).sum < 10 ^ 18 then
    .ok
      { netAmount := (lines.map netAmount).sum
        taxAmount := (lines.map taxAmount).sum
        netAmount_nonneg := List.sum_nonneg (by simpa using fun a _ => a.netAmount_nonneg)
        taxAmount_nonneg := List.sum_nonneg (by simpa using fun a _ => a.taxAmount_nonneg)
        total_lt := h }
  else .error (.outOfRange "total_amount")

theorem total_eq_ok {lines : List Amounts} {amounts : Amounts} (h : total lines = .ok amounts) :
    amounts.netAmount = (lines.map netAmount).sum ∧
      amounts.taxAmount = (lines.map taxAmount).sum := by
  unfold total at h
  split at h
  next =>
    cases h
    exact ⟨rfl, rfl⟩
  next => cases h

end Amounts

end Nexora.Sales
