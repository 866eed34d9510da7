import Nexora.Sales.Tables

/-!
# Where the rounding of a line shows

`line_totals` multiplies in a context of 28 digits before it rounds to four decimals.  A gross amount
that fits its column is exact in the context.  The net amount can have thirty digits and the tax more,
so they are rounded twice, first to digits, ties to even, and then to places, half up.

The first rounding takes an amount that is just below a tie up to it.  A line is clear when neither its
net amount nor its tax is so close to a tie, and these are the lines whose totals are the rounded exact
amounts (`line_rounding_iff`).
-/

namespace Nexora.Sales

open Nexora Nexora.Catalog Foundations
open Nexora.Accounting (Money)

/-! ## Exact amounts -/

namespace LineInput

def exactGross (line : LineInput) : ℚ := line.quantity / 10 ^ 6 * (line.unitPrice / 10 ^ 4)

def exactNet (line : LineInput) : ℚ := line.exactGross * (1 - line.discountRate / 10 ^ 6)

def exactTax (line : LineInput) : ℚ := line.exactNet * (line.taxRate / 10 ^ 6)

/-- The exact amounts fit their columns. -/
structure Fits (line : LineInput) : Prop where
  gross : (numeric 18 4 line.exactGross).isSome
  net : (numeric 18 4 line.exactNet).isSome
  tax : (numeric 18 4 line.exactTax).isSome

/-- `line_totals` of the line. -/
def totals (line : LineInput) : Except Err (Money × Money × Money) :=
  lineTotals line.quantity line.unitPrice line.discountRate line.taxRate

/-- The totals are the exact amounts, rounded once. -/
def RoundedOnce (line : LineInput) : Prop :=
  ∃ net tax total, line.totals = .ok (net, tax, total) ∧
    net = roundHalfUp (line.exactNet * 10 ^ 4) ∧ tax = roundHalfUp (line.exactTax * 10 ^ 4) ∧
    0 ≤ tax ∧ tax ≤ net ∧ total = net + tax

/-- The tax on the net amount of 28 digits. -/
def contextTax (line : LineInput) : ℚ := toContext line.exactNet * (line.taxRate / 10 ^ 6)

/-- How far the exact tax is moved before it is rounded to places. -/
def taxDrift (line : LineInput) : ℚ := line.contextTax + ulp line.contextTax / 2 - line.exactTax

/-- The exact net amount is not within half a unit of its 28th digit below a tie, and the exact tax is
not so close to a tie that what it is moved by takes it across. -/
structure Clear (line : LineInput) : Prop where
  net : Int.fract (line.exactNet * 10 ^ 4 + 1 / 2) + ulp line.exactNet / 2 * 10 ^ 4 < 1
  tax_lower : 0 ≤ Int.fract (line.exactTax * 10 ^ 4 + 1 / 2) + line.taxDrift * 10 ^ 4
  tax_upper : Int.fract (line.exactTax * 10 ^ 4 + 1 / 2) + line.taxDrift * 10 ^ 4 < 1

variable {line : LineInput}

theorem rates (line : LineInput) :
    (0 ≤ (line.discountRate : ℚ) / 10 ^ 6 ∧ (line.discountRate : ℚ) / 10 ^ 6 ≤ 1) ∧
      0 ≤ (line.taxRate : ℚ) / 10 ^ 6 ∧ (line.taxRate : ℚ) / 10 ^ 6 ≤ 1 := by
  have hunit : ∀ {rate : Rate}, 0 ≤ rate ∧ rate ≤ 10 ^ 6 →
      0 ≤ (rate : ℚ) / 10 ^ 6 ∧ (rate : ℚ) / 10 ^ 6 ≤ 1 := by
    rintro rate ⟨hlower, hupper⟩
    have hlower' : (0 : ℚ) ≤ rate := by exact_mod_cast hlower
    have hupper' : (rate : ℚ) ≤ 10 ^ 6 := by exact_mod_cast hupper
    exact ⟨by positivity, (div_le_one (by norm_num)).mpr hupper'⟩
  exact ⟨hunit line.discountRate_range, hunit line.taxRate_range⟩

theorem exactGross_nonneg (line : LineInput) : 0 ≤ line.exactGross := by
  have hquantity : (0 : ℚ) ≤ line.quantity := by exact_mod_cast line.quantity_pos.le
  have hprice : (0 : ℚ) ≤ line.unitPrice := by exact_mod_cast line.unitPrice_nonneg
  exact mul_nonneg (by positivity) (by positivity)

theorem exactNet_nonneg (line : LineInput) : 0 ≤ line.exactNet :=
  mul_nonneg line.exactGross_nonneg (by linarith [line.rates.1.2])

theorem exactTax_nonneg (line : LineInput) : 0 ≤ line.exactTax :=
  mul_nonneg line.exactNet_nonneg line.rates.2.1

theorem contextTax_nonneg (line : LineInput) : 0 ≤ line.contextTax :=
  mul_nonneg (toContext_nonneg line.exactNet_nonneg) line.rates.2.1

/-! ## What the context leaves alone -/

theorem Fits.gross_lt (h : line.Fits) : line.exactGross < 10 ^ 15 := by
  have hfits := h.gross
  unfold numeric at hfits
  split at hfits
  next hlt =>
    have hround := (abs_le.mp (abs_roundHalfUp_sub_le (line.exactGross * 10 ^ 4))).1
    have hlt' : (roundHalfUp (line.exactGross * 10 ^ 4) : ℚ) < 10 ^ 18 := by
      exact_mod_cast (abs_lt.mp hlt).2
    norm_num at hlt' hround ⊢
    linarith
  next => cases hfits

theorem Fits.net_lt (h : line.Fits) : line.exactNet < 10 ^ 15 := by
  refine (mul_le_of_le_one_right line.exactGross_nonneg ?_).trans_lt h.gross_lt
  linarith [line.rates.1.1]

theorem exactGross_eq (line : LineInput) :
    line.exactGross = ((line.quantity * line.unitPrice : ℤ) : ℚ) / 10 ^ 10 := by
  unfold exactGross
  push_cast
  ring

/-- The gross amount has at most 25 digits. -/
theorem Fits.toContext_gross (h : line.Fits) : toContext line.exactGross = line.exactGross := by
  have hlt := h.gross_lt
  have hnonneg := line.exactGross_nonneg
  rw [exactGross_eq] at hlt hnonneg ⊢
  rw [div_lt_iff₀ (by norm_num)] at hlt
  rw [le_div_iff₀ (by norm_num), zero_mul] at hnonneg
  refine toContext_of_places ?_
  rw [abs_of_nonneg (by exact_mod_cast hnonneg)]
  have hlt' : ((line.quantity * line.unitPrice : ℤ) : ℚ) < 10 ^ 28 := by linarith
  exact_mod_cast hlt'

theorem toContext_discount (line : LineInput) :
    toContext (1 - line.discountRate / 10 ^ 6) = 1 - line.discountRate / 10 ^ 6 := by
  have hscaled : (1 - line.discountRate / 10 ^ 6 : ℚ) =
      ((10 ^ 6 - line.discountRate : ℤ) : ℚ) / 10 ^ 6 := by
    push_cast
    ring
  rw [hscaled]
  refine toContext_of_places ?_
  have hrange := line.discountRate_range
  rw [abs_of_nonneg (by linarith)]
  linarith

/-! ## The two roundings -/

theorem log_le_of_lt {x : ℚ} {k : ℕ} (hx : 0 ≤ x) (h : x < 10 ^ (k + 1)) : Int.log 10 |x| ≤ k := by
  rw [abs_of_nonneg hx]
  rcases hx.eq_or_lt with rfl | hpos
  · simp
  · have hlog : Int.log 10 x < k + 1 :=
      (Int.lt_zpow_iff_log_lt (b := 10) (by norm_num) hpos).mp (by exact_mod_cast h)
    omega

/-- Two steps of rounding are one, of an amount moved by half a unit of its last digit. -/
theorem roundMoney_toContext {x : ℚ} (hx : 0 ≤ x) (hlt : x < 10 ^ 16) :
    roundMoney (toContext x) = .ok (roundHalfUp ((x + ulp x / 2) * 10 ^ 4)) := by
  have hlog := log_le_of_lt hx hlt
  have hround := @roundHalfUp_toContext 4 x hx (by push_cast at hlog ⊢; linarith)
  have hle : toContext x ≤ 10 ^ 16 := by
    refine (toContext_le_zpow x).trans ?_
    have hpow : (10 : ℚ) ^ (Int.log 10 |x| + 1) ≤ 10 ^ (16 : ℤ) :=
      zpow_le_zpow_right₀ (by norm_num) (by push_cast at hlog; linarith)
    exact_mod_cast hpow
  have hsmall : |roundHalfUp (toContext x * 10 ^ 4)| < 10 ^ 28 := by
    have hnonneg := toContext_nonneg hx
    rw [abs_of_nonneg (roundHalfUp_nonneg (by positivity))]
    have hoff := (abs_le.mp (abs_roundHalfUp_sub_le (toContext x * 10 ^ 4))).2
    have hcast : (roundHalfUp (toContext x * 10 ^ 4) : ℚ) < 10 ^ 28 := by
      norm_num at hle hoff ⊢
      linarith
    exact_mod_cast hcast
  rw [roundMoney, if_pos hsmall, hround]

theorem Fits.contextTax_lt (h : line.Fits) : line.contextTax < 10 ^ 16 := by
  have hcontext : toContext line.exactNet < 10 ^ 16 := by
    have hoff := (abs_le.mp (abs_toContext_sub_le line.exactNet)).2
    have hlt := h.net_lt
    have hnonneg := line.exactNet_nonneg
    rw [abs_of_nonneg hnonneg] at hoff
    have hsmall : line.exactNet / (2 * 10 ^ 27) ≤ line.exactNet :=
      div_le_self hnonneg (by norm_num)
    linarith
  exact (mul_le_of_le_one_right (toContext_nonneg line.exactNet_nonneg) line.rates.2.2).trans_lt
    hcontext

/-- What `line_totals` returns, with each amount rounded once. -/
theorem Fits.totals_eq (h : line.Fits) :
    line.totals = .ok
      (roundHalfUp ((line.exactNet + ulp line.exactNet / 2) * 10 ^ 4),
        roundHalfUp ((line.contextTax + ulp line.contextTax / 2) * 10 ^ 4),
        roundHalfUp ((line.exactNet + ulp line.exactNet / 2) * 10 ^ 4) +
          roundHalfUp ((line.contextTax + ulp line.contextTax / 2) * 10 ^ 4)) := by
  have hgross : toContext (line.quantity / 10 ^ 6 * (line.unitPrice / 10 ^ 4)) = line.exactGross :=
    h.toContext_gross
  have hnet := roundMoney_toContext line.exactNet_nonneg (h.net_lt.trans (by norm_num))
  have htax := roundMoney_toContext line.contextTax_nonneg h.contextTax_lt
  rw [totals, lineTotals, hgross, toContext_discount]
  change (do
    let net ← roundMoney (toContext line.exactNet)
    let tax ← roundMoney (toContext line.contextTax)
    .ok (net, tax, net + tax)) = _
  rw [hnet, htax]
  rfl

/-- The net amount is rounded as if it were exact. -/
theorem net_iff (line : LineInput) :
    roundHalfUp ((line.exactNet + ulp line.exactNet / 2) * 10 ^ 4) =
        roundHalfUp (line.exactNet * 10 ^ 4) ↔
      Int.fract (line.exactNet * 10 ^ 4 + 1 / 2) + ulp line.exactNet / 2 * 10 ^ 4 < 1 := by
  have hnonneg := line.exactNet_nonneg
  have hulp := ulp_pos line.exactNet
  rw [add_mul]
  exact roundHalfUp_add_eq_iff (by positivity) (by positivity)

/-- The tax is rounded as if it were exact. -/
theorem tax_iff (line : LineInput) :
    roundHalfUp ((line.contextTax + ulp line.contextTax / 2) * 10 ^ 4) =
        roundHalfUp (line.exactTax * 10 ^ 4) ↔
      0 ≤ Int.fract (line.exactTax * 10 ^ 4 + 1 / 2) + line.taxDrift * 10 ^ 4 ∧
        Int.fract (line.exactTax * 10 ^ 4 + 1 / 2) + line.taxDrift * 10 ^ 4 < 1 := by
  have hexact := line.exactTax_nonneg
  have hcontext := line.contextTax_nonneg
  have hulp := ulp_pos line.contextTax
  rw [roundHalfUp_eq_roundHalfUp_iff (by positivity) (by positivity), ← sub_mul]
  rfl

end LineInput

/-! ## The lines that are rounded once -/

/-- `line_totals` rounds the exact amounts of a line that fits its columns exactly when the line is
clear. -/
theorem line_rounding_iff (line : LineInput) (h : line.Fits) : line.RoundedOnce ↔ line.Clear := by
  have htotals := h.totals_eq
  constructor
  · rintro ⟨net, tax, total, hok, hnet, htax, -⟩
    rw [htotals] at hok
    cases hok
    obtain ⟨hlower, hupper⟩ := line.tax_iff.mp htax
    exact ⟨line.net_iff.mp hnet, hlower, hupper⟩
  · intro hclear
    obtain ⟨-, hnonneg, -⟩ := lineTotals_nonneg line.quantity_pos.le line.unitPrice_nonneg
      line.discountRate_range.2 line.taxRate_range.1 htotals
    have hle := totalsOf_tax_le line.gross_nonneg line.discountRate_range.2 line.taxRate_range
      ((lineTotals_eq _ _ _ _).symm.trans htotals)
    exact ⟨_, _, _, htotals, line.net_iff.mpr hclear.net,
      line.tax_iff.mpr ⟨hclear.tax_lower, hclear.tax_upper⟩, hnonneg, hle, rfl⟩

/-- A line with the smallest discount and no tax. -/
def discounted (quantity : Quantity) (unitPrice : Money)
    (h : 0 < quantity ∧ quantity < 10 ^ 20 ∧ 0 ≤ unitPrice) : LineInput where
  productId := 7
  quantity := quantity
  unitPrice := unitPrice
  discountRate := 1
  taxRate := 0
  quantity_pos := h.1
  quantity_lt := h.2.1
  unitPrice_nonneg := h.2.2
  discountRate_range := by decide
  taxRate_range := Sample.zero_rate

/-- Three pieces at `19.99`. -/
theorem line_rounding_small : (discounted 3000000 199900 (by decide)).RoundedOnce :=
  (line_rounding_iff _ ⟨by decide +kernel, by decide +kernel, by decide +kernel⟩).mpr
    ⟨by decide +kernel, by decide +kernel, by decide +kernel⟩

/-- The exact net amount `1000699983749.0156499999999999` has 29 digits.  Rounded to 28 it is a tie, so
the line comes to `1000699983749.0157`. -/
theorem line_rounded_twice : ¬∀ line : LineInput, line.Fits → line.RoundedOnce := by
  intro hall
  obtain ⟨net, tax, total, hok, hnet, -⟩ := hall (discounted 1000000983761367143 10007 (by decide))
    ⟨by decide +kernel, by decide +kernel, by decide +kernel⟩
  have htotals : (discounted 1000000983761367143 10007 (by decide)).totals =
      .ok (10006999837490157, 0, 10006999837490157) := by decide +kernel
  rw [htotals] at hok
  cases hok
  exact absurd hnet (by decide +kernel)

end Nexora.Sales
