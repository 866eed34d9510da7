import Nexora.Foundations.Decimal

/-!
# Prices with and without VAT

`app/modules/vat/pricing.py`, with decimals that are exact: only `quantize` rounds.

`inclusive` divides where `exclusive` multiplies.  The VAT that `exclusive` adds is off by at most half
a unit, and the division makes that less than half a unit unless the rate is zero, where nothing was
off.  So rounding finds the net amount again (`inclusive_exclusive`).
-/

namespace Nexora.Vat

open Foundations

/-! ## The two splits -/

/-- What `exclusive` and `inclusive` return. -/
structure Price where
  net : ℚ
  vat : ℚ
  gross : ℚ
deriving DecidableEq, Repr

/-- `quantize`. -/
def quantize (amount : ℚ) : ℚ := Foundations.quantize 4 amount

/-- `exclusive`. -/
def exclusive (net rate : ℚ) : Price :=
  let netRounded := quantize net
  let vat := quantize (netRounded * rate)
  ⟨netRounded, vat, netRounded + vat⟩

/-- `inclusive`. -/
def inclusive (gross rate : ℚ) : Except String Price :=
  if rate < 0 then .error "VAT rate cannot be negative"
  else
    let grossRounded := quantize gross
    let net := quantize (grossRounded / (1 + rate))
    .ok ⟨net, grossRounded - net, grossRounded⟩

/-- The parts of a price, none of them negative, make up the whole. -/
structure Price.Splits (price : Price) : Prop where
  sum : price.net + price.vat = price.gross
  vat_nonneg : 0 ≤ price.vat
  net_nonneg : 0 ≤ price.net
  net_le : price.net ≤ price.gross

/-! ## Rounding -/

/-- An amount that has four decimals already. -/
@[simp] theorem quantize_scaled (n : ℤ) : quantize (n / 10 ^ 4) = n / 10 ^ 4 := by
  rw [quantize, Foundations.quantize, div_mul_cancel₀ _ (by norm_num), roundHalfUp_intCast]

@[simp] theorem quantize_quantize (amount : ℚ) : quantize (quantize amount) = quantize amount :=
  quantize_scaled _

theorem quantize_nonneg {amount : ℚ} (h : 0 ≤ amount) : 0 ≤ quantize amount := by
  have hround : (0 : ℚ) ≤ roundHalfUp (amount * 10 ^ 4) := by
    exact_mod_cast roundHalfUp_nonneg (by positivity)
  exact div_nonneg hround (by norm_num)

theorem quantize_mono {amount amount' : ℚ} (hamount : 0 ≤ amount) (h : amount ≤ amount') :
    quantize amount ≤ quantize amount' := by
  have hround : (roundHalfUp (amount * 10 ^ 4) : ℚ) ≤ roundHalfUp (amount' * 10 ^ 4) := by
    exact_mod_cast roundHalfUp_mono (by positivity) (by gcongr)
  exact div_le_div_of_nonneg_right hround (by norm_num)

/-! ## The parts and the whole -/

variable {amount rate : ℚ}

theorem exclusive_splits (hamount : 0 ≤ amount) (hrate : 0 ≤ rate) :
    (exclusive amount rate).Splits := by
  have hnet := quantize_nonneg hamount
  have hvat := quantize_nonneg (mul_nonneg hnet hrate)
  exact ⟨rfl, hvat, hnet, le_add_of_nonneg_right hvat⟩

theorem inclusive_splits (hamount : 0 ≤ amount) (hrate : 0 ≤ rate) :
    ∃ price, inclusive amount rate = .ok price ∧ price.Splits := by
  have hgross := quantize_nonneg hamount
  have hdivided : 0 ≤ quantize amount / (1 + rate) := by positivity
  have hle : quantize (quantize amount / (1 + rate)) ≤ quantize amount := by
    have hless : quantize amount / (1 + rate) ≤ quantize amount :=
      div_le_self hgross (by linarith)
    exact (quantize_mono hdivided hless).trans_eq (quantize_quantize amount)
  refine ⟨_, if_neg (not_lt.mpr hrate), ?_⟩
  constructor
  · exact add_sub_cancel _ _
  · exact sub_nonneg.mpr hle
  · exact quantize_nonneg hdivided
  · exact hle

/-- Dividing by `1 + rate` takes the whole back to less than half a unit from the net amount. -/
theorem roundHalfUp_div_eq (n : ℤ) (hrate : 0 ≤ rate) :
    roundHalfUp (((n + roundHalfUp (n * rate) : ℤ) : ℚ) / (1 + rate)) = n := by
  refine roundHalfUp_eq ?_
  have hoff := abs_roundHalfUp_sub_le (n * rate)
  have hsplit : ((n + roundHalfUp (n * rate) : ℤ) : ℚ) / (1 + rate) - n =
      (roundHalfUp (n * rate) - n * rate) / (1 + rate) := by
    push_cast
    field_simp
    ring
  rw [hsplit, abs_div, abs_of_pos (by linarith : 0 < 1 + rate), div_lt_iff₀ (by linarith)]
  rcases hrate.eq_or_lt with rfl | hpos
  · simp
  · linarith

/-- `inclusive` undoes `exclusive` for a net amount of four decimals. -/
theorem inclusive_exclusive (n : ℤ) (hrate : 0 ≤ rate) :
    inclusive (exclusive (n / 10 ^ 4) rate).gross rate = .ok (exclusive (n / 10 ^ 4) rate) := by
  have hvat : quantize (n / 10 ^ 4 * rate) = roundHalfUp (n * rate) / 10 ^ 4 := by
    rw [quantize, Foundations.quantize]
    congr 3
    ring
  have hprice : exclusive (n / 10 ^ 4) rate = ⟨n / 10 ^ 4, roundHalfUp (n * rate) / 10 ^ 4,
      ((n + roundHalfUp (n * rate) : ℤ) : ℚ) / 10 ^ 4⟩ := by
    rw [exclusive, quantize_scaled, hvat, ← add_div, Int.cast_add]
  have hnet : quantize (((n + roundHalfUp (n * rate) : ℤ) : ℚ) / 10 ^ 4 / (1 + rate)) =
      n / 10 ^ 4 := by
    rw [quantize, Foundations.quantize, div_right_comm, div_mul_cancel₀ _ (by norm_num),
      roundHalfUp_div_eq n hrate]
  have hrest : ((n + roundHalfUp (n * rate) : ℤ) : ℚ) / 10 ^ 4 - n / 10 ^ 4 =
      roundHalfUp (n * rate) / 10 ^ 4 := by
    push_cast
    ring
  rw [hprice]
  simp only [inclusive, if_neg (not_lt.mpr hrate), quantize_scaled, hnet, hrest]

/-- For amounts and rates that are not negative, net amount and VAT make up the gross amount, none of
them negative, and `inclusive` finds the net amount and the VAT that `exclusive` started from. -/
theorem price_splitting (hamount : 0 ≤ amount) (hrate : 0 ≤ rate) :
    (exclusive amount rate).Splits ∧
      (∃ price, inclusive amount rate = .ok price ∧ price.Splits) ∧
      ∀ n : ℤ, (exclusive (n / 10 ^ 4) rate).net = n / 10 ^ 4 ∧
        inclusive (exclusive (n / 10 ^ 4) rate).gross rate = .ok (exclusive (n / 10 ^ 4) rate) :=
  ⟨exclusive_splits hamount hrate, inclusive_splits hamount hrate,
    fun n => ⟨quantize_scaled n, inclusive_exclusive n hrate⟩⟩

/-- Thirty-three and a third at `15 %`: the VAT is rounded up, and the net amount comes back. -/
theorem price_splitting_third :
    inclusive (exclusive (333330 / 10 ^ 4) (15 / 100)).gross (15 / 100) =
      .ok ⟨333330 / 10 ^ 4, 50000 / 10 ^ 4, 383330 / 10 ^ 4⟩ := by
  have hamount : (0 : ℚ) ≤ 333330 / 10 ^ 4 := by norm_num
  have hrate : (0 : ℚ) ≤ 15 / 100 := by norm_num
  have hback := ((price_splitting hamount hrate).2.2 333330).2
  have hprice : exclusive (333330 / 10 ^ 4) (15 / 100) =
      ⟨333330 / 10 ^ 4, 50000 / 10 ^ 4, 383330 / 10 ^ 4⟩ := by decide +kernel
  rw [← hprice]
  exact hback

end Nexora.Vat
