import Mathlib.Data.Int.Log
import Mathlib.Data.Rat.Floor
import Mathlib.Algebra.Order.Round
import Mathlib.Tactic.Linarith
import Mathlib.Tactic.Positivity
import Mathlib.Tactic.FieldSimp
import Mathlib.Tactic.Ring
import Mathlib.Tactic.NormNum

/-!
# Decimal arithmetic

Decimal numbers are rationals, and what makes them decimal is where they are
rounded.  `toContext` is the rounding of every operation of a decimal context: to
a number of significant digits, to nearest, ties to even.  `quantize` rounds to a
number of decimal places, ties away from zero, and `numeric` is a column that
stores scaled integers of bounded size and rounds in the same way.

The lemmas are the two that arithmetic over such numbers needs.  A number with few
enough digits is left alone (`toContext_of_digits`), and any other is off by at
most half a unit in its last digit (`abs_toContext_sub_le`).
-/

namespace Foundations

/-! ## Rounding to an integer -/

/-- The nearest integer, ties to even. -/
def roundHalfEven (x : ℚ) : ℤ :=
  if x - ⌊x⌋ < 1 / 2 then ⌊x⌋
  else if 1 / 2 < x - ⌊x⌋ then ⌊x⌋ + 1
  else if ⌊x⌋ % 2 = 0 then ⌊x⌋ else ⌊x⌋ + 1

/-- The nearest integer, ties away from zero. -/
def roundHalfUp (x : ℚ) : ℤ := if 0 ≤ x then ⌊x + 1 / 2⌋ else -⌊-x + 1 / 2⌋

@[simp] theorem roundHalfEven_intCast (n : ℤ) : roundHalfEven n = n := by
  simp [roundHalfEven]

theorem abs_roundHalfEven_sub_le (x : ℚ) : |(roundHalfEven x : ℚ) - x| ≤ 1 / 2 := by
  have hlo := Int.floor_le x
  have hhi := Int.lt_floor_add_one x
  unfold roundHalfEven
  split_ifs with h₁ h₂ h₃
  · rw [abs_le]; constructor <;> linarith
  · rw [abs_le]; push_cast; constructor <;> linarith
  · rw [abs_le]; constructor <;> linarith
  · rw [abs_le]; push_cast; constructor <;> linarith

theorem roundHalfEven_nonneg {x : ℚ} (h : 0 ≤ x) : 0 ≤ roundHalfEven x := by
  have hfloor : 0 ≤ ⌊x⌋ := Int.floor_nonneg.mpr h
  unfold roundHalfEven
  split_ifs <;> omega

/-- A tie below an even integer goes up to it. -/
theorem even_le_roundHalfEven_iff {x : ℚ} {n : ℤ} (heven : n % 2 = 0) :
    n ≤ roundHalfEven x ↔ n - 1 / 2 ≤ x := by
  have hlo := Int.floor_le x
  have hhi := Int.lt_floor_add_one x
  have hcast : n ≤ ⌊x⌋ ∨ n = ⌊x⌋ + 1 ∨ ⌊x⌋ + 2 ≤ n := by omega
  unfold roundHalfEven
  rcases hcast with hle | heq | hge
  · have hle' : (n : ℚ) ≤ ⌊x⌋ := by exact_mod_cast hle
    refine iff_of_true ?_ (by linarith)
    split_ifs <;> omega
  · have heq' : (n : ℚ) = ⌊x⌋ + 1 := by exact_mod_cast heq
    rw [heq']
    split_ifs with h₁ h₂ h₃
    · exact iff_of_false (by omega) (by linarith)
    · exact iff_of_true (by omega) (by linarith)
    · exact absurd h₃ (by omega)
    · exact iff_of_true (by omega) (by linarith)
  · have hge' : (⌊x⌋ : ℚ) + 2 ≤ n := by exact_mod_cast hge
    refine iff_of_false ?_ (by linarith)
    split_ifs <;> omega

/-- A tie above an even integer goes down to it. -/
theorem roundHalfEven_le_even_iff {x : ℚ} {n : ℤ} (heven : n % 2 = 0) :
    roundHalfEven x ≤ n ↔ x ≤ n + 1 / 2 := by
  have hlo := Int.floor_le x
  have hhi := Int.lt_floor_add_one x
  have hcast : ⌊x⌋ + 1 ≤ n ∨ n = ⌊x⌋ ∨ n + 1 ≤ ⌊x⌋ := by omega
  unfold roundHalfEven
  rcases hcast with hle | heq | hge
  · have hle' : (⌊x⌋ : ℚ) + 1 ≤ n := by exact_mod_cast hle
    refine iff_of_true ?_ (by linarith)
    split_ifs <;> omega
  · have heq' : (n : ℚ) = ⌊x⌋ := by exact_mod_cast heq
    rw [heq']
    split_ifs with h₁ h₂ h₃
    · exact iff_of_true (by omega) (by linarith)
    · exact iff_of_false (by omega) (by linarith)
    · exact iff_of_true (by omega) (by linarith)
    · exact absurd h₃ (by omega)
  · have hge' : (n : ℚ) + 1 ≤ ⌊x⌋ := by exact_mod_cast hge
    refine iff_of_false ?_ (by linarith)
    split_ifs <;> omega

theorem le_roundHalfEven {x : ℚ} {n : ℤ} (h : (n : ℚ) ≤ x) : n ≤ roundHalfEven x := by
  have hfloor : n ≤ ⌊x⌋ := Int.le_floor.mpr h
  unfold roundHalfEven
  split_ifs <;> omega

theorem roundHalfUp_of_nonneg {x : ℚ} (h : 0 ≤ x) : roundHalfUp x = ⌊x + 1 / 2⌋ := if_pos h

theorem abs_roundHalfUp_sub_le (x : ℚ) : |(roundHalfUp x : ℚ) - x| ≤ 1 / 2 := by
  unfold roundHalfUp
  split_ifs with h
  · have hlo := Int.floor_le (x + 1 / 2)
    have hhi := Int.lt_floor_add_one (x + 1 / 2)
    rw [abs_le]; constructor <;> linarith
  · have hlo := Int.floor_le (-x + 1 / 2)
    have hhi := Int.lt_floor_add_one (-x + 1 / 2)
    rw [abs_le]; push_cast; constructor <;> linarith

/-- An integer closer than one half is the one rounded to. -/
theorem roundHalfUp_eq {x : ℚ} {n : ℤ} (h : |x - n| < 1 / 2) : roundHalfUp x = n := by
  have hr := abs_roundHalfUp_sub_le x
  rw [abs_lt] at h
  rw [abs_le] at hr
  have hlt : (roundHalfUp x : ℚ) - n < 1 := by linarith
  have hgt : -1 < (roundHalfUp x : ℚ) - n := by linarith
  have hlt' : roundHalfUp x - n < 1 := by exact_mod_cast hlt
  have hgt' : -1 < roundHalfUp x - n := by exact_mod_cast hgt
  omega

theorem roundHalfUp_nonneg {x : ℚ} (h : 0 ≤ x) : 0 ≤ roundHalfUp x := by
  rw [roundHalfUp_of_nonneg h]
  exact Int.floor_nonneg.mpr (by linarith)

@[simp] theorem roundHalfUp_intCast (n : ℤ) : roundHalfUp n = n :=
  roundHalfUp_eq (by norm_num)

@[simp] theorem roundHalfUp_zero : roundHalfUp 0 = 0 := by
  simpa using roundHalfUp_intCast 0

/-- Ties go away from zero on both sides. -/
theorem roundHalfUp_neg (x : ℚ) : roundHalfUp (-x) = -roundHalfUp x := by
  rcases lt_trichotomy x 0 with h | rfl | h
  · rw [roundHalfUp, if_pos (by linarith), roundHalfUp, if_neg (by linarith), neg_neg]
  · simp
  · rw [roundHalfUp, if_neg (by linarith), roundHalfUp, if_pos (by linarith), neg_neg]

theorem roundHalfUp_mono {x y : ℚ} (hx : 0 ≤ x) (h : x ≤ y) : roundHalfUp x ≤ roundHalfUp y := by
  rw [roundHalfUp_of_nonneg hx, roundHalfUp_of_nonneg (hx.trans h)]
  exact Int.floor_le_floor (by linarith)

theorem roundHalfEven_mono {x y : ℚ} (h : x ≤ y) : roundHalfEven x ≤ roundHalfEven y := by
  by_contra hlt
  have hstep : roundHalfEven y + 1 ≤ roundHalfEven x := not_le.mp hlt
  have hstep' : (roundHalfEven y : ℚ) + 1 ≤ roundHalfEven x := by exact_mod_cast hstep
  have hx := abs_le.mp (abs_roundHalfEven_sub_le x)
  have hy := abs_le.mp (abs_roundHalfEven_sub_le y)
  -- Both are half a unit off, so the numbers are the same.
  obtain rfl : x = y := by linarith
  omega

theorem roundHalfUp_eq_iff {x : ℚ} (hx : 0 ≤ x) {n : ℤ} :
    roundHalfUp x = n ↔ n - 1 / 2 ≤ x ∧ x < n + 1 / 2 := by
  rw [roundHalfUp_of_nonneg hx, Int.floor_eq_iff]
  constructor
  · exact fun h => ⟨by linarith, by linarith⟩
  · exact fun h => ⟨by linarith, by linarith⟩

theorem le_roundHalfUp_iff {x : ℚ} (hx : 0 ≤ x) {n : ℤ} : n ≤ roundHalfUp x ↔ n - 1 / 2 ≤ x := by
  rw [roundHalfUp_of_nonneg hx, Int.le_floor, sub_le_iff_le_add]

/-- Two numbers round alike when the second stays between the ties around the first. -/
theorem roundHalfUp_eq_roundHalfUp_iff {x y : ℚ} (hx : 0 ≤ x) (hy : 0 ≤ y) :
    roundHalfUp y = roundHalfUp x ↔
      0 ≤ Int.fract (x + 1 / 2) + (y - x) ∧ Int.fract (x + 1 / 2) + (y - x) < 1 := by
  have hfract := Int.floor_add_fract (x + 1 / 2)
  rw [roundHalfUp_eq_iff hy, roundHalfUp_of_nonneg hx]
  constructor
  · rintro ⟨hlower, hupper⟩
    exact ⟨by linarith, by linarith⟩
  · rintro ⟨hlower, hupper⟩
    exact ⟨by linarith, by linarith⟩

/-- What is added to a number leaves it below the next tie. -/
theorem roundHalfUp_add_eq_iff {x u : ℚ} (hx : 0 ≤ x) (hu : 0 ≤ u) :
    roundHalfUp (x + u) = roundHalfUp x ↔ Int.fract (x + 1 / 2) + u < 1 := by
  have hfract := Int.floor_add_fract (x + 1 / 2)
  have hnonneg := Int.fract_nonneg (x + 1 / 2)
  rw [roundHalfUp_eq_iff (add_nonneg hx hu), roundHalfUp_of_nonneg hx]
  constructor
  · rintro ⟨-, hlt⟩
    linarith
  · exact fun h => ⟨by linarith, by linarith⟩

/-- A number rounds to what its two parts round to, but for a carry. -/
theorem roundHalfUp_carry {x y z : ℚ} (hx : 0 ≤ x) (hy : 0 ≤ y) (hz : 0 ≤ z) :
    roundHalfUp z = roundHalfUp x + roundHalfUp y +
      ⌊Int.fract (x + 1 / 2) + Int.fract (y + 1 / 2) + (z - (x + y)) - 1 / 2⌋ := by
  have hcarry : Int.fract (x + 1 / 2) + Int.fract (y + 1 / 2) + (z - (x + y)) - 1 / 2 =
      z + 1 / 2 - ((⌊x + 1 / 2⌋ + ⌊y + 1 / 2⌋ : ℤ) : ℚ) := by
    unfold Int.fract
    push_cast
    ring
  rw [hcarry, Int.floor_sub_intCast, roundHalfUp_of_nonneg hx, roundHalfUp_of_nonneg hy,
    roundHalfUp_of_nonneg hz]
  omega

/-- Carries down and carries up. -/
theorem sum_floor_sub_half {cs : List ℚ} (h : ∀ c ∈ cs, -1 / 2 ≤ c ∧ c < 5 / 2) :
    (cs.map fun c => ⌊c - 1 / 2⌋).sum =
      (cs.countP (3 / 2 ≤ ·) : ℤ) - (cs.countP (· < 1 / 2) : ℤ) := by
  induction cs with
  | nil => rfl
  | cons c cs ih =>
      obtain ⟨⟨hlower, hupper⟩, hcs⟩ := List.forall_mem_cons.mp h
      rw [List.map_cons, List.sum_cons, ih hcs, List.countP_cons, List.countP_cons]
      rcases lt_or_ge c (1 / 2) with hdown | hdown
      · have hfloor : ⌊c - 1 / 2⌋ = -1 := by
          rw [Int.floor_eq_iff]
          push_cast
          constructor <;> linarith
        have hnot : ¬3 / 2 ≤ c := by linarith
        simp only [hfloor, hdown, hnot, decide_true, decide_false]
        push_cast
        ring
      · rcases lt_or_ge c (3 / 2) with hup | hup
        · have hfloor : ⌊c - 1 / 2⌋ = 0 := by
            rw [Int.floor_eq_iff]
            push_cast
            constructor <;> linarith
          simp only [hfloor, not_lt.mpr hdown, not_le.mpr hup, decide_false]
          push_cast
          ring
        · have hfloor : ⌊c - 1 / 2⌋ = 1 := by
            rw [Int.floor_eq_iff]
            push_cast
            constructor <;> linarith
          simp only [hfloor, hup, not_lt.mpr hdown, decide_true, decide_false]
          push_cast
          ring

/-! ## Rounding twice -/

/-- The same, where the sum is rounded to two more places first, ties to even. -/
theorem roundHalfUp_roundHalfEven_add {x u : ℚ} (hx : 0 ≤ x) (hu : 0 ≤ u) :
    roundHalfUp (roundHalfEven ((x + u) * 10 ^ 2) / 10 ^ 2) = roundHalfUp x ↔
      Int.fract (x + 1 / 2) + u < 995 / 1000 := by
  have hfract := Int.floor_add_fract (x + 1 / 2)
  have hnonneg := Int.fract_nonneg (x + 1 / 2)
  have hfirst : (0 : ℚ) ≤ roundHalfEven ((x + u) * 10 ^ 2) / 10 ^ 2 := by
    have hround := roundHalfEven_nonneg (mul_nonneg (add_nonneg hx hu) (by norm_num : (0 : ℚ) ≤ 10 ^ 2))
    positivity
  rw [roundHalfUp_eq_iff hfirst, roundHalfUp_of_nonneg hx, le_div_iff₀ (by norm_num),
    div_lt_iff₀ (by norm_num)]
  generalize ⌊x + 1 / 2⌋ = n at hfract
  -- Both ties are whole numbers of the first rounding, and the upper one is even.
  have hlower : 100 * n - 50 ≤ roundHalfEven ((x + u) * 10 ^ 2) := by
    refine le_roundHalfEven ?_
    push_cast
    linarith
  have hupper : 100 * n + 50 ≤ roundHalfEven ((x + u) * 10 ^ 2) ↔
      ((100 * n + 50 : ℤ) : ℚ) - 1 / 2 ≤ (x + u) * 10 ^ 2 := even_le_roundHalfEven_iff (by omega)
  push_cast at hupper
  generalize roundHalfEven ((x + u) * 10 ^ 2) = r at hlower hupper
  have hlower' : (100 * n - 50 : ℚ) ≤ r := by exact_mod_cast hlower
  constructor
  · rintro ⟨-, hlt⟩
    have hlt' : r < 100 * n + 50 := by
      have hcast : (r : ℚ) < 100 * n + 50 := by linarith
      exact_mod_cast hcast
    have hbelow := not_le.mp (mt hupper.mpr (not_le.mpr hlt'))
    linarith
  · intro h
    have hlt : r < 100 * n + 50 := not_le.mp (mt hupper.mp (not_le.mpr (by linarith)))
    have hlt' : (r : ℚ) < 100 * n + 50 := by exact_mod_cast hlt
    exact ⟨by linarith, by linarith⟩

/-- A number that is rounded to two more places first, ties to even, ends at the same integer
unless the first rounding takes it up to the tie. -/
theorem roundHalfUp_roundHalfEven {x : ℚ} (hx : 0 ≤ x) :
    roundHalfUp (roundHalfEven (x * 10 ^ 2) / 10 ^ 2) = roundHalfUp x ↔
      Int.fract x < 495 / 1000 ∨ 1 / 2 ≤ Int.fract x := by
  have hadd := roundHalfUp_roundHalfEven_add hx le_rfl
  rw [add_zero, add_zero] at hadd
  rw [hadd]
  have hfract := Int.floor_add_fract x
  have hnonneg := Int.fract_nonneg x
  have hlt := Int.fract_lt_one x
  rcases lt_or_ge (Int.fract x) (1 / 2) with hlow | hhigh
  · have hshift : Int.fract (x + 1 / 2) = Int.fract x + 1 / 2 := by
      refine Int.fract_eq_iff.mpr ⟨by linarith, by linarith, ⌊x⌋, by linarith⟩
    rw [hshift]
    constructor
    · exact fun h => .inl (by linarith)
    · rintro (h | h)
      · linarith
      · exact absurd hlow (not_lt.mpr h)
  · have hshift : Int.fract (x + 1 / 2) = Int.fract x - 1 / 2 := by
      refine Int.fract_eq_iff.mpr ⟨by linarith, by linarith, ⌊x⌋ + 1, ?_⟩
      push_cast
      linarith
    rw [hshift]
    exact ⟨fun _ => .inr hhigh, fun _ => by linarith⟩

/-! ## Significant digits -/

/-- The unit in the last of 28 significant digits of `x`. -/
def ulp (x : ℚ) : ℚ := (10 : ℚ) ^ (Int.log 10 |x| - 27)

/-- The default decimal context: 28 significant digits, ties to even. -/
def toContext (x : ℚ) : ℚ := roundHalfEven (x / ulp x) * ulp x

theorem ulp_pos (x : ℚ) : 0 < ulp x := zpow_pos (by norm_num) _

theorem ulp_le {x : ℚ} (hx : x ≠ 0) : ulp x * 10 ^ 27 ≤ |x| := by
  have h := Int.zpow_log_le_self (b := 10) (by norm_num) (abs_pos.mpr hx)
  have hsplit : ulp x * 10 ^ 27 = (10 : ℚ) ^ Int.log 10 |x| := by
    unfold ulp
    rw [← zpow_natCast, ← zpow_add₀ (by norm_num : (10 : ℚ) ≠ 0)]
    congr 1
    push_cast
    ring
  rw [hsplit]
  exact_mod_cast h

@[simp] theorem toContext_zero : toContext 0 = 0 := by
  have h : roundHalfEven 0 = 0 := by simpa using roundHalfEven_intCast 0
  simp [toContext, h]

theorem toContext_nonneg {x : ℚ} (h : 0 ≤ x) : 0 ≤ toContext x := by
  have hu := ulp_pos x
  have hr : (0 : ℚ) ≤ roundHalfEven (x / ulp x) := by
    exact_mod_cast roundHalfEven_nonneg (div_nonneg h hu.le)
  exact mul_nonneg hr hu.le

/-- The context is off by at most half a unit in the last digit. -/
theorem abs_toContext_sub_le (x : ℚ) : |toContext x - x| ≤ |x| / (2 * 10 ^ 27) := by
  rcases eq_or_ne x 0 with rfl | hx
  · simp
  have hu := ulp_pos x
  have hr := abs_roundHalfEven_sub_le (x / ulp x)
  have hsplit : toContext x - x = (roundHalfEven (x / ulp x) - x / ulp x) * ulp x := by
    unfold toContext
    field_simp
  calc |toContext x - x|
      = |(roundHalfEven (x / ulp x) : ℚ) - x / ulp x| * ulp x := by
        rw [hsplit, abs_mul, abs_of_pos hu]
    _ ≤ 1 / 2 * ulp x := by gcongr
    _ ≤ 1 / 2 * (|x| / 10 ^ 27) := by
        gcongr
        rw [le_div_iff₀ (by positivity)]
        exact ulp_le hx
    _ = |x| / (2 * 10 ^ 27) := by ring

/-- A product and a quotient, each rounded, are off by two units at most. -/
theorem abs_toContext_div_sub_le (x y : ℚ) :
    |toContext (toContext x / y) - x / y| ≤ 2 * |x / y| / 10 ^ 27 := by
  have hx := abs_toContext_sub_le x
  have hdiv : |toContext x / y - x / y| ≤ |x / y| / (2 * 10 ^ 27) := by
    rw [← sub_div, abs_div, abs_div]
    rw [div_right_comm]
    gcongr
  have hlast := abs_toContext_sub_le (toContext x / y)
  have hsize : |toContext x / y| ≤ |x / y| + |x / y| / (2 * 10 ^ 27) := by
    have htri := abs_add_le (x / y) (toContext x / y - x / y)
    rw [add_sub_cancel] at htri
    linarith
  have htri := abs_add_le (toContext (toContext x / y) - toContext x / y)
    (toContext x / y - x / y)
  rw [sub_add_sub_cancel] at htri
  have hnonneg : 0 ≤ |x / y| := abs_nonneg _
  calc |toContext (toContext x / y) - x / y|
      ≤ |toContext x / y| / (2 * 10 ^ 27) + |x / y| / (2 * 10 ^ 27) := by linarith
    _ ≤ (|x / y| + |x / y| / (2 * 10 ^ 27)) / (2 * 10 ^ 27) + |x / y| / (2 * 10 ^ 27) := by gcongr
    _ = |x / y| * (2 + 1 / (2 * 10 ^ 27)) / (2 * 10 ^ 27) := by ring
    _ ≤ |x / y| * 4 / (2 * 10 ^ 27) := by
        gcongr
        norm_num
    _ = 2 * |x / y| / 10 ^ 27 := by ring

/-- A number of at most 28 digits is left alone. -/
theorem toContext_of_digits {x : ℚ} {n k : ℤ} (hx : x = n * (10 : ℚ) ^ k)
    (hn : |n| < 10 ^ 28) : toContext x = x := by
  rcases eq_or_ne x 0 with rfl | hx0
  · exact toContext_zero
  have hten : (10 : ℚ) ≠ 0 := by norm_num
  have hpow : (0 : ℚ) < 10 ^ k := zpow_pos (by norm_num) k
  have habs : |x| < (10 : ℚ) ^ (k + 28) := by
    have hn' : |(n : ℚ)| < 10 ^ 28 := by exact_mod_cast hn
    have h28 : (10 : ℚ) ^ (k + 28) = 10 ^ 28 * 10 ^ k := by
      rw [zpow_add₀ hten, mul_comm]
      norm_num
    rw [hx, abs_mul, abs_of_pos hpow, h28]
    exact mul_lt_mul_of_pos_right hn' hpow
  have hlog : Int.log 10 |x| < k + 28 :=
    (Int.lt_zpow_iff_log_lt (b := 10) (by norm_num) (abs_pos.mpr hx0)).mp (by exact_mod_cast habs)
  obtain ⟨j, hj⟩ := Int.eq_ofNat_of_zero_le (show 0 ≤ k - (Int.log 10 |x| - 27) by omega)
  -- The unit divides `10 ^ k`, so the quotient is an integer.
  have hquot : x / ulp x = ((n * 10 ^ j : ℤ) : ℚ) := by
    have hk : (10 : ℚ) ^ k = 10 ^ j * ulp x := by
      unfold ulp
      rw [← zpow_natCast, ← zpow_add₀ hten]
      congr 1
      omega
    rw [div_eq_iff (ulp_pos x).ne']
    calc x = n * (10 : ℚ) ^ k := hx
      _ = ((n * 10 ^ j : ℤ) : ℚ) * ulp x := by
        rw [hk]
        push_cast
        ring
  unfold toContext
  rw [hquot, roundHalfEven_intCast, ← hquot, div_mul_cancel₀ _ (ulp_pos x).ne']

theorem ulp_mul (x : ℚ) : ulp x * 10 ^ 28 = (10 : ℚ) ^ (Int.log 10 |x| + 1) := by
  unfold ulp
  rw [← zpow_natCast, ← zpow_add₀ (by norm_num : (10 : ℚ) ≠ 0)]
  congr 1
  push_cast
  ring

/-- What is rounded has at most 28 digits. -/
theorem toContext_digits (x : ℚ) : ∃ n k : ℤ, |n| < 10 ^ 28 ∧ toContext x = n * (10 : ℚ) ^ k := by
  have hlog := Int.lt_zpow_succ_log_self (b := 10) (by norm_num) (|x|)
  have hquot : |x / ulp x| < 10 ^ 28 := by
    rw [abs_div, abs_of_pos (ulp_pos x), div_lt_iff₀ (ulp_pos x), mul_comm, ulp_mul]
    exact_mod_cast hlog
  have hround := abs_roundHalfEven_sub_le (x / ulp x)
  have hle : |roundHalfEven (x / ulp x)| ≤ 10 ^ 28 := by
    have htri := abs_sub_abs_le_abs_sub (roundHalfEven (x / ulp x) : ℚ) (x / ulp x)
    have hlt : |(roundHalfEven (x / ulp x) : ℚ)| < 10 ^ 28 + 1 := by linarith
    have hlt' : |roundHalfEven (x / ulp x)| < 10 ^ 28 + 1 := by exact_mod_cast hlt
    omega
  rcases hle.lt_or_eq with hlt | heq
  · exact ⟨_, _, hlt, rfl⟩
  · -- The carry into a 29th digit leaves a power of ten.
    rcases (abs_eq (by norm_num)).mp heq with hcarry | hcarry
    · refine ⟨1, Int.log 10 |x| + 1, by norm_num, ?_⟩
      rw [toContext, hcarry, ← ulp_mul]
      push_cast
      ring
    · refine ⟨-1, Int.log 10 |x| + 1, by norm_num, ?_⟩
      rw [toContext, hcarry, ← ulp_mul]
      push_cast
      ring

/-- Rounding a second time changes nothing. -/
theorem toContext_toContext (x : ℚ) : toContext (toContext x) = toContext x := by
  obtain ⟨n, k, hn, hx⟩ := toContext_digits x
  exact toContext_of_digits hx hn

/-- Rounding to digits does not cross a power of ten. -/
theorem zpow_le_toContext {x : ℚ} {k : ℤ} (h : (10 : ℚ) ^ k ≤ x) : (10 : ℚ) ^ k ≤ toContext x := by
  have hten : (10 : ℚ) ≠ 0 := by norm_num
  have hx : 0 < x := (zpow_pos (by norm_num) k).trans_le h
  have hlog : k ≤ Int.log 10 |x| := by
    rw [abs_of_pos hx]
    exact (Int.zpow_le_iff_le_log (b := 10) (by norm_num) hx).mp (by exact_mod_cast h)
  have hulp : ulp x * 10 ^ 27 = (10 : ℚ) ^ Int.log 10 |x| := by
    unfold ulp
    rw [← zpow_natCast, ← zpow_add₀ hten]
    congr 1
    push_cast
    ring
  have hquot : (((10 ^ 27 : ℤ)) : ℚ) ≤ x / ulp x := by
    rw [le_div_iff₀ (ulp_pos x), mul_comm]
    have hle := ulp_le hx.ne'
    rw [abs_of_pos hx] at hle
    push_cast
    exact hle
  have hround : ((10 ^ 27 : ℤ) : ℚ) ≤ roundHalfEven (x / ulp x) := by
    exact_mod_cast le_roundHalfEven hquot
  calc (10 : ℚ) ^ k
      ≤ (10 : ℚ) ^ Int.log 10 |x| := zpow_le_zpow_right₀ (by norm_num) hlog
    _ = ((10 ^ 27 : ℤ) : ℚ) * ulp x := by
        rw [← hulp]
        push_cast
        ring
    _ ≤ toContext x := mul_le_mul_of_nonneg_right hround (ulp_pos x).le

theorem toContext_le_zpow (x : ℚ) : toContext x ≤ (10 : ℚ) ^ (Int.log 10 |x| + 1) := by
  have hlog := Int.lt_zpow_succ_log_self (b := 10) (by norm_num) (|x|)
  have hquot : x / ulp x ≤ ((10 ^ 28 : ℤ) : ℚ) := by
    rw [Int.cast_pow, Int.cast_ofNat, div_le_iff₀ (ulp_pos x), mul_comm, ulp_mul]
    exact_mod_cast (le_abs_self x).trans hlog.le
  have hround : (roundHalfEven (x / ulp x) : ℚ) ≤ ((10 ^ 28 : ℤ) : ℚ) := by
    have hmono := roundHalfEven_mono hquot
    rw [roundHalfEven_intCast] at hmono
    exact_mod_cast hmono
  calc toContext x
      ≤ ((10 ^ 28 : ℤ) : ℚ) * ulp x := mul_le_mul_of_nonneg_right hround (ulp_pos x).le
    _ = (10 : ℚ) ^ (Int.log 10 |x| + 1) := by
        rw [← ulp_mul]
        push_cast
        ring

/-- Rounding to digits keeps the order. -/
theorem toContext_mono {x y : ℚ} (hx : 0 ≤ x) (h : x ≤ y) : toContext x ≤ toContext y := by
  rcases hx.eq_or_lt with rfl | hpos
  · rw [toContext_zero]
    exact toContext_nonneg h
  have hy : 0 < y := hpos.trans_le h
  have hlog : Int.log 10 |x| ≤ Int.log 10 |y| := by
    rw [abs_of_pos hpos, abs_of_pos hy]
    exact Int.log_mono_right hpos h
  rcases hlog.eq_or_lt with hsame | hless
  · have hulp : ulp x = ulp y := by rw [ulp, ulp, hsame]
    have hround : roundHalfEven (x / ulp y) ≤ roundHalfEven (y / ulp y) :=
      roundHalfEven_mono (div_le_div_of_nonneg_right h (ulp_pos y).le)
    rw [toContext, toContext, hulp]
    exact mul_le_mul_of_nonneg_right (by exact_mod_cast hround) (ulp_pos y).le
  · calc toContext x
        ≤ (10 : ℚ) ^ (Int.log 10 |x| + 1) := toContext_le_zpow x
      _ ≤ (10 : ℚ) ^ Int.log 10 |y| := zpow_le_zpow_right₀ (by norm_num) hless
      _ ≤ toContext y := by
          refine zpow_le_toContext ?_
          have hself := Int.zpow_log_le_self (b := 10) (by norm_num) hy
          rw [abs_of_pos hy]
          exact_mod_cast hself

/-- Rounding to digits and then to places is rounding to places with half a unit of the last digit
added: a tie of the places is an even number of these units, so what reaches it from below is taken
up to it. -/
theorem roundHalfUp_toContext {places : ℕ} {x : ℚ} (hx : 0 ≤ x)
    (hplaces : Int.log 10 |x| + places ≤ 25) :
    roundHalfUp (toContext x * 10 ^ places) = roundHalfUp ((x + ulp x / 2) * 10 ^ places) := by
  have hten : (10 : ℚ) ≠ 0 := by norm_num
  have hulp := ulp_pos x
  have hcontext := toContext_nonneg hx
  refine eq_of_forall_le_iff fun n => ?_
  rw [le_roundHalfUp_iff (by positivity), le_roundHalfUp_iff (by positivity)]
  obtain ⟨j, hj⟩ := Int.eq_ofNat_of_zero_le
    (show 0 ≤ 25 - (Int.log 10 |x| + places) by linarith)
  have htie : (((2 * n - 1) * 5 * 10 ^ (j + 1) : ℤ) : ℚ) * ulp x * 10 ^ places = n - 1 / 2 := by
    have hunits : (10 : ℚ) ^ (j + 1) * ulp x * 10 ^ places = 10 ^ (-1 : ℤ) := by
      unfold ulp
      rw [← zpow_natCast, ← zpow_natCast, ← zpow_add₀ hten, ← zpow_add₀ hten]
      congr 1
      push_cast
      linarith
    push_cast
    rw [mul_assoc, mul_assoc, ← mul_assoc ((10 : ℚ) ^ (j + 1)), hunits]
    norm_num
    ring
  have heven : ((2 * n - 1) * 5 * 10 ^ (j + 1) : ℤ) % 2 = 0 :=
    Int.emod_eq_zero_of_dvd ⟨(2 * n - 1) * 5 * 10 ^ j * 5, by ring⟩
  generalize ((2 * n - 1) * 5 * 10 ^ (j + 1) : ℤ) = tie at htie heven
  have hscale : 0 < ulp x * 10 ^ places := by positivity
  have hround : (tie : ℚ) ≤ roundHalfEven (x / ulp x) ↔ tie - 1 / 2 ≤ x / ulp x := by
    rw [Int.cast_le]
    exact even_le_roundHalfEven_iff heven
  have hadd : (x + ulp x / 2) * 10 ^ places = (x / ulp x + 1 / 2) * (ulp x * 10 ^ places) := by
    field_simp
  rw [← htie, toContext, mul_assoc, mul_assoc, hadd, mul_le_mul_iff_left₀ hscale,
    mul_le_mul_iff_left₀ hscale, hround, sub_le_iff_le_add]

/-! ## Sums -/

/-- `acc` is what the context makes of the sum `value` of terms with so many decimal
places: the sum itself, unless it has outgrown the digits. -/
structure Accumulates (places : ℕ) (acc value : ℚ) : Prop where
  scaled : ∃ n : ℤ, value = n * (10 : ℚ) ^ (-(places : ℤ))
  nonneg : 0 ≤ value
  exact : acc = value ∨ (10 : ℚ) ^ (28 - (places : ℤ)) ≤ acc
  large : acc = value ∨ (10 : ℚ) ^ (28 - (places : ℤ)) ≤ value

theorem Accumulates.zero (places : ℕ) : Accumulates places 0 0 :=
  ⟨⟨0, by simp⟩, le_rfl, .inl rfl, .inl rfl⟩

theorem Accumulates.acc_nonneg {places : ℕ} {acc value : ℚ} (h : Accumulates places acc value) :
    0 ≤ acc := by
  rcases h.exact with rfl | hbig
  · exact h.nonneg
  · exact (zpow_pos (by norm_num : (0 : ℚ) < 10) _).le.trans hbig

theorem toContext_of_lt {places : ℕ} {x : ℚ} (hscaled : ∃ n : ℤ, x = n * (10 : ℚ) ^ (-(places : ℤ)))
    (hx : 0 ≤ x) (hlt : x < (10 : ℚ) ^ (28 - (places : ℤ))) : toContext x = x := by
  obtain ⟨n, hn⟩ := hscaled
  have hpow : (0 : ℚ) < 10 ^ (-(places : ℤ)) := zpow_pos (by norm_num) _
  refine toContext_of_digits hn ?_
  have hn0 : (0 : ℚ) ≤ n := by
    rw [hn] at hx
    exact nonneg_of_mul_nonneg_left hx hpow
  have hlt' : (n : ℚ) < 10 ^ 28 := by
    rw [hn, sub_eq_add_neg, zpow_add₀ (by norm_num)] at hlt
    exact_mod_cast lt_of_mul_lt_mul_right hlt hpow.le
  rw [abs_of_nonneg (by exact_mod_cast hn0)]
  exact_mod_cast hlt'

theorem toContext_scaled {places : ℕ} {x : ℚ} (hscaled : ∃ n : ℤ, x = n * (10 : ℚ) ^ (-(places : ℤ)))
    (hx : 0 ≤ x) : toContext x = x ∨ (10 : ℚ) ^ (28 - (places : ℤ)) ≤ toContext x ∧
      (10 : ℚ) ^ (28 - (places : ℤ)) ≤ x := by
  rcases lt_or_ge x ((10 : ℚ) ^ (28 - (places : ℤ))) with hlt | hge
  · exact .inl (toContext_of_lt hscaled hx hlt)
  · exact .inr ⟨zpow_le_toContext hge, hge⟩

/-- One more term, rounded on its own and in the sum. -/
theorem Accumulates.add {places : ℕ} {acc value term : ℚ} (h : Accumulates places acc value)
    (hscaled : ∃ n : ℤ, term = n * (10 : ℚ) ^ (-(places : ℤ))) (hterm : 0 ≤ term) :
    Accumulates places (toContext (acc + toContext term)) (value + term) := by
  have hsum : ∃ n : ℤ, value + term = n * (10 : ℚ) ^ (-(places : ℤ)) := by
    obtain ⟨m, hm⟩ := h.scaled
    obtain ⟨n, hn⟩ := hscaled
    exact ⟨m + n, by rw [hm, hn]; push_cast; ring⟩
  have hrounded := toContext_nonneg hterm
  have hscaledTerm := toContext_scaled hscaled hterm
  have hscaledSum := toContext_scaled hsum (add_nonneg h.nonneg hterm)
  refine ⟨hsum, add_nonneg h.nonneg hterm, ?_, ?_⟩
  · rcases h.exact with rfl | hbig
    · rcases hscaledTerm with hexact | ⟨hbig, -⟩
      · rw [hexact]
        exact hscaledSum.imp_right And.left
      · exact .inr (zpow_le_toContext (hbig.trans (le_add_of_nonneg_left h.nonneg)))
    · exact .inr (zpow_le_toContext (hbig.trans (le_add_of_nonneg_right hrounded)))
  · rcases h.large with rfl | hbig
    · rcases hscaledTerm with hexact | ⟨-, hbig⟩
      · rw [hexact]
        exact hscaledSum.imp_right And.right
      · exact .inr (hbig.trans (le_add_of_nonneg_left h.nonneg))
    · exact .inr (hbig.trans (le_add_of_nonneg_right hterm))

/-! ## Decimal places -/

/-- `quantize` to `places` decimal places with `ROUND_HALF_UP`. -/
def quantize (places : ℕ) (x : ℚ) : ℚ := roundHalfUp (x * 10 ^ places) / 10 ^ places

/-- A column `NUMERIC(precision, scale)`: the stored integer, or `none` when it
does not fit. -/
def numeric (precision scale : ℕ) (x : ℚ) : Option ℤ :=
  if |roundHalfUp (x * 10 ^ scale)| < 10 ^ precision then some (roundHalfUp (x * 10 ^ scale))
  else none

/-- `sum` of decimals, from zero on the left. -/
def decimalSum (xs : List ℚ) : ℚ := xs.foldl (fun acc x => toContext (acc + x)) 0

theorem toContext_of_places {places : ℕ} {n : ℤ} (hn : |n| < 10 ^ 28) :
    toContext ((n : ℚ) / 10 ^ places) = n / 10 ^ places := by
  refine toContext_of_digits (n := n) (k := -(places : ℤ)) ?_ hn
  rw [zpow_neg, zpow_natCast, div_eq_mul_inv]

/-- The sum of decimals of as many places is exact while 28 digits are enough. -/
theorem decimalSum_of_places {places : ℕ} {ns : List ℤ} (h : (ns.map (|·|)).sum < 10 ^ 28) :
    decimalSum (ns.map fun n : ℤ => (n : ℚ) / 10 ^ places) = (ns.sum : ℤ) / 10 ^ places := by
  have hfold : ∀ acc : ℤ, |acc| + (ns.map (|·|)).sum < 10 ^ 28 →
      (ns.map fun n : ℤ => (n : ℚ) / 10 ^ places).foldl (fun acc x => toContext (acc + x))
        (acc / 10 ^ places) = ((acc + ns.sum : ℤ) : ℚ) / 10 ^ places := by
    clear h
    induction ns with
    | nil =>
        intro acc _
        simp
    | cons n ns ih =>
        intro acc hacc
        rw [List.map_cons, List.sum_cons] at hacc
        have hrest : 0 ≤ (ns.map (|·|)).sum :=
          List.sum_nonneg (by simp)
        have hsum : |acc + n| ≤ |acc| + |n| := abs_add_le acc n
        have hstep : toContext ((acc : ℚ) / 10 ^ places + n / 10 ^ places)
            = ((acc + n : ℤ) : ℚ) / 10 ^ places := by
          rw [← add_div, ← Int.cast_add]
          exact toContext_of_places (by linarith)
        rw [List.map_cons, List.foldl_cons, hstep, ih (acc + n) (by linarith), List.sum_cons,
          add_assoc]
  have hzero := hfold 0 (by simpa using h)
  rw [Int.cast_zero, zero_div, zero_add] at hzero
  exact hzero

end Foundations
