import Mathlib.Tactic.Common
import Mathlib.Data.Nat.Basic

/-!
# Days of the calendar

The days of the Gregorian calendar are numbered from the first of January of year 1 on.  The days
between two dates are the difference of their numbers, and a later date has a larger number
(`ordinal_lt`).
-/

namespace Foundations

/-- The years with a 29th of February. -/
def isLeap (year : ℕ) : Bool := year % 4 = 0 && (year % 100 ≠ 0 || year % 400 = 0)

def daysInMonth (year : ℕ) : ℕ → ℕ
  | 2 => if isLeap year then 29 else 28
  | 4 | 6 | 9 | 11 => 30
  | _ => 31

/-- The days of the years before a year. -/
def daysBeforeYear (year : ℕ) : ℕ :=
  (year - 1) * 365 + (year - 1) / 4 - (year - 1) / 100 + (year - 1) / 400

/-- The days of the months of a year before a month. -/
def daysBeforeMonth (year : ℕ) : ℕ → ℕ
  | 0 => 0
  | 1 => 0
  | month + 2 => daysBeforeMonth year (month + 1) + daysInMonth year (month + 1)

/-- The number of a date. -/
def ordinal (year month day : ℕ) : ℕ := daysBeforeYear year + daysBeforeMonth year month + day

/-- The calendar has such a day. -/
def IsCalendarDay (year month day : ℕ) : Prop :=
  (1 ≤ year ∧ 1 ≤ month) ∧ month ≤ 12 ∧ 1 ≤ day ∧ day ≤ daysInMonth year month

instance (year month day : ℕ) : Decidable (IsCalendarDay year month day) :=
  inferInstanceAs (Decidable (_ ∧ _))

variable {year year' month month' day day' : ℕ}

theorem daysBeforeMonth_succ (hmonth : 1 ≤ month) :
    daysBeforeMonth year (month + 1) = daysBeforeMonth year month + daysInMonth year month := by
  cases month with
  | zero => omega
  | succ month => rfl

/-- A month is over when a later one begins. -/
theorem daysBeforeMonth_le (year : ℕ) (hmonth : 1 ≤ month) (hlt : month < month') :
    daysBeforeMonth year month + daysInMonth year month ≤ daysBeforeMonth year month' := by
  induction month' with
  | zero => omega
  | succ month' ih =>
      rw [← daysBeforeMonth_succ hmonth]
      rcases Nat.lt_succ_iff_lt_or_eq.mp hlt with hbefore | rfl
      · have hle := ih hbefore
        rw [← daysBeforeMonth_succ hmonth] at hle
        rw [daysBeforeMonth_succ (by omega : 1 ≤ month')]
        omega
      · exact le_rfl

/-- The days of a year. -/
theorem daysBeforeMonth_thirteen (year : ℕ) :
    daysBeforeMonth year 13 = if isLeap year then 366 else 365 := by
  simp only [daysBeforeMonth, daysInMonth]
  split
  · rfl
  · rfl

theorem daysBeforeYear_succ (hyear : 1 ≤ year) :
    daysBeforeYear (year + 1) = daysBeforeYear year + daysBeforeMonth year 13 := by
  rw [daysBeforeMonth_thirteen]
  obtain ⟨n, rfl⟩ : ∃ n, year = n + 1 := ⟨year - 1, by omega⟩
  have hcentury : (n + 1) % 100 = 0 → (n + 1) % 4 = 0 := by omega
  have hfourth : (n + 1) % 400 = 0 → (n + 1) % 100 = 0 := by omega
  have hfewer : n / 100 ≤ n / 4 := Nat.div_le_div_left (by decide) (by decide)
  simp only [daysBeforeYear, isLeap, Nat.add_sub_cancel, Bool.and_eq_true, Bool.or_eq_true,
    decide_eq_true_eq, Nat.succ_div, Nat.dvd_iff_mod_eq_zero]
  generalize n / 4 = fourths, n / 100 = centuries, n / 400 = cycles at *
  generalize (n + 1) % 4 = a, (n + 1) % 100 = b, (n + 1) % 400 = c at *
  split_ifs <;> omega

/-- A year is over when a later one begins. -/
theorem daysBeforeYear_le (hyear : 1 ≤ year) (hlt : year < year') :
    daysBeforeYear year + daysBeforeMonth year 13 ≤ daysBeforeYear year' := by
  induction year' with
  | zero => omega
  | succ year' ih =>
      rw [← daysBeforeYear_succ hyear]
      rcases Nat.lt_succ_iff_lt_or_eq.mp hlt with hbefore | rfl
      · have hle := ih hbefore
        rw [← daysBeforeYear_succ hyear] at hle
        rw [daysBeforeYear_succ (by omega : 1 ≤ year')]
        omega
      · exact le_rfl

/-- A later day has a larger number. -/
theorem ordinal_lt (h : IsCalendarDay year month day) (h' : IsCalendarDay year' month' day')
    (hlt : year < year' ∨ year = year' ∧ (month < month' ∨ month = month' ∧ day < day')) :
    ordinal year month day < ordinal year' month' day' := by
  obtain ⟨⟨hyear, hmonth⟩, htwelve, -, hday⟩ := h
  obtain ⟨-, -, hday', -⟩ := h'
  unfold ordinal
  rcases hlt with hyears | ⟨rfl, hmonths | ⟨rfl, hdays⟩⟩
  · have hover := daysBeforeYear_le hyear hyears
    have hmonthOver := daysBeforeMonth_le year hmonth (by omega : month < 13)
    omega
  · have hover := daysBeforeMonth_le year hmonth hmonths
    omega
  · omega

end Foundations
