import Nexora.Foundations.Calendar
import Nexora.Foundations.Delimited
import Mathlib.Data.Int.Basic
import Mathlib.Data.List.DropRight

/-!
# Timestamps as text

The ISO text of an instant: the local date and time, and the offset of the time zone from UTC.  The
offset can be read back, so two texts of one instant are the same only if the offsets are
(`isoTimestamp_eq_iff`).
-/

namespace Foundations

/-! ## Numerals -/

/-- A decimal numeral of at least so many digits. -/
def padded (width n : ℕ) : List Char := (Nat.toDigits 10 n).leftpad width '0'

theorem padded_injective (width : ℕ) : Function.Injective (padded width) := by
  intro m n h
  have hread (k : ℕ) : Nat.ofDigitChars 10 (padded width k) 0 = k := by
    rw [padded, List.leftpad, Nat.ofDigitChars_append, Nat.ofDigitChars_replicate_zero, Nat.mul_zero,
      Nat.ofDigitChars_ten_toDigits]
  rw [← hread m, h, hread]

theorem notMem_padded {c : Char} (h : c.isDigit = false) (width n : ℕ) : c ∉ padded width n := by
  rw [padded, List.leftpad, List.mem_append, List.mem_replicate]
  rintro (⟨-, rfl⟩ | hmem)
  · cases h
  · exact notMem_toDigits h n hmem

/-! ## Dates and times -/

/-- The year, month and day so many days after the first of January 1970. -/
def civilDate (days : ℤ) : ℕ × ℕ × ℕ :=
  let z := (days + 719468).toNat
  let era := z / 146097
  let doe := z % 146097
  let yoe := (doe - doe / 1460 + doe / 36524 - doe / 146096) / 365
  let doy := doe - (365 * yoe + yoe / 4 - yoe / 100)
  let mp := (5 * doy + 2) / 153
  let month := if mp < 10 then mp + 3 else mp - 9
  (yoe + era * 400 + (if month ≤ 2 then 1 else 0), month, doy - (153 * mp + 2) / 5 + 1)

/-- The fraction of a second in microseconds, without the zeros at its end. -/
def fractionText (micros : ℕ) : List Char :=
  if micros = 0 then [] else '.' :: (padded 6 micros).rdropWhile (· = '0')

/-- The local date and time, in microseconds since the first of January 1970. -/
def localText (micros : ℤ) : List Char :=
  let (year, month, day) := civilDate (micros / 86400000000)
  let time := (micros % 86400000000).toNat
  padded 4 year ++ '-' :: padded 2 month ++ '-' :: padded 2 day ++ ' ' ::
    padded 2 (time / 3600000000) ++ ':' :: padded 2 (time / 60000000 % 60) ++ ':' ::
    padded 2 (time / 1000000 % 60) ++ fractionText (time % 1000000)

/-- The hours of an offset, with its minutes and seconds where there are some. -/
def offsetParts (seconds : ℕ) : List ℕ :=
  if seconds % 60 ≠ 0 then [seconds / 3600, seconds / 60 % 60, seconds % 60]
  else if seconds / 60 % 60 ≠ 0 then [seconds / 3600, seconds / 60 % 60]
  else [seconds / 3600]

/-- The offset in seconds east of UTC. -/
def offsetText (offset : ℤ) : List Char :=
  (if 0 ≤ offset then '+' else '-') ::
    [':'].intercalate ((offsetParts offset.natAbs).map (padded 2))

/-- The text of an instant, in microseconds since the first of January 1970, at an offset in seconds
east of UTC. -/
def isoTimestamp (offset : ℤ) (micros : ℕ) : String :=
  .ofList (localText (micros + offset * 1000000) ++ offsetText offset)

/-! ## Offsets -/

theorem offsetParts_injective : Function.Injective offsetParts := by
  intro a b h
  simp only [offsetParts] at h
  split_ifs at h <;> simp at h <;> omega

theorem offsetParts_ne_nil (seconds : ℕ) : offsetParts seconds ≠ [] := by
  rw [offsetParts]
  split_ifs <;> simp

/-- The parts of an offset stand between colons. -/
theorem offset_digits_injective :
    Function.Injective fun seconds => [':'].intercalate ((offsetParts seconds).map (padded 2)) := by
  intro a b h
  have hread (seconds : ℕ) :
      ([':'].intercalate ((offsetParts seconds).map (padded 2))).splitOn ':'
        = (offsetParts seconds).map (padded 2) := by
    refine List.splitOn_intercalate _ (fun field hfield => ?_) (by simp [offsetParts_ne_nil])
    obtain ⟨n, -, rfl⟩ := List.mem_map.mp hfield
    exact notMem_padded (by decide) 2 n
  have hparts := (hread a).symm.trans ((congrArg (List.splitOn ':') h).trans (hread b))
  exact offsetParts_injective ((padded_injective 2).list_map hparts)

theorem notMem_offset_digits {c : Char} (hdigit : c.isDigit = false) (hcolon : c ≠ ':')
    (seconds : ℕ) : c ∉ [':'].intercalate ((offsetParts seconds).map (padded 2)) := by
  have hparts (parts : List ℕ) : c ∉ [':'].intercalate (parts.map (padded 2)) := by
    induction parts with
    | nil => simp
    | cons n parts ih =>
        cases parts with
        | nil => simpa using notMem_padded hdigit 2 n
        | cons m parts =>
            simp only [List.map_cons, List.intercalate_cons_cons, List.mem_append,
              List.mem_singleton, not_or]
            exact ⟨⟨notMem_padded hdigit 2 n, hcolon⟩, ih⟩
  exact hparts _

/-- What stands after the last of some characters. -/
theorem append_cons_inj_last {p : Char → Prop} {before before' rest rest' : List Char} {c c' : Char}
    (hc : p c) (hc' : p c') (hrest : ∀ d ∈ rest, ¬p d) (hrest' : ∀ d ∈ rest', ¬p d)
    (h : before ++ c :: rest = before' ++ c' :: rest') : c = c' ∧ rest = rest' := by
  rcases List.append_eq_append_iff.mp h with ⟨middle, -, hcons⟩ | ⟨middle, -, hcons⟩
  · cases middle with
    | nil => exact List.cons.inj hcons
    | cons d middle =>
        obtain ⟨-, rfl⟩ := List.cons.inj hcons
        exact absurd hc' (hrest c' (by simp))
  · cases middle with
    | nil =>
        obtain ⟨rfl, rfl⟩ := List.cons.inj hcons
        exact ⟨rfl, rfl⟩
    | cons d middle =>
        obtain ⟨-, rfl⟩ := List.cons.inj hcons
        exact absurd hc (hrest' c (by simp))

/-- The sign of the offset is the last one in the text. -/
theorem offsetText_inj {offset offset' : ℤ} {before before' : List Char}
    (h : before ++ offsetText offset = before' ++ offsetText offset') : offset = offset' := by
  have hdigits (seconds : ℕ) :
      ∀ d ∈ [':'].intercalate ((offsetParts seconds).map (padded 2)), ¬(d = '+' ∨ d = '-') := by
    rintro d hd (rfl | rfl)
    · exact notMem_offset_digits (by decide) (by decide) seconds hd
    · exact notMem_offset_digits (by decide) (by decide) seconds hd
  have hsign (o : ℤ) : (if 0 ≤ o then '+' else '-') = '+' ∨ (if 0 ≤ o then '+' else '-') = '-' := by
    split <;> simp
  obtain ⟨hsame, htext⟩ := append_cons_inj_last (hsign offset) (hsign offset') (hdigits _)
    (hdigits _) h
  have habs := offset_digits_injective htext
  split_ifs at hsame with hpos hpos' hpos' <;> first | omega | cases hsame

/-- The texts of one instant are the same at the same offset only. -/
theorem isoTimestamp_eq_iff {offset offset' : ℤ} {micros : ℕ} :
    isoTimestamp offset micros = isoTimestamp offset' micros ↔ offset = offset' := by
  constructor
  · exact fun h => offsetText_inj (String.ofList_injective h)
  · rintro rfl
    rfl

example : isoTimestamp 20700 1709251199250000 = "2024-03-01 05:44:59.25+05:45" := by decide

end Foundations
