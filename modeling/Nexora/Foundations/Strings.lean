import Mathlib.Data.List.DropRight
import Mathlib.Data.List.Infix

/-!
# Strings

A string is a list of code points, as Python has it: a surrogate is a code point like any other.

The first part is about the ends of a list.  Two lists have the same tail when their last `n`
elements are the same up to the blank ones that these begin with.  Taking blank elements off the
front of a list, and putting one more list behind two lists, both keep the tail (`sameTail_drop`,
`SameTail.append`).

`replace` leaves no match behind where a match begins with an element of its own (`not_infix_replace`).
-/

namespace Foundations

section

variable {α : Type*} {blank : α → Bool}

/-! ## The ends of a list -/

theorem rtake_length_le {n : ℕ} (s : List α) : (s.rtake n).length ≤ s.length := by
  simp [List.rtake]

theorem rtake_of_length_le {n : ℕ} {s : List α} (h : s.length ≤ n) : s.rtake n = s := by
  simp [List.rtake, Nat.sub_eq_zero_of_le h]

theorem rtake_append_of_le {n : ℕ} {s t : List α} (h : n ≤ t.length) :
    (s ++ t).rtake n = t.rtake n := by
  have hdrop : (s ++ t).length - n = s.length + (t.length - n) := by
    rw [List.length_append]
    omega
  rw [List.rtake, List.rtake, hdrop, List.drop_length_add_append]

theorem rtake_append_of_ge {n : ℕ} {s t : List α} (h : t.length ≤ n) :
    (s ++ t).rtake n = s.rtake (n - t.length) ++ t := by
  have hdrop : (s ++ t).length - n = s.length - (n - t.length) := by
    rw [List.length_append]
    omega
  rw [List.rtake, List.rtake, hdrop, List.drop_append_of_le_length (by omega)]

theorem rtake_rtake {m n : ℕ} (s : List α) (h : m ≤ n) : (s.rtake n).rtake m = s.rtake m := by
  rw [List.rtake, List.rtake, List.rtake, List.drop_drop, List.length_drop]
  congr 1
  omega

theorem rtake_suffix (n : ℕ) (s : List α) : s.rtake n <:+ s := List.drop_suffix ..

/-- A list that starts with no blank element is still there when the blanks in front are gone. -/
theorem infix_dropWhile {c : α} {t s : List α} (hc : blank c = false) (h : c :: t <:+: s) :
    c :: t <:+: s.dropWhile blank := by
  induction s with
  | nil => exact h
  | cons d s ih =>
      cases hd : blank d with
      | false => simpa [hd] using h
      | true =>
          rw [List.dropWhile_cons_of_pos hd]
          rcases List.infix_cons_iff.mp h with hfront | hpart
          · rw [(List.cons_prefix_cons.mp hfront).1, hd] at hc
            cases hc
          · exact ih hpart

/-- A list that starts with `a` does not begin in a list without it. -/
theorem infix_of_infix_append {a : α} {t front s : List α} (ha : a ∉ front)
    (h : a :: t <:+: front ++ s) : a :: t <:+: s := by
  induction front with
  | nil => exact h
  | cons c front ih =>
      obtain ⟨hc, hfront⟩ := List.ne_and_not_mem_of_not_mem_cons ha
      rcases List.infix_cons_iff.mp h with hhead | hpart
      · exact absurd (List.cons_prefix_cons.mp hhead).1 hc
      · exact ih hfront hpart

/-- Behind data without a mark, the first mark is the one that ends it.  The mark starts with an element
that is nowhere else in it. -/
theorem eq_nil_of_append_mark {a : α} {mark data front back : List α} (ha : a ∉ mark)
    (hdata : ¬a :: mark <:+: data) (h : data ++ a :: mark = front ++ (a :: mark ++ back)) :
    back = [] := by
  rcases List.append_eq_append_iff.mp h with ⟨between, -, hmark⟩ | ⟨rest, rfl, hrest⟩
  · have hlength := congrArg List.length hmark
    simp only [List.length_append, List.length_cons] at hlength
    exact List.eq_nil_of_length_eq_zero (by omega)
  rcases List.append_eq_append_iff.mp hrest with ⟨after, rfl, -⟩ | ⟨common, hmark, hback⟩
  · exact absurd ⟨front, after, by rw [List.append_assoc]⟩ hdata
  cases rest with
  | nil =>
      rw [List.nil_append] at hmark
      rw [← hmark] at hback
      exact List.append_right_eq_self.mp hback.symm
  | cons c rest =>
      cases common with
      | nil =>
          rw [List.append_nil] at hmark
          exact absurd ⟨front, [], by rw [hmark, List.append_nil]⟩ hdata
      | cons d common =>
          -- the mark would have its first element once more further in
          obtain ⟨-, hmark⟩ := List.cons.inj hmark
          obtain ⟨rfl, -⟩ := List.cons.inj hback
          exact absurd (hmark ▸ List.mem_append_right _ List.mem_cons_self) ha

theorem dropWhile_append_congr {s s' : List α} (t : List α)
    (h : s.dropWhile blank = s'.dropWhile blank) :
    (s ++ t).dropWhile blank = (s' ++ t).dropWhile blank := by
  rw [List.dropWhile_append, List.dropWhile_append, h]

theorem dropWhile_dropWhile (s : List α) :
    (s.dropWhile blank).dropWhile blank = s.dropWhile blank := by
  induction s with
  | nil => rfl
  | cons c s ih =>
      cases hc : blank c with
      | false => simp [hc]
      | true => rw [List.dropWhile_cons_of_pos hc, ih]

/-- The last elements of a list, past the blanks they begin with. -/
theorem dropWhile_rtake_dropWhile (n : ℕ) (s : List α) :
    ((s.dropWhile blank).rtake n).dropWhile blank = (s.rtake n).dropWhile blank := by
  induction s with
  | nil => rfl
  | cons c s ih =>
      cases hc : blank c with
      | false => rw [List.dropWhile_cons_of_neg (by simp [hc])]
      | true =>
          rw [List.dropWhile_cons_of_pos hc, ih]
          rcases Nat.lt_or_ge s.length n with hlong | hshort
          · rw [rtake_of_length_le hlong.le, rtake_of_length_le (s := c :: s) hlong,
              List.dropWhile_cons_of_pos hc]
          · rw [← List.singleton_append, rtake_append_of_le hshort]

/-! ## Tails -/

/-- The last `n` elements of both lists are the same past the blanks they begin with. -/
def SameTail (blank : α → Bool) (n : ℕ) (s t : List α) : Prop :=
  (s.rtake n).dropWhile blank = (t.rtake n).dropWhile blank

theorem SameTail.refl (n : ℕ) (s : List α) : SameTail blank n s s := rfl

theorem SameTail.trans {n : ℕ} {s t u : List α} (hst : SameTail blank n s t)
    (htu : SameTail blank n t u) : SameTail blank n s u := Eq.trans hst htu

theorem SameTail.mono {m n : ℕ} {s t : List α} (h : SameTail blank n s t) (hmn : m ≤ n) :
    SameTail blank m s t := by
  have hshort (u : List α) :
      (u.rtake m).dropWhile blank = (((u.rtake n).dropWhile blank).rtake m).dropWhile blank := by
    rw [dropWhile_rtake_dropWhile, rtake_rtake u hmn]
  rw [SameTail, hshort s, hshort t, h]

theorem sameTail_drop (n : ℕ) (s : List α) : SameTail blank n (s.dropWhile blank) s :=
  dropWhile_rtake_dropWhile n s

theorem sameTail_rtake (n : ℕ) (s : List α) : SameTail blank n (s.rtake n) s := by
  rw [SameTail, rtake_rtake s le_rfl]

theorem SameTail.append {n : ℕ} {s t : List α} (h : SameTail blank n s t) (u : List α) :
    SameTail blank n (s ++ u) (t ++ u) := by
  rw [SameTail]
  rcases Nat.le_total n u.length with hshort | hlong
  · rw [rtake_append_of_le hshort, rtake_append_of_le hshort]
  · rw [rtake_append_of_ge hlong, rtake_append_of_ge hlong]
    exact dropWhile_append_congr u (h.mono (Nat.sub_le n u.length))

/-- Two lists that end with one long list. -/
theorem sameTail_of_le {n : ℕ} (s t : List α) {u : List α} (h : n ≤ u.length) :
    SameTail blank n (s ++ u) (t ++ u) := by
  rw [SameTail, rtake_append_of_le h, rtake_append_of_le h]

/-! ## Lists that end well -/

/-- The list is not empty, and what it ends with is not blank. -/
def EndsPrinted (blank : α → Bool) (s : List α) : Prop := ∃ c ∈ s.getLast?, blank c = false

theorem EndsPrinted.ne_nil {s : List α} (h : EndsPrinted blank s) : s ≠ [] := by
  rintro rfl
  obtain ⟨c, hc, -⟩ := h
  cases hc

theorem EndsPrinted.append_left {s : List α} (h : EndsPrinted blank s) (t : List α) :
    EndsPrinted blank (t ++ s) := by
  obtain ⟨c, hlast, hc⟩ := h
  exact ⟨c, List.mem_getLast?_append_of_mem_getLast? hlast, hc⟩

theorem EndsPrinted.suffix {s t : List α} (h : EndsPrinted blank s) (hsuffix : t <:+ s)
    (hne : t ≠ []) : EndsPrinted blank t := by
  obtain ⟨front, rfl⟩ := hsuffix
  obtain ⟨c, hlast, hc⟩ := h
  refine ⟨c, ?_, hc⟩
  rwa [List.getLast?_append_of_ne_nil _ hne] at hlast

theorem EndsPrinted.rdropWhile {s : List α} (h : EndsPrinted blank s) :
    s.rdropWhile blank = s := by
  obtain ⟨c, hlast, hc⟩ := h
  obtain ⟨front, rfl⟩ := List.getLast?_eq_some_iff.mp hlast
  rw [List.rdropWhile_concat_neg]
  simp [hc]

theorem EndsPrinted.dropWhile_ne_nil {s : List α} (h : EndsPrinted blank s) :
    s.dropWhile blank ≠ [] := by
  obtain ⟨c, hlast, hc⟩ := h
  intro hnil
  rw [List.dropWhile_eq_nil_iff.mp hnil c (List.mem_of_mem_getLast? hlast)] at hc
  cases hc

theorem EndsPrinted.dropWhile_append {s : List α} (h : EndsPrinted blank s) (t : List α) :
    (s ++ t).dropWhile blank = s.dropWhile blank ++ t := by
  rw [List.dropWhile_append, if_neg]
  simpa using h.dropWhile_ne_nil

end

/-! ## Replacement -/

section

variable {α : Type*} [DecidableEq α]

/-- `s.replace(old, new)`.  The elements of a match are passed over. -/
def replaceFrom (old new : List α) (passed : ℕ) : List α → List α
  | [] => []
  | c :: rest =>
      match passed with
      | passed + 1 => replaceFrom old new passed rest
      | 0 =>
          if old <+: c :: rest then new ++ replaceFrom old new (old.length - 1) rest
          else c :: replaceFrom old new 0 rest

/-- `s.replace(old, new)` of an `old` that is not empty. -/
def replace (old new s : List α) : List α := replaceFrom old new 0 s

/-- What starts with `a` only is taken over as it was. -/
theorem prefix_of_prefix_replaceFrom {a : α} {old new t s : List α} (ha : a ∉ t)
    (h : t <+: replaceFrom old (a :: new) 0 s) : t <+: s := by
  induction s generalizing t with
  | nil => exact h
  | cons c rest ih =>
      cases t with
      | nil => exact List.nil_prefix
      | cons d t =>
          rw [replaceFrom] at h
          obtain ⟨hd, ht⟩ := List.ne_and_not_mem_of_not_mem_cons ha
          split at h
          next => exact absurd (List.cons_prefix_cons.mp h).1.symm hd
          next =>
            obtain ⟨rfl, hrest⟩ := List.cons_prefix_cons.mp h
            exact List.cons_prefix_cons.mpr ⟨rfl, ih ht hrest⟩

/-- Replacing leaves no match, where matches begin with an element that is nowhere else in `old` and
`new`, and `new` goes on with another one. -/
theorem not_infix_replace {a b b' : α} {old new : List α} (hold : a ∉ b :: old)
    (hnew : a ∉ b' :: new) (hne : b ≠ b') (s : List α) :
    ¬a :: b :: old <:+: replace (a :: b :: old) (a :: b' :: new) s := by
  suffices h : ∀ passed, ¬a :: b :: old <:+:
      replaceFrom (a :: b :: old) (a :: b' :: new) passed s from h 0
  induction s with
  | nil => simp [replaceFrom]
  | cons c rest ih =>
      intro passed h
      unfold replaceFrom at h
      split at h
      next passed => exact ih passed h
      next =>
        split at h
        next =>
          -- neither at the front of `new` nor further in
          rcases List.infix_cons_iff.mp h with hhead | hpart
          · have hsecond := List.cons_prefix_cons.mp (List.cons_prefix_cons.mp hhead).2
            exact hne hsecond.1
          · exact ih _ (infix_of_infix_append hnew hpart)
        next hfree =>
          rcases List.infix_cons_iff.mp h with hhead | hpart
          · obtain ⟨rfl, hrest⟩ := List.cons_prefix_cons.mp hhead
            exact hfree (List.cons_prefix_cons.mpr ⟨rfl, prefix_of_prefix_replaceFrom hold hrest⟩)
          · exact ih 0 hpart
end

/-! ## Code points -/

/-- A code point. -/
abbrev CodePoint := Fin 0x110000

abbrev Str := List CodePoint

/-- The code point of a character. -/
def ord (c : Char) : CodePoint :=
  ⟨c.toNat, by
    have hvalid : c.toNat.isValidChar := c.valid
    simp only [Nat.isValidChar] at hvalid
    omega⟩

def str (s : String) : Str := s.toList.map ord

/-- `str.isspace` of one code point, and `\s` of a pattern. -/
def isSpace (c : CodePoint) : Bool :=
  let n := c.val
  (0x09 ≤ n && n ≤ 0x0D) || (0x1C ≤ n && n ≤ 0x20) || n == 0x85 || n == 0xA0 || n == 0x1680 ||
    (0x2000 ≤ n && n ≤ 0x200A) || n == 0x2028 || n == 0x2029 || n == 0x202F || n == 0x205F ||
    n == 0x3000

/-- The zeros of Unicode 15.  The other nine decimal digits of a script come after its zero. -/
def decimalZeros : List ℕ :=
  [0x30, 0x660, 0x6F0, 0x7C0, 0x966, 0x9E6, 0xA66, 0xAE6, 0xB66, 0xBE6, 0xC66, 0xCE6, 0xD66, 0xDE6,
    0xE50, 0xED0, 0xF20, 0x1040, 0x1090, 0x17E0, 0x1810, 0x1946, 0x19D0, 0x1A80, 0x1A90, 0x1B50,
    0x1BB0, 0x1C40, 0x1C50, 0xA620, 0xA8D0, 0xA900, 0xA9D0, 0xA9F0, 0xAA50, 0xABF0, 0xFF10,
    0x104A0, 0x10D30, 0x11066, 0x110F0, 0x11136, 0x111D0, 0x112F0, 0x11450, 0x114D0, 0x11650,
    0x116C0, 0x11730, 0x118E0, 0x11950, 0x11C50, 0x11D50, 0x11DA0, 0x11F50, 0x16A60, 0x16AC0,
    0x16B50, 0x1D7CE, 0x1D7D8, 0x1D7E2, 0x1D7EC, 0x1D7F6, 0x1E140, 0x1E2F0, 0x1E4F0, 0x1E950,
    0x1FBF0]

/-- `unicodedata.decimal`, the value of a digit that `\d` matches. -/
def decimalDigit (c : CodePoint) : Option ℕ :=
  (decimalZeros.find? fun first => first ≤ c.val && c.val < first + 10).map (c.val - ·)

/-- `\d` of a pattern. -/
def isDecimalDigit (c : CodePoint) : Bool := (decimalDigit c).isSome

/-- The number that digits spell. -/
def decimalValue (s : Str) : ℕ := s.foldl (fun n c => 10 * n + (decimalDigit c).getD 0) 0

/-- Where `str.splitlines` ends a line. -/
def isLineBreak (c : CodePoint) : Bool :=
  let n := c.val
  (0x0A ≤ n && n ≤ 0x0D) || (0x1C ≤ n && n ≤ 0x1E) || n == 0x85 || n == 0x2028 || n == 0x2029

/-- `s.strip(chars)`. -/
def stripOf (chars : CodePoint → Bool) (s : Str) : Str := (s.dropWhile chars).rdropWhile chars

/-- `s.strip()`. -/
def strip (s : Str) : Str := stripOf isSpace s

/-- `separator.join(parts)`. -/
def joinWith (separator : Str) (parts : List Str) : Str := separator.intercalate parts

theorem joinWith_concat (separator : Str) {parts : List Str} (part : Str) (h : parts ≠ []) :
    joinWith separator (parts ++ [part]) = joinWith separator parts ++ separator ++ part := by
  simp only [joinWith]
  induction parts with
  | nil => exact absurd rfl h
  | cons first parts ih =>
      rw [List.cons_append, List.intercalate_cons_of_ne_nil (by simp)]
      rcases eq_or_ne parts [] with rfl | hne
      · simp
      · rw [ih hne, List.intercalate_cons_of_ne_nil hne]
        simp only [List.append_assoc]

/-- Text that ends in print keeps its end. -/
theorem strip_of_endsPrinted {s : Str} (h : EndsPrinted isSpace s) :
    strip s = s.dropWhile isSpace :=
  (h.suffix (List.dropWhile_suffix _) h.dropWhile_ne_nil).rdropWhile

theorem endsPrinted_strip {s : Str} (h : strip s ≠ []) : EndsPrinted isSpace (strip s) := by
  refine ⟨_, List.getLast?_eq_getLast_of_ne_nil h, ?_⟩
  exact Bool.eq_false_iff.mpr (List.rdropWhile_last_not isSpace (s.dropWhile isSpace) h)

end Foundations
