import Mathlib.Data.List.Basic
import Mathlib.Logic.Function.Basic

/-!
# Delimited texts

Fields written one after another, each closed by a separator, with a last part that may hold
anything.  When no field has the separator in it, the text tells the fields and the last part
(`delimited_inj`).  Decimal numerals have digits only, so they can stand in a field.
-/

namespace Foundations

section

variable {α : Type*}

/-- What stands before the first occurrence of a character, and what stands after it. -/
theorem append_cons_inj {c : α} {before before' after after' : List α}
    (hbefore : c ∉ before) (hbefore' : c ∉ before')
    (h : before ++ c :: after = before' ++ c :: after') : before = before' ∧ after = after' := by
  induction before generalizing before' with
  | nil =>
      cases before' with
      | nil => exact ⟨rfl, (List.cons.inj h).2⟩
      | cons x before' =>
          rw [(List.cons.inj h).1] at hbefore'
          exact absurd (List.mem_cons_self ..) hbefore'
  | cons x before ih =>
      cases before' with
      | nil =>
          rw [(List.cons.inj h).1] at hbefore
          exact absurd (List.mem_cons_self ..) hbefore
      | cons y before' =>
          obtain ⟨rfl, htail⟩ := List.cons.inj h
          rw [List.mem_cons, not_or] at hbefore hbefore'
          obtain ⟨rfl, hafter⟩ := ih hbefore.2 hbefore'.2 htail
          exact ⟨rfl, hafter⟩

/-- The fields, each with a separator after it, and then the rest. -/
def delimited (sep : α) : List (List α) → List α → List α
  | [], rest => rest
  | field :: fields, rest => field ++ sep :: delimited sep fields rest

theorem delimited_inj {sep : α} {fields fields' : List (List α)} {rest rest' : List α}
    (hlength : fields.length = fields'.length) (hfields : ∀ field ∈ fields, sep ∉ field)
    (hfields' : ∀ field ∈ fields', sep ∉ field)
    (h : delimited sep fields rest = delimited sep fields' rest') :
    fields = fields' ∧ rest = rest' := by
  induction fields generalizing fields' with
  | nil =>
      cases fields' with
      | nil => exact ⟨rfl, h⟩
      | cons field' fields' => cases hlength
  | cons field fields ih =>
      cases fields' with
      | nil => cases hlength
      | cons field' fields' =>
          rw [List.forall_mem_cons] at hfields hfields'
          obtain ⟨rfl, htail⟩ := append_cons_inj hfields.1 hfields'.1 h
          obtain ⟨rfl, hrest⟩ := ih (Nat.succ.inj hlength) hfields.2 hfields'.2 htail
          exact ⟨rfl, hrest⟩

end

/-! ## Numerals -/

theorem notMem_toDigits {c : Char} (h : c.isDigit = false) (n : Nat) : c ∉ Nat.toDigits 10 n := by
  intro hmem
  rw [Nat.isDigit_of_mem_toDigits (by decide) (by decide) hmem] at h
  cases h

theorem toString_injective : Function.Injective (fun n : Nat => toString n) := by
  intro m n h
  have hdigits := congrArg String.toList h
  simp only [Nat.toString_eq_repr, Nat.toList_repr] at hdigits
  have hread := congrArg (fun digits => Nat.ofDigitChars 10 digits 0) hdigits
  simpa using hread

end Foundations
