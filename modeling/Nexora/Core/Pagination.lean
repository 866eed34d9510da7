import Nexora.Foundations.JsonText

/-!
# Cursors

A cursor is the Base64 text, without its padding, of the JSON text of two strings.  `decode_cursor`
gives back what `encode_cursor` was given, except that a high surrogate and a low one right after it
come back as the code point that they stand for (`decodeCursor_encodeCursor`).
-/

namespace Nexora

open Foundations

/-- `encode_cursor`. -/
def encodeCursor (sortKey resourceId : Str) : Option Str := do
  let payload ← encodeUtf8 (dumpsPair sortKey resourceId)
  return Base64.stripPadding (Base64.urlsafeB64encode payload)

/-- `decode_cursor`, without a value where it raises "Invalid pagination cursor". -/
def decodeCursor (cursor : Str) : Option (Str × Str) := do
  let payload ← Base64.urlsafeB64decode (cursor ++ Base64.padding cursor.length)
  loadsPair payload

theorem encodeCursor_isSome (sortKey resourceId : Str) :
    ∃ cursor, encodeCursor sortKey resourceId = some cursor :=
  ⟨_, by rw [encodeCursor, encodeUtf8_plain (dumpsPair_plain sortKey resourceId)]; rfl⟩

theorem decodeCursor_encodeCursor (sortKey resourceId : Str) :
    (encodeCursor sortKey resourceId).bind decodeCursor
      = some (joined sortKey, joined resourceId) := by
  rw [← loadsPair_dumpsPair, encodeCursor]
  cases encodeUtf8 (dumpsPair sortKey resourceId) with
  | none => rfl
  | some payload =>
      show decodeCursor (Base64.stripPadding (Base64.urlsafeB64encode payload)) = loadsPair payload
      rw [decodeCursor, Base64.urlsafeB64decode_stripped]
      rfl

/-- Strings are given back as they were exactly when their surrogates are apart. -/
theorem decodeCursor_encodeCursor_iff (sortKey resourceId : Str) :
    (encodeCursor sortKey resourceId).bind decodeCursor = some (sortKey, resourceId) ↔
      SurrogatesApart sortKey ∧ SurrogatesApart resourceId := by
  rw [decodeCursor_encodeCursor, Option.some.injEq, Prod.mk.injEq, joined_eq_self_iff,
    joined_eq_self_iff]

/-- `"\ud83d\ude00"`, a string of two surrogates, comes back as a string of one code point. -/
theorem surrogates_joined :
    (encodeCursor [0xD83D, 0xDE00] []).bind decodeCursor = some ([0x1F600], []) ∧
      (encodeCursor [0xD83D, 0xDE00] []).bind decodeCursor ≠ some ([0xD83D, 0xDE00], []) := by
  decide +kernel

/-- No cursor is the empty string. -/
theorem encodeCursor_ne_nil {sortKey resourceId cursor : Str}
    (h : encodeCursor sortKey resourceId = some cursor) : cursor ≠ [] := by
  rintro rfl
  have hdecode := decodeCursor_encodeCursor sortKey resourceId
  rw [h] at hdecode
  have hnil : decodeCursor [] = none := by decide +kernel
  rw [Option.bind_some, hnil] at hdecode
  cases hdecode

end Nexora
