import Nexora.Foundations.CanonicalJson
import Nexora.Idempotency.Claim

/-!
# The hash of a request

`request_hash` of `app/modules/idempotency/service.py`, on the JSON of a request body.  SHA-256 is a
parameter.  As long as it does not collide, two bodies have one hash exactly when they are the same up to the
order of the members of objects (`requestHash_eq_iff`), so what a key promises, it promises of such bodies
(`contents_idempotent`).
-/

namespace Nexora.Idempotency

open Foundations

variable {Digest : Type} {sha256 : List Byte → Digest} {v w : Json}

/-- `request_hash`: the digest of `json.dumps(payload, sort_keys=True, separators=(",", ":")).encode()`. -/
def requestHash (sha256 : List Byte → Digest) (payload : Json) : Option Digest :=
  (encodeUtf8 payload.sorted.dumps).map sha256

/-- Every body has a hash. -/
theorem requestHash_isSome (sha256 : List Byte → Digest) (payload : Json) :
    (requestHash sha256 payload).isSome := by
  obtain ⟨bytes, hbytes, -⟩ := payload.sorted.encodeUtf8_dumps
  rw [requestHash, hbytes]
  rfl

/-- Two request bodies have one hash if and only if they are the same, whatever the order in which their
members were sent, provided that SHA-256 does not collide on them. -/
theorem requestHash_eq_iff (hv : v.Dicts) (hw : w.Dicts)
    (hsha256 : ∀ bytes ∈ encodeUtf8 v.sorted.dumps, ∀ bytes' ∈ encodeUtf8 w.sorted.dumps,
      sha256 bytes = sha256 bytes' → bytes = bytes') :
    requestHash sha256 v = requestHash sha256 w ↔ v.Same w := by
  rw [← Json.dumps_sorted_eq_iff hv hw]
  obtain ⟨bytes, hbytes, hread⟩ := v.sorted.encodeUtf8_dumps
  obtain ⟨bytes', hbytes', hread'⟩ := w.sorted.encodeUtf8_dumps
  constructor
  · intro h
    rw [requestHash, requestHash, hbytes, hbytes'] at h
    obtain rfl := hsha256 bytes hbytes bytes' hbytes' (Option.some.inj h)
    exact Option.some.inj (hread.symm.trans hread')
  · intro h
    rw [requestHash, requestHash, h]

/-- A body, and the same body with its members in another order and one object within. -/
theorem requestHash_eq_iff_reordered :
    let payload : Json := .dict [("session_id", .text "7"), ("cart", .dict [("b", .null), ("a", .int (-2))])]
    let reordered : Json := .dict [("cart", .dict [("a", .int (-2)), ("b", .null)]), ("session_id", .text "7")]
    payload.Same reordered := by
  intro payload reordered
  have hpayload : payload.Dicts := by
    refine .dict (by decide) fun member hmember => ?_
    rcases List.mem_pair.mp hmember with rfl | rfl
    · exact .text "7"
    · refine .dict (by decide) fun member hmember => ?_
      rcases List.mem_pair.mp hmember with rfl | rfl
      · exact .null
      · exact .int (-2)
  have hreordered : reordered.Dicts := by
    refine .dict (by decide) fun member hmember => ?_
    rcases List.mem_pair.mp hmember with rfl | rfl
    · refine .dict (by decide) fun member hmember => ?_
      rcases List.mem_pair.mp hmember with rfl | rfl
      · exact .int (-2)
      · exact .null
    · exact .text "7"
  exact (@requestHash_eq_iff _ id _ _ hpayload hreordered fun _ _ _ _ h => h).mp (by decide +kernel)

/-! ## What a key promises -/

/-- The body of a request, as it is parsed. -/
structure Body where
  value : Json
  dicts : value.Dicts

/-- Two bodies that differ in the order of members at most. -/
instance Body.setoid : Setoid Body where
  r body body' := body.value.Same body'.value
  iseqv :=
    { refl := fun body => (Json.dumps_sorted_eq_iff body.dicts body.dicts).mp rfl
      symm := fun {body body'} h => by
        rw [← Json.dumps_sorted_eq_iff body'.dicts body.dicts]
        exact ((Json.dumps_sorted_eq_iff body.dicts body'.dicts).mpr h).symm
      trans := fun {body body' body''} h h' => by
        rw [← Json.dumps_sorted_eq_iff body.dicts body''.dicts]
        exact ((Json.dumps_sorted_eq_iff body.dicts body'.dicts).mpr h).trans
          ((Json.dumps_sorted_eq_iff body'.dicts body''.dicts).mpr h') }

/-- What a body says: its members have no order. -/
abbrev Content := Quotient Body.setoid

def Content.hash (sha256 : List Byte → Digest) : Content → Option Digest :=
  Quotient.lift (fun body => requestHash sha256 body.value) fun body body' h => by
    have hdumps := (Json.dumps_sorted_eq_iff body.dicts body'.dicts).mpr h
    simp only [requestHash, hdumps]

theorem Content.hash_injective (hsha256 : Function.Injective sha256) :
    Function.Injective (Content.hash sha256) := by
  rintro ⟨body⟩ ⟨body'⟩ h
  exact Quotient.sound
    ((requestHash_eq_iff body.dicts body'.dicts fun _ _ _ _ hbytes => hsha256 hbytes).mp h)

/-- In every order of the statements of any number of requests with JSON bodies, every key keeps its promise,
if SHA-256 does not collide. -/
theorem contents_idempotent [DecidableEq Digest] (hsha256 : Function.Injective sha256)
    {s s' : System Content (Option Digest)} (hfresh : s.Fresh)
    (hrun : Foundations.Run (fun _ _ => True)
      (fun s action s' => s.step (Content.hash sha256) action = some s') s s') (k : Slot) :
    s'.Idempotent (Content.hash sha256) k := by
  have hsound : s'.Sound (Content.hash sha256) :=
    hrun.invariant (fun s action s' hs _ hstep => hs.step hstep) hfresh.sound
  exact hsound.idempotent (Content.hash_injective hsha256) k

end Nexora.Idempotency
