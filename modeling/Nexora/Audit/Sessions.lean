import Nexora.Audit.TamperEvidence
import Nexora.Foundations.Timestamps

/-!
# The hash in another session

`nexora_chain_hash` is declared `IMMUTABLE`, and casts `occurred_at` to text.  The text of a
`timestamptz` depends on the settings of the session, `TimeZone` and `DateStyle`.  The other casts,
of `uuid` and `jsonb`, do not.

So the verifier finds the hash that the trigger wrote if and only if its session writes the timestamp
of the row as the session of the insert did (`session_hash_iff`).  With the ISO style that is the
case when both sessions are at the same offset from UTC at that instant (`iso_session_hash_iff`).
-/

namespace Nexora.Audit

open Nexora Foundations

variable {sv : Server}

/-- What a session has set: how it writes a timestamp, by its `TimeZone` and its `DateStyle`. -/
structure Settings where
  timestamptzOut : Nat → String

/-- The ISO style, in a time zone with these offsets from UTC, in seconds. -/
def isoSettings (offset : Nat → Int) : Settings where
  timestamptzOut := fun occurredAt => isoTimestamp (offset occurredAt) occurredAt

/-- The server as a session finds it. -/
def Server.inSession (sv : Server) (settings : Settings) : Server :=
  { sv with timestampText := settings.timestamptzOut }

/-- The row that the trigger makes in a session. -/
def Server.inserted (sv : Server) (writer : Settings) (visible : List Event) (seq : Nat)
    (new : Event) : Event :=
  (sv.inSession writer).chain visible seq new

/-- Two sessions compute the same hash for a row if and only if they write its timestamp alike. -/
theorem Server.chainHash_inSession_iff (hsha : Function.Injective sv.sha256)
    {writer verifier : Settings} {prev : Option String} {e : Event} :
    (sv.inSession writer).chainHash prev e = (sv.inSession verifier).chainHash prev e ↔
      writer.timestamptzOut e.occurredAt = verifier.timestamptzOut e.occurredAt := by
  constructor
  · intro h
    have htext := hsha h
    simpa [inSession, String.append_left_inj, String.append_right_inj] using htext
  · intro h
    simp [chainHash, inSession, h]

/-- In the ISO style: if and only if they are at the same offset at that instant. -/
theorem Server.chainHash_iso_iff (hsha : Function.Injective sv.sha256) {offset offset' : Nat → Int}
    {prev : Option String} {e : Event} :
    (sv.inSession (isoSettings offset)).chainHash prev e
        = (sv.inSession (isoSettings offset')).chainHash prev e ↔
      offset e.occurredAt = offset' e.occurredAt := by
  rw [chainHash_inSession_iff hsha]
  exact isoTimestamp_eq_iff

/-- For a row that the trigger made in one session, the hash that `verify_chain` computes in another
one is the one in the row if and only if both sessions write the timestamp of the row alike. -/
theorem session_hash_iff (hsha : Function.Injective sv.sha256) (writer verifier : Settings)
    (visible : List Event) (seq : Nat) (new : Event) :
    (sv.inserted writer visible seq new).hash
        = some ((sv.inSession verifier).chainHash (sv.inserted writer visible seq new).prevHash
          (sv.inserted writer visible seq new)) ↔
      writer.timestamptzOut new.occurredAt = verifier.timestamptzOut new.occurredAt := by
  constructor
  · intro h
    exact (Server.chainHash_inSession_iff hsha).mp (Option.some.inj h)
  · intro h
    exact congrArg some ((Server.chainHash_inSession_iff hsha).mpr h)

/-- `UTC`. -/
def utc : Settings := isoSettings fun _ => 0

/-- `Asia/Dhaka`. -/
def dhaka : Settings := isoSettings fun _ => 21600

/-- A time zone at UTC until the end of March 1970, and an hour ahead after that. -/
def summerTime : Settings := isoSettings fun occurredAt => if occurredAt < 7689600000000 then 0 else 3600

/-- A login of January, written at UTC and verified in a time zone that is at UTC in winter. -/
theorem session_hash_january :
    (loginServer.inserted utc [] 1 loginEvent).hash
      = some ((loginServer.inSession summerTime).chainHash
        (loginServer.inserted utc [] 1 loginEvent).prevHash
        (loginServer.inserted utc [] 1 loginEvent)) :=
  (session_hash_iff loginServer_collisionFree.sha256 utc summerTime [] 1 loginEvent).mpr
    (by decide)

/-- A login written at UTC has another hash for a session in Dhaka. -/
theorem session_hash_dhaka :
    ¬ ∀ (sv : Server) (writer verifier : Settings) (visible : List Event) (seq : Nat) (new : Event),
      (sv.inserted writer visible seq new).hash
        = some ((sv.inSession verifier).chainHash (sv.inserted writer visible seq new).prevHash
          (sv.inserted writer visible seq new)) := by
  intro h
  have hhash := Option.some.inj (h loginServer utc dhaka [] 1 loginEvent)
  have hoffset := (Server.chainHash_iso_iff loginServer_collisionFree.sha256).mp hhash
  cases hoffset

end Nexora.Audit
