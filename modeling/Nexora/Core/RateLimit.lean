import Mathlib.Data.List.Perm.Subperm
import Mathlib.Logic.Function.Basic
import Nexora.Core.Context
import Nexora.Foundations.Decimal
import Nexora.Foundations.KeyedTable

/-!
# The sliding-window limit

`SlidingWindowRateLimiter.check` of `app/core/ratelimit.py` over the sorted sets of Redis.  The
commands of a pipeline run one after the other with nothing in between, so a check is one step; a
time is a number of seconds, and the server's clock shows the time the caller has read.

Every check puts an entry into the set of its key, accepted or not, and counts the entries.  The
entry goes in under the reading printed with six decimals, and two readings that print alike are one
entry.  So the limit holds where all the calls print differently (`window_limit`), and calls at one
reading are not limited at all (`simultaneous`).
-/

namespace Nexora.Core.RateLimit

open Nexora Foundations

/-! ## The sorted sets -/

/-- `f"{now:.6f}"`: the sign and the millionths that are printed. -/
structure Stamp where
  minus : Bool
  millionths : ℕ
deriving DecidableEq

def stamp (now : ℚ) : Stamp := ⟨now < 0, (roundHalfEven (|now| * 10 ^ 6)).toNat⟩

/-- A member of a sorted set. -/
structure Entry where
  member : Stamp
  score : ℚ
deriving DecidableEq

abbrev Entries := Table Entry.member

/-- A sorted set with the time it expires at. -/
structure SortedSet where
  entries : Entries
  expiresAt : ℚ

/-- The keys that hold a set. -/
abbrev Redis := String → Option SortedSet

/-- What a command finds under a key; an expired set is gone. -/
def entriesAt (now : ℚ) : Option SortedSet → Entries
  | none => Table.empty _
  | some set => if set.expiresAt < now then Table.empty _ else set.entries

/-- `ZREMRANGEBYSCORE`: both ends belong to the range. -/
def zremrangebyscore (entries : Entries) (low high : ℚ) : Entries :=
  ⟨entries.rows.filter fun entry => ¬(low ≤ entry.score ∧ entry.score ≤ high),
    entries.nodup.sublist (List.filter_sublist.map _)⟩

/-- `ZADD`: a member that is there gets the new score. -/
def zadd (entries : Entries) (member : Stamp) (score : ℚ) : Entries := entries.put ⟨member, score⟩

/-- `ZCARD`. -/
def zcard (entries : Entries) : ℕ := entries.rows.length

/-- `EXPIRE`: a time to live that is not positive deletes the key. -/
def expire (entries : Entries) (seconds : ℕ) (now : ℚ) : Option SortedSet :=
  if seconds = 0 then none else some ⟨entries, now + seconds⟩

theorem mem_zremrangebyscore {entries : Entries} {low high : ℚ} {entry : Entry} :
    entry ∈ (zremrangebyscore entries low high).rows ↔
      entry ∈ entries.rows ∧ (low ≤ entry.score → high < entry.score) := by
  rw [zremrangebyscore, List.mem_filter, decide_eq_true_eq, not_and, not_le]

theorem mem_zadd {entries : Entries} {member : Stamp} {score : ℚ} {entry : Entry} :
    entry ∈ (zadd entries member score).rows ↔
      entry ∈ entries.rows ∧ entry.member ≠ member ∨ entry = ⟨member, score⟩ :=
  Table.mem_put

/-- A set is there until its time to live is over. -/
theorem entriesAt_expire {entries : Entries} {seconds : ℕ} {since now : ℚ} (hseconds : seconds ≠ 0)
    (hnow : now ≤ since + seconds) : entriesAt now (expire entries seconds since) = entries := by
  rw [expire, if_neg hseconds]
  exact if_neg (not_lt.mpr hnow)

/-! ## The check -/

/-- `RateLimitedError`, with the `details` of its response. -/
structure RateLimitedError where
  error : AppError
  retryAfter : ℕ
deriving DecidableEq

def rateLimitedError (retryAfter : ℕ) : RateLimitedError :=
  ⟨⟨"RATE_LIMITED", "Too many requests. Please try again later.", 429⟩, retryAfter⟩

/-- The key of a caller's set. -/
def redisKey (key : String) : String := "ratelimit:" ++ key

/-- The set of a key as `check` counts it. -/
def recorded (redis : Redis) (key : String) (windowSeconds : ℕ) (now : ℚ) : Entries :=
  zadd (zremrangebyscore (entriesAt now (redis (redisKey key))) 0 (now - windowSeconds))
    (stamp now) now

/-- `check`. -/
def check (key : String) (limit windowSeconds : ℕ) (now : ℚ) (redis : Redis) :
    Redis × Except RateLimitedError Unit :=
  let entries := recorded redis key windowSeconds now
  (Function.update redis (redisKey key) (expire entries windowSeconds now),
    if zcard entries > limit then .error (rateLimitedError windowSeconds) else .ok ())

/-- What a check leaves under its key. -/
theorem check_redisKey (redis : Redis) (key : String) (limit windowSeconds : ℕ) (now : ℚ) :
    (check key limit windowSeconds now redis).1 (redisKey key) =
      expire (recorded redis key windowSeconds now) windowSeconds now :=
  Function.update_self _ _ _

/-- Whether a call is let through. -/
def accepts (redis : Redis) (key : String) (limit windowSeconds : ℕ) (now : ℚ) : Bool :=
  (check key limit windowSeconds now redis).2 = .ok ()

theorem accepts_iff {redis : Redis} {key : String} {limit windowSeconds : ℕ} {now : ℚ} :
    accepts redis key limit windowSeconds now = true ↔
      zcard (recorded redis key windowSeconds now) ≤ limit := by
  unfold accepts check
  rw [decide_eq_true_eq]
  dsimp only
  split_ifs with h
  · exact iff_of_false nofun (by omega)
  · exact iff_of_true rfl (by omega)

section Calls

variable (key : String) (limit windowSeconds : ℕ)

/-- The sets after calls at these readings, one after the other. -/
def after (redis : Redis) (readings : List ℚ) : Redis :=
  readings.foldl (fun redis now => (check key limit windowSeconds now redis).1) redis

/-- The readings of the calls that are let through. -/
def accepted (redis : Redis) : List ℚ → List ℚ
  | [] => []
  | now :: later =>
      let rest := accepted (check key limit windowSeconds now redis).1 later
      if accepts redis key limit windowSeconds now then now :: rest else rest

variable {key limit windowSeconds}
variable {redis : Redis}

theorem after_concat (readings : List ℚ) (now : ℚ) :
    after key limit windowSeconds redis (readings ++ [now]) =
      (check key limit windowSeconds now (after key limit windowSeconds redis readings)).1 := by
  rw [after, List.foldl_concat]
  rfl

theorem accepted_concat (readings : List ℚ) (now : ℚ) :
    accepted key limit windowSeconds redis (readings ++ [now]) =
      accepted key limit windowSeconds redis readings ++
        if accepts (after key limit windowSeconds redis readings) key limit windowSeconds now
        then [now] else [] := by
  induction readings generalizing redis with
  | nil => rfl
  | cons first readings ih =>
      simp only [List.cons_append, accepted]
      rw [ih]
      split
      · rfl
      · rfl

variable (key limit windowSeconds redis) in
theorem accepted_sublist (readings : List ℚ) :
    (accepted key limit windowSeconds redis readings).Sublist readings := by
  induction readings generalizing redis with
  | nil => exact .slnil
  | cons now later ih =>
      unfold accepted
      dsimp only
      split
      · exact (ih _).cons_cons now
      · exact (ih _).cons now

/-! ## What a set remembers -/

/-- A later call finds an entry for each call that is in its window, as long as no two calls print
the same text. -/
theorem remembers {readings : List ℚ} (hsorted : readings.Pairwise (· ≤ ·))
    (hfresh : (readings.map stamp).Nodup) {now : ℚ} (hnow : ∀ reading ∈ readings, reading ≤ now)
    {reading : ℚ} (hmem : reading ∈ readings) (hwindow : now - windowSeconds < reading) :
    ⟨stamp reading, reading⟩ ∈
      (entriesAt now (after key limit windowSeconds redis readings (redisKey key))).rows := by
  induction readings using List.reverseRecOn generalizing now with
  | nil => cases hmem
  | append_singleton earlier last ih =>
      obtain ⟨hearlier, -, hle⟩ := List.pairwise_append.mp hsorted
      rw [List.map_append, List.nodup_append] at hfresh
      obtain ⟨hstamps, -, hne⟩ := hfresh
      have hlast : ∀ r ∈ earlier, r ≤ last := fun r hr => hle r hr last (by simp)
      have hlast_now : last ≤ now := hnow last (by simp)
      have hreading : reading ≤ last := by
        rcases List.mem_append.mp hmem with h | h
        · exact hlast reading h
        · exact (List.mem_singleton.mp h).le
      -- The set has been refreshed by the last call, and that is less than a window ago.
      have hseconds : windowSeconds ≠ 0 := by
        rintro rfl
        rw [Nat.cast_zero, sub_zero] at hwindow
        linarith
      rw [after_concat, check_redisKey, entriesAt_expire hseconds (by linarith), recorded, mem_zadd,
        mem_zremrangebyscore]
      rcases List.mem_append.mp hmem with h | h
      · refine .inl ⟨⟨ih hearlier hstamps hlast h (by linarith), fun _ => ?_⟩, ?_⟩
        · show last - windowSeconds < reading
          linarith
        · exact hne (stamp reading) (List.mem_map_of_mem h) (stamp last) (by simp)
      · rw [List.mem_singleton] at h
        exact .inr (h ▸ rfl)

variable (key limit windowSeconds redis) in
/-- A call counts itself and every call that is in its window. -/
theorem counted {readings : List ℚ} {now : ℚ} (hsorted : (readings ++ [now]).Pairwise (· ≤ ·))
    (hfresh : ((readings ++ [now]).map stamp).Nodup) {calls : List ℚ}
    (hcalls : calls.Sublist (readings ++ [now])) (hwindow : ∀ t ∈ calls, now - windowSeconds < t) :
    calls.length ≤
      zcard (recorded (after key limit windowSeconds redis readings) key windowSeconds now) := by
  obtain ⟨hearlier, -, hle⟩ := List.pairwise_append.mp hsorted
  have hlast : ∀ r ∈ readings, r ≤ now := fun r hr => hle r hr now (by simp)
  have hstamps : (calls.map stamp).Nodup := hfresh.sublist (hcalls.map stamp)
  rw [List.map_append, List.nodup_append] at hfresh
  obtain ⟨hreadings, -, hne⟩ := hfresh
  have hentry : ∀ t ∈ calls, stamp t ∈
      (recorded (after key limit windowSeconds redis readings) key windowSeconds now).rows.map
        Entry.member := by
    intro t ht
    refine List.mem_map.mpr ⟨⟨stamp t, t⟩, ?_, rfl⟩
    rw [recorded, mem_zadd, mem_zremrangebyscore]
    rcases List.mem_append.mp (hcalls.subset ht) with h | h
    · refine .inl ⟨⟨remembers hearlier hreadings hlast h (hwindow t ht), fun _ => hwindow t ht⟩, ?_⟩
      exact hne (stamp t) (List.mem_map_of_mem h) (stamp now) (by simp)
    · rw [List.mem_singleton] at h
      exact .inr (h ▸ rfl)
  have hsub : calls.map stamp ⊆
      (recorded (after key limit windowSeconds redis readings) key windowSeconds now).rows.map
        Entry.member := by
    intro s hs
    obtain ⟨t, ht, rfl⟩ := List.mem_map.mp hs
    exact hentry t ht
  have hlength := (List.subperm_of_subset hstamps hsub).length_le
  rwa [List.length_map, List.length_map] at hlength

/-! ## The limit -/

/-- The limit, for any span of time that is shorter than a window as seen from its last call. -/
theorem limited {readings : List ℚ} (hsorted : readings.Pairwise (· ≤ ·))
    (hfresh : (readings.map stamp).Nodup) {span : ℚ → Prop} [DecidablePred span]
    (hspan : ∀ t t', span t → span t' → t' - windowSeconds < t) :
    ((accepted key limit windowSeconds redis readings).filter (span ·)).length ≤ limit := by
  induction readings using List.reverseRecOn with
  | nil => exact Nat.zero_le limit
  | append_singleton earlier last ih =>
      have ih := ih (List.pairwise_append.mp hsorted).1 (by
        rw [List.map_append] at hfresh
        exact hfresh.of_append_left)
      have hsub := accepted_sublist key limit windowSeconds redis (earlier ++ [last])
      by_cases hlast : span last ∧
        accepts (after key limit windowSeconds redis earlier) key limit windowSeconds last = true
      · -- Everything in the span is counted by the last call, which was let through.
        have hcount := counted key limit windowSeconds redis hsorted hfresh
          ((List.filter_sublist (p := (span ·))).trans hsub) fun t ht =>
            hspan t last (of_decide_eq_true (List.mem_filter.mp ht).2) hlast.1
        exact hcount.trans (accepts_iff.mp hlast.2)
      · rw [accepted_concat, List.filter_append]
        split
        next haccepts =>
          have hout : ¬span last := fun h => hlast ⟨h, haccepts⟩
          rw [List.filter_cons_of_neg (by simpa using hout)]
          simpa using ih
        next => simpa using ih

/-- Any half-open span as long as the window holds at most `limit` calls that are let through, when
no two of the calls print the same text. -/
theorem window_limit (redis : Redis) (key : String) (limit windowSeconds : ℕ) (readings : List ℚ)
    (hsorted : readings.Pairwise (· ≤ ·)) (hfresh : (readings.map stamp).Nodup) (start : ℚ) :
    ((accepted key limit windowSeconds redis readings).filter fun t =>
        start ≤ t ∧ t < start + windowSeconds).length ≤ limit ∧
      ((accepted key limit windowSeconds redis readings).filter fun t =>
        start < t ∧ t ≤ start + windowSeconds).length ≤ limit :=
  ⟨limited hsorted hfresh fun t t' ht ht' => by linarith [ht.1, ht'.2],
    limited hsorted hfresh fun t t' ht ht' => by linarith [ht.1, ht'.2]⟩

/-- The bound at a login limit, with calls a fifth of a second apart. -/
theorem window_limit_login :
    ((accepted "login:id:owner" 5 900 (fun _ => none) [100, 501 / 5, 502 / 5]).filter fun t : ℚ =>
        100 ≤ t ∧ t < 100 + (900 : ℕ)).length ≤ 5 ∧
      ((accepted "login:id:owner" 5 900 (fun _ => none) [100, 501 / 5, 502 / 5]).filter fun t : ℚ =>
        100 < t ∧ t ≤ 100 + (900 : ℕ)).length ≤ 5 :=
  window_limit (fun _ => none) "login:id:owner" 5 900 [100, 501 / 5, 502 / 5]
    (by norm_num) (by decide +kernel) 100

/-! ## Calls at one reading -/

theorem entriesAt_expire_le {entries : Entries} {seconds : ℕ} {since now : ℚ} {entry : Entry}
    (hentry : entry ∈ (entriesAt now (expire entries seconds since)).rows) : entry ∈ entries.rows := by
  unfold expire at hentry
  split at hentry
  next => cases hentry
  next =>
    unfold entriesAt at hentry
    split at hentry
    next => cases hentry
    next heq =>
      cases heq
      split at hentry
      · cases hentry
      · exact hentry

/-- Calls whose readings print alike are all let through, however many they are. -/
theorem simultaneous {text : Stamp} (hlimit : 1 ≤ limit) {readings : List ℚ}
    (hreadings : ∀ t ∈ readings, stamp t = text)
    (hredis : ∀ now, ∀ entry ∈ (entriesAt now (redis (redisKey key))).rows, entry.member = text) :
    accepted key limit windowSeconds redis readings = readings := by
  induction readings generalizing redis with
  | nil => rfl
  | cons now later ih =>
      have hnow : stamp now = text := hreadings now (by simp)
      -- The entry that is there is put in again.
      have hrows : (recorded redis key windowSeconds now).rows = [⟨text, now⟩] := by
        show List.filter _ _ ++ [_] = _
        rw [hnow, List.filter_eq_nil_iff.mpr, List.nil_append]
        intro entry hentry
        have hmem := hredis now entry (mem_zremrangebyscore.mp hentry).1
        simpa using hmem
      have haccepts : accepts redis key limit windowSeconds now = true :=
        accepts_iff.mpr (by rwa [zcard, hrows])
      unfold accepted
      dsimp only
      rw [if_pos haccepts, ih fun t ht => hreadings t (by simp [ht])]
      intro now' entry hentry
      rw [check_redisKey] at hentry
      have hmem := entriesAt_expire_le hentry
      rw [hrows, List.mem_singleton] at hmem
      rw [hmem]

end Calls

/-- Six logins are let through at one reading, and the limit is five. -/
theorem window_limit_broken :
    ¬∀ (redis : Redis) (key : String) (limit windowSeconds : ℕ) (readings : List ℚ),
      readings.Pairwise (· ≤ ·) → ∀ start : ℚ,
        ((accepted key limit windowSeconds redis readings).filter fun t =>
          start ≤ t ∧ t < start + windowSeconds).length ≤ limit := by
  intro h
  have hbound := h (fun _ => none) "login:id:owner" 5 900 (List.replicate 6 100)
    (List.pairwise_replicate.mpr (.inr le_rfl)) 100
  rw [simultaneous (by decide) (fun t ht => congrArg stamp (List.eq_of_mem_replicate ht))
    fun now => List.forall_mem_nil _, List.filter_eq_self.mpr, List.length_replicate] at hbound
  · omega
  · intro t ht
    rw [List.eq_of_mem_replicate ht]
    norm_num

end Nexora.Core.RateLimit
