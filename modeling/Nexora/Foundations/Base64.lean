import Nexora.Foundations.Strings
import Mathlib.Tactic.Common

/-!
# Base64

The URL-safe Base64 text of some bytes, and its decoder.  The decoder reads one character after
another and keeps the bits that do not make a byte yet; it passes over characters that are not in
the alphabet and stops at a complete padding.

A text without its padding determines how much of it there was, so taking the padding off and
putting it back leaves the text as it was (`urlsafeB64decode_stripped`).
-/

namespace Foundations

abbrev Byte := Fin 256

/-- The low eight bits. -/
def byte (n : ℕ) : Byte := ⟨n % 256, by omega⟩

namespace Base64

def alphabet : Str := str "ABCDEFGHIJKLMNOPQRSTUVWXYZabcdefghijklmnopqrstuvwxyz0123456789+/"

/-- `'='`. -/
def pad : CodePoint := ord '='

/-- The character of six bits. -/
def digit (n : ℕ) : CodePoint := (alphabet[n]?).getD pad

/-- The six bits of a character. -/
def sextet (c : CodePoint) : Option ℕ := alphabet.idxOf? c

/-- `base64.b64encode`. -/
def b64encode : List Byte → Str
  | [] => []
  | [a] => [digit (a / 4), digit (a % 4 * 16), pad, pad]
  | [a, b] => [digit (a / 4), digit (a % 4 * 16 + b / 16), digit (b % 16 * 4), pad]
  | a :: b :: c :: rest =>
      digit (a / 4) :: digit (a % 4 * 16 + b / 16) :: digit (b % 16 * 4 + c / 64) ::
        digit (c % 64) :: b64encode rest

/-- `_urlsafe_encode_translation`. -/
def toUrlsafe (c : CodePoint) : CodePoint :=
  if c = ord '+' then ord '-' else if c = ord '/' then ord '_' else c

/-- `_urlsafe_decode_translation`. -/
def fromUrlsafe (c : CodePoint) : CodePoint :=
  if c = ord '-' then ord '+' else if c = ord '_' then ord '/' else c

/-- `base64.urlsafe_b64encode`. -/
def urlsafeB64encode (bytes : List Byte) : Str := (b64encode bytes).map toUrlsafe

/-- `binascii.a2b_base64` from a state on: `quad` characters of the current group are read, `left`
are their bits that wait for more, and `pads` of the padding have been seen. -/
def a2bFrom (quad left pads : ℕ) : Str → Option (List Byte)
  | [] => if quad = 0 then some [] else none
  | c :: rest =>
      if c = pad then
        if 2 ≤ quad then
          if 4 ≤ quad + (pads + 1) then some [] else a2bFrom quad left (pads + 1) rest
        else a2bFrom quad left pads rest
      else
        match sextet c with
        | none => a2bFrom quad left pads rest
        | some bits =>
          match quad with
          | 0 => a2bFrom 1 bits 0 rest
          | 1 => (a2bFrom 2 (bits % 16) 0 rest).map (byte (left * 4 + bits / 16) :: ·)
          | 2 => (a2bFrom 3 (bits % 4) 0 rest).map (byte (left * 16 + bits / 4) :: ·)
          | _ => (a2bFrom 0 0 0 rest).map (byte (left * 64 + bits) :: ·)

/-- `base64.urlsafe_b64decode` of a string: a character outside ASCII is an error. -/
def urlsafeB64decode (text : Str) : Option (List Byte) :=
  if text.all (·.val < 128) then a2bFrom 0 0 0 (text.map fromUrlsafe) else none

/-! ## Reading a text back -/

theorem digit_spec : ∀ n < 64, sextet (digit n) = some n ∧ digit n ≠ pad ∧
    toUrlsafe (digit n) ≠ pad ∧ (toUrlsafe (digit n)).val < 128 ∧
    fromUrlsafe (toUrlsafe (digit n)) = digit n := by decide +kernel

theorem byte_val (b : Byte) : byte b.val = b := Fin.ext (Nat.mod_eq_of_lt b.isLt)

section

variable {n left pads : ℕ} {rest : Str}

theorem a2bFrom_first (h : n < 64) :
    a2bFrom 0 left pads (digit n :: rest) = a2bFrom 1 n 0 rest := by
  rw [a2bFrom, if_neg (digit_spec n h).2.1, (digit_spec n h).1]
  rfl

theorem a2bFrom_second (h : n < 64) : a2bFrom 1 left pads (digit n :: rest)
    = (a2bFrom 2 (n % 16) 0 rest).map (byte (left * 4 + n / 16) :: ·) := by
  rw [a2bFrom, if_neg (digit_spec n h).2.1, (digit_spec n h).1]
  rfl

theorem a2bFrom_third (h : n < 64) : a2bFrom 2 left pads (digit n :: rest)
    = (a2bFrom 3 (n % 4) 0 rest).map (byte (left * 16 + n / 4) :: ·) := by
  rw [a2bFrom, if_neg (digit_spec n h).2.1, (digit_spec n h).1]
  rfl

theorem a2bFrom_fourth (h : n < 64) : a2bFrom 3 left pads (digit n :: rest)
    = (a2bFrom 0 0 0 rest).map (byte (left * 64 + n) :: ·) := by
  rw [a2bFrom, if_neg (digit_spec n h).2.1, (digit_spec n h).1]
  rfl

end

/-- A group of characters is decoded to the bytes it was made of. -/
theorem a2bFrom_b64encode (bytes : List Byte) : a2bFrom 0 0 0 (b64encode bytes) = some bytes := by
  induction bytes using b64encode.induct with
  | case1 => rfl
  | case2 a =>
      rw [b64encode, a2bFrom_first (by omega), a2bFrom_second (by omega)]
      have hfirst : a.val / 4 * 4 + a.val % 4 * 16 / 16 = a.val := by omega
      rw [hfirst, byte_val]
      rfl
  | case3 a b =>
      rw [b64encode, a2bFrom_first (by omega), a2bFrom_second (by omega), a2bFrom_third (by omega)]
      have hfirst : a.val / 4 * 4 + (a.val % 4 * 16 + b.val / 16) / 16 = a.val := by omega
      have hsecond : (a.val % 4 * 16 + b.val / 16) % 16 * 16 + b.val % 16 * 4 / 4 = b.val := by
        omega
      rw [hfirst, hsecond, byte_val, byte_val]
      rfl
  | case4 a b c rest ih =>
      rw [b64encode, a2bFrom_first (by omega), a2bFrom_second (by omega), a2bFrom_third (by omega),
        a2bFrom_fourth (by omega), ih]
      have hfirst : a.val / 4 * 4 + (a.val % 4 * 16 + b.val / 16) / 16 = a.val := by omega
      have hsecond : (a.val % 4 * 16 + b.val / 16) % 16 * 16
          + (b.val % 16 * 4 + c.val / 64) / 4 = b.val := by omega
      have hthird : (b.val % 16 * 4 + c.val / 64) % 4 * 64 + c.val % 64 = c.val := by omega
      rw [hfirst, hsecond, hthird, byte_val, byte_val, byte_val]
      rfl

/-! ## The padding -/

/-- The padding a text of this length lacks. -/
def padding (length : ℕ) : Str := List.replicate ((4 - length % 4) % 4) pad

/-- The text is some digits and the padding they lack. -/
theorem b64encode_eq (bytes : List Byte) : ∃ digits : List ℕ, (∀ n ∈ digits, n < 64) ∧
    b64encode bytes = digits.map digit ++ padding digits.length := by
  induction bytes using b64encode.induct with
  | case1 => exact ⟨[], by simp, rfl⟩
  | case2 a =>
      refine ⟨[a.val / 4, a.val % 4 * 16], ?_, rfl⟩
      simp only [List.mem_cons, List.not_mem_nil, or_false, forall_eq_or_imp, forall_eq]
      omega
  | case3 a b =>
      refine ⟨[a.val / 4, a.val % 4 * 16 + b.val / 16, b.val % 16 * 4], ?_, rfl⟩
      simp only [List.mem_cons, List.not_mem_nil, or_false, forall_eq_or_imp, forall_eq]
      omega
  | case4 a b c rest ih =>
      obtain ⟨digits, hdigits, hrest⟩ := ih
      refine ⟨a.val / 4 :: (a.val % 4 * 16 + b.val / 16) :: (b.val % 16 * 4 + c.val / 64) ::
        c.val % 64 :: digits, ?_, ?_⟩
      · simp only [List.mem_cons, forall_eq_or_imp]
        exact ⟨by omega, by omega, by omega, by omega, hdigits⟩
      · rw [b64encode, hrest, padding, padding]
        simp [Nat.add_assoc]

theorem rdropWhile_append_replicate {s : Str} (n : ℕ) (h : ∀ c ∈ s, decide (c = pad) = false) :
    (s ++ List.replicate n pad).rdropWhile (· = pad) = s := by
  induction n with
  | zero =>
      rw [List.replicate_zero, List.append_nil, List.rdropWhile_eq_self_iff]
      intro hne
      rw [h _ (List.getLast_mem hne)]
      exact Bool.false_ne_true
  | succ n ih =>
      rw [List.replicate_succ', ← List.append_assoc, List.rdropWhile_concat_pos _ _ _ (by simp), ih]

/-- `rstrip("=")`. -/
def stripPadding (text : Str) : Str := text.rdropWhile (· = pad)

/-- The text without its padding, padded again. -/
theorem padding_urlsafeB64encode (bytes : List Byte) :
    stripPadding (urlsafeB64encode bytes) ++ padding (stripPadding (urlsafeB64encode bytes)).length
      = urlsafeB64encode bytes := by
  obtain ⟨digits, hdigits, htext⟩ := b64encode_eq bytes
  have hpadding : (padding digits.length).map toUrlsafe = padding digits.length := by
    rw [padding, List.map_replicate]
    rfl
  have hstrip : stripPadding (urlsafeB64encode bytes) = (digits.map digit).map toUrlsafe := by
    rw [urlsafeB64encode, htext, List.map_append, hpadding, stripPadding, padding]
    refine rdropWhile_append_replicate _ fun c hc => ?_
    obtain ⟨_, hmem, rfl⟩ := List.mem_map.mp hc
    obtain ⟨n, hn, rfl⟩ := List.mem_map.mp hmem
    exact decide_eq_false (digit_spec n (hdigits n hn)).2.2.1
  rw [hstrip, urlsafeB64encode, htext, List.map_append, hpadding, List.length_map, List.length_map]

/-- A text that has lost its padding is decoded to the bytes it was made of. -/
theorem urlsafeB64decode_stripped (bytes : List Byte) :
    urlsafeB64decode (stripPadding (urlsafeB64encode bytes) ++
      padding (stripPadding (urlsafeB64encode bytes)).length) = some bytes := by
  obtain ⟨digits, hdigits, htext⟩ := b64encode_eq bytes
  have hchar : ∀ c ∈ b64encode bytes,
      (toUrlsafe c).val < 128 ∧ fromUrlsafe (toUrlsafe c) = c := by
    intro c hc
    rw [htext, List.mem_append, List.mem_map] at hc
    rcases hc with ⟨n, hn, rfl⟩ | hpad
    · exact (digit_spec n (hdigits n hn)).2.2.2
    · rw [List.eq_of_mem_replicate hpad]
      decide
  rw [padding_urlsafeB64encode, urlsafeB64decode, urlsafeB64encode, if_pos, List.map_map]
  · have hback : (b64encode bytes).map (fromUrlsafe ∘ toUrlsafe) = b64encode bytes :=
      (List.map_congr_left fun c hc => (hchar c hc).2).trans (List.map_id _)
    rw [hback, a2bFrom_b64encode]
  · rw [List.all_map, List.all_eq_true]
    exact fun c hc => decide_eq_true (hchar c hc).1

end Base64

end Foundations
