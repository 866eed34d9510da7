import Nexora.Foundations.Base64
import Mathlib.Data.List.Chain

/-!
# JSON text

The JSON text of a list of two strings, and what reads it back: the bytes are decoded by the
encoding that they look like, and the text is scanned.  A code point outside the Basic Multilingual
Plane is written as two escapes, a high and a low surrogate, which the scanner puts together; a
string that has a high surrogate in front of a low one is therefore not read back as it was, and
every other one is (`scanString_escape`).
-/

namespace Foundations

def codePoint (n : ℕ) : Option CodePoint := if h : n < 0x110000 then some ⟨n, h⟩ else none

def IsHighSurrogate (n : ℕ) : Prop := 0xD800 ≤ n ∧ n < 0xDC00

def IsLowSurrogate (n : ℕ) : Prop := 0xDC00 ≤ n ∧ n < 0xE000

instance (n : ℕ) : Decidable (IsHighSurrogate n) := inferInstanceAs (Decidable (_ ∧ _))

instance (n : ℕ) : Decidable (IsLowSurrogate n) := inferInstanceAs (Decidable (_ ∧ _))

/-- The code point of two surrogates. -/
def joinSurrogates (high low : ℕ) : ℕ := 0x10000 + (high - 0xD800) * 0x400 + (low - 0xDC00)

/-! ## Bytes -/

/-- `str.encode()`: UTF-8, which has no text for a surrogate. -/
def encodeUtf8 (text : Str) : Option (List Byte) :=
  (text.mapM fun c : CodePoint =>
    if c.val < 0x80 then some [byte c]
    else if c.val < 0x800 then some [byte (0xC0 + c / 0x40), byte (0x80 + c % 0x40)]
    else if 0xD800 ≤ c.val ∧ c.val < 0xE000 then none
    else if c.val < 0x10000 then
      some [byte (0xE0 + c / 0x1000), byte (0x80 + c / 0x40 % 0x40), byte (0x80 + c % 0x40)]
    else
      some [byte (0xF0 + c / 0x40000), byte (0x80 + c / 0x1000 % 0x40),
        byte (0x80 + c / 0x40 % 0x40), byte (0x80 + c % 0x40)]).map List.flatten

/-- The six bits of a continuation byte. -/
def continuation (b : Byte) : Option ℕ :=
  if 0x80 ≤ b.val ∧ b.val < 0xC0 then some (b - 0x80) else none

/-- `bytes.decode("utf-8", "surrogatepass")`. -/
def decodeUtf8 : List Byte → Option Str
  | [] => some []
  | b :: rest =>
      if b.val < 0x80 then (decodeUtf8 rest).map ((b.castLE (by omega)) :: ·)
      else if b.val < 0xC2 then none
      else
        match rest with
        | [] => none
        | b₁ :: rest =>
          if b.val < 0xE0 then do
            let c ← codePoint ((b - 0xC0) * 0x40 + (← continuation b₁))
            (c :: ·) <$> decodeUtf8 rest
          else
            match rest with
            | [] => none
            | b₂ :: rest =>
              if b.val < 0xF0 then do
                let n := (b - 0xE0) * 0x1000 + (← continuation b₁) * 0x40 + (← continuation b₂)
                if n < 0x800 then none
                else do
                  let c ← codePoint n
                  (c :: ·) <$> decodeUtf8 rest
              else
                match rest with
                | [] => none
                | b₃ :: rest => do
                  let n := (b - 0xF0) * 0x40000 + (← continuation b₁) * 0x1000 +
                    (← continuation b₂) * 0x40 + (← continuation b₃)
                  if n < 0x10000 then none
                  else do
                    let c ← codePoint n
                    (c :: ·) <$> decodeUtf8 rest

/-- Units of two bytes; a byte that is left over is an error. -/
def units16 (unit : Byte → Byte → ℕ) : List Byte → Option (List ℕ)
  | [] => some []
  | [_] => none
  | a :: b :: rest => (units16 unit rest).map (unit a b :: ·)

/-- UTF-16 with `surrogatepass`: a surrogate without its other half stands for itself. -/
def decodeUnits16 : List ℕ → Option Str
  | [] => some []
  | high :: low :: rest =>
      if IsHighSurrogate high ∧ IsLowSurrogate low then do
        let c ← codePoint (joinSurrogates high low)
        (c :: ·) <$> decodeUnits16 rest
      else do
        let c ← codePoint high
        (c :: ·) <$> decodeUnits16 (low :: rest)
  | [unit] => do
      let c ← codePoint unit
      return [c]

def bigEndian (a b : Byte) : ℕ := a * 0x100 + b

def littleEndian (a b : Byte) : ℕ := b * 0x100 + a

def decodeUtf16 (unit : Byte → Byte → ℕ) (bytes : List Byte) : Option Str :=
  (units16 unit bytes).bind decodeUnits16

/-- UTF-32 with `surrogatepass`; `unit` is the order of the bytes of a unit of two. -/
def decodeUtf32 (quad : Byte → Byte → Byte → Byte → ℕ) : List Byte → Option Str
  | [] => some []
  | a :: b :: c :: d :: rest => do
      let point ← codePoint (quad a b c d)
      (point :: ·) <$> decodeUtf32 quad rest
  | _ => none

def bigEndian32 (a b c d : Byte) : ℕ := bigEndian a b * 0x10000 + bigEndian c d

def littleEndian32 (a b c d : Byte) : ℕ := littleEndian c d * 0x10000 + littleEndian a b

/-- `s.decode(detect_encoding(s), "surrogatepass")`. -/
def decodeDetected (bytes : List Byte) : Option Str :=
  if [0x00, 0x00, 0xFE, 0xFF] <+: bytes then decodeUtf32 bigEndian32 (bytes.drop 4)
  else if [0xFF, 0xFE, 0x00, 0x00] <+: bytes then decodeUtf32 littleEndian32 (bytes.drop 4)
  else if [0xFE, 0xFF] <+: bytes then decodeUtf16 bigEndian (bytes.drop 2)
  else if [0xFF, 0xFE] <+: bytes then decodeUtf16 littleEndian (bytes.drop 2)
  else if [0xEF, 0xBB, 0xBF] <+: bytes then decodeUtf8 (bytes.drop 3)
  else
    match bytes with
    | a :: b :: c :: d :: _ =>
        if a = 0 then
          if b = 0 then decodeUtf32 bigEndian32 bytes else decodeUtf16 bigEndian bytes
        else if b = 0 then
          if c = 0 ∧ d = 0 then decodeUtf32 littleEndian32 bytes
          else decodeUtf16 littleEndian bytes
        else decodeUtf8 bytes
    | [a, b] =>
        if a = 0 then decodeUtf16 bigEndian bytes
        else if b = 0 then decodeUtf16 littleEndian bytes
        else decodeUtf8 bytes
    | _ => decodeUtf8 bytes

/-! ## Strings -/

/-- `'"'`. -/
def quote : CodePoint := ord '"'

/-- `'\\'`. -/
def backslash : CodePoint := ord '\\'

def hexDigit (n : ℕ) : CodePoint := ((str "0123456789abcdef")[n]?).getD quote

def hexValue (c : CodePoint) : Option ℕ :=
  (str "0123456789abcdef").idxOf? c <|> (str "0123456789ABCDEF").idxOf? c

/-- Four digits. -/
def hexFour (unit : ℕ) : Str :=
  [hexDigit (unit / 0x1000), hexDigit (unit / 0x100 % 16), hexDigit (unit / 0x10 % 16),
    hexDigit (unit % 16)]

/-- The escape of a unit of sixteen bits. -/
def unicodeEscape (unit : ℕ) : Str := backslash :: ord 'u' :: hexFour unit

/-- `ESCAPE_DCT`, where it is not a number. -/
def shortEscapes : List (CodePoint × CodePoint) :=
  [(backslash, backslash), (quote, quote), (0x08, ord 'b'), (0x0C, ord 'f'), (0x0A, ord 'n'),
    (0x0D, ord 'r'), (0x09, ord 't')]

/-- The text of a code point in a string, with `ensure_ascii`. -/
def escapeOf (c : CodePoint) : Str :=
  match shortEscapes.lookup c with
  | some e => [backslash, e]
  | none =>
      if 0x20 ≤ c.val ∧ c.val ≤ 0x7E then [c]
      else if c.val < 0x10000 then unicodeEscape c
      else
        unicodeEscape (0xD800 + (c - 0x10000) / 0x400) ++
          unicodeEscape (0xDC00 + (c - 0x10000) % 0x400)

def escape (s : Str) : Str := s.flatMap escapeOf

/-- `json.dumps([first, second], separators=(",", ":"))`. -/
def dumpsPair (first second : Str) : Str :=
  ord '[' :: quote :: (escape first ++ quote :: ord ',' :: quote :: (escape second ++
    [quote, ord ']']))

/-- `_decode_uXXXX`, and the text after it. -/
def decodeUXXXX : Str → Option (ℕ × Str)
  | a :: b :: c :: d :: rest => do
      let unit := (← hexValue a) * 0x1000 + (← hexValue b) * 0x100 + (← hexValue c) * 0x10 +
        (← hexValue d)
      return (unit, rest)
  | _ => none

/-- The escape of a low surrogate, where the text goes on with one. -/
def lowAhead : Str → Option (ℕ × Str)
  | b :: u :: rest =>
      if b = backslash ∧ u = ord 'u' then
        (decodeUXXXX rest).filter fun unit => decide (IsLowSurrogate unit.1)
      else none
  | _ => none

theorem decodeUXXXX_length {s rest : Str} {unit : ℕ} (h : decodeUXXXX s = some (unit, rest)) :
    rest.length < s.length := by
  unfold decodeUXXXX at h
  split at h
  next a b c d t =>
    simp only [Option.bind_eq_bind, Option.bind_eq_some_iff, Option.pure_def, Option.some.injEq,
      Prod.mk.injEq] at h
    obtain ⟨_, -, _, -, _, -, _, -, -, rfl⟩ := h
    simp only [List.length_cons]
    omega
  next => cases h

theorem lowAhead_length {s rest : Str} {low : ℕ} (h : lowAhead s = some (low, rest)) :
    rest.length < s.length := by
  unfold lowAhead at h
  split at h
  next b u t =>
    split at h
    next =>
      have hlt := decodeUXXXX_length (Option.filter_eq_some_iff.mp h).1
      simp only [List.length_cons]
      omega
    next => cases h
  next => cases h

/-- What a `\` and a letter stand for. -/
def unescape (e : CodePoint) : Option CodePoint :=
  ((ord '/', ord '/') :: shortEscapes.map Prod.swap).lookup e

/-- One more code point in front of a string that is read. -/
def consString (c : CodePoint) (scanned : Str × Str) : Str × Str := (c :: scanned.1, scanned.2)

/-- `scanstring`, past the opening quote: the string, and the text after the closing quote. -/
def scanString (text : Str) : Option (Str × Str) :=
  match text with
  | [] => none
  | c :: rest =>
    if c = quote then some ([], rest)
    else if c = backslash then
      match rest with
      | [] => none
      | e :: rest =>
        if e = ord 'u' then
          match _ : decodeUXXXX rest with
          | none => none
          | some (unit, rest') =>
            match _ : if IsHighSurrogate unit then lowAhead rest' else none with
            | some (low, rest'') => do
                let c ← codePoint (joinSurrogates unit low)
                (scanString rest'').map (consString c)
            | none => do
                let c ← codePoint unit
                (scanString rest').map (consString c)
        else do
          let c ← unescape e
          (scanString rest).map (consString c)
    else if c.val < 0x20 then none
    else (scanString rest).map (consString c)
termination_by text.length
decreasing_by
  · rename_i hunit hlow
    have hunit := decodeUXXXX_length hunit
    split at hlow
    next =>
      have hlow := lowAhead_length hlow
      simp only [List.length_cons]
      omega
    next => cases hlow
  · rename_i hunit _
    have hunit := decodeUXXXX_length hunit
    simp only [List.length_cons]
    omega
  · simp only [List.length_cons]
    omega
  · simp only [List.length_cons]
    omega

/-! ## Reading a string back -/

theorem joinSurrogates_lt {high low : ℕ} (hhigh : IsHighSurrogate high)
    (hlow : IsLowSurrogate low) : joinSurrogates high low < 0x110000 := by
  have hhigh : high < 0xDC00 := hhigh.2
  have hlow : low < 0xE000 := hlow.2
  unfold joinSurrogates
  omega

/-- The string with every high surrogate and a low one after it put together. -/
def joined : Str → Str
  | high :: low :: s =>
      if h : IsHighSurrogate high ∧ IsLowSurrogate low then
        ⟨joinSurrogates high low, joinSurrogates_lt h.1 h.2⟩ :: joined s
      else high :: joined (low :: s)
  | s => s

/-- No high surrogate stands directly in front of a low one. -/
def SurrogatesApart (s : Str) : Prop :=
  s.IsChain fun a b : CodePoint => ¬(IsHighSurrogate a ∧ IsLowSurrogate b)

instance (s : Str) : Decidable (SurrogatesApart s) :=
  inferInstanceAs (Decidable
    (s.IsChain fun a b : CodePoint => ¬(IsHighSurrogate a ∧ IsLowSurrogate b)))

theorem joined_length_le (s : Str) : (joined s).length ≤ s.length := by
  induction s using joined.induct with
  | case1 high low s h ih =>
      rw [joined, dif_pos h]
      simp only [List.length_cons]
      omega
  | case2 high low s h ih =>
      rw [joined, dif_neg h]
      simp only [List.length_cons] at ih ⊢
      omega
  | case3 s h => rw [joined.eq_2 s h]

/-- Exactly the strings with the surrogates apart are as they were. -/
theorem joined_eq_self_iff (s : Str) : joined s = s ↔ SurrogatesApart s := by
  induction s using joined.induct with
  | case1 high low s h ih =>
      rw [joined, dif_pos h]
      constructor
      · intro heq
        have hshort := joined_length_le s
        have hlength := congrArg List.length heq
        simp only [List.length_cons] at hlength
        omega
      · intro hapart
        exact absurd h (List.isChain_cons_cons.mp hapart).1
  | case2 high low s h ih =>
      rw [joined, dif_neg h, List.cons.injEq, ih]
      exact ⟨fun hapart => List.isChain_cons_cons.mpr ⟨h, hapart.2⟩,
        fun hapart => ⟨rfl, (List.isChain_cons_cons.mp hapart).2⟩⟩
  | case3 s h =>
      refine iff_of_true (joined.eq_2 s h) ?_
      match s, h with
      | [], _ => exact .nil
      | [c], _ => exact List.isChain_singleton c
      | high :: low :: s, h => exact absurd rfl (h high low s)

/-- The characters of a text are no surrogates. -/
theorem surrogatesApart_map_ord (text : List Char) : SurrogatesApart (text.map ord) := by
  refine List.Pairwise.isChain (List.pairwise_map.mpr (List.pairwise_of_forall fun a b h => ?_))
  have hvalid : a.toNat.isValidChar := a.valid
  obtain ⟨hfirst, hlast⟩ : IsHighSurrogate a.toNat := h.1
  simp only [Nat.isValidChar] at hvalid
  omega

theorem codePoint_val (c : CodePoint) : codePoint c.val = some c := dif_pos c.isLt

theorem hexValue_hexDigit : ∀ n < 16, hexValue (hexDigit n) = some n := by decide +kernel

theorem decodeUXXXX_hexFour {unit : ℕ} (h : unit < 0x10000) (rest : Str) :
    decodeUXXXX (hexFour unit ++ rest) = some (unit, rest) := by
  have hunit : unit / 0x1000 * 0x1000 + unit / 0x100 % 16 * 0x100 + unit / 0x10 % 16 * 0x10 +
      unit % 16 = unit := by omega
  simp only [hexFour, List.cons_append, List.nil_append, decodeUXXXX]
  rw [hexValue_hexDigit _ (by omega), hexValue_hexDigit _ (by omega),
    hexValue_hexDigit _ (by omega), hexValue_hexDigit _ (by omega)]
  simp [hunit]

theorem shortEscapes_spec : ∀ row ∈ shortEscapes, unescape row.2 = some row.1 ∧
    row.2 ≠ ord 'u' ∧ ¬IsHighSurrogate row.1.val ∧ ¬IsLowSurrogate row.1.val ∧
    0 < row.2.val ∧ row.2.val < 0x80 := by
  simp only [shortEscapes, List.forall_mem_cons, List.not_mem_nil, IsEmpty.forall_iff, implies_true,
    and_true]
  decide

/-- How a code point is written. -/
theorem escapeOf_cases (c : CodePoint) :
    (∃ e, escapeOf c = [backslash, e] ∧ (c, e) ∈ shortEscapes) ∨
      (escapeOf c = [c] ∧ c ≠ quote ∧ c ≠ backslash ∧ 0x20 ≤ c.val ∧ c.val ≤ 0x7E) ∨
      (escapeOf c = unicodeEscape c ∧ c.val < 0x10000) ∨
      (escapeOf c = unicodeEscape (0xD800 + (c - 0x10000) / 0x400) ++
        unicodeEscape (0xDC00 + (c - 0x10000) % 0x400) ∧ 0x10000 ≤ c.val) := by
  rw [escapeOf]
  cases hshort : shortEscapes.lookup c with
  | some e =>
      obtain ⟨front, back, hrows, -⟩ := List.lookup_eq_some_iff.mp hshort
      exact .inl ⟨e, rfl, by simp [hrows]⟩
  | none =>
      have hnone : ∀ row ∈ shortEscapes, row.1 ≠ c := by
        intro row hrow heq
        exact bne_iff_ne.mp (by simpa using List.lookup_eq_none_iff.mp hshort row hrow) heq.symm
      simp only
      split_ifs with hprinted hplane
      · exact .inr (.inl ⟨rfl, (hnone (quote, quote) (by decide)).symm,
          (hnone (backslash, backslash) (by decide)).symm, hprinted⟩)
      · exact .inr (.inr (.inl ⟨rfl, hplane⟩))
      · exact .inr (.inr (.inr ⟨rfl, by omega⟩))

section

variable {c e : CodePoint} {unit high low : ℕ} (rest : Str)

theorem scanString_quote : scanString (quote :: rest) = some ([], rest) := by
  rw [scanString.eq_def]
  simp only [if_true]

theorem scanString_plain (hquote : c ≠ quote) (hbackslash : c ≠ backslash) (hc : 0x20 ≤ c.val) :
    scanString (c :: rest) = (scanString rest).map (consString c) := by
  rw [scanString.eq_def]
  simp only [if_neg hquote, if_neg hbackslash, if_neg (not_lt.mpr hc)]

theorem scanString_short (he : e ≠ ord 'u') (hc : unescape e = some c) :
    scanString (backslash :: e :: rest) = (scanString rest).map (consString c) := by
  rw [scanString, if_neg (by decide), if_pos rfl]
  simp only [if_neg he, hc]
  rfl

theorem scanString_unit (hunit : unit < 0x10000)
    (hrest : IsHighSurrogate unit → lowAhead rest = none) :
    scanString (unicodeEscape unit ++ rest)
      = (codePoint unit).bind fun c => (scanString rest).map (consString c) := by
  have hnone : (if IsHighSurrogate unit then lowAhead rest else none) = none := by
    split
    next hhigh => exact hrest hhigh
    next => rfl
  rw [unicodeEscape, List.cons_append, List.cons_append, scanString, if_neg (by decide), if_pos rfl]
  simp only [if_true]
  split
  next hdecode =>
    rw [decodeUXXXX_hexFour hunit] at hdecode
    cases hdecode
  next hdecode =>
    rw [decodeUXXXX_hexFour hunit] at hdecode
    cases hdecode
    split
    next hlow =>
      rw [hnone] at hlow
      cases hlow
    next => rfl

theorem lowAhead_unicodeEscape (hunit : unit < 0x10000) :
    lowAhead (unicodeEscape unit ++ rest)
      = if IsLowSurrogate unit then some (unit, rest) else none := by
  rw [unicodeEscape, List.cons_append, List.cons_append, lowAhead, if_pos ⟨rfl, rfl⟩,
    decodeUXXXX_hexFour hunit]
  simp [Option.filter]

theorem scanString_pair (hhigh : IsHighSurrogate high) (hlow : IsLowSurrogate low) :
    scanString (unicodeEscape high ++ (unicodeEscape low ++ rest))
      = (codePoint (joinSurrogates high low)).bind fun c =>
          (scanString rest).map (consString c) := by
  have hsome : (if IsHighSurrogate high then lowAhead (unicodeEscape low ++ rest) else none)
      = some (low, rest) := by
    rw [if_pos hhigh, lowAhead_unicodeEscape rest (hlow.2.trans (by decide)), if_pos hlow]
  rw [unicodeEscape, List.cons_append, List.cons_append, scanString, if_neg (by decide), if_pos rfl]
  simp only [if_true]
  split
  next hdecode =>
    rw [decodeUXXXX_hexFour (hhigh.2.trans (by decide))] at hdecode
    cases hdecode
  next hdecode =>
    rw [decodeUXXXX_hexFour (hhigh.2.trans (by decide))] at hdecode
    cases hdecode
    split
    next hlow =>
      rw [hsome] at hlow
      cases hlow
      rfl
    next hlow =>
      rw [hsome] at hlow
      cases hlow

/-- One code point is read back, unless it is a high surrogate in front of a low one. -/
theorem scanString_escapeOf (hrest : IsHighSurrogate c → lowAhead rest = none) :
    scanString (escapeOf c ++ rest) = (scanString rest).map (consString c) := by
  rcases escapeOf_cases c with ⟨e, hc, hrow⟩ | ⟨hc, hquote, hbackslash, hprinted, -⟩ |
    ⟨hc, hplane⟩ | ⟨hc, hplane⟩
  · rw [hc]
    exact scanString_short rest (shortEscapes_spec _ hrow).2.1 (shortEscapes_spec _ hrow).1
  · rw [hc]
    exact scanString_plain rest hquote hbackslash hprinted
  · rw [hc, scanString_unit rest hplane hrest, codePoint_val]
    rfl
  · have hlt := c.isLt
    have hhigh : IsHighSurrogate (0xD800 + (c.val - 0x10000) / 0x400) := ⟨by omega, by omega⟩
    have hlow : IsLowSurrogate (0xDC00 + (c.val - 0x10000) % 0x400) := ⟨by omega, by omega⟩
    have hjoin : joinSurrogates (0xD800 + (c.val - 0x10000) / 0x400)
        (0xDC00 + (c.val - 0x10000) % 0x400) = c.val := by
      unfold joinSurrogates
      omega
    rw [hc, List.append_assoc, scanString_pair rest hhigh hlow, hjoin, codePoint_val]
    rfl

theorem escapeOf_surrogate {n : CodePoint} (h : IsHighSurrogate n ∨ IsLowSurrogate n) :
    escapeOf n = unicodeEscape n := by
  rcases escapeOf_cases n with ⟨e, -, hrow⟩ | ⟨-, -, -, -, hprinted⟩ | ⟨hn, -⟩ | ⟨-, hplane⟩
  · obtain ⟨-, -, hhigh, hlow, -⟩ := shortEscapes_spec _ hrow
    exact absurd h (not_or.mpr ⟨hhigh, hlow⟩)
  · rcases h with ⟨h, -⟩ | ⟨h, -⟩ <;> omega
  · exact hn
  · rcases h with ⟨-, h⟩ | ⟨-, h⟩ <;> omega

/-- The text of a string does not begin with the escape of a low surrogate unless the string begins
with one. -/
theorem lowAhead_escape {s : Str} (h : ∀ c ∈ s.head?, ¬IsLowSurrogate c.val) :
    lowAhead (escape s ++ quote :: rest) = none := by
  cases s with
  | nil =>
      cases rest with
      | nil => rfl
      | cons c rest =>
          rw [escape, List.flatMap_nil, List.nil_append, lowAhead, if_neg]
          rintro ⟨hquote, -⟩
          exact absurd hquote (by decide)
  | cons c s =>
      have hlow : ¬IsLowSurrogate c.val := h c rfl
      rw [escape, List.flatMap_cons, List.append_assoc]
      rcases escapeOf_cases c with ⟨e, hc, hrow⟩ | ⟨hc, -, hbackslash, -⟩ | ⟨hc, hplane⟩ |
        ⟨hc, hplane⟩
      · rw [hc]
        exact if_neg fun h => (shortEscapes_spec _ hrow).2.1 h.2
      · rw [hc, List.singleton_append]
        cases s.flatMap escapeOf ++ quote :: rest with
        | nil => rfl
        | cons d rest => exact if_neg fun h => hbackslash h.1
      · rw [hc, lowAhead_unicodeEscape _ hplane, if_neg hlow]
      · have hlt := c.isLt
        rw [hc, List.append_assoc, lowAhead_unicodeEscape _ (by omega), if_neg]
        rintro ⟨hlow, -⟩
        omega

end

/-- The text of a string is read back as the string with its surrogates put together. -/
theorem scanString_escape (s rest : Str) :
    scanString (escape s ++ quote :: rest) = some (joined s, rest) := by
  induction s using joined.induct with
  | case1 high low s h ih =>
      rw [escape, List.flatMap_cons, List.flatMap_cons, List.append_assoc, List.append_assoc,
        escapeOf_surrogate (.inl h.1), escapeOf_surrogate (.inr h.2), scanString_pair _ h.1 h.2,
        ← escape, ih, joined, dif_pos h, codePoint, dif_pos (joinSurrogates_lt h.1 h.2)]
      rfl
  | case2 high low s h ih =>
      rw [escape, List.flatMap_cons, List.append_assoc, ← escape, scanString_escapeOf, ih, joined,
        dif_neg h]
      · rfl
      · intro hhigh
        refine lowAhead_escape rest ?_
        rintro _ ⟨⟩ hlow
        exact h ⟨hhigh, hlow⟩
  | case3 s h =>
      rw [joined.eq_2 s h]
      match s, h with
      | [], _ =>
          exact scanString_quote rest
      | [c], _ =>
          rw [escape, List.flatMap_cons, List.flatMap_nil, List.append_nil, scanString_escapeOf,
            scanString_quote]
          · rfl
          · intro _
            exact lowAhead_escape (s := []) rest (by simp)
      | high :: low :: s, h => exact absurd rfl (h high low s)

/-! ## Two strings -/

/-- `[ \t\n\r]*`. -/
def skipBlank (text : Str) : Str :=
  text.dropWhile fun c => c = 0x20 || c = 0x09 || c = 0x0A || c = 0x0D

/-- The text after the code point. -/
def expect (c : CodePoint) (text : Str) : Option Str :=
  match skipBlank text with
  | [] => none
  | d :: rest => if d = c then some rest else none

/-- `json.loads` of some bytes, where the value is a list of two strings. -/
def loadsPair (bytes : List Byte) : Option (Str × Str) := do
  let text ← decodeDetected bytes
  let text ← expect (ord '[') text
  let text ← expect quote text
  let (first, text) ← scanString text
  let text ← expect (ord ',') text
  let text ← expect quote text
  let (second, text) ← scanString text
  let text ← expect (ord ']') text
  if skipBlank text = [] then some (first, second) else none

theorem expect_self {c : CodePoint} (h : ¬(c = 0x20 ∨ c = 0x09 ∨ c = 0x0A ∨ c = 0x0D))
    (rest : Str) : expect c (c :: rest) = some rest := by
  rw [expect, skipBlank, List.dropWhile_cons_of_neg (by simpa [or_assoc] using h)]
  exact if_pos rfl

/-! ## Texts of plain bytes -/

/-- The code point is an ASCII character other than zero. -/
def IsPlain (c : CodePoint) : Prop := 0 < c.val ∧ c.val < 0x80

instance (c : CodePoint) : Decidable (IsPlain c) := inferInstanceAs (Decidable (_ ∧ _))

theorem hexDigit_plain : ∀ n < 16, IsPlain (hexDigit n) := by decide +kernel

theorem unicodeEscape_plain {unit : ℕ} (h : unit < 0x10000) :
    ∀ c ∈ unicodeEscape unit, IsPlain c := by
  simp only [unicodeEscape, hexFour, List.forall_mem_cons]
  exact ⟨by decide, by decide, hexDigit_plain _ (by omega), hexDigit_plain _ (by omega),
    hexDigit_plain _ (by omega), hexDigit_plain _ (by omega), List.forall_mem_nil _⟩

theorem escapeOf_plain (d : CodePoint) : ∀ c ∈ escapeOf d, IsPlain c := by
  rcases escapeOf_cases d with ⟨e, hd, hrow⟩ | ⟨hd, -, -, hprinted⟩ | ⟨hd, hplane⟩ | ⟨hd, hplane⟩
  · rw [hd, List.forall_mem_cons, List.forall_mem_singleton]
    exact ⟨by decide, (shortEscapes_spec _ hrow).2.2.2.2⟩
  · rw [hd, List.forall_mem_singleton]
    exact ⟨by omega, by omega⟩
  · rw [hd]
    exact unicodeEscape_plain hplane
  · have hlt := d.isLt
    rw [hd, List.forall_mem_append]
    exact ⟨unicodeEscape_plain (by omega), unicodeEscape_plain (by omega)⟩

theorem escape_plain (s : Str) : ∀ c ∈ escape s, IsPlain c := by
  intro c hc
  obtain ⟨d, -, hc⟩ := List.mem_flatMap.mp hc
  exact escapeOf_plain d c hc

theorem dumpsPair_plain (first second : Str) : ∀ c ∈ dumpsPair first second, IsPlain c := by
  simp only [dumpsPair, List.forall_mem_cons, List.forall_mem_append]
  exact ⟨by decide, by decide, escape_plain first, by decide, by decide, by decide,
    escape_plain second, by decide, by decide, List.forall_mem_nil _⟩

theorem byte_val_of_isPlain {c : CodePoint} (h : IsPlain c) : (byte c.val).val = c.val :=
  Nat.mod_eq_of_lt (by have := h.2; omega)

theorem encodeUtf8_plain {s : Str} (h : ∀ c ∈ s, IsPlain c) :
    encodeUtf8 s = some (s.map fun c => byte c.val) := by
  induction s with
  | nil => rfl
  | cons c s ih =>
      obtain ⟨hc, hs⟩ := List.forall_mem_cons.mp h
      have hrest := ih hs
      rw [encodeUtf8, Option.map_eq_some_iff] at hrest ⊢
      obtain ⟨bytes, hbytes, hflat⟩ := hrest
      refine ⟨[byte c.val] :: bytes, ?_, ?_⟩
      · rw [List.mapM_cons, if_pos hc.2, hbytes]
        rfl
      · rw [List.flatten_cons, hflat]
        rfl

theorem decodeUtf8_plain {s : Str} (h : ∀ c ∈ s, IsPlain c) :
    decodeUtf8 (s.map fun c => byte c.val) = some s := by
  induction s with
  | nil => rfl
  | cons c s ih =>
      obtain ⟨hc, hs⟩ := List.forall_mem_cons.mp h
      have hbyte := byte_val_of_isPlain hc
      rw [List.map_cons, decodeUtf8.eq_def]
      simp only [hbyte, if_pos hc.2, ih hs]
      exact congrArg (fun d => some (d :: s)) (Fin.ext hbyte)

/-- Such bytes look like UTF-8. -/
theorem decodeDetected_plain {s : Str} (h : ∀ c ∈ s, IsPlain c) :
    decodeDetected (s.map fun c => byte c.val) = some s := by
  have hbyte : ∀ b ∈ s.map fun c => byte c.val, 0 < b.val ∧ b.val < 0x80 := by
    intro b hb
    obtain ⟨c, hc, rfl⟩ := List.mem_map.mp hb
    rw [byte_val_of_isPlain (h c hc)]
    exact h c hc
  have hfront (b : Byte) (bs : List Byte) (hb : ¬(0 < b.val ∧ b.val < 0x80)) :
      ¬b :: bs <+: s.map fun c => byte c.val :=
    fun hpre => hb (hbyte b (hpre.subset (List.mem_cons_self ..)))
  have hne (b : Byte) (hb : b ∈ s.map fun c => byte c.val) : b ≠ 0 := by
    rintro rfl
    exact absurd (hbyte 0 hb).1 (by decide)
  rw [← decodeUtf8_plain h, decodeDetected.eq_def, if_neg (hfront _ _ (by decide)),
    if_neg (hfront _ _ (by decide)), if_neg (hfront _ _ (by decide)),
    if_neg (hfront _ _ (by decide)), if_neg (hfront _ _ (by decide))]
  generalize s.map (fun c => byte c.val) = bytes at hne ⊢
  split
  next a b c d rest => rw [if_neg (hne a (by simp)), if_neg (hne b (by simp))]
  next a b => rw [if_neg (hne a (by simp)), if_neg (hne b (by simp))]
  next => rfl

/-- What is read of the JSON text of two strings. -/
theorem loadsPair_dumpsPair (first second : Str) :
    (encodeUtf8 (dumpsPair first second)).bind loadsPair
      = some (joined first, joined second) := by
  rw [encodeUtf8_plain (dumpsPair_plain first second), Option.bind_some, loadsPair,
    decodeDetected_plain (dumpsPair_plain first second), dumpsPair]
  simp only [Option.bind_eq_bind, Option.bind_some]
  rw [expect_self (by decide), Option.bind_some, expect_self (by decide), Option.bind_some,
    scanString_escape, Option.bind_some]
  simp only
  rw [expect_self (by decide), Option.bind_some, expect_self (by decide), Option.bind_some,
    scanString_escape, Option.bind_some]
  simp only
  rw [expect_self (by decide), Option.bind_some]
  rfl

end Foundations
