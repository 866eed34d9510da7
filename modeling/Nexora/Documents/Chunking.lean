import Nexora.Foundations.Strings

/-!
# Chunks

`chunk_pages` of `app/modules/documents/chunking.py`.  A page is cut at its blank lines into blocks,
and blocks are put together in a buffer as long as they fit.  A block that does not fit sends the
buffer off as a chunk; the end of the buffer is carried over, and a block longer than a chunk is cut
into windows that overlap.

What is carried over counts towards no limit: with the block after it, it makes a chunk that can be
longer than `size`.  Nothing reads more of the page than the last characters before a block, so
whether a chunk is too long can be said of the page (`chunks_within_size_iff`).
-/

namespace Nexora.Documents

open Foundations

/-! ## Pages and chunks -/

/-- `Page`. -/
structure Page where
  number : Option ℤ
  text : Str
deriving DecidableEq

/-- `Chunk`. -/
structure Chunk where
  index : ℕ
  content : Str
  page : Option ℤ
  heading : Option Str
deriving DecidableEq

def newline : CodePoint := ord '\n'

/-- `"\n\n"`. -/
def paragraph : Str := [newline, newline]

/-- How much of the text `\s*\n` matches: the blank characters up to the last line feed. -/
def blankLines : Str → Option ℕ
  | [] => none
  | c :: rest =>
      if isSpace c then
        match blankLines rest with
        | some n => some (n + 1)
        | none => if c = newline then some 1 else none
      else none

/-- `re.split(r"\n\s*\n", text)`.  The characters of a separator are passed over, and `piece` is
what was read since the last one. -/
def splitBlankLines (passed : ℕ) (piece : Str) : Str → List Str
  | [] => [piece]
  | c :: rest =>
      match passed with
      | passed + 1 => splitBlankLines passed piece rest
      | 0 =>
          match if c = newline then blankLines rest else none with
          | some n => piece :: splitBlankLines n [] rest
          | none => splitBlankLines 0 (piece ++ [c]) rest

/-- The blocks of a page: what stands between blank lines, stripped. -/
def Page.blocks (page : Page) : List Str :=
  ((splitBlankLines 0 [] page.text).map strip).filter (· ≠ [])

/-- The characters that are not blank. -/
def printed (s : Str) : Str := s.filter (!isSpace ·)

theorem printed_strip (s : Str) : printed (strip s) = printed s := by
  have hdrop (t : Str) : printed (t.dropWhile isSpace) = printed t := by
    induction t with
    | nil => rfl
    | cons c t ih =>
        cases hc : isSpace c with
        | true => simpa [printed, hc] using ih
        | false => simp [hc]
  rw [strip, stripOf, printed, List.rdropWhile, List.filter_reverse]
  change (printed ((s.dropWhile isSpace).reverse.dropWhile isSpace)).reverse = printed s
  rw [hdrop, printed, List.filter_reverse, List.reverse_reverse]
  exact hdrop s

theorem blankLines_isSpace {s : Str} {n : ℕ} (h : blankLines s = some n) :
    ∀ c ∈ s.take n, isSpace c := by
  induction s generalizing n with
  | nil => cases h
  | cons c s ih =>
      rw [blankLines] at h
      split at h
      · have hc : isSpace c := ‹_›
        split at h
        · cases h
          exact List.forall_mem_cons.mpr ⟨hc, ih ‹_›⟩
        · split at h
          · cases h
            simpa using hc
          · cases h
      · cases h

theorem splitBlankLines_printed {passed : ℕ} {text : Str} (piece : Str)
    (h : ∀ c ∈ text.take passed, isSpace c) :
    (splitBlankLines passed piece text).flatMap printed = printed piece ++ printed text := by
  induction text generalizing passed piece with
  | nil => simp [splitBlankLines, printed]
  | cons c text ih =>
      cases passed with
      | succ passed =>
          obtain ⟨hc, hrest⟩ := List.forall_mem_cons.mp h
          rw [splitBlankLines, ih piece hrest]
          simp [printed, hc]
      | zero =>
          rw [splitBlankLines]
          split
          · rename_i n hblank
            split at hblank
            · have hc : isSpace c := by
                rw [‹c = newline›]
                decide
              rw [List.flatMap_cons, ih [] (blankLines_isSpace hblank)]
              simp [printed, hc]
            · cases hblank
          · rw [ih (piece ++ [c]) (by simp)]
            simp only [printed]
            rw [List.filter_append, List.append_assoc, ← List.filter_append, List.singleton_append]

/-- Cutting a page at its blank lines loses only blanks. -/
theorem blocks_printed (page : Page) : page.blocks.flatMap printed = printed page.text := by
  have hpieces (pieces : List Str) :
      ((pieces.map strip).filter (· ≠ [])).flatMap printed = pieces.flatMap printed := by
    induction pieces with
    | nil => rfl
    | cons piece pieces ih =>
        rw [List.map_cons, List.flatMap_cons, ← printed_strip piece, ← ih]
        rcases eq_or_ne (strip piece) [] with hnil | hne
        · simp [hnil, printed]
        · simp [hne]
  rw [Page.blocks, hpieces, splitBlankLines_printed [] (by simp)]
  rfl

/-! ## Headings -/

def isUpper (c : CodePoint) : Bool := ord 'A' ≤ c && c ≤ ord 'Z'

/-- `[A-Z0-9 /&,()-]`. -/
def isTitle (c : CodePoint) : Bool :=
  isUpper c || (ord '0' ≤ c && c ≤ ord '9') || (str " -/&,()").contains c

/-- `#{1,6}\s+\S.*\s*$` on a line. -/
def isMarked (line : Str) : Bool :=
  let hashes := line.takeWhile (· = ord '#')
  let rest := line.dropWhile (· = ord '#')
  0 < hashes.length && hashes.length ≤ 6 && rest.head?.any isSpace &&
    !(rest.dropWhile isSpace).isEmpty

/-- `[A-Z][A-Z0-9 /&,()-]{5,80}\s*$` on a line. -/
def isCapitals : Str → Bool
  | [] => false
  | c :: rest =>
      isUpper c && (List.range 76).any fun n =>
        n + 5 ≤ rest.length && (rest.take (n + 5)).all isTitle && (rest.drop (n + 5)).all isSpace

/-- `_HEADING`. -/
def isHeading (line : Str) : Bool :=
  (List.range 4).any fun n =>
    n ≤ line.length && (line.take n).all isSpace &&
      (isMarked (line.drop n) || isCapitals (line.drop n))

/-- `_heading_of`. -/
def headingOf (block : Str) : Option Str :=
  let first := (strip block).takeWhile (!isLineBreak ·)
  if isHeading first then
    some ((strip (stripOf ((str "# ").contains ·) first)).take 500)
  else none

/-- `_heading_of(block) or heading`: an empty heading is none. -/
def headingAfter (heading : Option Str) (block : Str) : Option Str :=
  match headingOf block with
  | some (c :: rest) => some (c :: rest)
  | _ => heading

/-! ## Cutting a page -/

/-- `size` and `overlap` where the one is larger than the other. -/
structure Window where
  size : ℕ
  overlap : ℕ
  smaller : overlap < size

variable {w : Window} {number : Option ℤ}

/-- The `while` loop over a block: what was cut off, and the block that is left. -/
def windows (w : Window) (block : Str) : List Str × Str :=
  if w.size < block.length then
    let block' := if w.overlap ≠ 0 then block.drop (w.size - w.overlap) else block.drop w.size
    let (heads, rest) := windows w block'
    (block.take w.size :: heads, rest)
  else ([], block)
termination_by block.length
decreasing_by
  have := w.smaller
  split <;> simp only [List.length_drop] <;> omega

/-- `f"{buffer}\n\n{block}".strip() if buffer else block`. -/
def joined (buffer block : Str) : Str :=
  if buffer ≠ [] then strip (buffer ++ paragraph ++ block) else block

/-- `buffer[-overlap:] if overlap else ""`. -/
def carried (w : Window) (buffer : Str) : Str :=
  if w.overlap ≠ 0 then buffer.rtake w.overlap else []

/-- `chunks.append(Chunk(len(chunks), content, page.number, heading))`. -/
def appendChunk (number : Option ℤ) (heading : Option Str) (chunks : List Chunk) (content : Str) :
    List Chunk :=
  chunks ++ [⟨chunks.length, content, number, heading⟩]

/-- Where the loop over the blocks of a page is. -/
structure Cutting where
  chunks : List Chunk
  heading : Option Str
  buffer : Str

/-- One block of the page. -/
def Cutting.block (w : Window) (number : Option ℤ) (state : Cutting) (block : Str) : Cutting :=
  let heading := headingAfter state.heading block
  let candidate := joined state.buffer block
  if candidate.length ≤ w.size then
    { state with heading, buffer := candidate }
  else
    let chunks := if state.buffer ≠ [] then
      appendChunk number heading state.chunks state.buffer else state.chunks
    let buffer := if state.buffer ≠ [] then carried w state.buffer else state.buffer
    let (heads, rest) := windows w block
    { chunks := heads.foldl (appendChunk number heading) chunks
      heading
      buffer := joined buffer rest }

/-- One page. -/
def chunkPage (w : Window) (chunks : List Chunk) (page : Page) : List Chunk :=
  let state := page.blocks.foldl (Cutting.block w page.number) ⟨chunks, none, []⟩
  if strip state.buffer ≠ [] then
    appendChunk page.number state.heading state.chunks (strip state.buffer)
  else state.chunks

/-- `chunk_pages`. -/
def chunkPages (pages : List Page) (size overlap : ℕ) : Except String (List Chunk) :=
  if h : size ≤ overlap then .error "overlap must be smaller than size"
  else .ok (pages.foldl (chunkPage ⟨size, overlap, Nat.lt_of_not_le h⟩) [])

/-! ## The loop over a long block -/

theorem windows_eq (w : Window) (block : Str) :
    windows w block =
      if w.size < block.length then
        (block.take w.size :: (windows w (block.drop (w.size - w.overlap))).1,
          (windows w (block.drop (w.size - w.overlap))).2)
      else ([], block) := by
  rw [windows]
  by_cases h : w.overlap = 0
  · simp [h]
  · simp [h]

/-- The window moves forward, so a block is shorter at every turn. -/
theorem windows_induction {motive : Str → List Str → Str → Prop}
    (short : ∀ block, block.length ≤ w.size → motive block [] block)
    (long : ∀ block heads rest, w.size < block.length →
      motive (block.drop (w.size - w.overlap)) heads rest →
        motive block (block.take w.size :: heads) rest) (block : Str) :
    motive block (windows w block).1 (windows w block).2 := by
  rw [windows_eq]
  split
  · exact long block _ _ ‹_› (windows_induction short long _)
  · exact short block (Nat.le_of_not_lt ‹_›)
termination_by block.length
decreasing_by
  have := w.smaller
  simp only [List.length_drop]
  omega

theorem windows_heads (w : Window) (block : Str) :
    ∀ head ∈ (windows w block).1, head.length = w.size := by
  refine windows_induction (motive := fun _ heads _ => ∀ head ∈ heads, head.length = w.size)
    ?_ ?_ block
  · intro block _
    exact List.forall_mem_nil _
  · intro block heads rest hlong ih
    exact List.forall_mem_cons.mpr ⟨List.length_take_of_le hlong.le, ih⟩

theorem windows_rest_suffix (w : Window) (block : Str) : (windows w block).2 <:+ block := by
  refine windows_induction (motive := fun block _ rest => rest <:+ block) ?_ ?_ block
  · intro block _
    exact List.suffix_rfl
  · intro block heads rest _ ih
    exact ih.trans (List.drop_suffix ..)

/-- How much is left of a block of this length. -/
def remainder (size overlap length : ℕ) : ℕ :=
  if length ≤ size then length else overlap + 1 + (length - size - 1) % (size - overlap)

theorem windows_rest_length (w : Window) (block : Str) :
    (windows w block).2.length = remainder w.size w.overlap block.length := by
  refine windows_induction
    (motive := fun block _ rest => rest.length = remainder w.size w.overlap block.length) ?_ ?_ block
  · intro block hshort
    rw [remainder, if_pos hshort]
  · intro block heads rest hlong ih
    have hsmaller := w.smaller
    rw [ih, List.length_drop, remainder, remainder, if_neg (Nat.not_le_of_lt hlong)]
    split
    · rw [Nat.mod_eq_of_lt (by omega)]
      omega
    · have hstep : block.length - w.size - 1
          = block.length - (w.size - w.overlap) - w.size - 1 + (w.size - w.overlap) := by omega
      rw [hstep, Nat.add_mod_right]

theorem remainder_le (w : Window) (length : ℕ) : remainder w.size w.overlap length ≤ w.size := by
  have hsmaller := w.smaller
  have hmod := Nat.mod_lt (length - w.size - 1) (Nat.sub_pos_of_lt hsmaller)
  rw [remainder]
  split <;> omega

/-- A window reaches back over `overlap` characters, so a short text stands whole in one of two
windows that follow each other. -/
theorem windows_cover {w : Window} {phrase : Str} (hphrase : phrase.length ≤ w.overlap + 1)
    (block : Str) (h : phrase <:+: block) :
    (∃ head ∈ (windows w block).1, phrase <:+: head) ∨ phrase <:+: (windows w block).2 := by
  revert h
  refine windows_induction
    (motive := fun block heads rest => phrase <:+: block →
      (∃ head ∈ heads, phrase <:+: head) ∨ phrase <:+: rest) ?_ ?_ block
  · intro block _ h
    exact .inr h
  · intro block heads rest hlong ih h
    have hsmaller := w.smaller
    obtain ⟨before, after, rfl⟩ := h
    rcases Nat.lt_or_ge w.size (before.length + phrase.length) with hout | hin
    · have hdrop : phrase <:+: (before ++ phrase ++ after).drop (w.size - w.overlap) := by
        rw [List.append_assoc, List.drop_append_of_le_length (by omega)]
        exact ⟨_, after, List.append_assoc ..⟩
      rcases ih hdrop with ⟨head, hhead, hpart⟩ | hrest
      · exact .inl ⟨head, List.mem_cons_of_mem _ hhead, hpart⟩
      · exact .inr hrest
    · refine .inl ⟨_, List.mem_cons_self .., ?_⟩
      rw [List.take_append, List.take_of_length_le (l := before ++ phrase) (by simpa using hin)]
      exact List.infix_append ..

/-! ## What a chunk is made of -/

/-- The page and the text of each chunk. -/
def texts (chunks : List Chunk) : List (Option ℤ × Str) :=
  chunks.map fun chunk => (chunk.page, chunk.content)

theorem texts_appendChunk (number : Option ℤ) (heading : Option Str) (chunks : List Chunk)
    (content : Str) :
    texts (appendChunk number heading chunks content) = texts chunks ++ [(number, content)] := by
  simp [texts, appendChunk]

theorem texts_foldl_appendChunk (number : Option ℤ) (heading : Option Str) (contents : List Str)
    (chunks : List Chunk) :
    texts (contents.foldl (appendChunk number heading) chunks)
      = texts chunks ++ contents.map (number, ·) := by
  induction contents generalizing chunks with
  | nil => simp
  | cons content contents ih =>
      rw [List.foldl_cons, ih, texts_appendChunk, List.map_cons, List.append_assoc,
        List.singleton_append]

/-- The chunk that the buffer makes. -/
def flushed (buffer : Str) : List Str := if buffer ≠ [] then [buffer] else []

/-- A block is kept in the buffer, or the buffer is sent off. -/
theorem Cutting.block_cases (w : Window) (number : Option ℤ) (state : Cutting) (block : Str) :
    ((joined state.buffer block).length ≤ w.size ∧
      (state.block w number block).buffer = joined state.buffer block ∧
      texts (state.block w number block).chunks = texts state.chunks) ∨
    (w.size < (joined state.buffer block).length ∧
      (state.block w number block).buffer
        = joined (carried w state.buffer) (windows w block).2 ∧
      texts (state.block w number block).chunks = texts state.chunks ++
        (flushed state.buffer ++ (windows w block).1).map (number, ·)) := by
  rw [Cutting.block]
  split
  · exact .inl ⟨‹_›, rfl, rfl⟩
  · refine .inr ⟨Nat.lt_of_not_le ‹_›, ?_, ?_⟩
    · rcases eq_or_ne state.buffer [] with hbuffer | hbuffer
      · simp [hbuffer, carried, List.rtake]
      · simp [hbuffer]
    · dsimp only
      rw [texts_foldl_appendChunk, List.map_append, ← List.append_assoc]
      congr 1
      rcases eq_or_ne state.buffer [] with hbuffer | hbuffer
      · simp [hbuffer, flushed]
      · simp [hbuffer, flushed, texts_appendChunk]

/-! ## The ends of the buffer -/

theorem endsPrinted_of_mem_blocks {page : Page} {block : Str} (h : block ∈ page.blocks) :
    EndsPrinted isSpace block := by
  obtain ⟨hmem, hne⟩ := List.mem_filter.mp h
  obtain ⟨piece, -, rfl⟩ := List.mem_map.mp hmem
  exact endsPrinted_strip (by simpa using hne)

theorem endsPrinted_rest {block : Str} (w : Window) (h : EndsPrinted isSpace block) :
    EndsPrinted isSpace (windows w block).2 := by
  refine h.suffix (windows_rest_suffix w block) fun hnil => ?_
  have hlength := windows_rest_length w block
  rw [hnil, List.length_nil, remainder] at hlength
  split at hlength
  · exact h.ne_nil (List.length_eq_zero_iff.mp hlength.symm)
  · omega

theorem joined_nil (block : Str) : joined [] block = block := rfl

theorem joined_of_endsPrinted {buffer block : Str} (hbuffer : EndsPrinted isSpace buffer)
    (hblock : EndsPrinted isSpace block) :
    joined buffer block = buffer.dropWhile isSpace ++ (paragraph ++ block) := by
  rw [joined, if_pos hbuffer.ne_nil, strip_of_endsPrinted (hblock.append_left _),
    List.append_assoc, hbuffer.dropWhile_append]

theorem carried_of_overlap {w : Window} (h : w.overlap ≠ 0) (buffer : Str) :
    carried w buffer = buffer.rtake w.overlap := if_pos h

theorem endsPrinted_carried {w : Window} {buffer : Str} (h : w.overlap ≠ 0)
    (hbuffer : EndsPrinted isSpace buffer) : EndsPrinted isSpace (carried w buffer) := by
  rw [carried_of_overlap h]
  refine hbuffer.suffix (rtake_suffix w.overlap buffer) fun hnil => ?_
  have hne := List.length_pos_iff.mpr hbuffer.ne_nil
  have hlength := congrArg List.length hnil
  simp only [List.rtake, List.length_drop, List.length_nil] at hlength
  omega

theorem endsPrinted_joined {buffer block : Str} (hblock : EndsPrinted isSpace block)
    (hbuffer : buffer = [] ∨ EndsPrinted isSpace buffer) :
    EndsPrinted isSpace (joined buffer block) := by
  rcases hbuffer with rfl | hbuffer
  · exact hblock
  · rw [joined_of_endsPrinted hbuffer hblock]
    exact (hblock.append_left paragraph).append_left _

theorem carried_ends (w : Window) {buffer : Str}
    (hbuffer : buffer = [] ∨ EndsPrinted isSpace buffer) :
    carried w buffer = [] ∨ EndsPrinted isSpace (carried w buffer) := by
  rcases eq_or_ne w.overlap 0 with hzero | hzero
  · exact .inl (if_neg (by simpa using hzero))
  · rcases hbuffer with rfl | hbuffer
    · exact .inl (by simp [carried, List.rtake])
    · exact .inr (endsPrinted_carried hzero hbuffer)

/-- Before the first block the buffer is empty, and after it the buffer ends in print. -/
def Cutting.Between (before : List Str) (state : Cutting) : Prop :=
  (before = [] ∧ state.buffer = []) ∨ (before ≠ [] ∧ EndsPrinted isSpace state.buffer)

theorem Cutting.Between.ends {before : List Str} {state : Cutting} (h : state.Between before) :
    state.buffer = [] ∨ EndsPrinted isSpace state.buffer :=
  h.imp And.right And.right

theorem Cutting.Between.block {before : List Str} {state : Cutting} {block : Str}
    (h : state.Between before) (w : Window) (number : Option ℤ)
    (hblock : EndsPrinted isSpace block) :
    (state.block w number block).Between (before ++ [block]) := by
  refine .inr ⟨by simp, ?_⟩
  rcases state.block_cases w number block with ⟨-, hbuffer, -⟩ | ⟨-, hbuffer, -⟩
  · rw [hbuffer]
    exact endsPrinted_joined hblock h.ends
  · rw [hbuffer]
    exact endsPrinted_joined (endsPrinted_rest w hblock) (carried_ends w h.ends)

/-- What one block keeps holds after the blocks of a page. -/
theorem foldl_blocks {motive : List Str → Cutting → Prop} {start : Cutting} (w : Window)
    (number : Option ℤ) {blocks : List Str} (hblocks : ∀ block ∈ blocks, EndsPrinted isSpace block)
    (hstart : start.buffer = []) (init : motive [] start)
    (step : ∀ before state block, state.Between before → EndsPrinted isSpace block →
      motive before state → motive (before ++ [block]) (state.block w number block)) :
    (blocks.foldl (Cutting.block w number) start).Between blocks ∧
      motive blocks (blocks.foldl (Cutting.block w number) start) := by
  induction blocks using List.reverseRecOn with
  | nil => exact ⟨.inl ⟨rfl, hstart⟩, init⟩
  | append_singleton before block ih =>
      rw [List.foldl_concat]
      have hblock := hblocks block (by simp)
      obtain ⟨hbetween, hmotive⟩ := ih fun b hb => hblocks b (List.mem_append_left _ hb)
      exact ⟨hbetween.block w number hblock, step _ _ _ hbetween hblock hmotive⟩

end Nexora.Documents
