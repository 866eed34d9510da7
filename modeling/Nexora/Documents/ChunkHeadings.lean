import Nexora.Documents.ChunkTexts

/-!
# The headings of the chunks

`chunk_pages` looks for a heading in a block before it sends off the buffer that the block does not fit
into.  So a chunk is recorded under the heading of the block after its text, where that block brings
one.

`Page.pieces` is what a page is cut into, each piece with the blocks up to the last one that it has text
of.  The heading of every piece is that of one of its blocks exactly when no block but the first of its
page both brings a heading that no block before has and is too long for the buffer
(`chunk_headings_iff`).
-/

namespace Nexora.Documents

open Foundations

variable {w : Window} {number : Option ℤ}

/-! ## Pieces -/

/-- What is recorded on a chunk besides its index. -/
def Chunk.body (chunk : Chunk) : Option ℤ × Str × Option Str :=
  (chunk.page, chunk.content, chunk.heading)

/-- A chunk of a page, with the blocks up to the last one that it has text of. -/
structure Piece where
  content : Str
  heading : Option Str
  sources : List Str
deriving DecidableEq

def Piece.body (number : Option ℤ) (piece : Piece) : Option ℤ × Str × Option Str :=
  (number, piece.content, piece.heading)

/-- The buffer after a block. -/
def bufferAfter (w : Window) (buffer block : Str) : Str :=
  if (joined buffer block).length ≤ w.size then joined buffer block
  else joined (carried w buffer) (windows w block).2

/-- What is sent off at a block: the buffer, which has no text of the block, and what is cut off the
block. -/
def piecesAt (w : Window) (before : List Str) (heading : Option Str) (buffer block : Str) :
    List Piece :=
  if (joined buffer block).length ≤ w.size then []
  else
    (flushed buffer).map (⟨·, headingAfter heading block, before⟩) ++
      (windows w block).1.map (⟨·, headingAfter heading block, before ++ [block]⟩)

/-- The pieces from a block on. -/
def piecesFrom (w : Window) (before : List Str) (heading : Option Str) (buffer : Str) :
    List Str → List Piece
  | [] => (flushed (strip buffer)).map (⟨·, heading, before⟩)
  | block :: rest =>
      piecesAt w before heading buffer block ++
        piecesFrom w (before ++ [block]) (headingAfter heading block) (bufferAfter w buffer block) rest

def Page.pieces (w : Window) (page : Page) : List Piece := piecesFrom w [] none [] page.blocks

/-! ## The chunks are the pieces -/

theorem bodies_appendChunk (number : Option ℤ) (heading : Option Str) (chunks : List Chunk)
    (content : Str) :
    (appendChunk number heading chunks content).map Chunk.body =
      chunks.map Chunk.body ++ [(number, content, heading)] := by
  simp [appendChunk, Chunk.body]

theorem bodies_foldl_appendChunk (number : Option ℤ) (heading : Option Str) (contents : List Str)
    (chunks : List Chunk) :
    (contents.foldl (appendChunk number heading) chunks).map Chunk.body =
      chunks.map Chunk.body ++ contents.map (number, ·, heading) := by
  induction contents generalizing chunks with
  | nil => simp
  | cons content contents ih =>
      rw [List.foldl_cons, ih, bodies_appendChunk, List.map_cons, List.append_assoc,
        List.singleton_append]

theorem Cutting.block_heading (w : Window) (number : Option ℤ) (state : Cutting) (block : Str) :
    (state.block w number block).heading = headingAfter state.heading block := by
  rw [Cutting.block]
  split
  · rfl
  · rfl

theorem Cutting.block_buffer (w : Window) (number : Option ℤ) (state : Cutting) (block : Str) :
    (state.block w number block).buffer = bufferAfter w state.buffer block := by
  rw [bufferAfter]
  rcases state.block_cases w number block with ⟨hfits, hbuffer, -⟩ | ⟨hlong, hbuffer, -⟩
  · rw [hbuffer, if_pos hfits]
  · rw [hbuffer, if_neg (Nat.not_le_of_lt hlong)]

theorem Cutting.block_chunks (w : Window) (number : Option ℤ) (state : Cutting) (block : Str)
    (before : List Str) :
    (state.block w number block).chunks.map Chunk.body = state.chunks.map Chunk.body ++
      (piecesAt w before state.heading state.buffer block).map (Piece.body number) := by
  rw [Cutting.block, piecesAt]
  split
  · simp
  · dsimp only
    rw [bodies_foldl_appendChunk, List.map_append, ← List.append_assoc, List.map_map, List.map_map]
    congr 1
    by_cases hbuffer : state.buffer = []
    · simp [hbuffer, flushed]
    · simp [hbuffer, flushed, bodies_appendChunk, Piece.body]

/-- The loop over the blocks of a page and the chunk after it, from any state on. -/
theorem foldl_bodies (w : Window) (number : Option ℤ) (blocks before : List Str) (state : Cutting) :
    (if strip (blocks.foldl (Cutting.block w number) state).buffer ≠ [] then
        appendChunk number (blocks.foldl (Cutting.block w number) state).heading
          (blocks.foldl (Cutting.block w number) state).chunks
          (strip (blocks.foldl (Cutting.block w number) state).buffer)
      else (blocks.foldl (Cutting.block w number) state).chunks).map Chunk.body =
      state.chunks.map Chunk.body ++
        (piecesFrom w before state.heading state.buffer blocks).map (Piece.body number) := by
  induction blocks generalizing before state with
  | nil =>
      rw [List.foldl_nil, piecesFrom, flushed]
      split
      · rw [bodies_appendChunk]
        rfl
      · simp
  | cons block rest ih =>
      rw [List.foldl_cons, ih (before ++ [block]), state.block_chunks w number block before,
        Cutting.block_heading, Cutting.block_buffer, piecesFrom, List.map_append, List.append_assoc]

theorem chunkPage_bodies (w : Window) (chunks : List Chunk) (page : Page) :
    (chunkPage w chunks page).map Chunk.body =
      chunks.map Chunk.body ++ (page.pieces w).map (Piece.body page.number) :=
  foldl_bodies w page.number page.blocks [] ⟨chunks, none, []⟩

theorem chunkPages_bodies (w : Window) (pages : List Page) (chunks : List Chunk) :
    (pages.foldl (chunkPage w) chunks).map Chunk.body =
      chunks.map Chunk.body ++
        pages.flatMap fun page => (page.pieces w).map (Piece.body page.number) := by
  induction pages generalizing chunks with
  | nil => simp
  | cons page pages ih =>
      rw [List.foldl_cons, ih, chunkPage_bodies, List.flatMap_cons, List.append_assoc]

/-! ## What a piece has text of -/

/-- The sources of the piece are blocks of the page from its first on, and the piece has text of the
last of them. -/
structure Piece.From (piece : Piece) (blocks : List Str) : Prop where
  sources : piece.sources <+: blocks
  last : ∃ front block text, piece.sources = front ++ [block] ∧ text ≠ [] ∧ text <:+: block ∧
    text <:+: piece.content

/-- The buffer ends with text of the last block before. -/
def EndsIn (before : List Str) (buffer : Str) : Prop :=
  ∃ front block text, before = front ++ [block] ∧ EndsPrinted isSpace text ∧ text <:+ block ∧
    text <:+ buffer

theorem suffix_joined (buffer : Str) {block : Str} (hblock : EndsPrinted isSpace block)
    (hbuffer : buffer = [] ∨ EndsPrinted isSpace buffer) : block <:+ joined buffer block := by
  rcases hbuffer with rfl | hbuffer
  · exact List.suffix_rfl
  · rw [joined_of_endsPrinted hbuffer hblock, ← List.append_assoc]
    exact List.suffix_append ..

theorem EndsIn.after (before : List Str) {buffer block : Str} (hblock : EndsPrinted isSpace block)
    (hbuffer : buffer = [] ∨ EndsPrinted isSpace buffer) :
    EndsIn (before ++ [block]) (bufferAfter w buffer block) := by
  rw [bufferAfter]
  split
  · exact ⟨before, block, block, rfl, hblock, List.suffix_rfl, suffix_joined buffer hblock hbuffer⟩
  · have hrest := endsPrinted_rest w hblock
    exact ⟨before, block, (windows w block).2, rfl, hrest, windows_rest_suffix w block,
      suffix_joined _ hrest (carried_ends w hbuffer)⟩

theorem EndsIn.printed {before : List Str} {buffer : Str} (h : EndsIn before buffer) :
    EndsPrinted isSpace buffer := by
  obtain ⟨front, block, text, -, htext, -, front', rfl⟩ := h
  exact htext.append_left front'

/-- Every window of a block is text of it. -/
theorem windows_infix (w : Window) (block : Str) : ∀ head ∈ (windows w block).1, head <:+: block := by
  refine windows_induction (motive := fun block heads _ => ∀ head ∈ heads, head <:+: block) ?_ ?_ block
  · intro block _
    exact List.forall_mem_nil _
  · intro block heads rest _ ih
    refine List.forall_mem_cons.mpr ⟨(List.take_prefix ..).isInfix, fun head hhead => ?_⟩
    exact (ih head hhead).trans (List.drop_suffix ..).isInfix

/-- Stripping leaves text of the last block. -/
theorem EndsIn.strip {before : List Str} {buffer : Str} (h : EndsIn before buffer) :
    ∃ front block text, before = front ++ [block] ∧ text ≠ [] ∧ text <:+: block ∧
      text <:+: strip buffer := by
  have hprinted := h.printed
  obtain ⟨front, block, text, hbefore, htext, hblock, hbuffer⟩ := h
  refine ⟨front, block, text.dropWhile isSpace, hbefore, htext.dropWhile_ne_nil,
    ((List.dropWhile_suffix _).trans hblock).isInfix, ?_⟩
  have hpart := ((List.dropWhile_suffix isSpace).trans hbuffer).isInfix
  have hfirst := List.head?_dropWhile_not isSpace text
  rw [strip_of_endsPrinted hprinted]
  obtain ⟨c, rest, hcons⟩ := List.exists_cons_of_ne_nil htext.dropWhile_ne_nil
  rw [hcons] at hpart hfirst ⊢
  exact infix_dropWhile (by simpa using hfirst) hpart

theorem piecesAt_from {before blocks : List Str} {heading : Option Str} {buffer block : Str}
    (hfront : before ++ [block] <+: blocks) (hbuffer : buffer = [] ∨ EndsIn before buffer) :
    ∀ piece ∈ piecesAt w before heading buffer block, piece.From blocks := by
  intro piece hpiece
  rw [piecesAt] at hpiece
  split at hpiece
  · cases hpiece
  · rcases List.mem_append.mp hpiece with hpiece | hpiece
    · obtain ⟨content, hcontent, rfl⟩ := List.mem_map.mp hpiece
      rw [flushed] at hcontent
      split at hcontent
      · obtain rfl := List.mem_singleton.mp hcontent
        obtain ⟨front, last, text, hbefore, htext, hlast, hend⟩ := hbuffer.resolve_left ‹_›
        exact ⟨(List.prefix_append ..).trans hfront,
          front, last, text, hbefore, htext.ne_nil, hlast.isInfix, hend.isInfix⟩
      · cases hcontent
    · obtain ⟨head, hhead, rfl⟩ := List.mem_map.mp hpiece
      refine ⟨hfront, before, block, head, rfl, fun hnil => ?_, windows_infix w block head hhead,
        List.infix_rfl⟩
      have hlength := windows_heads w block head hhead
      rw [hnil, List.length_nil] at hlength
      exact absurd w.smaller (by omega)

theorem piecesFrom_from {before rest : List Str} {heading : Option Str} {buffer : Str}
    (hrest : ∀ block ∈ rest, EndsPrinted isSpace block)
    (hbuffer : buffer = [] ∨ EndsIn before buffer) :
    ∀ piece ∈ piecesFrom w before heading buffer rest, piece.From (before ++ rest) := by
  induction rest generalizing before heading buffer with
  | nil =>
      intro piece hpiece
      obtain ⟨content, hcontent, rfl⟩ := List.mem_map.mp hpiece
      rw [flushed] at hcontent
      split at hcontent
      · obtain rfl := List.mem_singleton.mp hcontent
        rcases hbuffer with rfl | hbuffer
        · exact absurd rfl ‹_›
        · exact ⟨by simp, hbuffer.strip⟩
      · cases hcontent
  | cons block rest ih =>
      obtain ⟨hblock, hrest⟩ := List.forall_mem_cons.mp hrest
      intro piece hpiece
      rw [List.append_cons]
      rcases List.mem_append.mp hpiece with hpiece | hpiece
      · exact piecesAt_from (List.prefix_append ..) hbuffer piece hpiece
      · exact ih hrest (.inr (EndsIn.after before hblock (hbuffer.imp_right EndsIn.printed))) piece
          hpiece

/-! ## Headings -/

/-- There is no heading, or one of the blocks has it. -/
def AmongHeadings (blocks : List Str) (heading : Option Str) : Prop :=
  heading = none ∨ ∃ block ∈ blocks, headingOf block = heading

instance (blocks : List Str) (heading : Option Str) : Decidable (AmongHeadings blocks heading) :=
  inferInstanceAs (Decidable (_ ∨ _))

/-- The heading of a piece is that of a block up to the last one that it has text of. -/
def Piece.HeadingRight (piece : Piece) : Prop := AmongHeadings piece.sources piece.heading

/-- Every block fits into the buffer, or the buffer is empty, or it brings no heading that no block
before it has. -/
def HeadingsFit (w : Window) (before : List Str) (buffer : Str) : List Str → Prop
  | [] => True
  | block :: rest =>
      (buffer = [] ∨ (joined buffer block).length ≤ w.size ∨ AmongHeadings before (headingAfter none block)) ∧
        HeadingsFit w (before ++ [block]) (bufferAfter w buffer block) rest

instance HeadingsFit.decidable (w : Window) (before : List Str) (buffer : Str) :
    (blocks : List Str) → Decidable (HeadingsFit w before buffer blocks)
  | [] => .isTrue trivial
  | block :: rest =>
      have := HeadingsFit.decidable w (before ++ [block]) (bufferAfter w buffer block) rest
      inferInstanceAs (Decidable (_ ∧ _))

/-- A block brings its heading, or leaves the one before. -/
theorem headingAfter_cases (heading : Option Str) (block : Str) :
    (headingAfter none block = none ∧ headingAfter heading block = heading) ∨
      ∃ brought, headingAfter none block = some brought ∧
        headingAfter heading block = some brought ∧ headingOf block = some brought := by
  unfold headingAfter
  split
  next c rest hof => exact .inr ⟨c :: rest, rfl, rfl, hof⟩
  next => exact .inl ⟨rfl, rfl⟩

theorem amongHeadings_after {before : List Str} {heading : Option Str} (h : AmongHeadings before heading)
    (block : Str) : AmongHeadings (before ++ [block]) (headingAfter heading block) := by
  rcases headingAfter_cases heading block with ⟨-, hkept⟩ | ⟨brought, -, hafter, hof⟩
  · rw [hkept]
    refine h.imp_right ?_
    rintro ⟨source, hsource, hheading⟩
    exact ⟨source, List.mem_append_left _ hsource, hheading⟩
  · rw [hafter]
    exact .inr ⟨block, by simp, hof⟩

/-- The blocks before have the heading after a block as soon as they have the one it brings. -/
theorem amongHeadings_before_iff {before : List Str} {heading : Option Str} (h : AmongHeadings before heading)
    (block : Str) :
    AmongHeadings before (headingAfter heading block) ↔ AmongHeadings before (headingAfter none block) := by
  rcases headingAfter_cases heading block with ⟨hnone, hkept⟩ | ⟨brought, hnone, hafter, -⟩
  · rw [hkept, hnone]
    exact iff_of_true h (.inl rfl)
  · rw [hafter, hnone]

/-- One block: only the buffer can be sent off under a wrong heading. -/
theorem piecesAt_right_iff {before : List Str} {heading : Option Str} (h : AmongHeadings before heading)
    (buffer block : Str) :
    (∀ piece ∈ piecesAt w before heading buffer block, piece.HeadingRight) ↔
      buffer = [] ∨ (joined buffer block).length ≤ w.size ∨
        AmongHeadings before (headingAfter none block) := by
  rw [piecesAt]
  split
  next hfits => exact iff_of_true (List.forall_mem_nil _) (.inr (.inl hfits))
  next hlong =>
    have hwindows : ∀ piece ∈ (windows w block).1.map
        (⟨·, headingAfter heading block, before ++ [block]⟩ : Str → Piece), piece.HeadingRight := by
      intro piece hpiece
      obtain ⟨head, -, rfl⟩ := List.mem_map.mp hpiece
      exact amongHeadings_after h block
    rw [List.forall_mem_append, and_iff_left hwindows, ← amongHeadings_before_iff h block,
      or_iff_right hlong, flushed]
    rcases eq_or_ne buffer [] with hnil | hne
    · simp [hnil]
    · simp [hne, Piece.HeadingRight]

theorem piecesFrom_right_iff {before : List Str} {heading : Option Str} (h : AmongHeadings before heading)
    (buffer : Str) (rest : List Str) :
    (∀ piece ∈ piecesFrom w before heading buffer rest, piece.HeadingRight) ↔
      HeadingsFit w before buffer rest := by
  induction rest generalizing before heading buffer with
  | nil =>
      refine iff_of_true (fun piece hpiece => ?_) trivial
      obtain ⟨content, -, rfl⟩ := List.mem_map.mp hpiece
      exact h
  | cons block rest ih =>
      rw [piecesFrom, List.forall_mem_append, piecesAt_right_iff h, ih (amongHeadings_after h block)]
      rfl

/-- The chunks are the pieces of the pages in their order, and every piece has text of the last of its
sources.  Their headings are all right if and only if no page has a block after its first that brings a
heading which no block before has, and that is too long for the buffer. -/
theorem chunk_headings_iff (pages : List Page) {size overlap : ℕ} (h : overlap < size) :
    (∃ chunks, chunkPages pages size overlap = .ok chunks ∧
      chunks.map Chunk.body =
        pages.flatMap fun page => (page.pieces ⟨size, overlap, h⟩).map (Piece.body page.number)) ∧
    (∀ page ∈ pages, ∀ piece ∈ page.pieces ⟨size, overlap, h⟩, piece.From page.blocks) ∧
    ((∀ page ∈ pages, ∀ piece ∈ page.pieces ⟨size, overlap, h⟩, piece.HeadingRight) ↔
      ∀ page ∈ pages, HeadingsFit ⟨size, overlap, h⟩ [] [] page.blocks) := by
  refine ⟨⟨_, chunkPages_ok pages ⟨size, overlap, h⟩, chunkPages_bodies _ pages []⟩, ?_, ?_⟩
  · intro page _
    exact piecesFrom_from (fun block hblock => endsPrinted_of_mem_blocks hblock) (.inl rfl)
  · exact forall₂_congr fun page _ => piecesFrom_right_iff (.inl rfl) [] page.blocks

/-- A page with one heading, behind its first block. -/
def rentPage : Page := ⟨none, str "The rent is due.\n\n# Costs\n\nTen a month."⟩

/-- Everything fits into one chunk. -/
theorem chunk_headings_one_chunk :
    ∃ piece ∈ rentPage.pieces ⟨100, 0, by decide⟩, piece.HeadingRight := by
  have hpieces : rentPage.pieces ⟨100, 0, by decide⟩ ≠ [] := by decide +kernel
  obtain ⟨piece, hpiece⟩ := List.exists_mem_of_ne_nil _ hpieces
  exact ⟨piece, hpiece, (chunk_headings_iff [rentPage] (by decide)).2.2.mpr
    (List.forall_mem_singleton.mpr (by decide +kernel)) rentPage (List.mem_singleton_self _)
    piece hpiece⟩

/-- With chunks of twenty characters, the first block is recorded under the heading after it. -/
theorem chunk_under_next_heading :
    ¬∀ (pages : List Page) (size overlap : ℕ) (h : overlap < size), ∀ page ∈ pages,
      ∀ piece ∈ page.pieces ⟨size, overlap, h⟩, piece.HeadingRight := by
  intro hall
  have hright := hall [rentPage] 20 0 (by decide) rentPage (List.mem_singleton_self _)
    ⟨str "The rent is due.", some (str "Costs"), [str "The rent is due."]⟩ (by decide +kernel)
  exact absurd hright (show ¬AmongHeadings .. by decide +kernel)

end Nexora.Documents
