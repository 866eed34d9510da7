import Nexora.Documents.Chunking

/-!
# The texts of the chunks

Two chunks that follow each other overlap, so a text of up to `overlap + 1` characters is never cut
apart, unless it starts with the blanks that stripping takes off (`short_texts_kept`).

A chunk is longer than `size` when the characters carried over, the blank line and what is left of
the next block are more than that.  The buffer ends with what the page ends with so far, so this can
be read off the page (`chunks_within_size_iff`).
-/

namespace Nexora.Documents

open Foundations

variable {w : Window} {number : Option ℤ}

/-! ## Sizes -/

/-- No text is longer than this. -/
def Within (size : ℕ) (texts : List (Option ℤ × Str)) : Prop :=
  ∀ text ∈ texts, text.2.length ≤ size

theorem within_append {size : ℕ} {first second : List (Option ℤ × Str)} :
    Within size (first ++ second) ↔ Within size first ∧ Within size second :=
  List.forall_mem_append

theorem within_map {size : ℕ} {contents : List Str} :
    Within size (contents.map (number, ·)) ↔ ∀ content ∈ contents, content.length ≤ size :=
  List.forall_mem_map

/-- What is carried over from the page so far, a blank line and what is left of the block. -/
def FitsAfter (w : Window) (before : List Str) (block : Str) : Prop :=
  (((joinWith paragraph before).rtake w.overlap).dropWhile isSpace).length + 2
    + remainder w.size w.overlap block.length ≤ w.size

/-- Every block but the first fits after the blocks before it. -/
def Fits (w : Window) (blocks : List Str) : Prop :=
  w.overlap = 0 ∨ ∀ before block after, blocks = before ++ block :: after → before ≠ [] →
    FitsAfter w before block

theorem fits_nil (w : Window) : Fits w [] := by
  refine .inr fun before block after h => ?_
  simp at h

theorem fits_concat {before : List Str} {block : Str} :
    Fits w (before ++ [block]) ↔
      Fits w before ∧ (w.overlap = 0 ∨ before = [] ∨ FitsAfter w before block) := by
  rcases eq_or_ne w.overlap 0 with hzero | hzero
  · simp [Fits, hzero]
  · simp only [Fits, hzero, false_or]
    constructor
    · intro h
      refine ⟨fun b c after heq hne => h b c (after ++ [block]) (by simp [heq]) hne, ?_⟩
      exact or_iff_not_imp_left.mpr fun hne => h before block [] rfl hne
    · rintro ⟨hbefore, hlast⟩ b c after heq hne
      rcases List.eq_nil_or_concat after with rfl | ⟨after, last, rfl⟩
      · obtain ⟨rfl, hblock⟩ := List.append_inj' heq rfl
        obtain rfl := List.singleton_inj.mp hblock
        exact hlast.resolve_left hne
      · rw [List.concat_eq_append, ← List.cons_append, ← List.append_assoc] at heq
        exact hbefore b c after (List.append_inj' heq rfl).1 hne

/-- What the buffer and the chunks say of the blocks so far. -/
structure Measured (w : Window) (start : List Chunk) (before : List Str) (state : Cutting) :
    Prop where
  tail : SameTail isSpace w.overlap state.buffer (joinWith paragraph before)
  /-- A buffer that is too long begins in print. -/
  long : w.size < state.buffer.length → state.buffer.dropWhile isSpace = state.buffer
  within : Within w.size (texts state.chunks) ∧ state.buffer.length ≤ w.size ↔
    Within w.size (texts start) ∧ Fits w before

theorem joined_ne_nil {buffer block : Str} (hbuffer : buffer = [] ∨ EndsPrinted isSpace buffer)
    (hblock : EndsPrinted isSpace block) : (joined buffer block).length ≠ 0 :=
  List.length_eq_zero_iff.not.mpr (endsPrinted_joined hblock hbuffer).ne_nil

/-- The texts after a block that was not kept. -/
theorem within_cut (w : Window) (number : Option ℤ) (chunks : List Chunk) (buffer block : Str) :
    Within w.size (texts chunks ++ (flushed buffer ++ (windows w block).1).map (number, ·)) ↔
      Within w.size (texts chunks) ∧ buffer.length ≤ w.size := by
  rw [within_append, within_map, List.forall_mem_append]
  have hflushed : (∀ content ∈ flushed buffer, content.length ≤ w.size) ↔ buffer.length ≤ w.size := by
    rcases eq_or_ne buffer [] with rfl | hbuffer
    · simp [flushed]
    · simp [flushed, hbuffer]
  rw [hflushed]
  have hheads : ∀ head ∈ (windows w block).1, head.length ≤ w.size :=
    fun head hhead => (windows_heads w block head hhead).le
  exact and_congr_right fun _ => and_iff_left hheads

/-- The end of a block is the end of what is left of it. -/
theorem sameTail_rest (w : Window) {block : Str} {s t : Str}
    (h : SameTail isSpace w.overlap s t) :
    SameTail isSpace w.overlap (s ++ (windows w block).2) (t ++ block) := by
  rcases Nat.lt_or_ge w.size block.length with hlong | hshort
  · obtain ⟨front, hfront⟩ := windows_rest_suffix w block
    have hlength := windows_rest_length w block
    rw [remainder, if_neg (Nat.not_le_of_lt hlong)] at hlength
    have hrest : SameTail isSpace w.overlap (s ++ (windows w block).2)
        (t ++ front ++ (windows w block).2) := sameTail_of_le s (t ++ front) (by omega)
    rwa [List.append_assoc, hfront] at hrest
  · rw [windows_eq, if_neg (Nat.not_lt_of_le hshort)]
    exact h.append block

/-- The first block of a page. -/
theorem Measured.first {start : List Chunk} {state : Cutting} (h : Measured w start [] state)
    (hbuffer : state.buffer = []) (block : Str) :
    Measured w start [block] (state.block w number block) := by
  have hjoin : joinWith paragraph [block] = block := by simp [joinWith]
  have hwithin : Within w.size (texts state.chunks) ↔ Within w.size (texts start) := by
    simpa [hbuffer, fits_nil] using h.within
  have hfits : Fits w [block] := fits_concat.mpr ⟨fits_nil w, .inr (.inl rfl)⟩
  rcases state.block_cases w number block with ⟨hlength, hnext, htexts⟩ | ⟨-, hnext, htexts⟩
  · rw [hbuffer, joined_nil] at hlength hnext
    refine ⟨?_, ?_, ?_⟩
    · rw [hnext, hjoin]
      exact SameTail.refl _ _
    · rw [hnext]
      exact fun hlong => absurd hlength (Nat.not_le_of_lt hlong)
    · rw [hnext, htexts, hwithin]
      exact and_congr_right fun _ => iff_of_true hlength hfits
  · have hcarried : carried w ([] : Str) = [] := by simp [carried, List.rtake]
    have hlength : (windows w block).2.length ≤ w.size := by
      rw [windows_rest_length]
      exact remainder_le w block.length
    rw [hbuffer, hcarried, joined_nil] at hnext
    refine ⟨?_, ?_, ?_⟩
    · rw [hnext, hjoin]
      exact sameTail_rest w (SameTail.refl w.overlap [])
    · rw [hnext]
      exact fun hlong => absurd hlength (Nat.not_le_of_lt hlong)
    · rw [hnext, htexts, within_cut, hwithin, hbuffer]
      simp [hlength, hfits]

/-- A later block that is kept fits. -/
theorem Measured.kept {start : List Chunk} {before : List Str} {state : Cutting} {block : Str}
    (h : Measured w start before state) (hne : before ≠ [])
    (hbuffer : EndsPrinted isSpace state.buffer) (hblock : EndsPrinted isSpace block)
    (hlength : (joined state.buffer block).length ≤ w.size)
    {next : Cutting} (hnext : next.buffer = joined state.buffer block)
    (htexts : texts next.chunks = texts state.chunks) :
    Measured w start (before ++ [block]) next := by
  have hjoined := joined_of_endsPrinted hbuffer hblock
  have hsum : (state.buffer.dropWhile isSpace).length + 2 + block.length ≤ w.size := by
    rw [hjoined] at hlength
    simp only [List.length_append, paragraph, List.length_cons, List.length_nil] at hlength
    omega
  have hshort : state.buffer.length ≤ w.size := by
    by_contra hlong
    rw [h.long (Nat.lt_of_not_le hlong)] at hsum
    omega
  refine ⟨?_, ?_, ?_⟩
  · rw [hnext, hjoined, joinWith_concat _ _ hne, List.append_assoc]
    exact ((sameTail_drop ..).trans h.tail).append _
  · rw [hnext]
    exact fun hlong => absurd hlength (Nat.not_le_of_lt hlong)
  · have hfits : FitsAfter w before block := by
      have htail : ((joinWith paragraph before).rtake w.overlap).dropWhile isSpace
          = ((state.buffer.dropWhile isSpace).rtake w.overlap).dropWhile isSpace := by
        rw [dropWhile_rtake_dropWhile]
        exact h.tail.symm
      have hdrop := (List.dropWhile_suffix (l := (state.buffer.dropWhile isSpace).rtake w.overlap)
        isSpace).length_le
      have htake := rtake_length_le (n := w.overlap) (state.buffer.dropWhile isSpace)
      rw [FitsAfter, htail, remainder, if_pos (by omega)]
      omega
    rw [hnext, htexts, fits_concat, ← and_assoc, ← h.within]
    simp [hlength, hshort, hfits]

/-- A later block that is not kept fits when the new buffer does. -/
theorem Measured.cut {start : List Chunk} {before : List Str} {state : Cutting} {block : Str}
    (h : Measured w start before state) (hne : before ≠ [])
    (hbuffer : EndsPrinted isSpace state.buffer) (hblock : EndsPrinted isSpace block)
    {next : Cutting} (hnext : next.buffer = joined (carried w state.buffer) (windows w block).2)
    (htexts : texts next.chunks = texts state.chunks ++
      (flushed state.buffer ++ (windows w block).1).map (number, ·)) :
    Measured w start (before ++ [block]) next := by
  have hrest := endsPrinted_rest w hblock
  have hlength := windows_rest_length w block
  have hshort : (windows w block).2.length ≤ w.size := by
    rw [hlength]
    exact remainder_le w block.length
  rcases eq_or_ne w.overlap 0 with hzero | hzero
  · rw [carried, if_neg (by simpa using hzero), joined_nil] at hnext
    refine ⟨?_, ?_, ?_⟩
    · rw [SameTail, hzero]
      simp [List.rtake]
    · rw [hnext]
      omega
    · rw [hnext, htexts, within_cut, h.within, fits_concat]
      simp [hzero, hshort]
  · have hcarried := endsPrinted_carried hzero hbuffer
    rw [joined_of_endsPrinted hcarried hrest, carried_of_overlap hzero] at hnext
    rw [carried_of_overlap hzero] at hcarried
    have htail : SameTail isSpace w.overlap
        ((state.buffer.rtake w.overlap).dropWhile isSpace) (joinWith paragraph before) :=
      ((sameTail_drop ..).trans (sameTail_rtake ..)).trans h.tail
    refine ⟨?_, ?_, ?_⟩
    · rw [hnext, joinWith_concat _ _ hne, ← List.append_assoc]
      exact sameTail_rest w (htail.append paragraph)
    · intro _
      rw [hnext, List.dropWhile_append, dropWhile_dropWhile, if_neg]
      simpa using hcarried.dropWhile_ne_nil
    · have hfits : next.buffer.length ≤ w.size ↔ FitsAfter w before block := by
        rw [hnext, FitsAfter, ← hlength, ← h.tail]
        simp only [List.length_append, paragraph, List.length_cons, List.length_nil]
        omega
      rw [htexts, within_cut, h.within, hfits, fits_concat, and_assoc]
      simp [hzero, hne]

theorem Measured.block {start : List Chunk} {before : List Str} {state : Cutting} {block : Str}
    (h : Measured w start before state) (hbetween : state.Between before)
    (hblock : EndsPrinted isSpace block) :
    Measured w start (before ++ [block]) (state.block w number block) := by
  rcases hbetween with ⟨rfl, hbuffer⟩ | ⟨hne, hbuffer⟩
  · exact h.first hbuffer block
  · rcases state.block_cases w number block with ⟨hlength, hnext, htexts⟩ | ⟨-, hnext, htexts⟩
    · exact h.kept hne hbuffer hblock hlength hnext htexts
    · exact h.cut hne hbuffer hblock hnext htexts

/-- A page makes no chunk that is too long when its blocks fit. -/
theorem chunkPage_within (w : Window) (chunks : List Chunk) (page : Page) :
    Within w.size (texts (chunkPage w chunks page)) ↔
      Within w.size (texts chunks) ∧ Fits w page.blocks := by
  have hstart : Measured w chunks [] ⟨chunks, none, []⟩ := by
    refine ⟨?_, ?_, ?_⟩
    · exact SameTail.refl _ _
    · intro _
      rfl
    · simp [fits_nil]
  obtain ⟨hbetween, hmeasured⟩ := foldl_blocks w page.number
    (fun _ => endsPrinted_of_mem_blocks) rfl hstart fun _ _ _ hbetween hblock h =>
      h.block hbetween hblock
  rw [chunkPage, ← hmeasured.within]
  rcases hbetween with ⟨-, hbuffer⟩ | ⟨-, hbuffer⟩
  · simp [hbuffer, strip, stripOf, List.rdropWhile]
  · rw [strip_of_endsPrinted hbuffer, if_pos hbuffer.dropWhile_ne_nil, texts_appendChunk,
      within_append]
    refine and_congr_right fun _ => ?_
    have hdrop := (List.dropWhile_suffix isSpace (l := (page.blocks.foldl
      (Cutting.block w page.number) ⟨chunks, none, []⟩).buffer)).length_le
    simp only [Within, List.forall_mem_singleton]
    constructor
    · intro hlength
      by_contra hlong
      rw [hmeasured.long (Nat.lt_of_not_le hlong)] at hlength
      exact hlong hlength
    · exact hdrop.trans

theorem chunkPages_within (w : Window) (pages : List Page) (chunks : List Chunk) :
    Within w.size (texts (pages.foldl (chunkPage w) chunks)) ↔
      Within w.size (texts chunks) ∧ ∀ page ∈ pages, Fits w page.blocks := by
  induction pages generalizing chunks with
  | nil => simp
  | cons page pages ih =>
      rw [List.foldl_cons, ih, chunkPage_within, List.forall_mem_cons, and_assoc]

theorem chunkPages_ok (pages : List Page) (w : Window) :
    chunkPages pages w.size w.overlap = .ok (pages.foldl (chunkPage w) []) :=
  dif_neg (Nat.not_le_of_lt w.smaller)

/-- Every chunk is at most `size` long if and only if nothing is carried over, or after every block
of a page but the first, what is carried over, the blank line and what is left of the block is. -/
theorem chunks_within_size_iff (pages : List Page) {size overlap : ℕ} (h : overlap < size) :
    (∃ chunks, chunkPages pages size overlap = .ok chunks ∧
      ∀ chunk ∈ chunks, chunk.content.length ≤ size) ↔
    overlap = 0 ∨ ∀ page ∈ pages, ∀ before block after, page.blocks = before ++ block :: after →
      before ≠ [] →
        (((joinWith paragraph before).rtake overlap).dropWhile isSpace).length + 2
          + remainder size overlap block.length ≤ size := by
  have hok := chunkPages_ok pages ⟨size, overlap, h⟩
  have hwithin := chunkPages_within ⟨size, overlap, h⟩ pages []
  have hchunks (chunks : List Chunk) :
      Within size (texts chunks) ↔ ∀ chunk ∈ chunks, chunk.content.length ≤ size :=
    List.forall_mem_map
  dsimp only at hok hwithin
  simp only [hok, Except.ok.injEq, exists_eq_left', ← hchunks, hwithin]
  rcases eq_or_ne overlap 0 with hzero | hzero
  · simp [Fits, Within, texts, hzero]
  · simp [Fits, Within, texts, hzero, FitsAfter]

/-- A page of three blocks of ten. -/
def threeBlocks : Page :=
  ⟨none, joinWith paragraph [List.replicate 10 (ord 'a'), List.replicate 10 (ord 'b'),
    List.replicate 10 (ord 'c')]⟩

theorem three_blocks_fit :
    ∃ chunks, chunkPages [threeBlocks] 10 0 = .ok chunks ∧
      ∀ chunk ∈ chunks, chunk.content.length ≤ 10 :=
  (chunks_within_size_iff [threeBlocks] (by decide)).mpr (.inl rfl)

/-- Blocks of ten characters, chunks of ten, and five carried over. -/
theorem chunk_longer_than_size :
    ¬ ∀ (pages : List Page) (size overlap : ℕ), overlap < size →
      ∃ chunks, chunkPages pages size overlap = .ok chunks ∧
        ∀ chunk ∈ chunks, chunk.content.length ≤ size := by
  intro h
  obtain ⟨chunks, hok, hlength⟩ := h [threeBlocks] 10 5 (by decide)
  have hlong : (chunkPages [threeBlocks] 10 5).toOption.any
      (·.any fun chunk => chunk.content.length = 17) := by decide +kernel
  simp only [hok, Except.toOption, Option.any_some, List.any_eq_true, decide_eq_true_eq] at hlong
  obtain ⟨chunk, hmem, hseventeen⟩ := hlong
  have := hlength chunk hmem
  omega

/-! ## Coverage -/

/-- A text that starts in print and is at most one character longer than what is carried over. -/
structure Phrase (w : Window) (phrase : Str) : Prop where
  starts : ∃ c ∈ phrase.head?, isSpace c = false
  short : phrase.length ≤ w.overlap + 1

/-- The text stands in a chunk of the page. -/
def Stands (number : Option ℤ) (texts : List (Option ℤ × Str)) (phrase : Str) : Prop :=
  ∃ text ∈ texts, text.1 = number ∧ phrase <:+: text.2

theorem Stands.mono {texts texts' : List (Option ℤ × Str)} {phrase : Str}
    (h : Stands number texts phrase) (hmore : texts <+: texts') : Stands number texts' phrase := by
  obtain ⟨text, hmem, hstands⟩ := h
  exact ⟨text, hmore.subset hmem, hstands⟩

theorem stands_of_mem (texts : List (Option ℤ × Str)) {contents : List Str}
    {content phrase : Str} (hmem : content ∈ contents) (h : phrase <:+: content) :
    Stands number (texts ++ contents.map (number, ·)) phrase :=
  ⟨(number, content), List.mem_append_right _ (List.mem_map_of_mem hmem), rfl, h⟩

theorem Phrase.infix_dropWhile {phrase s : Str} (h : Phrase w phrase) (hs : phrase <:+: s) :
    phrase <:+: s.dropWhile isSpace := by
  obtain ⟨c, hhead, hc⟩ := h.starts
  obtain ⟨rest, rfl⟩ := List.head?_eq_some_iff.mp hhead
  exact Foundations.infix_dropWhile hc hs

theorem Phrase.joined_left {phrase buffer block : Str} (h : Phrase w phrase)
    (hbuffer : EndsPrinted isSpace buffer) (hblock : EndsPrinted isSpace block)
    (hphrase : phrase <:+: buffer) : phrase <:+: joined buffer block := by
  rw [joined_of_endsPrinted hbuffer hblock]
  exact (h.infix_dropWhile hphrase).trans (List.prefix_append ..).isInfix

theorem infix_joined_right {phrase buffer block : Str}
    (hbuffer : buffer = [] ∨ EndsPrinted isSpace buffer) (hblock : EndsPrinted isSpace block)
    (hphrase : phrase <:+: block) : phrase <:+: joined buffer block := by
  rcases hbuffer with rfl | hbuffer
  · exact hphrase
  · rw [joined_of_endsPrinted hbuffer hblock]
    exact hphrase.trans ((List.suffix_append ..).trans (List.suffix_append ..)).isInfix

/-- Every phrase of the blocks so far stands in a chunk or in the buffer. -/
def Covered (w : Window) (number : Option ℤ) (before : List Str) (state : Cutting) : Prop :=
  ∀ block ∈ before, ∀ phrase, Phrase w phrase → phrase <:+: block →
    Stands number (texts state.chunks) phrase ∨ phrase <:+: state.buffer

theorem Covered.block {before : List Str} {state : Cutting} {block : Str}
    (h : Covered w number before state) (hbetween : state.Between before)
    (hblock : EndsPrinted isSpace block) :
    Covered w number (before ++ [block]) (state.block w number block) := by
  intro earlier hearlier phrase hphrase hpart
  rcases List.mem_append.mp hearlier with hbefore | hlast
  · -- The buffer has been used, so it is not empty.
    have hbuffer : EndsPrinted isSpace state.buffer := by
      rcases hbetween with ⟨rfl, -⟩ | ⟨-, hbuffer⟩
      · cases hbefore
      · exact hbuffer
    have hcovered := h earlier hbefore phrase hphrase hpart
    rcases state.block_cases w number block with ⟨-, hnext, htexts⟩ | ⟨-, -, htexts⟩
    · rw [hnext, htexts]
      exact hcovered.imp_right (hphrase.joined_left hbuffer hblock)
    · rw [htexts]
      rcases hcovered with hstands | hin
      · exact .inl (hstands.mono (List.prefix_append ..))
      · refine .inl (stands_of_mem _ (List.mem_append_left _ ?_) hin)
        simp [flushed, hbuffer.ne_nil]
  · obtain rfl := List.mem_singleton.mp hlast
    rcases state.block_cases w number earlier with ⟨-, hnext, -⟩ | ⟨-, hnext, htexts⟩
    · rw [hnext]
      exact .inr (infix_joined_right hbetween.ends hblock hpart)
    · rw [hnext, htexts]
      rcases windows_cover hphrase.short earlier hpart with ⟨head, hhead, hin⟩ | hrest
      · exact .inl (stands_of_mem _ (List.mem_append_right _ hhead) hin)
      · exact .inr (infix_joined_right (carried_ends w hbetween.ends)
          (endsPrinted_rest w hblock) hrest)

/-- No chunk is taken back. -/
theorem Cutting.block_grows (w : Window) (number : Option ℤ) (state : Cutting) (block : Str) :
    texts state.chunks <+: texts (state.block w number block).chunks := by
  rcases state.block_cases w number block with ⟨-, -, htexts⟩ | ⟨-, -, htexts⟩
  · rw [htexts]
  · rw [htexts]
    exact List.prefix_append ..

theorem chunkPage_grows (w : Window) (chunks : List Chunk) (page : Page) :
    texts chunks <+: texts (chunkPage w chunks page) := by
  have hgrows : texts chunks <+:
      texts (page.blocks.foldl (Cutting.block w page.number) ⟨chunks, none, []⟩).chunks :=
    (foldl_blocks (motive := fun _ state => texts chunks <+: texts state.chunks) w page.number
      (fun _ => endsPrinted_of_mem_blocks) rfl List.prefix_rfl
      fun _ state block _ _ h => h.trans (state.block_grows w page.number block)).2
  rw [chunkPage]
  split
  · rw [texts_appendChunk]
    exact hgrows.trans (List.prefix_append ..)
  · exact hgrows

/-- Every phrase of a page stands in one of its chunks. -/
theorem chunkPage_covers (chunks : List Chunk) {page : Page} {block phrase : Str}
    (hblock : block ∈ page.blocks) (hphrase : Phrase w phrase) (hpart : phrase <:+: block) :
    Stands page.number (texts (chunkPage w chunks page)) phrase := by
  obtain ⟨hbetween, hcovered⟩ := @foldl_blocks (Covered w page.number)
    ⟨chunks, none, []⟩ w page.number _ (fun _ => endsPrinted_of_mem_blocks) rfl
    (List.forall_mem_nil _) fun _ _ _ hbetween hblock h => h.block hbetween hblock
  rcases hbetween with ⟨hnil, -⟩ | ⟨-, hbuffer⟩
  · rw [hnil] at hblock
    cases hblock
  · rw [chunkPage, strip_of_endsPrinted hbuffer, if_pos hbuffer.dropWhile_ne_nil,
      texts_appendChunk]
    rcases hcovered block hblock phrase hphrase hpart with hstands | hin
    · exact hstands.mono (List.prefix_append ..)
    · exact ⟨_, List.mem_concat_self .., rfl, hphrase.infix_dropWhile hin⟩

theorem chunkPages_grow (w : Window) (pages : List Page) (chunks : List Chunk) :
    texts chunks <+: texts (pages.foldl (chunkPage w) chunks) := by
  induction pages generalizing chunks with
  | nil => exact List.prefix_rfl
  | cons page pages ih => exact (chunkPage_grows w chunks page).trans (ih _)

theorem chunkPages_cover {pages : List Page} {page : Page} (hpage : page ∈ pages)
    {block phrase : Str} (hblock : block ∈ page.blocks) (hphrase : Phrase w phrase)
    (hpart : phrase <:+: block) (chunks : List Chunk) :
    Stands page.number (texts (pages.foldl (chunkPage w) chunks)) phrase := by
  induction pages generalizing chunks with
  | nil => cases hpage
  | cons first pages ih =>
      rcases List.mem_cons.mp hpage with rfl | hrest
      · exact (chunkPage_covers chunks hblock hphrase hpart).mono (chunkPages_grow w pages _)
      · exact ih hrest _

/-! ## Numbers -/

/-- The chunks are numbered from zero on. -/
def Numbered (chunks : List Chunk) : Prop := chunks.map Chunk.index = List.range chunks.length

theorem Numbered.appendChunk {chunks : List Chunk} (h : Numbered chunks) (number : Option ℤ)
    (heading : Option Str) (content : Str) :
    Numbered (appendChunk number heading chunks content) := by
  rw [Numbered] at h ⊢
  rw [Documents.appendChunk, List.map_append, h, List.length_append, List.length_singleton,
    List.range_succ]
  rfl

theorem Numbered.foldl_appendChunk {chunks : List Chunk} (h : Numbered chunks) (number : Option ℤ)
    (heading : Option Str) (contents : List Str) :
    Numbered (contents.foldl (Documents.appendChunk number heading) chunks) := by
  induction contents generalizing chunks with
  | nil => exact h
  | cons content contents ih => exact ih (h.appendChunk number heading content)

theorem Numbered.block {state : Cutting} (h : Numbered state.chunks) (w : Window)
    (number : Option ℤ) (block : Str) : Numbered (state.block w number block).chunks := by
  rw [Cutting.block]
  split
  · exact h
  · refine Numbered.foldl_appendChunk ?_ ..
    split
    · exact h.appendChunk ..
    · exact h

theorem Numbered.chunkPage {chunks : List Chunk} (h : Numbered chunks) (w : Window)
    (page : Page) : Numbered (chunkPage w chunks page) := by
  have hnumbered : Numbered
      (page.blocks.foldl (Cutting.block w page.number) ⟨chunks, none, []⟩).chunks :=
    (foldl_blocks (motive := fun _ state => Numbered state.chunks) w page.number
      (fun _ => endsPrinted_of_mem_blocks) rfl h fun _ _ block _ _ h => h.block w page.number block).2
  rw [Documents.chunkPage]
  split
  · exact hnumbered.appendChunk ..
  · exact hnumbered

theorem Numbered.chunkPages {chunks : List Chunk} (h : Numbered chunks) (w : Window)
    (pages : List Page) : Numbered (pages.foldl (Documents.chunkPage w) chunks) := by
  induction pages generalizing chunks with
  | nil => exact h
  | cons page pages ih => exact ih (h.chunkPage w page)

/-- The chunks are made, and nothing is lost: what starts in print in a block and is at most
`overlap + 1` characters long stands whole in a chunk of its page, and the chunks are numbered in
order. -/
theorem short_texts_kept (pages : List Page) {size overlap : ℕ} (h : overlap < size) :
    ∃ chunks, chunkPages pages size overlap = .ok chunks ∧
      (∀ page ∈ pages, ∀ block ∈ page.blocks, ∀ phrase : Str, phrase <:+: block →
        (∃ c ∈ phrase.head?, isSpace c = false) → phrase.length ≤ overlap + 1 →
          ∃ chunk ∈ chunks, chunk.page = page.number ∧ phrase <:+: chunk.content) ∧
      chunks.map Chunk.index = List.range chunks.length := by
  refine ⟨_, chunkPages_ok pages ⟨size, overlap, h⟩, ?_, ?_⟩
  · intro page hpage block hblock phrase hpart hstarts hshort
    obtain ⟨text, hmem, hnumber, hin⟩ :=
      chunkPages_cover (w := ⟨size, overlap, h⟩) hpage hblock ⟨hstarts, hshort⟩ hpart []
    obtain ⟨chunk, hchunk, rfl⟩ := List.mem_map.mp hmem
    exact ⟨chunk, hchunk, hnumber, hin⟩
  · have hnone : Numbered [] := rfl
    exact hnone.chunkPages _ pages

theorem short_texts_kept_three :
    ∃ chunks, chunkPages [threeBlocks] 10 5 = .ok chunks ∧
      (∀ page ∈ [threeBlocks], ∀ block ∈ page.blocks, ∀ phrase : Str, phrase <:+: block →
        (∃ c ∈ phrase.head?, isSpace c = false) → phrase.length ≤ 6 →
          ∃ chunk ∈ chunks, chunk.page = page.number ∧ phrase <:+: chunk.content) ∧
      chunks.map Chunk.index = List.range chunks.length :=
  short_texts_kept [threeBlocks] (by decide)

end Nexora.Documents
