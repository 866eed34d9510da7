import Nexora.Documents.Runs

/-!
# What a search returns, a citation opens

`search` goes by the payload of a point, which was written when the document was indexed, and takes
the text from the row of the chunk.  `chunk` goes by the access rows as they are.  The two agree
because nothing rewrites the access rows of a document, and because no document ever takes the
identifier of another one, so a vector that outlives its document finds no row.

The collection answers before the rows are read, and tasks may run between the two.
-/

namespace Nexora.Documents

open Nexora Foundations

variable {services : Services} {s s' : Interleaved State Phase} {state : State}
  {context : TenantContext}

/-- What a payload says stays true. -/
theorem agrees_later {point : Point} (h : (documents services).Reaches s s')
    (hs : (documents services).Inv Known Relies s) (hpoint : point.Agrees s.committed) :
    point.Agrees s'.committed := by
  have hsound := (documents_sound services).and (E := fun state => point.Agrees state)
    (fun _ _ _ _ _ _ _ hagrees hrun => (run_cases hrun).agrees hagrees)
    fun _ _ _ _ hphase _ hagrees hfinish => (finish_cases hfinish).agrees hphase hagrees
  exact (hsound.runs h ⟨⟨hs.committed, hpoint⟩, hs.opened, hs.exclusive⟩).committed.2

/-- A row that is joined with its document. -/
theorem mem_passagesOf {tenantId : Uuid} {documentIds : List Uuid} {row : DocumentChunk}
    {title : String} (h : (row, title) ∈ state.passagesOf tenantId documentIds) :
    (row ∈ state.chunks.rows ∧ row.tenantId = tenantId) ∧ ∃ document,
      state.find tenantId row.documentId = some document ∧ document.title = title := by
  obtain ⟨row', hrow, hjoin⟩ := List.mem_filterMap.mp h
  split at hjoin
  next hmatch =>
    obtain ⟨document, hfind, heq⟩ := Option.map_eq_some_iff.mp hjoin
    cases heq
    exact ⟨⟨hrow, hmatch.1⟩, document, hfind, rfl⟩
  next => cases hjoin

/-- A document that a point of its lets a caller retrieve, the caller may see. -/
theorem visible_of_matches {point : Point} {document : Document} (hagrees : point.Agrees state)
    (hget : state.documents.get point.documentId = some document)
    (hmatches : point.matches context = true) : state.visible context document = true := by
  obtain ⟨⟨-, hvisibility⟩, hroles⟩ := hagrees.2 document hget
  simp only [Point.matches, Bool.and_eq_true, Bool.or_eq_true, decide_eq_true_eq,
    List.any_eq_true] at hmatches
  simp only [State.visible, Bool.or_eq_true, decide_eq_true_eq, List.any_eq_true]
  rcases hmatches.2 with htenant | ⟨roleId, hrole, hheld⟩
  · exact .inl (hvisibility.symm.trans htenant)
  · exact .inr ⟨roleId, (hroles roleId).mp hrole, hheld⟩

/-- A result of a search comes from the row that a citation of it opens. -/
theorem search_result {response : List Hit} {result : Citation × ℚ}
    (hagrees : ∀ hit ∈ response, hit.point.Agrees state ∧ hit.point.matches context = true)
    (h : result ∈ search context response state) :
    chunk context result.1.documentId result.1.chunkIndex state = .ok result.1 ∧
      ∃ row ∈ state.chunks.rows, row.tenantId = context.tenantId ∧
        row.key = (result.1.documentId, result.1.chunkIndex) ∧ row.passage = result.1.passage := by
  obtain ⟨hit, hhit, hfound⟩ := List.mem_filterMap.mp h
  obtain ⟨⟨row, title⟩, hrow, rfl⟩ := Option.map_eq_some_iff.mp hfound
  obtain ⟨⟨hmem, htenant⟩, document, hfind, rfl⟩ := mem_passagesOf (List.mem_of_find?_eq_some hrow)
  have hkey : row.key = hit.point.key := by simpa using List.find?_some hrow
  obtain ⟨hpoint, hmatches⟩ := hagrees hit (List.mem_filter.mp hhit).1
  have hid : row.documentId = hit.point.documentId := congrArg Prod.fst hkey
  have hget := (State.find_eq_some.mp hfind).1
  have hvisible : state.visible context document = true :=
    visible_of_matches hpoint (hid ▸ hget) hmatches
  have hchunk : state.chunks.get (row.documentId, row.chunkIndex) = some row :=
    Table.get_eq_some.mpr ⟨hmem, rfl⟩
  refine ⟨?_, row, hmem, htenant, rfl, rfl⟩
  unfold chunk State.getDocument
  rw [hfind, hchunk, Option.filter_some, decide_eq_true htenant]
  simp only [hvisible]
  rw [← (Table.get_mem hget).2]
  rfl

/-- In every interleaving of uploads, index runs, re-index requests, deletions and reconciliations of
all tenants: a search whose hits the collection answers at one time and whose rows are read at any
later one returns only chunks of its own tenant, which a citation of them opens with the same
content. -/
theorem search_within_citations (h : (documents services).Reaches (Protocol.init .empty) s)
    (hlater : (documents services).Reaches s s') (context : TenantContext) (response : List Hit)
    (hresponse : ∀ hit ∈ response,
      hit.point ∈ s.committed.points.rows ∧ hit.point.matches context = true) :
    ∀ result ∈ search context response s'.committed,
      chunk context result.1.documentId result.1.chunkIndex s'.committed = .ok result.1 ∧
        ∃ row ∈ s'.committed.chunks.rows, row.tenantId = context.tenantId ∧
          row.key = (result.1.documentId, result.1.chunkIndex) ∧ row.passage = result.1.passage := by
  intro result hresult
  have hs := (documents_sound services).runs h (.init Known.empty)
  refine search_result (fun hit hhit => ?_) hresult
  obtain ⟨hpoint, hmatches⟩ := hresponse hit hhit
  exact ⟨agrees_later hlater hs (hs.committed.points hit.point hpoint), hmatches⟩

/-! ## A small library -/

/-- Short texts of one line in ASCII. -/
def plain : Services where
  roleExists _ _ := true
  isUtf8 data := data.all (· < 128)
  passages _ _ data := .ok [⟨String.ofList (data.map fun byte => Char.ofNat byte.toNat), none, none⟩]

def defaults : Settings := ⟨1000, false, 1200, 150⟩

/-- A member of tenant `1` with one role. -/
def member (roleId : Uuid) : TenantContext := ⟨1, 2, 3, {roleId}, ∅, none⟩

/-- A note for the members with role `7`. -/
def note : Upload := ⟨"note.txt", "text/plain", [104, 105], none, .roleRestricted, [7]⟩

/-- The row of the note, before it is indexed. -/
def noteDocument : Document := note.document (member 7) 0

/-- The note is uploaded. -/
def noteUploaded : List (TxAction Task Choice) :=
  [.begin 1 (.upload defaults (member 7) note), .run 1 .next, .run 1 .next, .finish 1]

/-- An index run without a scan, up to its commit. -/
def indexUntilCommit (t : Nat) : List (TxAction Task Choice) :=
  .begin t (.index defaults 1 0) :: List.replicate 4 (.run t .next)

/-- The note is uploaded and indexed. -/
def noteIndexed : List (TxAction Task Choice) := noteUploaded ++ indexUntilCommit 2 ++ [.finish 2]

/-- The point of the note. -/
def notePoint : Point := ⟨0, 0, 1, .roleRestricted, [7]⟩

/-- The note is found and opened. -/
theorem search_within_citations_note : ∃ s : Interleaved State Phase,
    (documents plain).Reaches (Protocol.init .empty) s ∧
      search (member 7) [⟨notePoint, 1⟩] s.committed =
        [(⟨0, "note.txt", 0, ⟨"hi", none, none⟩⟩, 1)] ∧
      ∀ result ∈ search (member 7) [⟨notePoint, 1⟩] s.committed,
        chunk (member 7) result.1.documentId result.1.chunkIndex s.committed = .ok result.1 ∧
          ∃ row ∈ s.committed.chunks.rows, row.tenantId = (member 7).tenantId ∧
            row.key = (result.1.documentId, result.1.chunkIndex) ∧
              row.passage = result.1.passage := by
  have hfacts : (noteIndexed.foldlM (documents plain).step (Protocol.init .empty)).any fun s =>
        s.committed.points.rows = [notePoint] ∧
          search (member 7) [⟨notePoint, 1⟩] s.committed =
            [(⟨0, "note.txt", 0, ⟨"hi", none, none⟩⟩, 1)] := by
    decide +kernel
  obtain ⟨s, hreaches, hpoints, hfound⟩ := Protocol.Reaches.exists_of_any noteIndexed hfacts
  refine ⟨s, hreaches, hfound, search_within_citations hreaches (.refl _) (member 7) _ ?_⟩
  intro hit hhit
  cases List.mem_singleton.mp hhit
  exact ⟨hpoints ▸ .head _, by decide⟩

end Nexora.Documents
