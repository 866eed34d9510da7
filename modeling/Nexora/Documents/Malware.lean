import Nexora.Documents.Citations

/-!
# Infected documents

When the scanner finds something, `index` deletes the file and marks the document as failed.  The
chunks and the vectors of an earlier run stay, and neither `search` nor `chunk` looks at the status.
So an infected document is out of reach exactly if no run of it has committed chunks before
(`infected_never_retrieved_iff`): without its file no later run gets past reading it.
-/

namespace Nexora.Documents

open Nexora Foundations

variable {services : Services} {s s' : Interleaved State Phase} {state state' : State}
  {phase phase' : Phase} {document : Document}

/-! ## Retrieval -/

/-- Neither a citation nor a search returns a chunk of the document. -/
def NeverRetrieved (documentId : Uuid) (state : State) : Prop :=
  (∀ context chunkIndex citation, chunk context documentId chunkIndex state ≠ .ok citation) ∧
    ∀ context response, ∀ result ∈ search context response state, result.1.documentId ≠ documentId

/-- The document has no chunk. -/
def NoChunk (documentId : Uuid) (state : State) : Prop :=
  ∀ row ∈ state.chunks.rows, row.documentId ≠ documentId

theorem NoChunk.neverRetrieved {documentId : Uuid} (h : NoChunk documentId state) :
    NeverRetrieved documentId state := by
  refine ⟨fun context chunkIndex citation hok => ?_, fun context response result hresult => ?_⟩
  · obtain ⟨_, -, hrow⟩ := bind_eq_ok.mp hok
    have hnone : state.chunks.get (documentId, chunkIndex) = none :=
      Table.get_eq_none.mpr fun row hrow heq => h row hrow (congrArg Prod.fst heq)
    rw [hnone, Option.filter_none] at hrow
    cases hrow
  · obtain ⟨hit, -, hfound⟩ := List.mem_filterMap.mp hresult
    obtain ⟨⟨row, title⟩, hrow, rfl⟩ := Option.map_eq_some_iff.mp hfound
    exact h row (mem_passagesOf (List.mem_of_find?_eq_some hrow)).1.1

/-- Someone may open every chunk. -/
theorem Known.chunk_opens (h : Known state) {row : DocumentChunk} (hrow : row ∈ state.chunks.rows) :
    ∃ context citation, chunk context row.documentId row.chunkIndex state = .ok citation := by
  obtain ⟨document, hget, htenant⟩ := h.chunks row hrow
  have hnamed := (h.documents document (Table.get_mem hget).1).2
  -- A caller of the tenant, with one of the roles if the document is restricted.
  obtain ⟨roleIds, hvisible⟩ : ∃ roleIds : Finset Uuid,
      state.visible ⟨row.tenantId, 0, 0, roleIds, ∅, none⟩ document = true := by
    cases hvisibility : document.visibility with
    | tenant => exact ⟨∅, by simp [State.visible, hvisibility]⟩
    | roleRestricted =>
        obtain ⟨roleId, hrole⟩ := hnamed hvisibility
        refine ⟨{roleId}, ?_⟩
        simp only [State.visible, Bool.or_eq_true, List.any_eq_true]
        exact .inr ⟨roleId, hrole, by simp⟩
  have hfind : state.find row.tenantId row.documentId = some document :=
    State.find_eq_some.mpr ⟨hget, htenant⟩
  have hchunk : state.chunks.get (row.documentId, row.chunkIndex) = some row :=
    Table.get_eq_some.mpr ⟨hrow, rfl⟩
  refine ⟨⟨row.tenantId, 0, 0, roleIds, ∅, none⟩,
    ⟨document.id, document.title, row.chunkIndex, row.passage⟩, ?_⟩
  unfold chunk State.getDocument
  simp only [hfind, hvisible, hchunk, Option.filter_some, decide_true]
  rfl

/-! ## The file -/

/-- The file of an infected document is deleted. -/
def Emptied (state : State) : Phase → Prop
  | .infected document => state.files.get document.storageKey = none
  | _ => True

/-- A statement does not bring a file back. -/
theorem Ran.no_file {choice : Choice} (h : Ran services state phase choice state' phase')
    (hphase : Relies state phase) (hread : Read state document)
    (hnone : state.files.get document.storageKey = none) :
    state'.files.get document.storageKey = none := by
  cases h with
  | @store new payload =>
      obtain ⟨⟨⟨-, hnew⟩, hkey⟩, -⟩ := hphase
      have hne : document.storageKey ≠ new.storageKey := by
        intro heq
        rw [← hkey, ← heq, hread.1.2] at hnew
        exact hnew hread.1.1
      rw [Table.get_put, if_neg hne]
      exact hnone
  | infect hfile => rw [Table.get_erase, hnone, ite_self]
  | _ => exact hnone

/-- Nor does the end of a task. -/
theorem Finished.no_file (h : Finished state phase state')
    (hnone : state.files.get document.storageKey = none) :
    state'.files.get document.storageKey = none := by
  cases h with
  | clean => rw [Table.get_erase, hnone, ite_self]
  | _ => exact hnone

/-- A document that is held was read. -/
theorem Held.read (h : Held state document) (hknown : Known state) : Read state document := by
  obtain ⟨current, hget, -⟩ := h.get
  have hmem := Table.get_mem hget
  refine ⟨⟨hmem.2 ▸ (hknown.documents current hmem.1).1.1, h.2⟩, fun uploaded hup => ?_⟩
  rw [h.1] at hup
  exact (Option.some.inj hup).symm

theorem emptied_of_first (h : phase.isFirst = true) : Emptied state phase := by
  cases phase with
  | infected _ => cases h
  | _ => trivial

theorem emptied_sound (services : Services) : (documents services).Sound (fun _ _ => True)
    (fun state => Known state ∧ True) fun state phase => Relies state phase ∧ Emptied state phase := by
  refine (documents_sound services).extend (R := Emptied) (fun state task _ _ => ?_) ?_ ?_
    (fun _ _ _ _ _ _ _ _ _ => trivial) ?_
  · exact emptied_of_first (start_isFirst task)
  · intro state phase choice state' phase' hknown hphase _ hemptied hrun
    refine ⟨trivial, ?_⟩
    cases run_cases hrun with
    | infect hfile => exact (Table.get_erase _ _ _).trans (if_pos rfl)
    | _ => trivial
  · intro state phase choice state' phase' other hknown hphase hother hemptied hrun
    cases other with
    | infected document => exact (run_cases hrun).no_file hphase (Held.read hother hknown) hemptied
    | _ => trivial
  · intro state phase state' other _ _ _ _ hemptied _ hfinish
    cases other with
    | infected document => exact (finish_cases hfinish).no_file hemptied
    | _ => trivial

/-! ## No way back -/

/-- The document has no chunk and no file. -/
structure Sealed (document : Document) (state : State) : Prop where
  read : Read state document
  chunks : NoChunk document.id state
  file : state.files.get document.storageKey = none

/-- The task has not read the file of the document. -/
def Unopened (document : Document) : Phase → Prop
  | .extracting _ other (some _) | .replacing other _ | .cleared other _ | .written other _ =>
      other.id ≠ document.id
  | _ => True

/-- The file of another document was found. -/
theorem Sealed.other {other : Document} {file : StorageKey × Bytes} (h : Sealed document state)
    (hheld : Held state other) (hfile : state.files.get other.storageKey = some file) :
    other.id ≠ document.id := by
  intro hid
  have hsame := h.read.2 other.asUploaded (hid ▸ hheld.1)
  have hkey := congrArg Document.storageKey hsame
  simp only [Document.asUploaded] at hkey
  rw [hkey, h.file] at hfile
  cases hfile

/-- A task that comes past the file of a document is one of another document. -/
theorem Sealed.unopened {choice : Choice} (h : Sealed document state)
    (hphase : Relies state phase) (hunopened : Unopened document phase)
    (hran : Ran services state phase choice state' phase') : Unopened document phase' := by
  cases hran with
  | pass hfile => exact h.other hphase hfile
  | @extract _ other data passages hdata =>
      cases data with
      | some data => exact hunopened
      | none =>
          rw [Option.none_or, Option.isSome_map] at hdata
          obtain ⟨file, hfile⟩ := Option.isSome_iff_exists.mp hdata
          exact h.other hphase hfile
  | clear => exact hunopened
  | upsert => exact hunopened
  | _ => trivial

theorem Sealed.run {choice : Choice} (h : Sealed document state) (hphase : Relies state phase)
    (hran : Ran services state phase choice state' phase') : Sealed document state' := by
  refine ⟨?_, fun row hrow => h.chunks row (hran.same.2.1 ▸ hrow), hran.no_file hphase h.read h.file⟩
  show Relies state' (.deleting document)
  exact hran.relies h.read

theorem Sealed.finish (h : Sealed document state) (hphase : Relies state phase)
    (hunopened : Unopened document phase) (hknown : Known state)
    (hfinished : Finished state phase state') : Sealed document state' := by
  refine ⟨?_, fun row hrow => ?_, hfinished.no_file h.file⟩
  · show Relies state' (.deleting document)
    exact hfinished.relies hknown hphase h.read rfl
  · cases hfinished with
    | delete => exact h.chunks row (Table.mem_filter.mp hrow).1
    | @index other passages =>
        rcases Table.mem_putAll hrow with hnew | hold
        · obtain ⟨_, -, rfl⟩ := List.mem_map.mp hnew
          exact hunopened
        · exact h.chunks row (Table.mem_filter.mp hold).1
    | _ => exact h.chunks row hrow

theorem unopened_of_first (h : phase.isFirst = true) : Unopened document phase := by
  cases phase with
  | extracting _ _ _ => cases h
  | replacing _ _ => cases h
  | cleared _ _ => cases h
  | written _ _ => cases h
  | _ => trivial

theorem sealed_sound (services : Services) (document : Document) :
    (documents services).Sound (fun _ _ => True)
      (fun state => Known state ∧ Sealed document state)
      fun state phase => Relies state phase ∧ Unopened document phase := by
  refine (documents_sound services).extend (R := fun _ phase => Unopened document phase)
    (fun state task _ _ => ?_) ?_ (fun _ _ _ _ _ _ _ _ _ hunopened _ => hunopened) ?_
    (fun _ _ _ _ _ _ _ _ hunopened _ _ => hunopened)
  · exact unopened_of_first (start_isFirst task)
  · intro state phase choice state' phase' _ hphase hsealed hunopened hrun
    have hran := run_cases hrun
    exact ⟨hsealed.run hphase hran, hsealed.unopened hphase hunopened hran⟩
  · intro state phase state' hknown hphase _ hsealed hunopened hfinish
    exact hsealed.finish hphase hunopened hknown (finish_cases hfinish)

/-- No other task is past the file of a document that this one has locked. -/
theorem unopened_of_free {other : Phase}
    (hfree : (document.id, .noKeyUpdate) ∉ locks other) : Unopened document other := by
  cases other with
  | extracting _ _ data =>
      cases data with
      | none => trivial
      | some _ => exact fun hid => hfree (hid ▸ .head _)
  | replacing _ _ => exact fun hid => hfree (hid ▸ .head _)
  | cleared _ _ => exact fun hid => hfree (hid ▸ .head _)
  | written _ _ => exact fun hid => hfree (hid ▸ .head _)
  | _ => trivial

/-- From the moment on when a task marks a document as infected, no chunk of it is ever retrieved
exactly if none of it was there. -/
theorem infected_never_retrieved_iff {t : Nat}
    (h : (documents services).Reaches (Protocol.init .empty) s)
    (hopen : s.txs.get t = some (t, .infected document))
    (hstep : (documents services).step s (.finish t) = some s') :
    (∀ s'' : Interleaved State Phase, (documents services).Reaches s' s'' →
      NeverRetrieved document.id s''.committed) ↔ NoChunk document.id s.committed := by
  have hs := (emptied_sound services).runs h (.init ⟨Known.empty, trivial⟩)
  have hmem := (Table.get_mem hopen).1
  obtain ⟨hheld, hempty⟩ := hs.opened _ hmem
  have hknown := hs.committed.1
  obtain rfl : s' = ⟨s.committed.setStatus document.id .failed, s.txs.erase t⟩ := by
    simp only [Protocol.step, hopen] at hstep
    exact (Option.some.inj hstep).symm
  constructor
  · intro hnever row hrow hid
    obtain ⟨context, citation, hopens⟩ := (hknown.setStatus document.id .failed).chunk_opens hrow
    exact (hnever _ (.refl _)).1 context row.chunkIndex citation (hid ▸ hopens)
  · intro hnone s'' hlater
    have hfinished : Finished s.committed (.infected document)
        (s.committed.setStatus document.id .failed) := .infect
    have hsealed : Sealed document s.committed := ⟨Held.read hheld hknown, hnone, hempty⟩
    have hothers : ∀ tx ∈ (s.txs.erase t).rows, tx ∈ s.txs.rows ∧
        locksConflict (locks tx.2) (locks (.infected document)) = false := by
      intro tx htx
      obtain ⟨hrow, hne⟩ := Table.mem_erase.mp htx
      exact ⟨hrow, hs.exclusive tx hrow _ hmem hne⟩
    have hinv : (documents services).Inv (fun state => Known state ∧ Sealed document state)
        (fun state phase => Relies state phase ∧ Unopened document phase)
        ⟨s.committed.setStatus document.id .failed, s.txs.erase t⟩ := by
      refine ⟨⟨hknown.setStatus _ _, hsealed.finish hheld trivial hknown hfinished⟩, ?_, ?_⟩
      · intro tx htx
        obtain ⟨hrow, hfree⟩ := hothers tx htx
        refine ⟨hfinished.relies hknown hheld (hs.opened tx hrow).1 hfree, ?_⟩
        rw [locksConflict_symm] at hfree
        exact unopened_of_free (notMem_of_conflicts hfree (.head _) rfl)
      · intro tx htx tx' htx'
        exact hs.exclusive tx (hothers tx htx).1 tx' (hothers tx' htx').1
    exact ((sealed_sound services document).runs hlater hinv).committed.2.chunks.neverRetrieved

/-! ## The note is infected -/

/-- The document that a task is about to mark as infected. -/
def Phase.infectedDocument : Phase → Option Document
  | .infected document => some document
  | _ => none

theorem Phase.infectedDocument_eq_some (h : phase.infectedDocument = some document) :
    phase = .infected document := by
  cases phase with
  | infected _ => cases h; rfl
  | _ => cases h

/-- The transaction that is about to mark the document. -/
theorem get_of_infected {t : Nat}
    (h : (s.txs.get t).bind (fun tx => tx.2.infectedDocument) = some document) :
    s.txs.get t = some (t, .infected document) := by
  obtain ⟨⟨t', phase⟩, hget, hphase⟩ := Option.bind_eq_some_iff.mp h
  obtain rfl : t' = t := (Table.get_mem hget).2
  have hinfected : phase = .infected document := Phase.infectedDocument_eq_some hphase
  rw [hget, hinfected]

/-- The task can mark it. -/
theorem step_of_infected {t : Nat} (h : s.txs.get t = some (t, .infected document)) :
    (documents services).step s (.finish t) =
      some ⟨s.committed.setStatus document.id .failed, s.txs.erase t⟩ := by
  simp only [Protocol.step, h]
  rfl

/-- An index run whose scan finds something, up to its commit. -/
def infectedUntilCommit (t : Nat) : List (TxAction Task Choice) :=
  [.begin t (.index { defaults with antivirusEnabled := true } 1 0), .run t .next,
    .run t (.verdict false)]

/-- The first run of the note finds it infected. -/
def noteRefused : List (TxAction Task Choice) := noteUploaded ++ infectedUntilCommit 2

theorem infected_never_retrieved_first : ∃ s s' : Interleaved State Phase,
    (documents plain).Reaches (Protocol.init .empty) s ∧
      s.txs.get 2 = some (2, .infected noteDocument) ∧
      (documents plain).step s (.finish 2) = some s' ∧
      ∀ s'' : Interleaved State Phase, (documents plain).Reaches s' s'' →
        NeverRetrieved noteDocument.id s''.committed := by
  have hfacts : (noteRefused.foldlM (documents plain).step (Protocol.init .empty)).any fun s =>
      (s.txs.get 2).bind (fun tx => tx.2.infectedDocument) = some noteDocument ∧
        s.committed.chunks.rows = [] := by
    decide +kernel
  obtain ⟨s, hreaches, hinfected, hempty⟩ := Protocol.Reaches.exists_of_any noteRefused hfacts
  have hopen := get_of_infected hinfected
  have hstep : (documents plain).step s (.finish 2) = some _ := step_of_infected hopen
  refine ⟨s, _, hreaches, hopen, hstep, (infected_never_retrieved_iff hreaches hopen hstep).mpr ?_⟩
  rw [NoChunk, hempty]
  exact List.forall_mem_nil _

/-- The note is indexed without a scan, and a later run finds it infected. -/
def noteRefusedLater : List (TxAction Task Choice) :=
  noteIndexed ++ [.begin 3 (.reindex (member 7) 0), .run 3 .next, .finish 3] ++
    infectedUntilCommit 4

/-- It is marked as failed, and it is still found and opened. -/
theorem infected_retrieved : ∃ s s' : Interleaved State Phase,
    (documents plain).Reaches (Protocol.init .empty) s ∧
      s.txs.get 4 = some (4, .infected { noteDocument with status := .pending }) ∧
      (documents plain).step s (.finish 4) = some s' ∧
      s'.committed.documents.rows.map Document.status = [.failed] ∧
      notePoint ∈ s'.committed.points.rows ∧
      search (member 7) [⟨notePoint, 1⟩] s'.committed =
        [(⟨0, "note.txt", 0, ⟨"hi", none, none⟩⟩, 1)] ∧
      chunk (member 7) 0 0 s'.committed = .ok ⟨0, "note.txt", 0, ⟨"hi", none, none⟩⟩ := by
  have hfacts : (noteRefusedLater.foldlM (documents plain).step (Protocol.init .empty)).any fun s =>
      (s.txs.get 4).bind (fun tx => tx.2.infectedDocument) =
          some { noteDocument with status := .pending } ∧
        let state := s.committed.setStatus 0 .failed
        state.documents.rows.map Document.status = [.failed] ∧ notePoint ∈ state.points.rows ∧
          search (member 7) [⟨notePoint, 1⟩] state =
            [(⟨0, "note.txt", 0, ⟨"hi", none, none⟩⟩, 1)] ∧
          chunk (member 7) 0 0 state = .ok ⟨0, "note.txt", 0, ⟨"hi", none, none⟩⟩ := by
    decide +kernel
  obtain ⟨s, hreaches, hinfected, hrest⟩ := Protocol.Reaches.exists_of_any noteRefusedLater hfacts
  have hopen := get_of_infected hinfected
  exact ⟨s, _, hreaches, hopen, step_of_infected hopen, hrest⟩

end Nexora.Documents
