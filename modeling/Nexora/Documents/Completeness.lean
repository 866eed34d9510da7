import Nexora.Documents.Citations

/-!
# Every chunk has its vector

The reconciliation compares two snapshots.  A vector whose row is committed after the rows were read
is not an orphan, and is deleted all the same (`reconciliation_loses_vectors`).  And a run that fails
after it has deleted the vectors of a document that is indexed leaves it indexed without them: a task
can be delivered twice.

Where neither happens, every chunk of an indexed document has its vector whenever no task is running
(`indexed_documents_complete`).
-/

namespace Nexora.Documents

open Nexora Foundations

variable {services : Services} {s s' : Interleaved State Phase} {state state' : State}
  {phase phase' : Phase}

/-! ## Keys -/

/-- The keys of the chunks. -/
def State.rowKeys (state : State) : List (Uuid × Nat) := state.chunks.rows.map DocumentChunk.key

/-- The keys of the vectors. -/
def State.pointKeys (state : State) : List (Uuid × Nat) := state.points.rows.map Point.key

/-- The keys that an open run has written vectors of. -/
def Phase.writes : Phase → List (Uuid × Nat)
  | .written document passages => (chunkRows document passages).map DocumentChunk.key
  | _ => []

/-- The keys that a reconciliation is about to delete. -/
def Phase.orphans : Phase → List (Uuid × Nat)
  | .sweeping orphans => orphans
  | _ => []

/-- The keys that a reconciliation finds no row for, when it reads the rows now. -/
def Phase.found (state : State) : Phase → List (Uuid × Nat)
  | .listing tenantId keys => state.missing tenantId keys
  | _ => []

/-- The keys that a run is about to write vectors of. -/
def Phase.upcoming : Phase → List (Uuid × Nat)
  | .cleared document passages => (chunkRows document passages).map DocumentChunk.key
  | _ => []

/-- No reconciliation and no run come across each other: when it reads the rows, an open run has
written none of the keys that it finds no row for, and no run writes a key that it is about to
delete.  And no run ends halfway that has deleted the vectors of a document that is indexed. -/
def Undisturbed (s : Interleaved State Phase) : TxAction Task Choice → Prop
  | .run t .next => ∀ tx ∈ s.txs.get t, ∀ other ∈ s.txs.rows,
      (∀ key ∈ tx.2.found s.committed, key ∉ other.2.writes) ∧
        ∀ key ∈ tx.2.upcoming, key ∉ other.2.orphans
  | .abort t => ∀ tx ∈ s.txs.get t, ∀ id ∈ tx.2.replaced,
      ∀ document ∈ s.committed.documents.get id, document.status ≠ .indexed
  | _ => True

instance (s : Interleaved State Phase) (action : TxAction Task Choice) :
    Decidable (Undisturbed s action) :=
  match action with
  | .run t .next => inferInstanceAs (Decidable (∀ tx ∈ s.txs.get t, ∀ other ∈ s.txs.rows,
      (∀ key ∈ tx.2.found s.committed, key ∉ other.2.writes) ∧
        ∀ key ∈ tx.2.upcoming, key ∉ other.2.orphans))
  | .abort t => inferInstanceAs (Decidable (∀ tx ∈ s.txs.get t, ∀ id ∈ tx.2.replaced,
      ∀ document ∈ s.committed.documents.get id, document.status ≠ .indexed))
  | .begin _ _ => .isTrue trivial
  | .run _ (.verdict _) => .isTrue trivial
  | .run _ (.page _) => .isTrue trivial
  | .finish _ => .isTrue trivial

/-! ## The invariant -/

/-- Every chunk of the document has its vector. -/
def Complete (state : State) (documentId : Uuid) : Prop :=
  ∀ row ∈ state.chunks.rows, row.documentId = documentId → row.key ∈ state.pointKeys

/-- What holds of the tasks together. -/
structure Whole (services : Services) (s : Interleaved State Phase) : Prop where
  inv : (documents services).Inv Known Relies s
  /-- No open run has written a key that is about to be deleted. -/
  apart : ∀ tx ∈ s.txs.rows, ∀ tx' ∈ s.txs.rows, ∀ key ∈ tx.2.orphans, key ∉ tx'.2.writes
  /-- A key that is about to be deleted has no row. -/
  rowless : ∀ tx ∈ s.txs.rows, ∀ key ∈ tx.2.orphans, key ∉ s.committed.rowKeys
  /-- What an open run has written is there. -/
  written : ∀ tx ∈ s.txs.rows, ∀ key ∈ tx.2.writes, key ∈ s.committed.pointKeys
  /-- Between the runs of it, an indexed document is complete. -/
  complete : ∀ document ∈ s.committed.documents.rows, document.status = .indexed →
    (∃ tx ∈ s.txs.rows, tx.2.replaced = some document.id) ∨ Complete s.committed document.id

theorem Phase.orphans_or_writes (phase : Phase) : phase.orphans = [] ∨ phase.writes = [] := by
  cases phase with
  | sweeping _ => exact .inr rfl
  | _ => exact .inl rfl

/-- A task comes to a phase, and the vectors of at most one document go. -/
theorem Whole.put {t : Nat} (gone : Option Uuid) (h : Whole services s)
    (hinv : (documents services).Inv Known Relies ⟨state, s.txs.put (t, phase)⟩)
    (hdocuments : state.documents = s.committed.documents)
    (hchunks : state.chunks = s.committed.chunks)
    (hpoints : ∀ key ∈ s.committed.pointKeys, some key.1 ≠ gone → key ∈ state.pointKeys)
    (hgone : ∀ tx ∈ s.txs.rows, tx.1 ≠ t → ∀ key ∈ tx.2.writes, some key.1 ≠ gone)
    (hcleared : ∀ document ∈ s.committed.documents.rows, gone = some document.id →
      phase.replaced = some document.id)
    (hreplaced : ∀ tx ∈ s.txs.rows, tx.1 = t → ∀ id, tx.2.replaced = some id →
      phase.replaced = some id)
    (horphans : ∀ key ∈ phase.orphans, key ∉ s.committed.rowKeys ∧
      ∀ tx ∈ s.txs.rows, tx.1 ≠ t → key ∉ tx.2.writes)
    (hwrites : ∀ key ∈ phase.writes, key ∈ state.pointKeys ∧
      ∀ tx ∈ s.txs.rows, tx.1 ≠ t → key ∉ tx.2.orphans) :
    Whole services ⟨state, s.txs.put (t, phase)⟩ := by
  refine ⟨hinv, fun tx htx tx' htx' key hkey hmem => ?_, fun tx htx key hkey hmem => ?_,
    fun tx htx key hkey => ?_, fun document hdocument hindexed => ?_⟩
  · rcases Table.mem_put.mp htx with ⟨htx, hne⟩ | rfl
    · rcases Table.mem_put.mp htx' with ⟨htx', -⟩ | rfl
      · exact h.apart tx htx tx' htx' key hkey hmem
      · exact (hwrites key hmem).2 tx htx hne hkey
    · rcases Table.mem_put.mp htx' with ⟨htx', hne⟩ | rfl
      · exact (horphans key hkey).2 tx' htx' hne hmem
      · rcases phase.orphans_or_writes with hnone | hnone
        · exact List.not_mem_nil (hnone ▸ hkey)
        · exact List.not_mem_nil (hnone ▸ hmem)
  · rw [State.rowKeys, hchunks] at hmem
    rcases Table.mem_put.mp htx with ⟨htx, -⟩ | rfl
    · exact h.rowless tx htx key hkey hmem
    · exact (horphans key hkey).1 hmem
  · rcases Table.mem_put.mp htx with ⟨htx, hne⟩ | rfl
    · exact hpoints key (h.written tx htx key hkey) (hgone tx htx hne key hkey)
    · exact (hwrites key hkey).1
  · rw [hdocuments] at hdocument
    rcases h.complete document hdocument hindexed with ⟨tx, htx, hid⟩ | hcomplete
    · by_cases ht : tx.1 = t
      · exact .inl ⟨(t, phase), Table.mem_put.mpr (.inr rfl), hreplaced tx htx ht _ hid⟩
      · exact .inl ⟨tx, Table.mem_put.mpr (.inl ⟨htx, ht⟩), hid⟩
    · by_cases hid : gone = some document.id
      · exact .inl ⟨(t, phase), Table.mem_put.mpr (.inr rfl), hcleared document hdocument hid⟩
      · refine .inr fun row hrow howner => ?_
        refine hpoints row.key (hcomplete row (hchunks ▸ hrow) howner) fun heq => hid ?_
        rw [← heq, ← howner]
        rfl

/-- A task ends: what it may have deleted had no row, and the rows that it may have brought have
their vectors. -/
theorem Whole.erase {t : Nat} (h : Whole services s)
    (hinv : (documents services).Inv Known Relies ⟨state, s.txs.erase t⟩)
    (hpoints : ∀ key ∈ s.committed.pointKeys,
      key ∈ state.pointKeys ∨ ∃ tx ∈ s.txs.rows, key ∈ tx.2.orphans)
    (hrows : ∀ key ∈ state.rowKeys,
      key ∈ s.committed.rowKeys ∨ ∃ tx ∈ s.txs.rows, key ∈ tx.2.writes)
    (hcomplete : ∀ document ∈ state.documents.rows, document.status = .indexed →
      Complete state document.id ∨
        (∃ old ∈ s.committed.documents.rows, old.status = .indexed ∧ old.id = document.id) ∧
          (∀ row ∈ state.chunks.rows, row.documentId = document.id →
            row ∈ s.committed.chunks.rows) ∧
            ∀ tx ∈ s.txs.rows, tx.1 = t → tx.2.replaced ≠ some document.id) :
    Whole services ⟨state, s.txs.erase t⟩ := by
  refine ⟨hinv, fun tx htx tx' htx' => ?_, fun tx htx key hkey hmem => ?_, fun tx htx key hkey => ?_,
    fun document hdocument hindexed => ?_⟩
  · exact h.apart tx (Table.mem_erase.mp htx).1 tx' (Table.mem_erase.mp htx').1
  · have htx := (Table.mem_erase.mp htx).1
    rcases hrows key hmem with hmem | ⟨tx', htx', hmem⟩
    · exact h.rowless tx htx key hkey hmem
    · exact h.apart tx htx tx' htx' key hkey hmem
  · have htx := (Table.mem_erase.mp htx).1
    rcases hpoints key (h.written tx htx key hkey) with hmem | ⟨tx', htx', hmem⟩
    · exact hmem
    · exact absurd hkey (h.apart tx' htx' tx htx key hmem)
  · rcases hcomplete document hdocument hindexed with hnew | ⟨⟨old, hold, hwas, hid⟩, hchunks, hnot⟩
    · exact .inr hnew
    · rcases h.complete old hold hwas with ⟨tx, htx, hreplaced⟩ | hcomplete
      · refine .inl ⟨tx, Table.mem_erase.mpr ⟨htx, fun heq => ?_⟩, hid ▸ hreplaced⟩
        exact hnot tx htx heq (hid ▸ hreplaced)
      · refine .inr fun row hrow howner => ?_
        have hmem := hchunks row hrow howner
        rcases hpoints row.key (hcomplete row hmem (howner.trans hid.symm)) with
          hkey | ⟨tx, htx, hkey⟩
        · exact hkey
        · exact absurd (List.mem_map_of_mem hmem) (h.rowless tx htx row.key hkey)

/-! ## Steps -/

theorem Phase.replaced_of_writes {key : Uuid × Nat} (h : key ∈ phase.writes) :
    phase.replaced = some key.1 := by
  cases phase with
  | written document passages =>
      obtain ⟨row, hrow, rfl⟩ := List.mem_map.mp h
      obtain ⟨_, -, rfl⟩ := List.mem_map.mp hrow
      rfl
  | _ => cases h

theorem Phase.locked_of_replaced {id : Uuid} (h : phase.replaced = some id) :
    (id, .noKeyUpdate) ∈ locks phase := by
  cases phase with
  | cleared document _ => cases h; exact .head _
  | written document _ => cases h; exact .head _
  | _ => cases h

theorem Relies.held_of_replaced {id : Uuid} (hrelies : Relies state phase)
    (h : phase.replaced = some id) : (state.documents.get id).isSome := by
  cases phase with
  | cleared document _ =>
      cases h
      obtain ⟨current, hget, -⟩ := Held.get hrelies
      exact Option.isSome_of_eq_some hget
  | written document _ =>
      cases h
      obtain ⟨current, hget, -⟩ := Held.get hrelies
      exact Option.isSome_of_eq_some hget
  | _ => cases h

theorem Phase.quiet_of_first (h : phase.isFirst = true) :
    phase.orphans = [] ∧ phase.writes = [] ∧ phase.replaced = none := by
  cases phase with
  | sweeping _ => cases h
  | written _ _ => cases h
  | cleared _ _ => cases h
  | _ => exact ⟨rfl, rfl, rfl⟩

/-- The vectors of other documents stay. -/
theorem State.mem_deletePoints {tenantId documentId : Uuid} {key : Uuid × Nat}
    (h : key ∈ state.pointKeys) (hne : some key.1 ≠ some documentId) :
    key ∈ (state.deletePoints tenantId documentId).pointKeys := by
  obtain ⟨point, hpoint, rfl⟩ := List.mem_map.mp h
  refine List.mem_map_of_mem (Table.mem_filter.mpr ⟨hpoint, ?_⟩)
  rw [decide_eq_true_eq]
  exact fun hmatch => hne (congrArg some hmatch.2)

/-- A run writes a vector for every row. -/
theorem State.pointsOf_keys (state : State) (document : Document) (passages : List Passage) :
    (state.pointsOf document passages).map Point.key =
      (chunkRows document passages).map DocumentChunk.key := by
  simp only [State.pointsOf, chunkRows, List.map_map]
  rfl

/-- A task comes to a phase in which it has nothing to do with vectors. -/
theorem Whole.quiet {t : Nat} (h : Whole services s)
    (hinv : (documents services).Inv Known Relies ⟨state, s.txs.put (t, phase)⟩)
    (hdocuments : state.documents = s.committed.documents)
    (hchunks : state.chunks = s.committed.chunks) (hpoints : state.points = s.committed.points)
    (hreplaced : ∀ tx ∈ s.txs.rows, tx.1 = t → tx.2.replaced = none)
    (horphans : phase.orphans = []) (hwrites : phase.writes = []) :
    Whole services ⟨state, s.txs.put (t, phase)⟩ := by
  refine h.put none hinv hdocuments hchunks (fun key hkey _ => ?_)
    (fun _ _ _ _ _ => Option.some_ne_none _) nofun (fun tx htx ht id hid => ?_)
    (fun key hkey => ?_) fun key hkey => ?_
  · rw [State.pointKeys, hpoints]
    exact hkey
  · rw [hreplaced tx htx ht] at hid
    cases hid
  · rw [horphans] at hkey
    cases hkey
  · rw [hwrites] at hkey
    cases hkey

theorem Whole.begin {t : Nat} {task : Task} (h : Whole services s)
    (hstep : (documents services).step s (.begin t task) = some s') : Whole services s' := by
  have hinv := h.inv.step (documents_sound services) (Protocol.guard_true _ _) hstep
  obtain ⟨hnone, rfl⟩ := Protocol.step_begin hstep
  have hfirst : (start services s.committed task).isFirst = true := start_isFirst task
  obtain ⟨horphans, hwrites, -⟩ := Phase.quiet_of_first hfirst
  refine h.quiet hinv rfl rfl rfl (fun tx htx ht => ?_) horphans hwrites
  exact absurd ht (Table.get_eq_none.mp hnone tx htx)

theorem Whole.run {t : Nat} {choice : Choice} (h : Whole services s)
    (hundisturbed : Undisturbed s (.run t choice))
    (hstep : (documents services).step s (.run t choice) = some s') : Whole services s' := by
  have hinv := h.inv.step (documents_sound services) (Protocol.guard_true _ _) hstep
  obtain ⟨old, committed, phase, hget, hrun, rfl⟩ := Protocol.step_run hstep
  have hmem := (Table.get_mem hget).1
  have hrelies := h.inv.opened _ hmem
  have hold : ∀ tx ∈ s.txs.rows, tx.1 = t → tx.2 = old := by
    intro tx htx ht
    exact congrArg Prod.snd (Table.eq_of_mem htx hmem ht)
  have hreplaced : old.replaced = none → ∀ tx ∈ s.txs.rows, tx.1 = t → tx.2.replaced = none := by
    intro hnone tx htx ht
    rw [hold tx htx ht]
    exact hnone
  cases run_cases hrun with
  | «over» hnone => exact h.quiet hinv rfl rfl rfl (hreplaced hnone) rfl rfl
  | draw => exact h.quiet hinv rfl rfl rfl (hreplaced rfl) rfl rfl
  | store => exact h.quiet hinv rfl rfl rfl (hreplaced rfl) rfl rfl
  | update => exact h.quiet hinv rfl rfl rfl (hreplaced rfl) rfl rfl
  | delete => exact h.quiet hinv rfl rfl rfl (hreplaced rfl) rfl rfl
  | scan _ => exact h.quiet hinv rfl rfl rfl (hreplaced rfl) rfl rfl
  | «open» _ => exact h.quiet hinv rfl rfl rfl (hreplaced rfl) rfl rfl
  | pass _ => exact h.quiet hinv rfl rfl rfl (hreplaced rfl) rfl rfl
  | infect _ => exact h.quiet hinv rfl rfl rfl (hreplaced rfl) rfl rfl
  | refuse => exact h.quiet hinv rfl rfl rfl (hreplaced rfl) rfl rfl
  | extract _ => exact h.quiet hinv rfl rfl rfl (hreplaced rfl) rfl rfl
  | list _ => exact h.quiet hinv rfl rfl rfl (hreplaced rfl) rfl rfl
  | @clean cleanup =>
      -- The document is gone, so nobody writes its vectors, and no chunk of it is left.
      have hstale : cleanup.Stale s.committed := hrelies
      refine h.put (some cleanup.documentId) hinv rfl rfl
        (fun key hkey hne => State.mem_deletePoints hkey hne) (fun tx htx _ key hkey heq => ?_)
        (fun document hdocument heq => ?_) (fun tx htx ht id hid => ?_) nofun nofun
      · have hthere := (h.inv.opened tx htx).held_of_replaced (Phase.replaced_of_writes hkey)
        rw [Option.some.inj heq, hstale.2.1] at hthere
        cases hthere
      · exact absurd (Option.some.inj heq).symm (Table.get_eq_none.mp hstale.2.1 document hdocument)
      · rw [hreplaced rfl tx htx ht] at hid
        cases hid
  | @clear document passages =>
      -- The document is held, so nobody else writes its vectors.
      refine h.put (some document.id) hinv rfl rfl
        (fun key hkey hne => State.mem_deletePoints hkey hne) (fun tx htx hne key hkey heq => ?_)
        (fun found _ heq => heq.symm ▸ rfl) (fun tx htx ht id hid => ?_) nofun nofun
      · have hlocked := Phase.locked_of_replaced (Phase.replaced_of_writes hkey)
        have hfree := h.inv.exclusive _ hmem tx htx (Ne.symm hne)
        rw [Option.some.inj heq] at hlocked
        exact notMem_of_conflicts hfree (.head _) rfl hlocked
      · rw [hreplaced rfl tx htx ht] at hid
        cases hid
  | @upsert document passages =>
      refine h.put none hinv rfl rfl (fun key hkey _ => ?_)
        (fun _ _ _ _ _ => Option.some_ne_none _) nofun (fun tx htx ht id hid => ?_) nofun
        fun key hkey => ⟨?_, fun tx htx _ => ?_⟩
      · exact Table.mem_keys_putAll.mpr (.inr hkey)
      · rw [hold tx htx ht] at hid
        exact hid
      · rw [Phase.writes, ← State.pointsOf_keys s.committed] at hkey
        exact Table.mem_keys_putAll.mpr (.inl hkey)
      · exact (hundisturbed _ hget tx htx).2 key hkey
  | @compare tenantId keys =>
      refine h.put none hinv rfl rfl (fun key hkey _ => hkey)
        (fun _ _ _ _ _ => Option.some_ne_none _) nofun (fun tx htx ht id hid => ?_)
        (fun key hkey => ⟨fun hrow => ?_, fun tx htx _ => ?_⟩) nofun
      · rw [hreplaced rfl tx htx ht] at hid
        cases hid
      · -- Its row is one of those that were compared with.
        obtain ⟨hlisted, hnone⟩ := List.mem_filter.mp hkey
        rw [decide_eq_true_eq] at hnone
        obtain ⟨row, hmem, rfl⟩ := List.mem_map.mp hrow
        have hlisting : ∀ key ∈ keys, Listed s.committed tenantId key := hrelies
        obtain ⟨owner, howner, htenant⟩ := h.inv.committed.chunks row hmem
        have hup : s.committed.uploaded row.documentId = some owner.asUploaded := by
          rw [State.uploaded, howner, Option.map_some]
        have hsame : owner.tenantId = tenantId :=
          (hlisting row.key hlisted).2 owner.asUploaded hup
        refine hnone (List.mem_map_of_mem (List.mem_filter.mpr ⟨hmem, ?_⟩))
        rw [decide_eq_true_eq]
        exact ⟨htenant.symm.trans hsame, List.mem_map_of_mem hlisted⟩
      · exact (hundisturbed _ hget tx htx).1 key hkey

/-- A document whose status a task has not set to indexed. -/
theorem State.mem_setStatus {documentId : Uuid} {status : DocumentStatus} {document : Document}
    (h : document ∈ (state.setStatus documentId status).documents.rows)
    (hne : document.status ≠ status ∨ document.id ≠ documentId) :
    document ∈ state.documents.rows := by
  obtain ⟨old, hold, rfl⟩ := List.mem_map.mp h
  split
  next heq =>
    rw [if_pos heq] at hne
    exact absurd hne (not_or.mpr ⟨not_not.mpr rfl, not_not.mpr heq⟩)
  next => exact hold

/-- A task ends that has deleted no vectors and written none. -/
theorem Whole.leave {t : Nat} {old : Phase} (h : Whole services s)
    (hget : s.txs.get t = some (t, old)) (hreplaced : old.replaced = none)
    (hinv : (documents services).Inv Known Relies ⟨state, s.txs.erase t⟩)
    (hpoints : state.points = s.committed.points)
    (hchunks : ∀ row ∈ state.chunks.rows, row ∈ s.committed.chunks.rows)
    (hdocuments : ∀ document ∈ state.documents.rows, document.status = .indexed →
      document ∈ s.committed.documents.rows ∨ Complete state document.id) :
    Whole services ⟨state, s.txs.erase t⟩ := by
  refine h.erase hinv (fun key hkey => .inl ?_) (fun key hkey => .inl ?_)
    fun document hdocument hindexed => ?_
  · rw [State.pointKeys, hpoints]
    exact hkey
  · obtain ⟨row, hrow, rfl⟩ := List.mem_map.mp hkey
    exact List.mem_map_of_mem (hchunks row hrow)
  · rcases hdocuments document hdocument hindexed with hold | hnew
    · refine .inr ⟨⟨document, hold, hindexed, rfl⟩, fun row hrow _ => hchunks row hrow, ?_⟩
      intro tx htx ht hid
      rw [Table.eq_of_mem htx (Table.get_mem hget).1 ht, hreplaced] at hid
      cases hid
    · exact .inl hnew

theorem Whole.finish {t : Nat} (h : Whole services s)
    (hstep : (documents services).step s (.finish t) = some s') : Whole services s' := by
  have hinv := h.inv.step (documents_sound services) (Protocol.guard_true _ _) hstep
  obtain ⟨old, state, hget, hfinish, rfl⟩ := Protocol.step_finish hstep
  have hmem := (Table.get_mem hget).1
  have hrelies := h.inv.opened _ hmem
  -- A document that is not the one whose status is set was there.
  have hset : ∀ {id : Uuid} {status : DocumentStatus}, status ≠ .indexed → ∀ document : Document,
      document ∈ (s.committed.setStatus id status).documents.rows → document.status = .indexed →
        document ∈ s.committed.documents.rows ∨
          Complete (s.committed.setStatus id status) document.id := by
    intro id status hstatus document hdocument hindexed
    exact .inl (State.mem_setStatus hdocument (.inl (hindexed ▸ hstatus.symm)))
  cases finish_cases hfinish with
  | «over» =>
      exact h.leave hget rfl hinv rfl (fun _ hrow => hrow) fun _ hdocument _ => .inl hdocument
  | @upload document roleIds documents hinsert =>
      refine h.leave hget rfl hinv rfl (fun _ hrow => hrow) fun found hfound _ => ?_
      rw [(Table.insert_eq_some hinsert).1, List.mem_append, List.mem_singleton] at hfound
      refine hfound.imp_right fun heq row hrow howner => ?_
      -- A new document has no chunks.
      obtain ⟨owner, hgot, -⟩ := h.inv.committed.chunks row hrow
      obtain ⟨hthere, hid⟩ := Table.get_mem hgot
      have hcreated := (h.inv.committed.documents owner hthere).1.1
      rw [hid, howner, heq] at hcreated
      exact absurd hcreated hrelies.1.1.2
  | update => exact h.leave hget rfl hinv rfl (fun _ hrow => hrow) (hset hrelies)
  | infect => exact h.leave hget rfl hinv rfl (fun _ hrow => hrow) (hset nofun)
  | refuse => exact h.leave hget rfl hinv rfl (fun _ hrow => hrow) (hset nofun)
  | clean =>
      exact h.leave hget rfl hinv rfl (fun _ hrow => hrow) fun _ hdocument _ => .inl hdocument
  | delete =>
      exact h.leave hget rfl hinv rfl (fun _ hrow => (Table.mem_filter.mp hrow).1)
        fun _ hdocument _ => .inl (Table.mem_erase.mp hdocument).1
  | @sweep orphans =>
      refine h.erase hinv (fun key hkey => ?_) (fun key hkey => .inl hkey)
        fun document hdocument hindexed => .inr ⟨⟨document, hdocument, hindexed, rfl⟩,
          fun _ hrow _ => hrow, fun tx htx ht hid => ?_⟩
      · by_cases horphan : key ∈ orphans
        · exact .inr ⟨_, hmem, horphan⟩
        · obtain ⟨point, hpoint, rfl⟩ := List.mem_map.mp hkey
          exact .inl (List.mem_map_of_mem (Table.mem_filter.mpr ⟨hpoint, decide_eq_true horphan⟩))
      · rw [Table.eq_of_mem htx hmem ht] at hid
        cases hid
  | @index document passages =>
      have hrows : ∀ row ∈ ((s.committed.chunks.filter (·.documentId ≠ document.id)).putAll
          (chunkRows document passages)).rows,
          row.documentId = document.id ∧ row.key ∈ (Phase.written document passages).writes ∨
            row.documentId ≠ document.id ∧ row ∈ s.committed.chunks.rows := by
        intro row hrow
        rcases Table.mem_putAll hrow with hnew | hold
        · refine .inl ⟨?_, List.mem_map_of_mem hnew⟩
          obtain ⟨_, -, rfl⟩ := List.mem_map.mp hnew
          rfl
        · obtain ⟨hold, hne⟩ := Table.mem_filter.mp hold
          exact .inr ⟨of_decide_eq_true hne, hold⟩
      refine h.erase hinv (fun key hkey => .inl hkey) (fun key hkey => ?_)
        fun found hfound hindexed => ?_
      · obtain ⟨row, hrow, rfl⟩ := List.mem_map.mp hkey
        rcases hrows row hrow with ⟨-, hnew⟩ | ⟨-, hold⟩
        · exact .inr ⟨_, hmem, hnew⟩
        · exact .inl (List.mem_map_of_mem hold)
      · by_cases hid : found.id = document.id
        · refine .inl fun row hrow howner => ?_
          rcases hrows row hrow with ⟨-, hnew⟩ | ⟨hne, -⟩
          · exact h.written _ hmem row.key hnew
          · exact absurd (howner.trans hid) hne
        · have hold := State.mem_setStatus hfound (.inr hid)
          refine .inr ⟨⟨found, hold, hindexed, rfl⟩, fun row hrow howner => ?_,
            fun tx htx ht hreplaced => ?_⟩
          · rcases hrows row hrow with ⟨heq, -⟩ | ⟨-, hrow⟩
            · exact absurd (howner.symm.trans heq) hid
            · exact hrow
          · rw [Table.eq_of_mem htx hmem ht] at hreplaced
            exact hid (Option.some.inj hreplaced).symm

theorem Whole.abort {t : Nat} (h : Whole services s) (hundisturbed : Undisturbed s (.abort t))
    (hstep : (documents services).step s (.abort t) = some s') : Whole services s' := by
  have hinv := h.inv.step (documents_sound services) (Protocol.guard_true _ _) hstep
  obtain rfl : s' = ⟨s.committed, s.txs.erase t⟩ := (Option.some.inj hstep).symm
  refine h.erase hinv (fun key hkey => .inl hkey) (fun key hkey => .inl hkey)
    fun document hdocument hindexed => .inr ⟨⟨document, hdocument, hindexed, rfl⟩,
      fun _ hrow _ => hrow, fun tx htx ht hid => ?_⟩
  have hopen := Table.get_eq_some.mpr ⟨htx, ht⟩
  have hthere := Table.get_eq_some.mpr ⟨hdocument, rfl⟩
  exact hundisturbed tx hopen document.id hid document hthere hindexed

/-- Every step keeps it. -/
theorem Whole.step {action : TxAction Task Choice} (h : Whole services s)
    (hundisturbed : Undisturbed s action)
    (hstep : (documents services).step s action = some s') : Whole services s' := by
  cases action with
  | begin t task => exact h.begin hstep
  | run t choice => exact h.run hundisturbed hstep
  | finish t => exact h.finish hstep
  | abort t => exact h.abort hundisturbed hstep

theorem Whole.init : Whole services (Protocol.init .empty) :=
  ⟨.init Known.empty, List.forall_mem_nil _, List.forall_mem_nil _, List.forall_mem_nil _,
    List.forall_mem_nil _⟩

/-! ## Indexed documents -/

/-- In every interleaving of all tasks in which no reconciliation and no index run come across each
other, and none ends halfway: when no task is running, every chunk of an indexed document has exactly
one vector. -/
theorem indexed_documents_complete
    (h : Run Undisturbed (fun s action s' => (documents services).step s action = some s')
      (Protocol.init .empty) s) (hquiet : s.txs.rows = []) :
    ∀ document ∈ s.committed.documents.rows, document.status = .indexed →
      ∀ row ∈ s.committed.chunks.rows, row.documentId = document.id →
        ∃! point, point ∈ s.committed.points.rows ∧ point.key = row.key := by
  intro document hdocument hindexed row hrow howner
  have hwhole : Whole services s :=
    Run.invariant (fun _ _ _ hs hguard hstep => hs.step hguard hstep) h .init
  rcases hwhole.complete document hdocument hindexed with ⟨tx, htx, -⟩ | hcomplete
  · rw [hquiet] at htx
    cases htx
  · obtain ⟨point, hpoint, hkey⟩ := List.mem_map.mp (hcomplete row hrow howner)
    refine ⟨point, ⟨hpoint, hkey⟩, fun other ⟨hother, hsame⟩ => ?_⟩
    exact Table.eq_of_mem hother hpoint (hsame.trans hkey.symm)

/-- A pass of the reconciliation that lists the vector of the note, up to its deletes. -/
def sweepUntilDelete (t : Nat) : List (TxAction Task Choice) :=
  [.begin t (.reconcile 1), .run t (.page [notePoint.key]), .run t .next]

/-- The note is indexed, and a pass of the reconciliation follows. -/
def noteSwept : List (TxAction Task Choice) := noteIndexed ++ sweepUntilDelete 3 ++ [.finish 3]

/-- The chunk of the note. -/
def noteChunk : DocumentChunk := ⟨0, 0, 1, ⟨"hi", none, none⟩⟩

/-- The one chunk of the note keeps its vector. -/
theorem indexed_documents_complete_note : ∃ s : Interleaved State Phase,
    Run Undisturbed (fun s action s' => (documents plain).step s action = some s')
      (Protocol.init .empty) s ∧
      s.txs.rows = [] ∧ s.committed.documents.rows = [{ noteDocument with status := .indexed }] ∧
      s.committed.chunks.rows = [noteChunk] ∧
      ∃! point, point ∈ s.committed.points.rows ∧ point.key = noteChunk.key := by
  have hfacts : (noteSwept.foldlM
      (fun s action => if Undisturbed s action then (documents plain).step s action else none)
      (Protocol.init .empty)).any fun s =>
        s.txs.rows = [] ∧ s.committed.documents.rows = [{ noteDocument with status := .indexed }] ∧
          s.committed.chunks.rows = [noteChunk] := by
    decide +kernel
  obtain ⟨s, hrun, hquiet, hdocuments, hchunks⟩ := Run.exists_of_any noteSwept hfacts
  refine ⟨s, hrun, hquiet, hdocuments, hchunks, ?_⟩
  exact indexed_documents_complete hrun hquiet { noteDocument with status := .indexed }
    (hdocuments ▸ .head _) rfl noteChunk (hchunks ▸ .head _) rfl

/-- The reconciliation reads the rows before the index run of the note commits. -/
def noteCrossed : List (TxAction Task Choice) :=
  noteUploaded ++ indexUntilCommit 2 ++ sweepUntilDelete 3 ++ [.finish 2, .finish 3]

/-- The note is indexed, no task is running, and its chunk has no vector. -/
theorem reconciliation_loses_vectors : ∃ s : Interleaved State Phase,
    (documents plain).Reaches (Protocol.init .empty) s ∧
      s.txs.rows = [] ∧ s.committed.documents.rows = [{ noteDocument with status := .indexed }] ∧
      s.committed.chunks.rows = [noteChunk] ∧ s.committed.points.rows = [] :=
  Protocol.Reaches.exists_of_any noteCrossed (by decide +kernel)

end Nexora.Documents
