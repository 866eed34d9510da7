import Nexora.Documents.Service

/-!
# What the tasks keep

What a document was uploaded with never changes, and its identifier is never used again.  So what a
task has read of a document, and what the payload of a point says of it, holds of the document for as
long as it is there.
-/

namespace Nexora.Documents

open Nexora Foundations

variable {services : Services} {state state' : State} {phase phase' : Phase}

/-! ## Steps -/

/-- The document whose vectors a run has deleted, until it commits. -/
def Phase.replaced : Phase → Option Uuid
  | .cleared document _ | .written document _ => some document.id
  | _ => none

/-- What a statement does. -/
inductive Ran (services : Services) (state : State) : Phase → Choice → State → Phase → Prop
  | over {phase : Phase} {choice : Choice} (hreplaced : phase.replaced = none) :
      Ran services state phase choice state .over
  | draw {context : TenantContext} {payload : Upload} :
      Ran services state (.checked context payload) .next { state with drawn := state.drawn + 1 }
        (.uploading (payload.document context state.drawn) payload)
  | store {document : Document} {payload : Upload} :
      Ran services state (.uploading document payload) .next
        { state with files := state.files.put (document.storageKey, payload.data) }
        (.uploaded document payload.roleIds.dedup)
  | update {document : Document} {status : DocumentStatus} :
      Ran services state (.updating document status) .next state (.updated document.id status)
  | delete {document : Document} :
      Ran services state (.deleting document) .next state (.deleted document)
  | clean {cleanup : Cleanup} :
      Ran services state (.cleaning cleanup) .next
        (state.deletePoints cleanup.tenantId cleanup.documentId) (.cleaned cleanup)
  | scan {settings : Settings} {document : Document}
      (hthere : (state.documents.get document.id).isSome) :
      Ran services state (.loaded settings document) .next state (.scanning settings document)
  | open {settings : Settings} {document : Document}
      (hthere : (state.documents.get document.id).isSome) :
      Ran services state (.loaded settings document) .next state (.extracting settings document none)
  | pass {settings : Settings} {document : Document} {file : StorageKey × Bytes}
      (hfile : state.files.get document.storageKey = some file) :
      Ran services state (.scanning settings document) (.verdict true) state
        (.extracting settings document (some file.2))
  | infect {settings : Settings} {document : Document} {file : StorageKey × Bytes}
      (hfile : state.files.get document.storageKey = some file) :
      Ran services state (.scanning settings document) (.verdict false)
        { state with files := state.files.erase document.storageKey } (.infected document)
  | refuse {settings : Settings} {document : Document} {data : Option Bytes} :
      Ran services state (.extracting settings document data) .next state (.unreadable document)
  | extract {settings : Settings} {document : Document} {data : Option Bytes}
      {passages : List Passage}
      (hdata : (data.or ((state.files.get document.storageKey).map Prod.snd)).isSome) :
      Ran services state (.extracting settings document data) .next state
        (.replacing document passages)
  | clear {document : Document} {passages : List Passage} :
      Ran services state (.replacing document passages) .next
        (state.deletePoints document.tenantId document.id) (.cleared document passages)
  | upsert {document : Document} {passages : List Passage} :
      Ran services state (.cleared document passages) .next
        { state with points := state.points.putAll (state.pointsOf document passages) }
        (.written document passages)
  | list {tenantId : Uuid} {keys more : List (Uuid × Nat)}
      (hmore : ∀ key ∈ more, (state.points.get key).any (·.tenantId = tenantId)) :
      Ran services state (.listing tenantId keys) (.page more) state (.listing tenantId (keys ++ more))
  | compare {tenantId : Uuid} {keys : List (Uuid × Nat)} :
      Ran services state (.listing tenantId keys) .next state
        (.sweeping (keys.filter (· ∉ state.existing tenantId keys)))

theorem run_cases {choice : Choice} (h : run services state phase choice = some (state', phase')) :
    Ran services state phase choice state' phase' := by
  cases phase with
  | checked context payload =>
      cases choice with
      | next => cases h; exact .draw
      | _ => cases h
  | uploading document payload =>
      cases choice with
      | next => cases h; exact .store
      | _ => cases h
  | updating document status =>
      cases choice with
      | next =>
          simp only [run] at h
          split at h
          · cases h; exact .update
          · cases h; exact .over rfl
      | _ => cases h
  | deleting document =>
      cases choice with
      | next => cases h; exact .delete
      | _ => cases h
  | cleaning cleanup =>
      cases choice with
      | next => cases h; exact .clean
      | _ => cases h
  | loaded settings document =>
      cases choice with
      | next =>
          simp only [run] at h
          split at h
          next hthere =>
            split at h
            · cases h; exact .scan hthere
            · cases h; exact .open hthere
          next => cases h; exact .over rfl
      | _ => cases h
  | scanning settings document =>
      cases choice with
      | verdict clean =>
          simp only [run] at h
          split at h
          next => cases h; exact .over rfl
          next file hfile =>
            cases clean with
            | true => cases h; exact .pass hfile
            | false => cases h; exact .infect hfile
      | _ => cases h
  | extracting settings document data =>
      cases choice with
      | next =>
          simp only [run] at h
          split at h
          next => cases h; exact .over rfl
          next data hdata =>
            split at h
            next => cases h; exact .refuse
            next => cases h; exact .refuse
            next => cases h; exact .extract (Option.isSome_of_eq_some hdata)
      | _ => cases h
  | replacing document passages =>
      cases choice with
      | next => cases h; exact .clear
      | _ => cases h
  | cleared document passages =>
      cases choice with
      | next => cases h; exact .upsert
      | _ => cases h
  | listing tenantId keys =>
      cases choice with
      | next => cases h; exact .compare
      | page more =>
          simp only [run] at h
          split at h
          next hmore => cases h; exact .list hmore
          next => cases h
      | verdict _ => cases h
  | _ => cases h

/-- The phases that a task begins in. -/
def Phase.isFirst : Phase → Bool
  | .over | .checked _ _ | .updating _ _ | .deleting _ | .cleaning _ | .loaded _ _ => true
  | .listing _ keys => keys.isEmpty
  | _ => false

theorem start_isFirst (task : Task) : (start services state task).isFirst = true := by
  cases task with
  | upload _ _ _ => simp only [start]; split <;> rfl
  | reindex _ _ =>
      simp only [start]
      split
      next => rfl
      next => split <;> rfl
  | delete _ _ => simp only [start]; split <;> rfl
  | cleanup _ => simp only [start]; split <;> rfl
  | index _ _ _ => simp only [start]; split <;> rfl
  | markFailed _ _ =>
      simp only [start]
      split
      next => rfl
      next => split <;> rfl
  | reconcile _ => rfl

/-- What the end of a task does. -/
inductive Finished (state : State) : Phase → State → Prop
  | over : Finished state .over state
  | upload {document : Document} {roleIds : List Uuid} {documents : Table Document.id}
      (hinsert : state.documents.insert document = some documents) :
      Finished state (.uploaded document roleIds)
        { state with
          documents := documents
          acl := state.acl ++ roleIds.map fun roleId => ⟨document.id, roleId⟩
          created := state.created ++ [document.id] }
  | update {documentId : Uuid} {status : DocumentStatus} :
      Finished state (.updated documentId status) (state.setStatus documentId status)
  | delete {document : Document} :
      Finished state (.deleted document)
        { state with
          documents := state.documents.erase document.id
          chunks := state.chunks.filter (·.documentId ≠ document.id)
          acl := state.acl.filter (·.documentId ≠ document.id)
          cleanups := state.cleanups ++ [⟨document.tenantId, document.id, document.storageKey⟩] }
  | clean {cleanup : Cleanup} :
      Finished state (.cleaned cleanup)
        { state with files := state.files.erase cleanup.storageKey }
  | infect {document : Document} :
      Finished state (.infected document) (state.setStatus document.id .failed)
  | refuse {document : Document} :
      Finished state (.unreadable document) (state.setStatus document.id .failed)
  | index {document : Document} {passages : List Passage} :
      Finished state (.written document passages)
        { state.setStatus document.id .indexed with
          chunks := (state.chunks.filter (·.documentId ≠ document.id)).putAll
            (chunkRows document passages) }
  | sweep {orphans : List (Uuid × Nat)} :
      Finished state (.sweeping orphans)
        { state with points := state.points.filter (·.key ∉ orphans) }

theorem finish_cases (h : finish state phase = some state') : Finished state phase state' := by
  cases phase with
  | «over» => cases h; exact .over
  | uploaded document roleIds =>
      obtain ⟨documents, hinsert, rfl⟩ := Option.map_eq_some_iff.mp h
      exact .upload hinsert
  | updated documentId status => cases h; exact .update
  | deleted document => cases h; exact .delete
  | cleaned cleanup => cases h; exact .clean
  | infected document => cases h; exact .infect
  | unreadable document => cases h; exact .refuse
  | written document passages => cases h; exact .index
  | sweeping orphans => cases h; exact .sweep
  | _ => cases h

/-! ## What stays -/

/-- The document as it was uploaded. -/
def Document.asUploaded (document : Document) : Document := { document with status := .pending }

/-- What was uploaded under an identifier, if the document is still there. -/
def State.uploaded (state : State) (documentId : Uuid) : Option Document :=
  (state.documents.get documentId).map Document.asUploaded

/-- The identifier is drawn, and there was no document with it. -/
def Fresh (state : State) (document : Document) : Prop :=
  (document.id < state.drawn ∧ document.id ∉ state.created) ∧
    document.storageKey.documentId = document.id

/-- The document was read. -/
def Read (state : State) (document : Document) : Prop :=
  (document.id ∈ state.created ∧ document.storageKey.documentId = document.id) ∧
    ∀ uploaded ∈ state.uploaded document.id, uploaded = document.asUploaded

/-- The document is there. -/
def Held (state : State) (document : Document) : Prop :=
  state.uploaded document.id = some document.asUploaded ∧
    document.storageKey.documentId = document.id

/-- The document is gone. -/
def Cleanup.Stale (state : State) (cleanup : Cleanup) : Prop :=
  cleanup.documentId ∈ state.created ∧ state.documents.get cleanup.documentId = none ∧
    cleanup.storageKey.documentId = cleanup.documentId

/-- A restricted document names a role. -/
def Document.Named (document : Document) (roleIds : List Uuid) : Prop :=
  document.visibility = .roleRestricted → ∃ roleId, roleId ∈ roleIds

/-- The payload of a point is that of its document, if it is still there. -/
def Point.Agrees (state : State) (point : Point) : Prop :=
  point.documentId ∈ state.created ∧
    ∀ document, state.documents.get point.documentId = some document →
      (point.tenantId = document.tenantId ∧ point.visibility = document.visibility) ∧
        ∀ roleId, roleId ∈ point.allowedRoleIds ↔ roleId ∈ state.allowedRoleIds document.id

/-- The key of a document of the tenant, if it is still there. -/
def Listed (state : State) (tenantId : Uuid) (key : Uuid × Nat) : Prop :=
  key.1 ∈ state.created ∧ ∀ uploaded ∈ state.uploaded key.1, uploaded.tenantId = tenantId

/-- What holds of the database and the collection. -/
structure Known (state : State) : Prop where
  created : ∀ id ∈ state.created, id < state.drawn
  documents : ∀ document ∈ state.documents.rows,
    (document.id ∈ state.created ∧ document.storageKey.documentId = document.id) ∧
      document.Named (state.allowedRoleIds document.id)
  acl : ∀ row ∈ state.acl, row.documentId ∈ state.created
  chunks : ∀ row ∈ state.chunks.rows, ∃ document,
    state.documents.get row.documentId = some document ∧ document.tenantId = row.tenantId
  points : ∀ point ∈ state.points.rows, point.Agrees state
  cleanups : ∀ cleanup ∈ state.cleanups, cleanup.Stale state

/-- What an open task relies on. -/
def Relies (state : State) : Phase → Prop
  | .checked _ payload => payload.visibility = .roleRestricted → ∃ roleId, roleId ∈ payload.roleIds
  | .uploading document payload => Fresh state document ∧ document.Named payload.roleIds
  | .uploaded document roleIds => Fresh state document ∧ document.Named roleIds
  | .updating document status => Read state document ∧ status ≠ .indexed
  | .updated _ status => status ≠ .indexed
  | .deleting document | .deleted document | .loaded _ document => Read state document
  | .scanning _ document | .infected document | .extracting _ document _ | .unreadable document
  | .replacing document _ | .cleared document _ | .written document _ => Held state document
  | .cleaning cleanup | .cleaned cleanup => cleanup.Stale state
  | .listing tenantId keys => ∀ key ∈ keys, Listed state tenantId key
  | .over | .sweeping _ => True

/-! ## Keeping it -/

/-- What a task relies on is about new documents and held ones, which it has locked, about documents
that were read and about documents that are gone. -/
theorem Relies.of_kinds
    (hfresh : ∀ document, (document.id, .update) ∈ locks phase → Fresh state document →
      Fresh state' document)
    (hread : ∀ document, Read state document → Read state' document)
    (hheld : ∀ document, (document.id, .noKeyUpdate) ∈ locks phase → Held state document →
      Held state' document)
    (hstale : ∀ cleanup : Cleanup, cleanup.Stale state → cleanup.Stale state')
    (hlisted : ∀ tenantId key, Listed state tenantId key → Listed state' tenantId key)
    (h : Relies state phase) : Relies state' phase := by
  cases phase with
  | uploading document payload => exact h.imp_left (hfresh document (.head _))
  | uploaded document roleIds => exact h.imp_left (hfresh document (.head _))
  | updating document _ => exact h.imp_left (hread document)
  | deleting document => exact hread document h
  | deleted document => exact hread document h
  | loaded _ document => exact hread document h
  | scanning _ document => exact hheld document (.head _) h
  | infected document => exact hheld document (.head _) h
  | extracting _ document _ => exact hheld document (.head _) h
  | unreadable document => exact hheld document (.head _) h
  | replacing document _ => exact hheld document (.head _) h
  | cleared document _ => exact hheld document (.head _) h
  | written document _ => exact hheld document (.head _) h
  | cleaning cleanup => exact hstale cleanup h
  | cleaned cleanup => exact hstale cleanup h
  | listing tenantId keys => exact fun key hkey => hlisted tenantId key (h key hkey)
  | _ => exact h

/-- Nothing is uploaded and nothing deleted. -/
theorem Relies.of_same (huploaded : ∀ id, state'.uploaded id = state.uploaded id)
    (hcreated : state'.created = state.created) (hdrawn : state.drawn ≤ state'.drawn)
    (h : Relies state phase) : Relies state' phase := by
  refine h.of_kinds ?_ ?_ ?_ ?_ ?_
  · rintro document - ⟨⟨hlt, hnot⟩, hkey⟩
    exact ⟨⟨hlt.trans_le hdrawn, hcreated ▸ hnot⟩, hkey⟩
  · rintro document ⟨⟨hmem, hkey⟩, hsame⟩
    exact ⟨⟨hcreated ▸ hmem, hkey⟩, fun uploaded hup => hsame uploaded (huploaded _ ▸ hup)⟩
  · rintro document - ⟨hup, hkey⟩
    exact ⟨(huploaded _).trans hup, hkey⟩
  · rintro cleanup ⟨hmem, hnone, hkey⟩
    have hnone' := huploaded cleanup.documentId
    rw [State.uploaded, State.uploaded, hnone, Option.map_none, Option.map_eq_none_iff] at hnone'
    exact ⟨hcreated ▸ hmem, hnone', hkey⟩
  · rintro tenantId key ⟨hmem, htenant⟩
    exact ⟨hcreated ▸ hmem, fun uploaded hup => htenant uploaded (huploaded _ ▸ hup)⟩

/-- A statement changes no row of the database. -/
theorem Ran.same {choice : Choice} (h : Ran services state phase choice state' phase') :
    state'.documents = state.documents ∧ state'.chunks = state.chunks ∧ state'.acl = state.acl ∧
      state'.cleanups = state.cleanups ∧ state'.created = state.created ∧
        state.drawn ≤ state'.drawn := by
  cases h with
  | draw => exact ⟨rfl, rfl, rfl, rfl, rfl, Nat.le_succ _⟩
  | _ => exact ⟨rfl, rfl, rfl, rfl, rfl, le_rfl⟩

theorem Ran.relies {choice : Choice} {other : Phase}
    (h : Ran services state phase choice state' phase') (hother : Relies state other) :
    Relies state' other := by
  obtain ⟨hdocuments, -, -, -, hcreated, hdrawn⟩ := h.same
  refine hother.of_same (fun id => ?_) hcreated hdrawn
  rw [State.uploaded, hdocuments]
  rfl

/-- A document that was found is held. -/
theorem Read.held {document : Document} (h : Read state document)
    (hthere : (state.documents.get document.id).isSome) : Held state document := by
  obtain ⟨current, hget⟩ := Option.isSome_iff_exists.mp hthere
  have hup : state.uploaded document.id = some current.asUploaded := by
    rw [State.uploaded, hget, Option.map_some]
  exact ⟨hup.trans (congrArg some (h.2 _ hup)), h.1.2⟩

/-- The document that is held. -/
theorem Held.get {document : Document} (h : Held state document) : ∃ current,
    state.documents.get document.id = some current ∧ current.asUploaded = document.asUploaded :=
  Option.map_eq_some_iff.mp h.1

/-- What the next phase relies on. -/
theorem Ran.next {choice : Choice} (h : Ran services state phase choice state' phase')
    (hknown : Known state) (hphase : Relies state phase) : Relies state' phase' := by
  cases h with
  | «over» => trivial
  | draw =>
      refine ⟨⟨⟨Nat.lt_succ_self _, fun hmem => ?_⟩, rfl⟩, hphase⟩
      exact (hknown.created _ hmem).false
  | store =>
      refine ⟨hphase.1, fun hrestricted => ?_⟩
      obtain ⟨roleId, hrole⟩ := hphase.2 hrestricted
      exact ⟨roleId, List.mem_dedup.mpr hrole⟩
  | scan hthere => exact Read.held hphase hthere
  | «open» hthere => exact Read.held hphase hthere
  | update => exact hphase.2
  | list hmore =>
      intro key hkey
      rcases List.mem_append.mp hkey with hkey | hkey
      · exact hphase key hkey
      · obtain ⟨point, hget, htenant⟩ := (Option.any_eq_true _ _).mp (hmore key hkey)
        obtain ⟨hmem, rfl⟩ := Table.get_mem hget
        obtain ⟨hcreated, hpayload⟩ := hknown.points point hmem
        refine ⟨hcreated, fun uploaded hup => ?_⟩
        obtain ⟨document, hdocument, rfl⟩ := Option.map_eq_some_iff.mp hup
        exact ((hpayload document hdocument).1.1.symm.trans (of_decide_eq_true htenant))
  | compare => trivial
  | _ => exact hphase

/-- The collection has fewer points, or new ones of a document that is held. -/
theorem Ran.points {choice : Choice} (h : Ran services state phase choice state' phase')
    (hphase : Relies state phase) : ∀ point ∈ state'.points.rows, point ∈ state.points.rows ∨
      ∃ document, Held state document ∧ point.documentId = document.id ∧
        (point.tenantId = document.tenantId ∧ point.visibility = document.visibility) ∧
          point.allowedRoleIds = state.allowedRoleIds document.id := by
  intro point hpoint
  cases h with
  | clean => exact .inl (Table.mem_filter.mp hpoint).1
  | clear => exact .inl (Table.mem_filter.mp hpoint).1
  | @upsert document passages =>
      rcases Table.mem_putAll hpoint with hnew | hold
      · obtain ⟨row, -, rfl⟩ := List.mem_map.mp hnew
        exact .inr ⟨document, hphase, rfl, ⟨rfl, rfl⟩, rfl⟩
      · exact .inl hold
  | _ => exact .inl hpoint

theorem Ran.allowedRoleIds {choice : Choice} (h : Ran services state phase choice state' phase')
    (documentId : Uuid) : state'.allowedRoleIds documentId = state.allowedRoleIds documentId := by
  obtain ⟨-, -, hacl, -⟩ := h.same
  rw [State.allowedRoleIds, hacl]
  rfl

theorem Ran.agrees {choice : Choice} {point : Point}
    (h : Ran services state phase choice state' phase') (hpoint : point.Agrees state) :
    point.Agrees state' := by
  obtain ⟨hdocuments, -, -, -, hcreated, -⟩ := h.same
  simp only [Point.Agrees, hcreated, hdocuments, h.allowedRoleIds]
  exact hpoint

/-- A point that is written for a document says what holds of it. -/
theorem Held.agrees {document : Document} {point : Point} (hheld : Held state document)
    (hknown : Known state) (hid : point.documentId = document.id)
    (hpayload : point.tenantId = document.tenantId ∧ point.visibility = document.visibility)
    (hroles : point.allowedRoleIds = state.allowedRoleIds document.id) : point.Agrees state := by
  obtain ⟨current, hget, hsame⟩ := hheld.get
  have hcurrent := Table.get_mem hget
  have htenant := congrArg Document.tenantId hsame
  have hvisibility := congrArg Document.visibility hsame
  rw [Point.Agrees, hid]
  refine ⟨hcurrent.2 ▸ (hknown.documents current hcurrent.1).1.1, fun found hfound => ?_⟩
  rw [hget] at hfound
  cases hfound
  refine ⟨⟨hpayload.1.trans htenant.symm, hpayload.2.trans hvisibility.symm⟩, fun roleId => ?_⟩
  rw [hroles, hcurrent.2]

theorem Ran.known {choice : Choice} (h : Ran services state phase choice state' phase')
    (hknown : Known state) (hphase : Relies state phase) : Known state' := by
  obtain ⟨hdocuments, hchunks, hacl, hcleanups, hcreated, hdrawn⟩ := h.same
  refine ⟨fun id hid => ?_, fun document hdocument => ?_, fun row hrow => ?_, fun row hrow => ?_,
    fun point hpoint => h.agrees ?_, fun cleanup hcleanup => ?_⟩
  · exact (hknown.created id (hcreated ▸ hid)).trans_le hdrawn
  · rw [hcreated, h.allowedRoleIds]
    exact hknown.documents document (hdocuments ▸ hdocument)
  · rw [hcreated]
    exact hknown.acl row (hacl ▸ hrow)
  · rw [hdocuments]
    exact hknown.chunks row (hchunks ▸ hrow)
  · rcases h.points hphase point hpoint with hold | ⟨document, hheld, hid, hpayload, hroles⟩
    · exact hknown.points point hold
    · exact hheld.agrees hknown hid hpayload hroles
  · have hstale := hknown.cleanups cleanup (hcleanups ▸ hcleanup)
    simp only [Cleanup.Stale, hcreated, hdocuments]
    exact hstale

/-! ## The end of a task -/

theorem State.get_setStatus (state : State) (documentId : Uuid) (status : DocumentStatus)
    (id : Uuid) : (state.setStatus documentId status).documents.get id =
      (state.documents.get id).map fun document =>
        if document.id = documentId then { document with status := status } else document := by
  rw [setStatus, Table.modifyAt, Table.get_modify]

theorem asUploaded_ite (document : Document) (documentId : Uuid) (status : DocumentStatus) :
    (if document.id = documentId then { document with status := status } else document).asUploaded =
      document.asUploaded := by
  split
  · rfl
  · rfl

@[simp] theorem State.uploaded_setStatus (state : State) (documentId : Uuid)
    (status : DocumentStatus) (id : Uuid) :
    (state.setStatus documentId status).uploaded id = state.uploaded id := by
  rw [uploaded, get_setStatus, Option.map_map, uploaded]
  congr 1
  funext document
  exact asUploaded_ite document documentId status

/-- The document behind a new status. -/
theorem State.setStatus_get {documentId id : Uuid} {status : DocumentStatus} {document : Document}
    (h : (state.setStatus documentId status).documents.get id = some document) :
    ∃ old, state.documents.get id = some old ∧ old.asUploaded = document.asUploaded := by
  rw [State.get_setStatus] at h
  obtain ⟨old, hold, rfl⟩ := Option.map_eq_some_iff.mp h
  exact ⟨old, hold, (asUploaded_ite old documentId status).symm⟩

/-! ### Payloads -/

theorem Point.Agrees.setStatus {point : Point} (h : point.Agrees state) (documentId : Uuid)
    (status : DocumentStatus) : point.Agrees (state.setStatus documentId status) := by
  refine ⟨h.1, fun document hdocument => ?_⟩
  obtain ⟨old, hold, hsame⟩ := State.setStatus_get hdocument
  have hid := congrArg Document.id hsame
  have htenant := congrArg Document.tenantId hsame
  have hvisibility := congrArg Document.visibility hsame
  simp only [Document.asUploaded] at hid htenant hvisibility
  rw [← htenant, ← hvisibility, ← hid]
  exact h.2 old hold

/-- A payload says nothing of a new document. -/
theorem Point.Agrees.upload {point : Point} {document : Document} {roleIds : List Uuid}
    {documents : Table Document.id} (h : point.Agrees state) (hnew : document.id ∉ state.created)
    (hinsert : state.documents.insert document = some documents) :
    point.Agrees { state with
      documents := documents
      acl := state.acl ++ roleIds.map fun roleId => ⟨document.id, roleId⟩
      created := state.created ++ [document.id] } := by
  have hne : point.documentId ≠ document.id := fun heq => hnew (heq ▸ h.1)
  refine ⟨List.mem_append_left _ h.1, fun found hfound => ?_⟩
  rw [Table.get_insert hinsert, if_neg hne] at hfound
  obtain ⟨hsame, hallowed⟩ := h.2 found hfound
  refine ⟨hsame, fun roleId => (hallowed roleId).trans ?_⟩
  rw [State.mem_allowedRoleIds, State.mem_allowedRoleIds, List.mem_append, iff_self_or]
  intro hmem
  obtain ⟨_, -, heq⟩ := List.mem_map.mp hmem
  have hids : document.id = found.id := congrArg DocumentAcl.documentId heq
  exact absurd ((Table.get_mem hfound).2.symm.trans hids.symm) hne

/-- A payload says nothing of a document that is gone. -/
theorem Point.Agrees.delete {point : Point} {documentId : Uuid} {chunks : Table DocumentChunk.key}
    {cleanups : List Cleanup} (h : point.Agrees state) :
    point.Agrees { state with
      documents := state.documents.erase documentId
      chunks := chunks
      acl := state.acl.filter (·.documentId ≠ documentId)
      cleanups := cleanups } := by
  refine ⟨h.1, fun found hfound => ?_⟩
  rw [Table.get_erase] at hfound
  split at hfound
  next => cases hfound
  next hne =>
    obtain ⟨hsame, hallowed⟩ := h.2 found hfound
    have hfoundId : found.id ≠ documentId := (Table.get_mem hfound).2 ▸ hne
    refine ⟨hsame, fun roleId => (hallowed roleId).trans ?_⟩
    rw [State.mem_allowedRoleIds, State.mem_allowedRoleIds, List.mem_filter, decide_eq_true_eq]
    exact (and_iff_left hfoundId).symm

/-- What a payload says, it says at the end of a task. -/
theorem Finished.agrees {point : Point} (h : Finished state phase state')
    (hphase : Relies state phase) (hpoint : point.Agrees state) : point.Agrees state' := by
  cases h with
  | upload hinsert => exact hpoint.upload hphase.1.1.2 hinsert
  | update => exact hpoint.setStatus _ _
  | delete => exact hpoint.delete
  | infect => exact hpoint.setStatus _ _
  | refuse => exact hpoint.setStatus _ _
  | index => exact hpoint.setStatus _ _
  | _ => exact hpoint

/-! ### The database -/

/-- A status is no part of what is known. -/
theorem Known.setStatus (h : Known state) (documentId : Uuid) (status : DocumentStatus) :
    Known (state.setStatus documentId status) := by
  refine ⟨h.created, fun document hdocument => ?_, h.acl, fun row hrow => ?_,
    fun point hpoint => (h.points point hpoint).setStatus documentId status,
    fun cleanup hcleanup => ?_⟩
  · obtain ⟨old, hold, hsame⟩ := State.setStatus_get (Table.get_eq_some.mpr ⟨hdocument, rfl⟩)
    obtain ⟨⟨hcreated, hkey⟩, hnamed⟩ := h.documents old (Table.get_mem hold).1
    have hid := congrArg Document.id hsame
    have hvisibility := congrArg Document.visibility hsame
    have hstorage := congrArg Document.storageKey hsame
    simp only [Document.asUploaded] at hid hvisibility hstorage
    refine ⟨⟨hid ▸ hcreated, hstorage ▸ hid ▸ hkey⟩, fun hrestricted => ?_⟩
    rw [← hid]
    exact hnamed (hvisibility.trans hrestricted)
  · obtain ⟨document, hdocument, htenant⟩ := h.chunks row hrow
    have hsame := congrArg Document.tenantId (asUploaded_ite document documentId status)
    rw [State.get_setStatus, hdocument]
    exact ⟨_, rfl, hsame.trans htenant⟩
  · obtain ⟨hcreated, hnone, hkey⟩ := h.cleanups cleanup hcleanup
    refine ⟨hcreated, ?_, hkey⟩
    rw [State.get_setStatus, hnone, Option.map_none]

/-- A new document. -/
theorem Known.upload {document : Document} {roleIds : List Uuid} {documents : Table Document.id}
    (h : Known state) (hfresh : Fresh state document) (hnamed : document.Named roleIds)
    (hinsert : state.documents.insert document = some documents) :
    Known { state with
      documents := documents
      acl := state.acl ++ roleIds.map fun roleId => ⟨document.id, roleId⟩
      created := state.created ++ [document.id] } := by
  obtain ⟨⟨hdrawn, hnew⟩, hkey⟩ := hfresh
  have hget := Table.get_insert hinsert
  -- The document is none of those that anything is known of.
  have hother : ∀ id ∈ state.created, documents.get id = state.documents.get id := by
    intro id hid
    have hne : id ≠ document.id := fun heq => hnew (heq ▸ hid)
    rw [hget, if_neg hne]
  have hroles : ∀ id ∈ state.created, ∀ roleId,
      ⟨id, roleId⟩ ∈ state.acl ++ roleIds.map (fun roleId => DocumentAcl.mk document.id roleId) ↔
        ⟨id, roleId⟩ ∈ state.acl := by
    intro id hid roleId
    rw [List.mem_append, or_iff_left]
    intro hmem
    obtain ⟨_, -, heq⟩ := List.mem_map.mp hmem
    have hids : document.id = id := congrArg DocumentAcl.documentId heq
    exact hnew (hids ▸ hid)
  refine ⟨fun id hid => ?_, fun found hfound => ?_, fun row hrow => ?_, fun row hrow => ?_,
    fun point hpoint => (h.points point hpoint).upload hnew hinsert, fun cleanup hcleanup => ?_⟩
  · rcases List.mem_append.mp hid with hid | hid
    · exact h.created id hid
    · exact List.mem_singleton.mp hid ▸ hdrawn
  · rw [(Table.insert_eq_some hinsert).1, List.mem_append, List.mem_singleton] at hfound
    rcases hfound with hfound | rfl
    · obtain ⟨⟨hcreated, hstorage⟩, hnames⟩ := h.documents found hfound
      refine ⟨⟨List.mem_append_left _ hcreated, hstorage⟩, fun hrestricted => ?_⟩
      obtain ⟨roleId, hrole⟩ := hnames hrestricted
      refine ⟨roleId, State.mem_allowedRoleIds.mpr ?_⟩
      exact (hroles _ hcreated roleId).mpr (State.mem_allowedRoleIds.mp hrole)
    · refine ⟨⟨List.mem_append_right _ (List.mem_singleton.mpr rfl), hkey⟩, fun hrestricted => ?_⟩
      obtain ⟨roleId, hrole⟩ := hnamed hrestricted
      refine ⟨roleId, State.mem_allowedRoleIds.mpr ?_⟩
      exact List.mem_append_right _ (List.mem_map.mpr ⟨roleId, hrole, rfl⟩)
  · rcases List.mem_append.mp hrow with hrow | hrow
    · exact List.mem_append_left _ (h.acl row hrow)
    · obtain ⟨_, -, rfl⟩ := List.mem_map.mp hrow
      exact List.mem_append_right _ (List.mem_singleton.mpr rfl)
  · obtain ⟨owner, howner, htenant⟩ := h.chunks row hrow
    refine ⟨owner, ?_, htenant⟩
    have hmem := Table.get_mem howner
    exact (hother _ (hmem.2 ▸ (h.documents owner hmem.1).1.1)).trans howner
  · obtain ⟨hcreated, hnone, hstorage⟩ := h.cleanups cleanup hcleanup
    exact ⟨List.mem_append_left _ hcreated, (hother _ hcreated).trans hnone, hstorage⟩

/-- A document goes, with its chunks and its access rows. -/
theorem Known.delete {document : Document} (h : Known state) (hread : Read state document) :
    Known { state with
      documents := state.documents.erase document.id
      chunks := state.chunks.filter (·.documentId ≠ document.id)
      acl := state.acl.filter (·.documentId ≠ document.id)
      cleanups := state.cleanups ++ [⟨document.tenantId, document.id, document.storageKey⟩] } := by
  have hroles : ∀ id, id ≠ document.id → ∀ roleId,
      ⟨id, roleId⟩ ∈ state.acl.filter (·.documentId ≠ document.id) ↔ ⟨id, roleId⟩ ∈ state.acl := by
    intro id hne roleId
    rw [List.mem_filter, decide_eq_true_eq]
    exact and_iff_left hne
  refine ⟨h.created, fun found hfound => ?_, fun row hrow => ?_, fun row hrow => ?_,
    fun point hpoint => (h.points point hpoint).delete, fun cleanup hcleanup => ?_⟩
  · obtain ⟨hmem, hne⟩ := Table.mem_erase.mp hfound
    obtain ⟨hcreated, hnames⟩ := h.documents found hmem
    refine ⟨hcreated, fun hrestricted => ?_⟩
    obtain ⟨roleId, hrole⟩ := hnames hrestricted
    refine ⟨roleId, State.mem_allowedRoleIds.mpr ?_⟩
    exact (hroles _ hne roleId).mpr (State.mem_allowedRoleIds.mp hrole)
  · exact h.acl row (List.mem_filter.mp hrow).1
  · obtain ⟨hmem, hne⟩ := Table.mem_filter.mp hrow
    obtain ⟨owner, howner, htenant⟩ := h.chunks row hmem
    exact ⟨owner, (Table.get_erase _ _ _).trans ((if_neg (of_decide_eq_true hne)).trans howner),
      htenant⟩
  · rcases List.mem_append.mp hcleanup with hold | hnew
    · obtain ⟨hcreated, hnone, hkey⟩ := h.cleanups cleanup hold
      refine ⟨hcreated, ?_, hkey⟩
      rw [Table.get_erase, hnone, ite_self]
    · cases List.mem_singleton.mp hnew
      exact ⟨hread.1.1, (Table.get_erase _ _ _).trans (if_pos rfl), hread.1.2⟩

/-- The chunks of a document that is held are replaced. -/
theorem Known.index {document : Document} {passages : List Passage} (h : Known state)
    (hheld : Held state document) :
    Known { state.setStatus document.id .indexed with
      chunks := (state.chunks.filter (·.documentId ≠ document.id)).putAll
        (chunkRows document passages) } := by
  have hset := h.setStatus document.id .indexed
  refine ⟨hset.created, hset.documents, hset.acl, fun row hrow => ?_, hset.points, hset.cleanups⟩
  rcases Table.mem_putAll hrow with hnew | hold
  · obtain ⟨_, -, rfl⟩ := List.mem_map.mp hnew
    have hup := (state.uploaded_setStatus document.id .indexed document.id).trans hheld.1
    obtain ⟨current, hcurrent, hsame⟩ := Option.map_eq_some_iff.mp hup
    have htenant := congrArg Document.tenantId hsame
    exact ⟨current, hcurrent, htenant⟩
  · exact hset.chunks row (Table.mem_filter.mp hold).1

theorem Finished.known (h : Finished state phase state') (hknown : Known state)
    (hphase : Relies state phase) : Known state' := by
  cases h with
  | «over» => exact hknown
  | upload hinsert => exact hknown.upload hphase.1 hphase.2 hinsert
  | update => exact hknown.setStatus _ _
  | delete => exact hknown.delete hphase
  | clean => exact ⟨hknown.created, hknown.documents, hknown.acl, hknown.chunks, hknown.points,
      hknown.cleanups⟩
  | infect => exact hknown.setStatus _ _
  | refuse => exact hknown.setStatus _ _
  | index => exact hknown.index hphase
  | sweep =>
      exact ⟨hknown.created, hknown.documents, hknown.acl, hknown.chunks,
        fun point hpoint => hknown.points point (Table.mem_filter.mp hpoint).1, hknown.cleanups⟩

/-- What another task relies on, when a document comes that this one has locked. -/
theorem Relies.upload {document : Document} {documents : Table Document.id} {acl : List DocumentAcl}
    {other : Phase} (hother : Relies state other) (hknown : Known state)
    (hfresh : Fresh state document) (hfree : (document.id, .update) ∉ locks other)
    (hinsert : state.documents.insert document = some documents) :
    Relies { state with
      documents := documents
      acl := acl
      created := state.created ++ [document.id] } other := by
  have huploaded : ∀ id ∈ state.created,
      documents.get id = state.documents.get id := by
    intro id hid
    have hne : id ≠ document.id := fun heq => hfresh.1.2 (heq ▸ hid)
    rw [Table.get_insert hinsert, if_neg hne]
  refine hother.of_kinds ?_ ?_ ?_ ?_ ?_
  · rintro other hlocked ⟨⟨hlt, hnot⟩, hkey⟩
    refine ⟨⟨hlt, fun hmem => ?_⟩, hkey⟩
    rcases List.mem_append.mp hmem with hmem | hmem
    · exact hnot hmem
    · exact hfree (List.mem_singleton.mp hmem ▸ hlocked)
  · rintro other ⟨⟨hmem, hkey⟩, hsame⟩
    refine ⟨⟨List.mem_append_left _ hmem, hkey⟩, fun uploaded hup => hsame uploaded ?_⟩
    rw [State.uploaded, huploaded _ hmem] at hup
    exact hup
  · rintro other - hheld
    obtain ⟨current, hget, -⟩ := hheld.get
    have hcurrent := Table.get_mem hget
    have hmem := hcurrent.2 ▸ (hknown.documents current hcurrent.1).1.1
    exact ⟨(congrArg (Option.map _) (huploaded _ hmem)).trans hheld.1, hheld.2⟩
  · rintro cleanup ⟨hmem, hnone, hkey⟩
    exact ⟨List.mem_append_left _ hmem, (huploaded _ hmem).trans hnone, hkey⟩
  · rintro tenantId key ⟨hmem, htenant⟩
    refine ⟨List.mem_append_left _ hmem, fun uploaded hup => htenant uploaded ?_⟩
    rw [State.uploaded, huploaded _ hmem] at hup
    exact hup

/-- What another task relies on, when a document goes that this one has locked. -/
theorem Relies.delete {document : Document} {chunks : Table DocumentChunk.key}
    {acl : List DocumentAcl} {cleanups : List Cleanup} {other : Phase} (hother : Relies state other)
    (hfree : (document.id, .noKeyUpdate) ∉ locks other) :
    Relies { state with
      documents := state.documents.erase document.id
      chunks := chunks
      acl := acl
      cleanups := cleanups } other := by
  refine hother.of_kinds ?_ ?_ ?_ ?_ ?_
  · rintro other - hfresh
    exact hfresh
  · rintro other ⟨hmem, hsame⟩
    refine ⟨hmem, fun uploaded hup => hsame uploaded ?_⟩
    rw [State.uploaded, Table.get_erase] at hup
    split at hup
    next => cases hup
    next => exact hup
  · rintro other hlocked ⟨hup, hkey⟩
    have hne : other.id ≠ document.id := fun heq => hfree (heq ▸ hlocked)
    refine ⟨?_, hkey⟩
    rw [State.uploaded, Table.get_erase, if_neg hne]
    exact hup
  · rintro cleanup ⟨hmem, hnone, hkey⟩
    refine ⟨hmem, ?_, hkey⟩
    rw [Table.get_erase, hnone, ite_self]
  · rintro tenantId key ⟨hmem, htenant⟩
    refine ⟨hmem, fun uploaded hup => htenant uploaded ?_⟩
    rw [State.uploaded, Table.get_erase] at hup
    split at hup
    next => cases hup
    next => exact hup

theorem Finished.relies {other : Phase} (h : Finished state phase state') (hknown : Known state)
    (hphase : Relies state phase) (hother : Relies state other)
    (hfree : locksConflict (locks other) (locks phase) = false) : Relies state' other := by
  rw [locksConflict_symm] at hfree
  cases h with
  | upload hinsert =>
      have hnot := notMem_of_conflicts hfree (.head _) (LockMode.conflicts_update .update)
      exact hother.upload hknown hphase.1 hnot hinsert
  | delete => exact hother.delete (notMem_of_conflicts hfree (.head _) (LockMode.conflicts_update _))
  | update => exact hother.of_same (State.uploaded_setStatus _ _ _) rfl le_rfl
  | infect => exact hother.of_same (State.uploaded_setStatus _ _ _) rfl le_rfl
  | refuse => exact hother.of_same (State.uploaded_setStatus _ _ _) rfl le_rfl
  | index => exact hother.of_same (State.uploaded_setStatus _ _ _) rfl le_rfl
  | _ => exact hother.of_same (fun _ => rfl) rfl le_rfl

/-! ## Runs -/

/-- An upload that is restricted names a role. -/
theorem checkUpload_named {settings : Settings} {context : TenantContext} {payload : Upload}
    (h : checkUpload services settings context payload = .ok ())
    (hrestricted : payload.visibility = .roleRestricted) :
    ∃ roleId, roleId ∈ payload.roleIds := by
  refine List.exists_mem_of_ne_nil _ fun hnil => ?_
  simp only [checkUpload, if_pos (And.intro hrestricted hnil)] at h
  split_ifs at h
  split at h
  next => cases h
  next => cases h

/-- A task begins with what it has read. -/
theorem start_relies (hknown : Known state) (task : Task) :
    Relies state (start services state task) := by
  have hread : ∀ {tenantId documentId : Uuid} {document : Document},
      state.find tenantId documentId = some document → Read state document := by
    intro tenantId documentId document hfind
    obtain ⟨hget, -⟩ := State.find_eq_some.mp hfind
    have hmem := Table.get_mem hget
    refine ⟨(hknown.documents document hmem.1).1, fun uploaded hup => ?_⟩
    rw [State.uploaded, hmem.2, hget] at hup
    exact (Option.some.inj hup).symm
  have hgot : ∀ {context : TenantContext} {documentId : Uuid} {document : Document},
      state.getDocument context documentId = .ok document → Read state document := by
    intro context documentId document hok
    unfold State.getDocument at hok
    split at hok
    next => cases hok
    next found hfind =>
      split at hok
      · cases hok
        exact hread hfind
      · cases hok
  cases task with
  | upload settings context payload =>
      simp only [start]
      split
      next => trivial
      next hok => exact checkUpload_named hok
  | reindex context documentId =>
      simp only [start]
      split
      next => trivial
      next document hok =>
        split
        · trivial
        · exact ⟨hgot hok, nofun⟩
  | delete context documentId =>
      simp only [start]
      split
      next => trivial
      next document hok => exact hgot hok
  | cleanup cleanup =>
      simp only [start]
      split
      next hmem => exact hknown.cleanups cleanup hmem
      next => trivial
  | index settings tenantId documentId =>
      simp only [start]
      split
      next => trivial
      next document hfind => exact hread hfind
  | markFailed tenantId documentId =>
      simp only [start]
      split
      next => trivial
      next document hfind =>
        split
        · trivial
        · exact ⟨hread hfind, nofun⟩
  | reconcile tenantId => exact List.forall_mem_nil _

theorem documents_sound (services : Services) : (documents services).Sound (fun _ _ => True) Known Relies where
  start _ task h := start_relies h task
  run _ _ _ _ _ h hphase hrun := ⟨(run_cases hrun).known h hphase, (run_cases hrun).next h hphase⟩
  run_stable _ _ _ _ _ _ _ _ hother hrun := (run_cases hrun).relies hother
  finish _ _ _ h hphase _ hfinish := (finish_cases hfinish).known h hphase
  finish_stable _ _ _ _ h hphase _ hother hfree hfinish :=
    (finish_cases hfinish).relies h hphase hother hfree

theorem Known.empty : Known .empty :=
  ⟨List.forall_mem_nil _, List.forall_mem_nil _, List.forall_mem_nil _, List.forall_mem_nil _,
    List.forall_mem_nil _, List.forall_mem_nil _⟩

end Nexora.Documents
