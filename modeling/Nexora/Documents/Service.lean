import Nexora.Documents.Tables
import Nexora.Foundations.Interleaving

/-!
# The documents service

`app/modules/documents/service.py`, `vector_store.py` and the tasks of `app/workers/tasks/documents.py`
as interleaved transactions.  The stores are written at once, the database at the commit, and a task
can end anywhere in between: an exception or a crash is an `abort`.

`index` writes its document before it reads the file, so from there on it holds the row of the
document, and deletes, re-index requests and other runs of the same document wait.  The
reconciliation holds nothing.  It lists the vectors of a tenant page by page, then reads the rows of
the chunks, and deletes what it saw no row for.

What the scanner finds, and which points a page holds, are choices.  The text of a file is a
parameter: `pypdf` and the windows of `chunk_pages` decide it.
-/

namespace Nexora.Documents

open Nexora Foundations

/-! ## Uploads -/

structure Settings where
  documentMaxBytes : Nat
  antivirusEnabled : Bool
  ragChunkChars : Nat
  ragChunkOverlap : Nat

/-- What is not of this module: the roles, and what is read out of bytes. -/
structure Services where
  /-- The role is one of the tenant, or of the system. -/
  roleExists : Uuid → Uuid → Bool
  /-- `data.decode("utf-8")` returns. -/
  isUtf8 : Bytes → Bool
  /-- `extract` and `chunk_pages`: the message of an `ExtractionError`, or the chunks in their order. -/
  passages : Settings → String → Bytes → Except String (List Passage)

/-- The arguments of `upload`. -/
structure Upload where
  filename : String
  contentType : String
  data : Bytes
  title : Option String
  visibility : DocumentVisibility
  roleIds : List Uuid

/-- `SUPPORTED_CONTENT_TYPES`. -/
def supportedContentTypes : List String :=
  ["application/pdf", "text/plain", "text/markdown", "text/csv"]

/-- `_PDF_MAGIC`. -/
def pdfMagic : Bytes := "%PDF-".toList.map fun c => c.toNat.toUInt8

/-- `sniff_and_validate`, with the message of a `ContentTypeMismatch`. -/
def sniffAndValidate (services : Services) (contentType : String) (data : Bytes) :
    Except String Unit :=
  if contentType = "application/pdf" then
    if pdfMagic.isPrefixOf data then .ok ()
    else .error "The file is not a PDF (missing %PDF- signature)."
  else if contentType ∈ supportedContentTypes ∧ services.isUtf8 data = false then
    .error s!"The file is not valid UTF-8 text, but was declared as {contentType}."
  else .ok ()

/-- What `upload` checks. -/
def checkUpload (services : Services) (settings : Settings) (context : TenantContext)
    (payload : Upload) : Except Err Unit :=
  let limit := settings.documentMaxBytes
  let contentType := payload.contentType
  if payload.data = [] then .error (.app ⟨"DOCUMENT_EMPTY", "The uploaded file is empty.", 422⟩)
  else if limit < payload.data.length then
    .error (.app ⟨"DOCUMENT_TOO_LARGE", s!"Documents are limited to {limit} bytes.", 413⟩)
  else if contentType ∉ supportedContentTypes then
    .error (.app ⟨"DOCUMENT_UNSUPPORTED_TYPE",
      s!"{contentType} is not a supported document type.", 415⟩)
  else
    match sniffAndValidate services contentType payload.data with
    | .error message => .error (.app ⟨"DOCUMENT_CONTENT_TYPE_MISMATCH", message, 415⟩)
    | .ok () =>
        if payload.visibility = .roleRestricted ∧ payload.roleIds = [] then
          .error (.app ⟨"DOCUMENT_ACL_REQUIRED",
            "A role-restricted document must name at least one role.", 422⟩)
        else if payload.visibility = .tenant ∧ payload.roleIds ≠ [] then
          .error (.app ⟨"DOCUMENT_ACL_UNEXPECTED",
            "Roles may only be attached to a role-restricted document.", 422⟩)
        else if payload.roleIds.any fun roleId => !services.roleExists context.tenantId roleId then
          .error (.app ⟨"DOCUMENT_ACL_INVALID_ROLE",
            "One or more roles do not exist in this organization.", 422⟩)
        else .ok ()

/-- The row of an upload. -/
def Upload.document (payload : Upload) (context : TenantContext) (id : Uuid) : Document where
  id := id
  tenantId := context.tenantId
  title := String.ofList (((payload.title.filter (· ≠ "")).getD payload.filename).toList.take 255)
  contentType := payload.contentType
  storageKey := ⟨context.tenantId, id, safeName payload.filename⟩
  status := .pending
  visibility := payload.visibility

/-! ## Reads -/

/-- `_NOT_FOUND`. -/
def notFound : Err := .app ⟨"DOCUMENT_NOT_FOUND", "Document not found.", 404⟩

/-- `_visible`. -/
def State.visible (state : State) (context : TenantContext) (document : Document) : Bool :=
  document.visibility = .tenant ||
    (state.allowedRoleIds document.id).any (· ∈ context.roleIds)

/-- `get`. -/
def State.getDocument (state : State) (context : TenantContext) (documentId : Uuid) :
    Except Err Document :=
  match state.find context.tenantId documentId with
  | none => .error notFound
  | some document => if state.visible context document then .ok document else .error notFound

/-- A passage with its provenance, as `chunk` and `search` return it. -/
structure Citation where
  documentId : Uuid
  documentTitle : String
  chunkIndex : Nat
  passage : Passage
deriving DecidableEq

/-- `chunk`. -/
def chunk (context : TenantContext) (documentId : Uuid) (chunkIndex : Nat) (state : State) :
    Except Err Citation := do
  let document ← state.getDocument context documentId
  match (state.chunks.get (documentId, chunkIndex)).filter (·.tenantId = context.tenantId) with
  | none => .error notFound
  | some row => .ok ⟨document.id, document.title, row.chunkIndex, row.passage⟩

/-- A point that the collection returns for a query, and its score. -/
structure Hit where
  point : Point
  score : ℚ

/-- The filter of a query: `_tenant_condition` and `_visibility_conditions`. -/
def Point.matches (context : TenantContext) (point : Point) : Bool :=
  point.tenantId = context.tenantId &&
    (point.visibility = .tenant || point.allowedRoleIds.any (· ∈ context.roleIds))

/-- `TenantVectorStore.search`, of what the collection answers. -/
def storeSearch (context : TenantContext) (response : List Hit) : List Hit :=
  response.filter (·.point.tenantId = context.tenantId)

/-- The rows of some documents, with the titles of these. -/
def State.passagesOf (state : State) (tenantId : Uuid) (documentIds : List Uuid) :
    List (DocumentChunk × String) :=
  state.chunks.rows.filterMap fun row =>
    if row.tenantId = tenantId ∧ row.documentId ∈ documentIds then
      (state.find tenantId row.documentId).map fun document => (row, document.title)
    else none

/-- `search`, of what the collection answers: the results with their scores. -/
def search (context : TenantContext) (response : List Hit) (state : State) : List (Citation × ℚ) :=
  let hits := storeSearch context response
  let rows := state.passagesOf context.tenantId (hits.map (·.point.documentId))
  -- A vector without a row is an orphan.
  hits.filterMap fun hit => (rows.find? (·.1.key = hit.point.key)).map fun (row, title) =>
    (⟨row.documentId, title, row.chunkIndex, row.passage⟩, hit.score)

/-! ## Tasks -/

/-- Requests, and the tasks of the worker. -/
inductive Task where
  | upload (settings : Settings) (context : TenantContext) (payload : Upload)
  /-- `mark_pending_for_reindex`. -/
  | reindex (context : TenantContext) (documentId : Uuid)
  | delete (context : TenantContext) (documentId : Uuid)
  | cleanup (cleanup : Cleanup)
  | index (settings : Settings) (tenantId documentId : Uuid)
  /-- `_mark_failed`. -/
  | markFailed (tenantId documentId : Uuid)
  /-- The pass of `_reconcile_once` over one tenant. -/
  | reconcile (tenantId : Uuid)

/-- Where a task stands. -/
inductive Phase where
  /-- It has raised, or there is nothing to do. -/
  | over
  | checked (context : TenantContext) (payload : Upload)
  /-- The row is inserted. -/
  | uploading (document : Document) (payload : Upload)
  /-- The file is stored. -/
  | uploaded (document : Document) (roleIds : List Uuid)
  /-- A status is assigned to the document that was read. -/
  | updating (document : Document) (status : DocumentStatus)
  /-- The status is flushed. -/
  | updated (documentId : Uuid) (status : DocumentStatus)
  | deleting (document : Document)
  | deleted (document : Document)
  | cleaning (cleanup : Cleanup)
  | cleaned (cleanup : Cleanup)
  /-- `index` has read the document. -/
  | loaded (settings : Settings) (document : Document)
  /-- `PENDING_SCAN` is flushed. -/
  | scanning (settings : Settings) (document : Document)
  | infected (document : Document)
  /-- `EXTRACTING` is flushed, with the file if it was read. -/
  | extracting (settings : Settings) (document : Document) (data : Option Bytes)
  | unreadable (document : Document)
  | replacing (document : Document) (passages : List Passage)
  /-- The old vectors are deleted. -/
  | cleared (document : Document) (passages : List Passage)
  /-- The new vectors are written. -/
  | written (document : Document) (passages : List Passage)
  /-- The keys that were listed. -/
  | listing (tenantId : Uuid) (keys : List (Uuid × Nat))
  | sweeping (orphans : List (Uuid × Nat))

inductive Choice where
  | next
  /-- The verdict of the scanner. -/
  | verdict (clean : Bool)
  /-- The next page of the collection. -/
  | page (keys : List (Uuid × Nat))

def start (services : Services) (state : State) : Task → Phase
  | .upload settings context payload =>
      match checkUpload services settings context payload with
      | .error _ => .over
      | .ok () => .checked context payload
  | .reindex context documentId =>
      match state.getDocument context documentId with
      | .error _ => .over
      -- An attribute that keeps its value is not written.
      | .ok document => if document.status = .pending then .over else .updating document .pending
  | .delete context documentId =>
      match state.getDocument context documentId with
      | .error _ => .over
      | .ok document => .deleting document
  | .cleanup cleanup => if cleanup ∈ state.cleanups then .cleaning cleanup else .over
  | .index settings tenantId documentId =>
      match state.find tenantId documentId with
      | none => .over
      | some document => .loaded settings document
  | .markFailed tenantId documentId =>
      match state.find tenantId documentId with
      | none => .over
      | some document =>
          if document.status = .indexed ∨ document.status = .failed then .over
          else .updating document .failed
  | .reconcile tenantId => .listing tenantId []

/-- The chunks of a run, as rows. -/
def chunkRows (document : Document) (passages : List Passage) : List DocumentChunk :=
  passages.zipIdx.map fun (passage, i) => ⟨document.id, i, document.tenantId, passage⟩

/-- The chunks of a run, as points. -/
def State.pointsOf (state : State) (document : Document) (passages : List Passage) : List Point :=
  passages.zipIdx.map fun (_, i) =>
    ⟨document.id, i, document.tenantId, document.visibility, state.allowedRoleIds document.id⟩

/-- `TenantVectorStore.delete_document`. -/
def State.deletePoints (state : State) (tenantId documentId : Uuid) : State :=
  { state with
    points := state.points.filter fun point =>
      ¬(point.tenantId = tenantId ∧ point.documentId = documentId) }

/-- The keys of `document_chunks` that the reconciliation compares with. -/
def State.existing (state : State) (tenantId : Uuid) (keys : List (Uuid × Nat)) :
    List (Uuid × Nat) :=
  (state.chunks.rows.filter fun row =>
    row.tenantId = tenantId ∧ row.documentId ∈ keys.map Prod.fst).map DocumentChunk.key

/-- The keys that have no row. -/
def State.missing (state : State) (tenantId : Uuid) (keys : List (Uuid × Nat)) :
    List (Uuid × Nat) :=
  keys.filter (· ∉ state.existing tenantId keys)

/-- The next statement. -/
def run (services : Services) (state : State) : Phase → Choice → Option (State × Phase)
  | .checked context payload, .next =>
      some ({ state with drawn := state.drawn + 1 },
        .uploading (payload.document context state.drawn) payload)
  | .uploading document payload, .next =>
      some ({ state with files := state.files.put (document.storageKey, payload.data) },
        .uploaded document payload.roleIds.dedup)
  | .updating document status, .next =>
      some (state,
        if (state.documents.get document.id).isSome then .updated document.id status else .over)
  | .deleting document, .next => some (state, .deleted document)
  | .cleaning cleanup, .next =>
      some (state.deletePoints cleanup.tenantId cleanup.documentId, .cleaned cleanup)
  | .loaded settings document, .next =>
      some (state,
        if (state.documents.get document.id).isSome then
          if settings.antivirusEnabled then .scanning settings document
          else .extracting settings document none
        else .over)
  | .scanning settings document, .verdict clean =>
      match state.files.get document.storageKey with
      | none => some (state, .over)
      | some file =>
          if clean then some (state, .extracting settings document (some file.2))
          else some ({ state with files := state.files.erase document.storageKey },
            .infected document)
  | .extracting settings document data, .next =>
      match data.or ((state.files.get document.storageKey).map Prod.snd) with
      | none => some (state, .over)
      | some data =>
          match services.passages settings document.contentType data with
          | .error _ => some (state, .unreadable document)
          -- The document contained no indexable text.
          | .ok [] => some (state, .unreadable document)
          | .ok passages => some (state, .replacing document passages)
  | .replacing document passages, .next =>
      some (state.deletePoints document.tenantId document.id, .cleared document passages)
  | .cleared document passages, .next =>
      some ({ state with points := state.points.putAll (state.pointsOf document passages) },
        .written document passages)
  | .listing tenantId keys, .page more =>
      if ∀ key ∈ more, (state.points.get key).any (·.tenantId = tenantId) then
        some (state, .listing tenantId (keys ++ more))
      else none
  | .listing tenantId keys, .next =>
      some (state, .sweeping (state.missing tenantId keys))
  | _, _ => none

/-- The document has a new status. -/
def State.setStatus (state : State) (documentId : Uuid) (status : DocumentStatus) : State :=
  { state with
    documents := state.documents.modifyAt documentId
      (fun document => { document with status := status }) fun _ => rfl }

/-- The end of a task. -/
def finish (state : State) : Phase → Option State
  | .over => some state
  | .uploaded document roleIds =>
      (state.documents.insert document).map fun documents =>
        { state with
          documents := documents
          acl := state.acl ++ roleIds.map fun roleId => ⟨document.id, roleId⟩
          created := state.created ++ [document.id] }
  | .updated documentId status => some (state.setStatus documentId status)
  | .deleted document =>
      -- Chunks and access rows cascade.
      some { state with
        documents := state.documents.erase document.id
        chunks := state.chunks.filter (·.documentId ≠ document.id)
        acl := state.acl.filter (·.documentId ≠ document.id)
        cleanups := state.cleanups ++ [⟨document.tenantId, document.id, document.storageKey⟩] }
  | .cleaned cleanup => some { state with files := state.files.erase cleanup.storageKey }
  | .infected document | .unreadable document => some (state.setStatus document.id .failed)
  | .written document passages =>
      let chunks := (state.chunks.filter (·.documentId ≠ document.id)).putAll
        (chunkRows document passages)
      some { state.setStatus document.id .indexed with chunks := chunks }
  | .sweeping orphans =>
      some { state with points := state.points.filter (·.key ∉ orphans) }
  | _ => none

/-- The row of the document that a task has written, until it commits. -/
def locks : Phase → List (Uuid × LockMode)
  | .uploading document _ | .uploaded document _ | .deleted document => [(document.id, .update)]
  | .updated documentId _ => [(documentId, .noKeyUpdate)]
  | .scanning _ document | .infected document | .extracting _ document _ | .unreadable document
  | .replacing document _ | .cleared document _ | .written document _ =>
      [(document.id, .noKeyUpdate)]
  | _ => []

/-- The service and the worker. -/
def documents (services : Services) : Protocol State Task Phase Choice Uuid where
  start := start services
  run := run services
  finish := finish
  locks := locks

end Nexora.Documents
