import Nexora.Core.Context
import Nexora.Foundations.KeyedTable

/-!
# Documents, their chunks and their vectors

The tables of `app/modules/documents/models.py`, the points of `vector_store.py` and the objects of
`storage.py`, for all tenants: every tenant has its vectors in one collection.  The text of a chunk
is in its row, and the payload of its point says who may retrieve it.

The identifier of a point is derived from the document and the index of the chunk, and stands for
the two.  What no service reads back is left out: sizes, checksums, counts and times, the reasons of
failures, the attempts of `document_jobs`, and the vectors themselves.
-/

namespace Nexora.Documents

open Nexora Foundations

/-! ## Rows -/

inductive DocumentStatus where
  | pending
  | pendingScan
  | extracting
  | indexed
  | failed
deriving DecidableEq, Repr

inductive DocumentVisibility where
  | tenant
  | roleRestricted
deriving DecidableEq, Repr

abbrev Bytes := List UInt8

/-- `_safe_name`. -/
def safeName (filename : String) : String :=
  let cleaned := filename.toList.filter fun c => c.isAlphanum || c = '.' || c = '_' || c = '-'
  String.ofList ((if cleaned = [] then "document".toList else cleaned).take 120)

/-- `storage_key`, by its parts. -/
structure StorageKey where
  tenantId : Uuid
  documentId : Uuid
  name : String
deriving DecidableEq

/-- `Document`. -/
structure Document where
  id : Uuid
  tenantId : Uuid
  title : String
  contentType : String
  storageKey : StorageKey
  status : DocumentStatus
  visibility : DocumentVisibility
deriving DecidableEq

/-- `Chunk`, less its index, which is its position. -/
structure Passage where
  content : String
  page : Option Nat
  heading : Option String
deriving DecidableEq

/-- `DocumentChunk`. -/
structure DocumentChunk where
  documentId : Uuid
  chunkIndex : Nat
  tenantId : Uuid
  passage : Passage
deriving DecidableEq

/-- `uq_document_chunks_position`. -/
def DocumentChunk.key (chunk : DocumentChunk) : Uuid × Nat := (chunk.documentId, chunk.chunkIndex)

/-- `DocumentAcl`. -/
structure DocumentAcl where
  documentId : Uuid
  roleId : Uuid
deriving DecidableEq

/-- A point of the collection, with what its payload is filtered by. -/
structure Point where
  documentId : Uuid
  chunkIndex : Nat
  tenantId : Uuid
  visibility : DocumentVisibility
  allowedRoleIds : List Uuid
deriving DecidableEq

/-- `chunk_point_id`. -/
def Point.key (point : Point) : Uuid × Nat := (point.documentId, point.chunkIndex)

/-! ## State -/

/-- `documents.cleanup`, a task that is staged with the deletion of a document. -/
structure Cleanup where
  tenantId : Uuid
  documentId : Uuid
  storageKey : StorageKey
deriving DecidableEq

/-- The database, with the two stores that no transaction protects.  No statement reads the history:
the documents there were. -/
structure State where
  documents : Table Document.id
  chunks : Table DocumentChunk.key
  acl : List DocumentAcl
  cleanups : List Cleanup
  points : Table Point.key
  files : Table (Prod.fst : StorageKey × Bytes → StorageKey)
  /-- The identifiers that were drawn. -/
  drawn : Nat
  created : List Uuid

def State.empty : State := ⟨.empty _, .empty _, [], [], .empty _, .empty _, 0, []⟩

/-- `select(Document)` by its identifier, under the tenant guard. -/
def State.find (state : State) (tenantId documentId : Uuid) : Option Document :=
  (state.documents.get documentId).filter (·.tenantId = tenantId)

/-- `_allowed_role_ids`. -/
def State.allowedRoleIds (state : State) (documentId : Uuid) : List Uuid :=
  (state.acl.filter (·.documentId = documentId)).map (·.roleId)

theorem State.mem_allowedRoleIds {state : State} {documentId roleId : Uuid} :
    roleId ∈ state.allowedRoleIds documentId ↔ ⟨documentId, roleId⟩ ∈ state.acl := by
  unfold allowedRoleIds
  constructor
  · intro h
    obtain ⟨row, hrow, rfl⟩ := List.mem_map.mp h
    obtain ⟨hmem, howner⟩ := List.mem_filter.mp hrow
    rw [← of_decide_eq_true howner]
    exact hmem
  · intro h
    exact List.mem_map.mpr ⟨_, List.mem_filter.mpr ⟨h, by simp⟩, rfl⟩

theorem State.find_eq_some {state : State} {tenantId documentId : Uuid} {document : Document} :
    state.find tenantId documentId = some document ↔
      state.documents.get documentId = some document ∧ document.tenantId = tenantId := by
  rw [find, Option.filter_eq_some_iff, decide_eq_true_eq]

end Nexora.Documents
