import Nteract.Automerge
import Nteract.Lib.Table

namespace Nteract.Store

open Lib Lib.Bytes Recovery

abbrev DocumentId := Uuid

def HASH_BYTES : Nat := 32
def I64_MAX : Nat := 2 ^ 63 - 1

inductive ChunkKind
  | Snapshot
  | Incremental
deriving DecidableEq

-- Hashes do not collide, no change is its own ancestor, neither a change nor a saved document is
-- empty. What a document accepts, every part of it accepts too.
structure Backend (Key : Type) extends Automerge where
  rawBytes : ChangeHash → Bytes
  changeOf : Bytes → Except String ChangeHash
  sha256 : Bytes → Key
  changeOf_rawBytes : ∀ change, changeOf (rawBytes change) = .ok change
  sha256_injective : Function.Injective sha256
  acyclic : WellFounded fun dep change : ChangeHash => dep ∈ deps change
  rawBytes_ne : ∀ change, rawBytes change ≠ []
  save_ne : ∀ document, save document ≠ []
  refuses_mono : ∀ document changes part new, refuses document changes = none →
    part ∪ new ⊆ document ∪ changes → refuses part new = none

inductive StoreError (Key : Type)
  | Sqlite (error : String)
  | Automerge (error : String)
  | InvalidSuppliedSnapshot (error : String)
  | InvalidStoredDocument (error : String)
  | InvalidStoredChange (error : String)
  | DocumentNotFound (documentId : DocumentId)
  | MissingChunks (documentId : DocumentId)
  | InvalidHeadsEncoding (documentId : DocumentId) (actual : Nat)
  | DuplicateDurableHeads (documentId : DocumentId)
  | SnapshotHeadsMismatch
  | InstallConflict (documentId : DocumentId)
  | DurableHeadsMismatch (documentId : DocumentId)
  | ChunkChecksumMismatch (documentId : DocumentId) (chunkKey : Key)
  | ChunkKeyMismatch (documentId : DocumentId) (chunkKey : Key)
  | SequenceExhausted (documentId : DocumentId)
deriving DecidableEq

structure DocumentRow where
  sequence : Nat
  durableHeads : Bytes
  applicationState : Bytes
deriving DecidableEq

-- The primary key of the table chunks, and the rest of the row.
structure ChunkId (Key : Type) where
  documentId : DocumentId
  kind : ChunkKind
  key : Key
deriving DecidableEq

structure ChunkRow (Key : Type) where
  checksum : Key
  bytes : Bytes
deriving DecidableEq

structure Database (Key : Type) where
  documents : Table DocumentId DocumentRow
  chunks : Table (ChunkId Key) (ChunkRow Key)
deriving DecidableEq

def Database.empty {Key : Type} : Database Key := ⟨.empty, .empty⟩

structure StoredDocument where
  snapshot : Bytes
  durableHeads : List ChangeHash
  applicationState : Bytes
  sequence : Nat
deriving DecidableEq

structure LoadedDocument (Key : Type) where
  document : Document
  durableHeads : List ChangeHash
  applicationState : Bytes
  sequence : Nat
  sourceChunks : List (ChunkKind × Key)

structure CommitReceipt where
  durableHeads : List ChangeHash
  sequence : Nat
  newlyPersisted : Bool
deriving DecidableEq

structure CompactionReceipt where
  durableHeads : List ChangeHash
  removedChunks : Nat
  deferredForMissingDependencies : Bool
deriving DecidableEq

-- An error that stops the call before it has read, and one when it writes or commits.
structure Faults where
  start : Option String
  finish : Option String
deriving DecidableEq

def canonicalHeads (heads : List ChangeHash) : List ChangeHash := sortUnstable heads

def encodeHeads (heads : List ChangeHash) : Bytes := (canonicalHeads heads).flatMap digestBytes

variable {Key : Type}

def sqlite : Option String → Except (StoreError Key) Unit
  | some error => .error (.Sqlite error)
  | none => .ok ()

def decodeHeads (documentId : DocumentId) (bytes : Bytes) :
    Except (StoreError Key) (List ChangeHash) :=
  if bytes.length % HASH_BYTES ≠ 0 then
    .error (.InvalidHeadsEncoding documentId bytes.length)
  else
    let heads := readDigests (bytes.length / HASH_BYTES) bytes
    if (heads.zip heads.tail).any fun pair => pair.1 ≥ pair.2 then
      .error (.DuplicateDurableHeads documentId)
    else
      .ok heads

def nextSequence (documentId : DocumentId) (current : Nat) : Except (StoreError Key) Nat :=
  if current + 1 ≤ I64_MAX then .ok (current + 1) else .error (.SequenceExhausted documentId)

namespace Backend

variable (backend : Backend Key)

def headsHash (heads : List ChangeHash) : Key := backend.sha256 (encodeHeads heads)

-- An empty document takes over what the bytes hold, any other one applies it.
def loadIncremental (document : Document) (bytes : Bytes) : Except String Document :=
  match backend.load bytes with
  | .error error => .error error
  | .ok changes => if document = ∅ then .ok changes else backend.applyChanges document changes

end Backend

section Database

variable [LinearOrder Key] (backend : Backend Key) (faults : Faults) (database : Database Key)
  (documentId : DocumentId)

-- A row that fails the check length(bytes) > 0 is skipped without an error.
def insertChunk (kind : ChunkKind) (key checksum : Key) (bytes : Bytes) (database : Database Key) :
    Database Key :=
  if bytes = [] then
    database
  else
    { database with chunks := database.chunks.add ⟨documentId, kind, key⟩ ⟨checksum, bytes⟩ }

def insertIncrementalChunk (bytes : Bytes) (database : Database Key) : Database Key :=
  insertChunk documentId .Incremental (backend.sha256 bytes) (backend.sha256 bytes) bytes database

def insertSnapshotChunk (bytes : Bytes) (heads : List ChangeHash) (database : Database Key) :
    Database Key :=
  insertChunk documentId .Snapshot (backend.headsHash heads) (backend.sha256 bytes) bytes database

def updateDocumentRow (sequence : Nat) (durableHeads : List ChangeHash) (applicationState : Bytes)
    (database : Database Key) : Database Key :=
  { database with
    documents := database.documents.set documentId
      ⟨sequence, encodeHeads durableHeads, applicationState⟩ }

def deleteChunk (chunk : ChunkKind × Key) (database : Database Key) : Database Key :=
  { database with chunks := database.chunks.remove ⟨documentId, chunk.1, chunk.2⟩ }

def chunkRows (kind : ChunkKind) : List (ChunkId Key × ChunkRow Key) :=
  (database.chunks.entries.filter fun entry =>
    entry.1.documentId = documentId ∧ entry.1.kind = kind).insertionSort
      fun first second => first.1.key ≤ second.1.key

def loadChunk (document : Document) (chunk : ChunkId Key × ChunkRow Key) :
    Except (StoreError Key) Document :=
  let contentHash := backend.sha256 chunk.2.bytes
  if chunk.2.checksum ≠ contentHash then
    .error (.ChunkChecksumMismatch documentId chunk.1.key)
  else
    match chunk.1.kind with
    | .Snapshot =>
      match backend.load chunk.2.bytes with
      | .error error => .error (.InvalidStoredDocument error)
      | .ok snapshot =>
        if chunk.1.key ≠ backend.headsHash (canonicalHeads (backend.getHeads snapshot)) then
          .error (.ChunkKeyMismatch documentId chunk.1.key)
        else
          (backend.loadIncremental document chunk.2.bytes).mapError .InvalidStoredDocument
    | .Incremental =>
      if chunk.1.key ≠ contentHash then
        .error (.ChunkKeyMismatch documentId chunk.1.key)
      else
        match backend.changeOf chunk.2.bytes with
        | .error error => .error (.InvalidStoredChange error)
        | .ok change =>
          (backend.applyChanges document {change}).mapError .InvalidStoredDocument

-- Snapshots come before incremental chunks.
def loadDocument : Except (StoreError Key) (Option (LoadedDocument Key)) :=
  match database.documents.find documentId with
  | none => .ok none
  | some row => do
    let durableHeads ← decodeHeads documentId row.durableHeads
    let rows := chunkRows database documentId .Snapshot ++
      chunkRows database documentId .Incremental
    let document ← rows.foldlM (loadChunk backend documentId) ∅
    if rows = [] then
      .error (.MissingChunks documentId)
    else if canonicalHeads (backend.getHeads document) ≠ durableHeads then
      .error (.DurableHeadsMismatch documentId)
    else
      .ok (some
        { document, durableHeads,
          applicationState := row.applicationState
          sequence := row.sequence
          sourceChunks := rows.map fun chunk => (chunk.1.kind, chunk.1.key) })

def LoadedDocument.stored (loaded : LoadedDocument Key) : StoredDocument where
  snapshot := backend.save loaded.document
  durableHeads := loaded.durableHeads
  applicationState := loaded.applicationState
  sequence := loaded.sequence

def load : Except (StoreError Key) (Option StoredDocument) :=
  (loadDocument backend database documentId).map (Option.map (LoadedDocument.stored backend))

def loadInstalled : Except (StoreError Key) (LoadedDocument Key) :=
  match loadDocument backend database documentId with
  | .error error => .error error
  | .ok none => .error (.DocumentNotFound documentId)
  | .ok (some loaded) => .ok loaded

structure CommitRequest where
  documentId : DocumentId
  changes : List ChangeHash
  applicationState : Bytes
deriving DecidableEq

-- The changes of a batch, each once, that are neither applied nor stored as a chunk.
def missingChanges (changes : List ChangeHash) (loaded : LoadedDocument Key) :
    List ChangeHash :=
  (changes.eraseDups.filter fun change => !backend.getChangeByHash loaded.document change).filter
    fun change => (ChunkKind.Incremental, backend.sha256 (backend.rawBytes change)) ∉
      loaded.sourceChunks

def commit (request : CommitRequest) : Except (StoreError Key) (CommitReceipt × Database Key) := do
  sqlite faults.start
  let loaded ← loadInstalled backend database request.documentId
  let missing := missingChanges backend request.changes loaded
  if missing = [] ∧ loaded.applicationState = request.applicationState then
    .ok (⟨loaded.durableHeads, loaded.sequence, false⟩, database)
  else
    -- an empty batch leaves the document as it is
    let document ← (backend.applyChanges loaded.document missing.toFinset).mapError .Automerge
    let durableHeads := canonicalHeads (backend.getHeads document)
    let sequence ← nextSequence request.documentId loaded.sequence
    sqlite faults.finish
    let stored := missing.foldl (fun database change =>
      insertIncrementalChunk backend request.documentId (backend.rawBytes change) database) database
    .ok (⟨durableHeads, sequence, true⟩,
      updateDocumentRow request.documentId sequence durableHeads request.applicationState stored)

def installSnapshot (snapshot : Bytes) (heads : List ChangeHash) (applicationState : Bytes) :
    Except (StoreError Key) (CommitReceipt × Database Key) := do
  let candidate ← (backend.load snapshot).mapError .InvalidSuppliedSnapshot
  let actualHeads := canonicalHeads (backend.getHeads candidate)
  if actualHeads ≠ canonicalHeads heads then
    .error .SnapshotHeadsMismatch
  else
    sqlite faults.start
    match ← loadDocument backend database documentId with
    | some existing =>
      if existing.durableHeads = actualHeads ∧
          existing.applicationState = applicationState then
        .ok (⟨actualHeads, existing.sequence, false⟩, database)
      else
        .error (.InstallConflict documentId)
    | none =>
      let sequence ← nextSequence documentId 0
      sqlite faults.finish
      .ok (⟨actualHeads, sequence, true⟩,
        insertSnapshotChunk backend documentId snapshot actualHeads
          (updateDocumentRow documentId sequence actualHeads applicationState database))

-- Deletes one source chunk, unless it is the snapshot just written, and counts the row.
def removeSource (snapshotKey : Key) (state : Nat × Database Key) (chunk : ChunkKind × Key) :
    Nat × Database Key :=
  if chunk = (.Snapshot, snapshotKey) then
    state
  else
    let found := (state.2.chunks.find ⟨documentId, chunk.1, chunk.2⟩).isSome
    (state.1 + (if found then 1 else 0), deleteChunk documentId chunk state.2)

def removeSources (snapshotKey : Key) (sourceChunks : List (ChunkKind × Key))
    (database : Database Key) : Nat × Database Key :=
  sourceChunks.foldl (removeSource documentId snapshotKey) (0, database)

def compact : Except (StoreError Key) (CompactionReceipt × Database Key) := do
  sqlite faults.start
  let loaded ← loadInstalled backend database documentId
  if backend.getMissingDeps loaded.document [] ≠ [] then
    .ok (⟨loaded.durableHeads, 0, true⟩, database)
  else
    let inserted := insertSnapshotChunk backend documentId (backend.save loaded.document)
      loaded.durableHeads database
    let (removedChunks, compacted) := removeSources documentId
      (backend.headsHash loaded.durableHeads) loaded.sourceChunks inserted
    let _ ← loadInstalled backend compacted documentId
    sqlite faults.finish
    .ok (⟨loaded.durableHeads, removedChunks, false⟩, compacted)

end Database

inductive StoreOp
  | InstallSnapshot (documentId : DocumentId) (snapshot : Bytes) (heads : List ChangeHash)
      (applicationState : Bytes)
  | Commit (request : CommitRequest)
  | Compact (documentId : DocumentId)
deriving DecidableEq

structure StoreCall where
  op : StoreOp
  faults : Faults
deriving DecidableEq

inductive Receipt
  | Commit (receipt : CommitReceipt)
  | Compaction (receipt : CompactionReceipt)
deriving DecidableEq

-- A call that fails drops its transaction, so the database is the one before it.
def settle {α : Type} (wrap : α → Receipt) (database : Database Key) :
    Except (StoreError Key) (α × Database Key) → Except (StoreError Key) Receipt × Database Key
  | .error error => (.error error, database)
  | .ok (receipt, after) => (.ok (wrap receipt), after)

variable [LinearOrder Key] (backend : Backend Key)

def perform (database : Database Key) (call : StoreCall) :
    Except (StoreError Key) Receipt × Database Key :=
  match call.op with
  | .InstallSnapshot documentId snapshot heads applicationState =>
    settle .Commit database
      (installSnapshot backend call.faults database documentId snapshot heads applicationState)
  | .Commit request => settle .Commit database (commit backend call.faults database request)
  | .Compact documentId =>
    settle .Compaction database (compact backend call.faults database documentId)

def performAll (database : Database Key) (calls : List StoreCall) : Database Key :=
  calls.foldl (fun database call => (perform backend database call).2) database

end Nteract.Store
