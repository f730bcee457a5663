import Nteract.BlobStore
import Nteract.Lib.Text

namespace Nteract.BlobUpload

open Lib Function

open BlobStore (Bytes Hash Durability Fault Store)

def DEFAULT_MULTIPART_PART_SIZE : Nat := 8 * 1024 * 1024

def MAX_MULTIPART_PART_SIZE : Nat := 32 * 1024 * 1024

def MAX_PEER_STAGED_BYTES : Nat := 256 * 1024 * 1024

abbrev UploadId := String

inductive ErrorKind
  | SizeMismatch
  | HashMismatch
  | OverCap
  | TooManyInFlight
  | UnknownUpload
  | PartSizeMismatch
  | PartHashMismatch
  | DuplicatePartConflict
  | ManifestMismatch
  | FinalHashMismatch
  | OverPeerBudget
  | SessionExpired
  | Io (message : String)
deriving DecidableEq

inductive Response
  | BlobUploadCreated (uploadId : UploadId) (partSize : Nat) (expiresAt : Nat)
  | BlobPartStored (uploadId : UploadId) (partNumber : Nat) (sha256 : Hash)
  | BlobStored (hash : Hash) (size : Nat) (mediaType : String)
  | BlobUploadAborted (uploadId : UploadId)
  | BlobUploadError (reason : ErrorKind)
deriving DecidableEq

abbrev Path := UploadId × Nat

structure StagedPart where
  sha256 : Hash
  size : Nat
  path : Path
deriving DecidableEq

structure UploadSession where
  uploadId : UploadId
  mediaType : String
  expectedSize : Nat
  expectedSha256 : Option Hash
  partSize : Nat
  expiresAt : Nat
  parts : Table Nat StagedPart
  activePart : Bool
  completing : Bool

structure BlobUploadPart where
  partNumber : Nat
  sha256 : Hash
  size : Nat
deriving DecidableEq

structure CompletionPlan where
  uploadId : UploadId
  mediaType : String
  expectedSize : Nat
  expectedSha256 : Option Hash
  partPaths : List Path

-- A part whose file is being written. `written` is how the write went.
structure Writing where
  uploadId : UploadId
  partNumber : Nat
  size : Nat
  sha256 : Hash
  body : Bytes
  path : Path
  written : Option Bool

-- A completion under way. `finalHash` is the hash to store under once it is known.
structure Completion where
  manifest : List BlobUploadPart
  plan : CompletionPlan
  finalHash : Option Hash
  stored : Option (Except String Hash)

structure Acknowledgement where
  uploadId : UploadId
  partNumber : Nat
  body : Bytes
deriving DecidableEq

-- The uploads of one connection. Upload ids are fresh, so no other peer has the files.
-- `acknowledged`: the parts reported as stored.
structure Peer where
  uploads : Table UploadId UploadSession
  stagedBytes : Nat
  budgetBytes : Nat
  ttl : Nat
  files : Path → Option Bytes
  issued : List UploadId
  writing : Option Writing
  completing : Option Completion
  acknowledged : List Acknowledgement

def Peer.new (budgetBytes ttl : Nat) : Peer :=
  ⟨.empty, 0, budgetBytes, ttl, fun _ => none, [], none, none, []⟩

def UploadSession.stagedSize (upload : UploadSession) : Nat :=
  (upload.parts.entries.map fun entry => entry.2.size).sum

section Sessions

variable (peer : Peer) (uploadId : UploadId)

def Peer.removeUpload : Peer :=
  match peer.uploads.find uploadId with
  | some upload =>
    { peer with
      uploads := peer.uploads.remove uploadId
      stagedBytes := peer.stagedBytes - upload.stagedSize }
  | none => peer

def Peer.sweepExpired (now : Nat) : Peer :=
  (peer.uploads.entries.filter fun entry => entry.2.expiresAt ≤ now).foldl
    (fun peer entry => peer.removeUpload entry.1) peer

def isSha256Hex (hash : Hash) : Bool := BlobStore.validateHash hash

-- `fault`: the directory of the upload cannot be made.
def Peer.createBlobUpload (mediaType : String) (size : Nat) (sha256 : Option Hash)
    (partSize : Option Nat) (now : Nat) (fault : Bool) : Peer × Response :=
  let peer := peer.sweepExpired now
  let partSize := partSize.getD DEFAULT_MULTIPART_PART_SIZE
  if partSize = 0 ∨ MAX_MULTIPART_PART_SIZE < partSize then
    (peer, .BlobUploadError .OverCap)
  else if MAX_PEER_STAGED_BYTES < size then
    (peer, .BlobUploadError .OverPeerBudget)
  else if sha256.any fun hash => !isSha256Hex hash then
    (peer, .BlobUploadError .FinalHashMismatch)
  else if peer.uploads.entries ≠ [] ∨ peer.budgetBytes < peer.stagedBytes + size then
    (peer, .BlobUploadError .OverPeerBudget)
  else
    let expiresAt := now + peer.ttl
    let upload : UploadSession :=
      ⟨uploadId, mediaType, size, sha256, partSize, expiresAt, .empty, false, false⟩
    let registered :=
      { peer with
        uploads := peer.uploads.set uploadId upload
        issued := uploadId :: peer.issued }
    if fault then
      (registered.removeUpload uploadId, .BlobUploadError (.Io "create_dir_all failed"))
    else
      (registered, .BlobUploadCreated uploadId partSize expiresAt)

inductive PartBegin
  | Ready (path : Path)
  | AlreadyStored
  | Error (reason : ErrorKind)
deriving DecidableEq

def Peer.beginPartUpload (partNumber size : Nat) (sha256 : Hash) (now : Nat) : Peer × PartBegin :=
  match peer.uploads.find uploadId with
  | none => (peer, .Error .UnknownUpload)
  | some upload =>
    if upload.expiresAt ≤ now then
      (peer.removeUpload uploadId, .Error .SessionExpired)
    else if upload.activePart || upload.completing then
      (peer, .Error .OverPeerBudget)
    else if upload.partSize < size then
      (peer, .Error .PartSizeMismatch)
    else
      match upload.parts.find partNumber with
      | some existing =>
        if existing.sha256 = sha256 ∧ existing.size = size then
          (peer, .AlreadyStored)
        else
          (peer, .Error .DuplicatePartConflict)
      | none =>
        if peer.budgetBytes < peer.stagedBytes + size then
          (peer, .Error .OverPeerBudget)
        else
          ({ peer with uploads := peer.uploads.set uploadId { upload with activePart := true } },
            .Ready (uploadId, partNumber))

inductive PartFinish
  | Stored
  | Error (reason : ErrorKind)
deriving DecidableEq

def Peer.finishPartUpload (partNumber size : Nat) (sha256 : Hash) (path : Path)
    (writeSucceeded : Bool) : Peer × PartFinish :=
  match peer.uploads.find uploadId with
  | none => (peer, .Error .UnknownUpload)
  | some upload =>
    let idle := { upload with activePart := false }
    if !writeSucceeded then
      ({ peer with uploads := peer.uploads.set uploadId idle }, .Stored)
    else
      match upload.parts.find partNumber with
      | some existing =>
        let peer := { peer with uploads := peer.uploads.set uploadId idle }
        if existing.sha256 = sha256 ∧ existing.size = size then
          (peer, .Stored)
        else
          (peer, .Error .DuplicatePartConflict)
      | none =>
        ({ peer with
            uploads := peer.uploads.set uploadId
              { idle with parts := upload.parts.set partNumber ⟨sha256, size, path⟩ }
            stagedBytes := peer.stagedBytes + size }, .Stored)

-- The loop over the list of parts: the numbers seen, the size and the files so far.
def UploadSession.checkManifest (upload : UploadSession) :
    List BlobUploadPart → List Nat → Nat → List Path → Option (Nat × List Path)
  | [], _, totalSize, partPaths => some (totalSize, partPaths)
  | part :: manifest, seen, totalSize, partPaths =>
    if part.partNumber ∈ seen then
      none
    else
      match upload.parts.find part.partNumber with
      | none => none
      | some staged =>
        if staged.sha256 ≠ part.sha256 ∨ staged.size ≠ part.size then
          none
        else
          upload.checkManifest manifest (part.partNumber :: seen) (totalSize + staged.size)
            (partPaths ++ [staged.path])

def Peer.prepareCompletion (manifest : List BlobUploadPart) (now : Nat) :
    Peer × Except ErrorKind CompletionPlan :=
  match peer.uploads.find uploadId with
  | none => (peer, .error .UnknownUpload)
  | some upload =>
    if upload.expiresAt ≤ now then
      (peer.removeUpload uploadId, .error .SessionExpired)
    else if upload.activePart || upload.completing then
      (peer, .error .OverPeerBudget)
    else
      match upload.checkManifest manifest [] 0 [] with
      | none => (peer, .error .ManifestMismatch)
      | some (totalSize, partPaths) =>
        if totalSize ≠ upload.expectedSize then
          (peer, .error .ManifestMismatch)
        else if upload.parts.entries.length ≠ manifest.length then
          (peer, .error .ManifestMismatch)
        else
          ({ peer with uploads := peer.uploads.set uploadId { upload with completing := true } },
            .ok ⟨upload.uploadId, upload.mediaType, upload.expectedSize, upload.expectedSha256,
              partPaths⟩)

def Peer.finishCompletion : Peer := peer.removeUpload uploadId

def Peer.clearCompleting : Peer :=
  { peer with
    uploads := peer.uploads.adjust uploadId fun upload => { upload with completing := false } }

-- Nobody writes to the file of a staged part, so the files are read at once.
def Peer.readParts (partPaths : List Path) : Option (List Bytes) :=
  partPaths.mapM peer.files

end Sessions

def mentions (message text : String) : Bool :=
  (Lib.Text.splitOnce text.toList message.toList).isSome

def errorReason (message : String) : ErrorKind :=
  if mentions message "final hash mismatch" then
    .FinalHashMismatch
  else if mentions message "final size mismatch" then
    .ManifestMismatch
  else
    .Io message

-- A part frame goes on in `Write` and `Finish`, a completion in `HashParts`, `StoreParts` and
-- `Answer`. `Clean` removes a file of an unregistered upload.
inductive Event
  | Put (mediaType : String) (size : Nat) (sha256 : Hash) (durability : Option Durability)
      (body : Bytes) (now : Nat) (fault : Fault)
  | Part (uploadId : UploadId) (partNumber size : Nat) (sha256 : Hash) (body : Bytes) (now : Nat)
  | Write (succeeds : Bool)
  | Finish (removed : Bool)
  | Create (uploadId : UploadId) (mediaType : String) (size : Nat) (sha256 : Option Hash)
      (partSize : Option Nat) (now : Nat) (fault : Bool)
  | Complete (uploadId : UploadId) (manifest : List BlobUploadPart) (now : Nat)
  | HashParts (fault : Bool)
  | StoreParts (now : Nat) (fault : Fault)
  | Answer
  | Abort (uploadId : UploadId) (now : Nat)
  | Sweep (now : Nat)
  | Clean (path : Path)

variable (digest : Bytes → Hash) (peer : Peer) (uploadId : UploadId)

def Peer.acknowledge (partNumber : Nat) (body : Bytes) : Peer :=
  { peer with acknowledged := peer.acknowledged ++ [⟨uploadId, partNumber, body⟩] }

def Peer.part (partNumber size : Nat) (sha256 : Hash) (body : Bytes) (now : Nat) :
    Peer × Option Response :=
  if body.length ≠ size then
    (peer, some (.BlobUploadError .PartSizeMismatch))
  else if digest body ≠ sha256 then
    (peer, some (.BlobUploadError .PartHashMismatch))
  else
    match peer.beginPartUpload uploadId partNumber size sha256 now with
    | (peer, .Ready path) =>
      ({ peer with writing := some ⟨uploadId, partNumber, size, sha256, body, path, none⟩ }, none)
    | (peer, .AlreadyStored) =>
      (peer.acknowledge uploadId partNumber body,
        some (.BlobPartStored uploadId partNumber sha256))
    | (peer, .Error reason) => (peer, some (.BlobUploadError reason))

def Peer.write (writing : Writing) (succeeds : Bool) : Peer :=
  { peer with
    files := if succeeds then update peer.files writing.path (some writing.body)
      else peer.files
    writing := some { writing with written := some succeeds } }

def Peer.finish (writing : Writing) (succeeded removed : Bool) : Peer × Response :=
  let idle := { peer with writing := none }
  match idle.finishPartUpload writing.uploadId writing.partNumber writing.size writing.sha256
      writing.path succeeded with
  | (peer, .Stored) =>
    if succeeded then
      (peer.acknowledge writing.uploadId writing.partNumber writing.body,
        .BlobPartStored writing.uploadId writing.partNumber writing.sha256)
    else
      (peer, .BlobUploadError (.Io "write failed"))
  | (peer, .Error reason) =>
    -- the error of a failed write is answered also where the upload is gone
    ({ peer with
        files := if removed then update peer.files writing.path none else peer.files },
      .BlobUploadError (if succeeded then reason else .Io "write failed"))

def Peer.complete (manifest : List BlobUploadPart) (now : Nat) : Peer × Option Response :=
  match (peer.sweepExpired now).prepareCompletion uploadId manifest now with
  | (peer, .ok plan) =>
    ({ peer with completing := some ⟨manifest, plan, plan.expectedSha256, none⟩ }, none)
  | (peer, .error reason) => (peer, some (.BlobUploadError reason))

def Peer.failCompletion (completion : Completion) : Peer :=
  { peer.clearCompleting completion.plan.uploadId with completing := none }

def Peer.hashParts (completion : Completion) (fault : Bool) : Peer × Option Response :=
  match if fault then none else peer.readParts completion.plan.partPaths with
  | none => (peer.failCompletion completion, some (.BlobUploadError (.Io "part read failed")))
  | some parts =>
    if parts.flatten.length = completion.plan.expectedSize then
      ({ peer with
          completing := some { completion with finalHash := some (digest parts.flatten) } }, none)
    else
      (peer.failCompletion completion, some (.BlobUploadError .ManifestMismatch))

-- A file that is gone is a failure to read the parts.
def Peer.storeEvent (completion : Completion) (hash : Hash) (now : Nat) (fault : Fault) :
    BlobStore.Event :=
  let parts := peer.readParts completion.plan.partPaths
  .PutParts (parts.getD []) completion.plan.mediaType completion.plan.expectedSize hash .Durable now
    { fault with parts := fault.parts || parts.isNone }

def storeResult : BlobStore.Reply → Except String Hash
  | .Stored hash => .ok hash
  | .Failed message => .error message
  | .Deleted _ => .error "unexpected"
  | .Quiet => .error "unexpected"

def Peer.answer (completion : Completion) : Except String Hash → Peer × Response
  | .ok hash =>
    ({ peer.finishCompletion completion.plan.uploadId with completing := none },
      .BlobStored hash completion.plan.expectedSize completion.plan.mediaType)
  | .error message => (peer.failCompletion completion, .BlobUploadError (errorReason message))

def Peer.abort (now : Nat) : Peer × Response :=
  let peer := peer.sweepExpired now
  match peer.uploads.find uploadId with
  | some _ => (peer.removeUpload uploadId, .BlobUploadAborted uploadId)
  | none => (peer, .BlobUploadError .UnknownUpload)

-- The step of a connection on the store, or `none` where it cannot happen.
def Peer.perform (store : Store) : Event → Option (Peer × Store × Option Response)
  | .Put mediaType size sha256 durability body now fault =>
    if peer.writing.isSome then
      some (peer, store, some (.BlobUploadError .TooManyInFlight))
    else if body.length ≠ size then
      some (peer, store, some (.BlobUploadError .SizeMismatch))
    else if digest body ≠ sha256 then
      some (peer, store, some (.BlobUploadError .HashMismatch))
    else
      match store.perform digest
          (.Put body mediaType (durability.getD .Durable) none now fault) with
      | (store, .Stored hash) => some (peer, store, some (.BlobStored hash size mediaType))
      | (store, .Failed message) => some (peer, store, some (.BlobUploadError (.Io message)))
      | (store, _) => some (peer, store, none)
  | .Part uploadId partNumber size sha256 body now =>
    if peer.writing.isSome then
      some (peer, store, some (.BlobUploadError .TooManyInFlight))
    else
      let (peer, response) := peer.part digest uploadId partNumber size sha256 body now
      some (peer, store, response)
  | .Write succeeds =>
    match peer.writing with
    | some writing =>
      if writing.written.isNone then some (peer.write writing succeeds, store, none) else none
    | none => none
  | .Finish removed =>
    match peer.writing with
    | some writing =>
      writing.written.map fun succeeded =>
        let (peer, response) := peer.finish writing succeeded removed
        (peer, store, some response)
    | none => none
  | .Create uploadId mediaType size sha256 partSize now fault =>
    if peer.completing.isNone ∧ uploadId ∉ peer.issued then
      let (peer, response) :=
        peer.createBlobUpload uploadId mediaType size sha256 partSize now fault
      some (peer, store, some response)
    else
      none
  | .Complete uploadId manifest now =>
    if peer.completing.isNone then
      let (peer, response) := peer.complete uploadId manifest now
      some (peer, store, response)
    else
      none
  | .HashParts fault =>
    match peer.completing with
    | some completion =>
      if completion.finalHash.isNone then
        let (peer, response) := peer.hashParts digest completion fault
        some (peer, store, response)
      else
        none
    | none => none
  | .StoreParts now fault =>
    match peer.completing with
    | some completion =>
      match completion.finalHash, completion.stored with
      | some hash, none =>
        let (store, reply) := store.perform digest (peer.storeEvent completion hash now fault)
        some ({ peer with
          completing := some { completion with stored := some (storeResult reply) } },
          store, none)
      | _, _ => none
    | none => none
  | .Answer =>
    match peer.completing with
    | some completion =>
      completion.stored.map fun result =>
        let (peer, response) := peer.answer completion result
        (peer, store, some response)
    | none => none
  | .Abort uploadId now =>
    if peer.completing.isNone then
      let (peer, response) := peer.abort uploadId now
      some (peer, store, some response)
    else
      none
  | .Sweep now => some (peer.sweepExpired now, store, none)
  | .Clean path =>
    if (peer.uploads.find path.1).isNone then
      some ({ peer with files := update peer.files path none }, store, none)
    else
      none

structure System where
  peers : Nat → Peer
  store : Store

inductive SystemEvent
  | Peer (id : Nat) (event : Event)
  | Prime (update : BlobStore.Update)

def System.perform (system : System) : SystemEvent → Option (System × Option Response)
  | .Peer id event =>
    ((system.peers id).perform digest system.store event).map fun (peer, store, response) =>
      (⟨update system.peers id peer, store⟩, response)
  | .Prime update => some (⟨system.peers, (system.store.perform digest (.Prime update)).1⟩, none)

abbrev Performs (before : System) (event : SystemEvent) (after : System) : Prop :=
  ∃ response, before.perform digest event = some (after, response)

end Nteract.BlobUpload
