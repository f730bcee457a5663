import Nteract.Checkpoint.Coordinator
import Nteract.Durability.Calls
import Nteract.Ingest
import Nteract.Lifecycle
import Nteract.RuntimeDoc

namespace Nteract.ExternalSource

open Lib Recovery Durability Ingest NotebookDoc Lifecycle
open Checkpoint (CheckpointState SystemTime)
open RuntimeDoc (ExecutionStatus)

inductive FileSourceIssue
  | Conflict (reason : String)
  | Degraded (reason : String)
deriving DecidableEq

structure ImportedExecution (O : Type) where
  status : ExecutionStatus
  success : Option Bool
  executionCount : Option Int
  outputs : List O
deriving DecidableEq

-- The part of the runtime state that the ingestion reads and writes.
structure SourceSidecar (O : Type) where
  executions : Table String (ImportedExecution O)
  exportedHeads : List String
  saveSequence : Option Nat
  sourceIssue : Option FileSourceIssue

inductive SidecarWrite (O : Type)
  | CreateExecution (executionId : String)
  | SetOutputs (executionId : String) (outputs : List O)
  | SetExecutionCount (executionId : String) (executionCount : Int)
  | SetExecutionDone (executionId : String) (success : Bool)
  | SetFileCheckpoint (exportedHeads : List String) (saveSequence : Nat)
  | SetFileSourceIssue (issue : Option FileSourceIssue)

variable {P V O : Type}

namespace SourceSidecar

-- A checkpoint that is not newer than the one recorded is not written.
def write (sidecar : SourceSidecar O) : SidecarWrite O → SourceSidecar O
  | .CreateExecution executionId =>
    { sidecar with
      executions := sidecar.executions.add executionId ⟨.Queued, none, none, []⟩ }
  | .SetOutputs executionId outputs =>
    { sidecar with
      executions := sidecar.executions.adjust executionId fun entry =>
        { entry with outputs := outputs } }
  | .SetExecutionCount executionId executionCount =>
    { sidecar with
      executions := sidecar.executions.adjust executionId fun entry =>
        { entry with executionCount := some executionCount } }
  | .SetExecutionDone executionId success =>
    { sidecar with
      executions := sidecar.executions.adjust executionId fun entry =>
        { entry with status := if success then .Done else .Error, success := some success } }
  | .SetFileCheckpoint exportedHeads saveSequence =>
    if sidecar.saveSequence.any fun current => current ≥ saveSequence then sidecar
    else { sidecar with exportedHeads := exportedHeads, saveSequence := some saveSequence }
  | .SetFileSourceIssue issue => { sidecar with sourceIssue := issue }

end SourceSidecar

-- A closure makes all its writes, or fails after the first few, which then stay.
abbrev WriteIo := Option (Nat × String)

def withDoc (io : WriteIo) (writes : List (SidecarWrite O)) (sidecar : SourceSidecar O) :
    Option String × SourceSidecar O :=
  match io with
  | none => (none, writes.foldl SourceSidecar.write sidecar)
  | some (count, error) => (some error, (writes.take count).foldl SourceSidecar.write sidecar)

def deferredWrites (deferred : List (DeferredExecution O)) : List (SidecarWrite O) :=
  deferred.flatMap fun execution =>
    [.CreateExecution execution.syntheticEid] ++
      (if execution.outputs.isEmpty then [] else
        [.SetOutputs execution.syntheticEid execution.outputs]) ++
      (execution.executionCount.toList.map fun count =>
        .SetExecutionCount execution.syntheticEid count) ++
      [.SetExecutionDone execution.syntheticEid true]

structure NotebookRoom (O : Type) where
  doc : Document
  durability : RoomDurability
  lifecycle : RoomLifecycle
  state : SourceSidecar O
  fileCheckpoint : CheckpointState
  primarySaveBaselineSequence : Nat
  lastSaveSources : Table String String

structure ExternalSourceRevision where
  fingerprint : SourceFingerprint
  canonicalPath : PathBuf
  saveSequence : Nat
  savedAt : SystemTime
deriving DecidableEq

structure AppliedIpynbChanges where
  cellsChanged : Bool
  metadataChanged : Bool
deriving DecidableEq

def AppliedIpynbChanges.default : AppliedIpynbChanges := ⟨false, false⟩

def AppliedIpynbChanges.changed (applied : AppliedIpynbChanges) : Bool :=
  applied.cellsChanged || applied.metadataChanged

-- The document after the transaction. A failed one keeps its edits.
inductive Transaction
  | Done (document : Document) (metadataChanged : Bool)
  | Failed (document : Document) (error : String)

structure IngestIo (V O : Type) where
  external : Except String (List (ExternalCell V O))
  reread : Except String Bytes
  uuid : String → String
  transaction : Transaction
  journal : JournalIo
  issue : WriteIo
  sidecars : WriteIo
  checkpoint : WriteIo
  projection : UInt64 → Except String (NotebookProjection × Nat)
  ready : JournalIo
  degraded : WriteIo

def headsHex (automerge : Automerge) (document : Document) : List String :=
  (automerge.getHeads document).map headText

def changesSince (automerge : Automerge) (baseline document : Document) : List ChangeHash :=
  sortedList (automerge.getChanges document \ automerge.getChanges baseline)

def isSourceConflict : RoomDurabilityError → Bool
  | .SourceConflict _ _ => true
  | _ => false

def rejectionReason (error : RoomDurabilityError) : String :=
  if isSourceConflict error then
    "source_conflict: external source changed while journal heads were not exported; " ++
      "both versions were preserved: " ++ error.display
  else
    "file watcher journal commit failed before external changes became visible: " ++ error.display

def rejectionIssue (error : RoomDurabilityError) : FileSourceIssue :=
  if isSourceConflict error then .Conflict (rejectionReason error)
  else .Degraded (rejectionReason error)

variable (automerge : Automerge) (serde : ManifestSerde) (io : IngestIo V O)

def commitOperation (changes : List ChangeHash) : Option ExternalSourceRevision → Operation
  | some revision => .CommitExternalSourceRevision changes revision.fingerprint
      revision.canonicalPath revision.saveSequence
  | none => .CommitPeerChanges changes

-- The journal refused the changes: the document is rolled back and the room degraded.
def rejectFileWatcherChanges (rollbackSnapshot : Bytes) (error : RoomDurabilityError)
    (durability : RoomDurability) (room : NotebookRoom O) : NotebookRoom O :=
  let (doc, documentReadable) :=
    match automerge.load rollbackSnapshot with
    | .ok restored => (restored, true)
    | .error _ => (room.doc, false)
  let documentHeads := headsHex automerge doc
  let reason := rejectionReason error
  let kind :=
    if isSourceConflict error ∧ documentReadable = true then DegradationKind.SourceState
    else .DurabilityBoundary
  { room with
    doc := doc
    durability := markDegraded kind reason durability
    lifecycle :=
      if isSourceConflict error then room.lifecycle.markSourceConflict reason documentHeads
      else room.lifecycle.markDegraded reason documentHeads documentReadable
    state := (withDoc io.issue [.SetFileSourceIssue (some (rejectionIssue error))] room.state).2 }

-- `baseline` is the document before the transaction.
def commitFileWatcherChanges (baseline : Document) (revision : Option ExternalSourceRevision)
    (room : NotebookRoom O) : Bool × NotebookRoom O :=
  let changes := changesSince automerge baseline room.doc
  if changes.isEmpty ∧ revision = none then (true, room)
  else
    match call automerge serde io.journal (commitOperation changes revision) room.durability with
    | .error error durability =>
      (false, rejectFileWatcherChanges automerge io (automerge.save baseline) error durability room)
    | .ok _ durability =>
      match revision with
      | none => (true, { room with durability := durability })
      | some revision =>
        (true, { room with
          durability := durability
          primarySaveBaselineSequence :=
            max room.primarySaveBaselineSequence revision.saveSequence
          fileCheckpoint := room.fileCheckpoint.restore
            ⟨revision.canonicalPath, durability.state.manifest.exportedHeads,
              revision.fingerprint, revision.saveSequence, revision.savedAt⟩ })

def degradeExternalSourceRevision (kind : DegradationKind) (reason : String) (room : NotebookRoom O) :
    NotebookRoom O :=
  { room with
    durability := markDegraded kind reason room.durability
    lifecycle := room.lifecycle.markDegraded reason room.durability.status.durableHeads true
    state := (withDoc io.degraded [.SetFileSourceIssue (some (.Degraded reason))] room.state).2 }

-- The generation completed is that of the durable status, whoever staged it.
def completeExternalSourceRevision (revision : Option ExternalSourceRevision)
    (room : NotebookRoom O) : Bool × NotebookRoom O :=
  match revision with
  | none => (true, room)
  | some revision =>
    let status := room.durability.status
    let generation := status.sourceGeneration
    let (failed, state) := withDoc io.checkpoint
      [.SetFileCheckpoint status.exportedHeads revision.saveSequence, .SetFileSourceIssue none]
      room.state
    let room := { room with state := state }
    match failed with
    | some error =>
      (false, degradeExternalSourceRevision io .SourceState
        (s!"external source generation {generation} was staged but could not become Ready: " ++
          error) room)
    | none =>
      match io.projection (UInt64.ofNat generation) with
      | .error error =>
        (false, degradeExternalSourceRevision io .SourceState
          (s!"external source generation {generation} could not build its bounded " ++
            "projection: " ++ error) room)
      | .ok (projection, cellCount) =>
        match call automerge serde io.ready (.CommitSourceReady generation)
            room.durability with
        | .error error durability =>
          (false, degradeExternalSourceRevision io .DurabilityBoundary
            (s!"external source generation {generation} was staged but could not become " ++
              "Ready: " ++ error.display) { room with durability := durability })
        | .ok _ durability =>
          (true, { room with
            durability := durability
            lifecycle := room.lifecycle.completeExternalSourceRevision
              (UInt64.ofNat generation) revision.fingerprint cellCount projection
              status.durableHeads })

def applyDeferred (deferred : List (DeferredExecution O)) (room : NotebookRoom O) :
    Bool × NotebookRoom O :=
  if deferred.isEmpty then (true, room)
  else
    let (failed, state) := withDoc io.sidecars (deferredWrites deferred) room.state
    let room := { room with state := state }
    match failed with
    | some error => (false, degradeExternalSourceRevision io .SourceState
        ("external source runtime sidecars failed: " ++ error) room)
    | none => (true, room)

-- What follows the release of the document lock on both paths.
def finishRevision (deferred : List (DeferredExecution O))
    (revision : Option ExternalSourceRevision) (room : NotebookRoom O) : Bool × NotebookRoom O :=
  let (applied, room) := applyDeferred io deferred room
  if applied then completeExternalSourceRevision automerge serde io revision room
  else (false, room)

variable [LinearOrder P] [DecidableEq V] [DecidableEq O] [EmptyCollection V]
  (index : FractionalIndex P) (getCells : Document → Notebook P V)

def ingestContext (io : IngestIo V O) (hasRunningKernel : Bool) (room : NotebookRoom O) :
    IngestContext P V O where
  index := index
  executionState := fun executionId =>
    match room.state.executions.find executionId with
    | some execution => (execution.outputs, execution.executionCount)
    | none => ([], none)
  uuid := io.uuid
  hasRunningKernel := hasRunningKernel
  current := getCells room.doc
  lastSaveSources := room.lastSaveSources

-- The bytes were prepared without the lock, so the file is read again.
def staleSource (io : IngestIo V O) : Option ExternalSourceRevision → Bool
  | none => false
  | some revision =>
    match io.reread with
    | .ok current => sourceFingerprint current ≠ revision.fingerprint
    | .error _ => true

-- The section that holds the document lock.
def transactCells (io : IngestIo V O) (rebuild : Bool) (ingested : Ingested P V O)
    (revision : Option ExternalSourceRevision) (room : NotebookRoom O) :
    AppliedIpynbChanges × List (DeferredExecution O) × NotebookRoom O :=
  match io.transaction with
  | .Failed document _ => (.default, [], { room with doc := document })
  | .Done document metadataChanged =>
    let cellsChanged :=
      if rebuild then decide (automerge.getHeads document ≠ automerge.getHeads room.doc)
      else ingested.changed
    let changed := if rebuild then cellsChanged else cellsChanged || metadataChanged
    let edited := { room with doc := document }
    if changed || revision.isSome then
      let (committed, after) := commitFileWatcherChanges automerge serde io room.doc revision edited
      if committed then (⟨cellsChanged, metadataChanged⟩, ingested.deferred, after)
      else (.default, [], after)
    else
      (⟨cellsChanged, metadataChanged⟩, ingested.deferred, edited)

def externalSources (external : List (ExternalCell V O)) (saved : Table String String) :
    Table String String :=
  external.foldl (fun saved cell => saved.set cell.id cell.source) saved

def applyIpynbChangesInner (io : IngestIo V O) (hasRunningKernel : Bool)
    (revision : Option ExternalSourceRevision) (room : NotebookRoom O) :
    AppliedIpynbChanges × NotebookRoom O :=
  match io.external with
  | .error _ => (.default, room)
  | .ok external =>
    if staleSource io revision then (.default, room)
    else
      let context := ingestContext index getCells io hasRunningKernel room
      let ingested := applyIpynbCells context external
      let rebuild := needsRebuild context.current external
      let (applied, deferred, room) := transactCells automerge serde io rebuild ingested revision room
      if rebuild then
        if !applied.changed then (applied, room)
        else
          let (finished, room) := finishRevision automerge serde io deferred revision room
          if finished then
            (applied, { room with lastSaveSources := externalSources external Table.empty })
          else (.default, room)
      else
        let (finished, room) := finishRevision automerge serde io deferred revision room
        if finished then
          if applied.cellsChanged && revision.isNone then
            (applied, { room with
              lastSaveSources := (externalSources external room.lastSaveSources).retain fun id =>
                id ∈ externalIds external })
          else (applied, room)
        else (.default, room)

def applyIpynbChangesFromSource (io : IngestIo V O) (hasRunningKernel : Bool)
    (revision : ExternalSourceRevision) (room : NotebookRoom O) :
    AppliedIpynbChanges × NotebookRoom O :=
  applyIpynbChangesInner automerge serde index getCells io hasRunningKernel (some revision) room

end Nteract.ExternalSource
