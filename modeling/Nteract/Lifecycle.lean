import Nteract.Recovery.Json

namespace Nteract.Lifecycle

open Recovery

inductive RoomSourceFingerprint
  | NotApplicable
  | Pending
  | Content (fingerprint : SourceFingerprint)
deriving DecidableEq

inductive RoomSourceProgressStage
  | Preparing
  | Journaling
  | Publishing
  | Complete
deriving DecidableEq

structure RoomSourceProgress where
  stage : RoomSourceProgressStage
  completed : Nat
  total : Option Nat
deriving DecidableEq

structure RoomSourceError where
  code : String
  message : String
deriving DecidableEq

inductive RoomSourceRetry
  | NotNeeded
  | RegenerateIfPristine
  | ResumeStaged
  | ExplicitReconciliation
deriving DecidableEq

structure RoomSourceStatus where
  generation : UInt64
  fingerprint : RoomSourceFingerprint
  progress : RoomSourceProgress
  error : Option RoomSourceError
  retry : RoomSourceRetry
deriving DecidableEq

inductive RoomSourceState
  | Preparing (status : RoomSourceStatus)
  | Publishing (status : RoomSourceStatus)
  | Ready (status : RoomSourceStatus)
  | Failed (status : RoomSourceStatus)
deriving DecidableEq

namespace RoomSourceState

def status : RoomSourceState → RoomSourceStatus
  | .Preparing status | .Publishing status | .Ready status | .Failed status => status

def generation (state : RoomSourceState) : UInt64 := state.status.generation

def isInProgress : RoomSourceState → Bool
  | .Preparing _ | .Publishing _ => true
  | .Ready _ | .Failed _ => false

end RoomSourceState

structure RoomCapabilities where
  readProjection : Bool
  readDocument : Bool
  mutate : Bool
  execute : Bool
deriving DecidableEq

namespace RoomCapabilities

def attached : RoomCapabilities := ⟨false, false, false, false⟩

def projectionReady : RoomCapabilities := ⟨true, false, false, false⟩

def interactive : RoomCapabilities := ⟨true, true, true, true⟩

def degraded (readProjection readDocument : Bool) : RoomCapabilities :=
  ⟨readProjection, readDocument, false, false⟩

end RoomCapabilities

structure RoomAvailabilityStatus where
  generation : UInt64
  documentHeads : List String
  projectionHeads : List String
  capabilities : RoomCapabilities
  reason : Option String
deriving DecidableEq

inductive RoomAvailability
  | Attached (status : RoomAvailabilityStatus)
  | ProjectionReady (status : RoomAvailabilityStatus)
  | Interactive (status : RoomAvailabilityStatus)
  | Degraded (status : RoomAvailabilityStatus)
deriving DecidableEq

def RoomAvailability.status : RoomAvailability → RoomAvailabilityStatus
  | .Attached status | .ProjectionReady status | .Interactive status | .Degraded status => status

-- The staged import, with what the transitions read of it.
structure StagedImportArtifact where
  generation : UInt64
  changeBatches : List (List ChangeHash)
  stagedHeads : List ChangeHash
deriving DecidableEq

structure NotebookProjection where
  loadGeneration : UInt64
  projectionHeads : List String
deriving DecidableEq

def headText (head : ChangeHash) : String := String.ofList (hexDigits 64 head.val)

inductive RoomSourceStart
  | Started (generation : UInt64)
  | Observing (generation : UInt64)
deriving DecidableEq

-- saturating_add(1)
def nextGeneration (generation : UInt64) : UInt64 :=
  if generation.toNat = U64_MAX then generation else generation + 1

theorem le_nextGeneration (generation : UInt64) : generation ≤ nextGeneration generation := by
  unfold nextGeneration
  split
  · exact UInt64.le_refl _
  · rename_i hm
    have hlt : generation.toNat < 2 ^ 64 := generation.toNat_lt
    have ho : (1 : UInt64).toNat = 1 := rfl
    rw [UInt64.le_iff_toNat_le, UInt64.toNat_add, Nat.mod_eq_of_lt]
    · omega
    · unfold U64_MAX at hm
      omega

-- Both axes with the artifacts of the generations. Every transition holds the transition lock.
structure RoomLifecycle where
  source : RoomSourceState
  availability : RoomAvailability
  taskClaimed : Bool
  staged : Option StagedImportArtifact
  preparedProjection : Option NotebookProjection
  projection : Option NotebookProjection
deriving DecidableEq

def initialSource : RoomSourceState :=
  .Ready ⟨0, .NotApplicable, ⟨.Complete, 0, some 0⟩, none, .NotNeeded⟩

namespace RoomLifecycle

def new (documentHeads : List String) : RoomLifecycle where
  source := initialSource
  availability := .Interactive ⟨0, documentHeads, [], .interactive, none⟩
  taskClaimed := false
  staged := none
  preparedProjection := none
  projection := none

variable (room : RoomLifecycle) (generation : UInt64)

def stagedImport : Option StagedImportArtifact :=
  room.staged.filter fun artifact => artifact.generation = generation

def projectionOf : Option NotebookProjection :=
  room.projection.filter fun projection => projection.loadGeneration = generation

def retainedHeads : List String :=
  match room.projection with
  | some projection => projection.projectionHeads
  | none => []

-- A new generation enters preparation, with nothing staged.
def startPreparing (claimed : Bool) : RoomLifecycle :=
  { room with
    taskClaimed := claimed
    staged := none
    preparedProjection := none
    source := .Preparing
      ⟨generation, .Pending, ⟨.Preparing, 0, none⟩, none, .RegenerateIfPristine⟩
    availability := .Attached
      ⟨generation, room.availability.status.documentHeads, [], .attached, none⟩ }

-- Ready generations are sticky, failed ones advance only through a retry or a reconciliation.
def markSourceRequired : Bool × RoomLifecycle :=
  match room.source with
  | .Preparing _ | .Publishing _ => (true, room)
  | .Ready status =>
    if status.generation = 0 ∧ status.fingerprint = .NotApplicable then
      (true, room.startPreparing (nextGeneration status.generation) false)
    else
      (false, room)
  | .Failed _ => (false, room)

def beginSource : RoomSourceStart × RoomLifecycle :=
  if room.source.isInProgress then
    (if room.taskClaimed then .Observing room.source.generation
      else .Started room.source.generation, { room with taskClaimed := true })
  else
    (.Observing room.source.generation, room)

def retryFailedClaimed : Option UInt64 × RoomLifecycle :=
  match room.source with
  | .Failed previous =>
    let generation := nextGeneration previous.generation
    (some generation, room.startPreparing generation true)
  | _ => (none, room)

def resumeFailedStagedClaimed : Option UInt64 × RoomLifecycle :=
  match room.source with
  | .Failed previous =>
    match room.stagedImport previous.generation with
    | none => (none, room)
    | some _ =>
      (some previous.generation, { room with
        taskClaimed := true
        source := .Preparing { previous with
          progress := { previous.progress with stage := .Preparing }
          error := none
          retry := .ResumeStaged }
        availability := .Attached
          ⟨previous.generation, room.availability.status.documentHeads, [], .attached, none⟩ })
  | _ => (none, room)

-- The staged import first, the file only for a pristine document.
def retryFailedRoomInitialLoadIfSafe (isPristine : Bool) : Bool × RoomLifecycle :=
  match room.resumeFailedStagedClaimed with
  | (some _, resumed) => (true, resumed)
  | (none, _) =>
    if isPristine = false then (false, room)
    else (room.retryFailedClaimed.1.isSome, room.retryFailedClaimed.2)

def recordPreparedArtifacts (artifact : StagedImportArtifact) (projection : NotebookProjection) :
    Bool × RoomLifecycle :=
  match room.source with
  | .Preparing status =>
    if status.generation ≠ generation ∨ artifact.generation ≠ generation ∨
        projection.loadGeneration ≠ generation then
      (false, room)
    else
      (true, { room with staged := some artifact, preparedProjection := some projection })
  | _ => (false, room)

def notePreparing (update : RoomSourceStatus → RoomSourceStatus) : Bool × RoomLifecycle :=
  match room.source with
  | .Preparing status =>
    if status.generation ≠ generation then (false, room)
    else (true, { room with source := .Preparing (update status) })
  | _ => (false, room)

def notePrepared (fingerprint : SourceFingerprint) (totalCells : Nat) : Bool × RoomLifecycle :=
  room.notePreparing generation fun status =>
    { status with
      fingerprint := .Content fingerprint
      progress := { status.progress with total := some totalCells } }

def noteJournaling : Bool × RoomLifecycle :=
  room.notePreparing generation fun status =>
    { status with progress := { status.progress with stage := .Journaling } }

-- A failed source stays failed, so that a retry resumes these hashes.
def publishProjectionReady (artifact : StagedImportArtifact) (projection : NotebookProjection)
    (documentHeads : List String) : Bool × RoomLifecycle :=
  if room.source.generation ≠ generation ∨ artifact.generation ≠ generation ∨
      projection.loadGeneration ≠ generation then
    (false, room)
  else
    let installed := { room with
      staged := some artifact
      preparedProjection := some projection
      projection := some projection }
    let heads := artifact.stagedHeads.map headText
    match room.source with
    | .Preparing status =>
      (true, { installed with
        source := .Publishing { status with
          progress := ⟨.Publishing, 0, some artifact.changeBatches.length⟩
          retry := .ResumeStaged }
        availability := .ProjectionReady
          ⟨generation, documentHeads, heads, .projectionReady, none⟩ })
    | .Failed status =>
      (false, { installed with
        source := .Failed { status with retry := .ResumeStaged }
        availability := .Degraded ⟨generation, documentHeads, heads, .projectionReady,
          status.error.map RoomSourceError.message⟩ })
    | .Publishing _ | .Ready _ => (false, installed)

def notePublishedBatch (completedBatches : Nat) (documentHeads : List String) :
    Bool × RoomLifecycle :=
  match room.source with
  | .Publishing status =>
    if status.generation ≠ generation then (false, room)
    else
      (true, { room with
        source := .Publishing { status with
          progress := { status.progress with completed := completedBatches } }
        availability := .ProjectionReady ⟨generation, documentHeads,
          room.availability.status.projectionHeads, .projectionReady, none⟩ })
  | _ => (false, room)

def completeReady (cellCount : Nat) (documentHeads : List String) : Bool × RoomLifecycle :=
  if room.source.generation ≠ generation ∨ room.source.isInProgress = false then
    (false, room)
  else
    match room.projectionOf generation with
    | none => (false, room)
    | some projection =>
      (true, { room with
        source := .Ready { room.source.status with
          progress := ⟨.Complete, cellCount, some cellCount⟩
          error := none
          retry := .NotNeeded }
        taskClaimed := false
        staged := none
        preparedProjection := none
        availability := .Interactive
          ⟨generation, documentHeads, projection.projectionHeads, .interactive, none⟩ })

def completeFailed (code message : String) : Bool × RoomLifecycle :=
  if room.source.generation ≠ generation ∨ room.source.isInProgress = false then
    (false, room)
  else
    (true, { room with
      source := .Failed { room.source.status with
        error := some ⟨code, message⟩
        retry := if (room.stagedImport generation).isSome then .ResumeStaged
          else .RegenerateIfPristine }
      taskClaimed := false
      availability := .Degraded ⟨generation, room.availability.status.documentHeads,
        room.retainedHeads,
        if room.projection.isSome then .projectionReady else .attached, some message⟩ })

def markDegradedWithCode (code reason : String) (documentHeads : List String)
    (documentReadable : Bool) : RoomLifecycle :=
  { room with
    source := .Failed { room.source.status with
      error := some ⟨code, reason⟩
      retry :=
        if code = "source_conflict" then .ExplicitReconciliation
        else if (room.stagedImport room.source.generation).isSome then .ResumeStaged
        else .ExplicitReconciliation }
    taskClaimed := false
    availability := .Degraded ⟨room.source.generation, documentHeads, room.retainedHeads,
      .degraded room.projection.isSome documentReadable, some reason⟩ }

def markDegraded (reason : String) (documentHeads : List String) (documentReadable : Bool) :
    RoomLifecycle :=
  room.markDegradedWithCode "source_degraded" reason documentHeads documentReadable

def markSourceConflict (reason : String) (documentHeads : List String) : RoomLifecycle :=
  room.markDegradedWithCode "source_conflict" reason documentHeads true

def restoreRecoveredPending (fingerprint : SourceFingerprint) (cellCount : Nat)
    (documentHeads : List String) : RoomLifecycle :=
  { room with
    taskClaimed := false
    source := .Preparing ⟨generation, .Content fingerprint, ⟨.Preparing, 0, some cellCount⟩, none,
      .ResumeStaged⟩
    availability := .Attached ⟨generation, documentHeads, [], .attached, none⟩ }

def publishRecoveredProjectionReady (projection : NotebookProjection) (documentHeads : List String) :
    Bool × RoomLifecycle :=
  match room.source with
  | .Preparing status =>
    if status.generation ≠ generation ∨ projection.loadGeneration ≠ generation then
      (false, room)
    else
      (true, { room with
        projection := some projection
        source := .Publishing { status with
          progress := ⟨.Publishing, status.progress.total.getD 0, status.progress.total⟩ }
        availability := .ProjectionReady ⟨generation, documentHeads, projection.projectionHeads,
          .projectionReady, none⟩ })
  | _ => (false, room)

-- A recovered room whose source cannot be used until it is reconciled.
def restoreFailed (code : String) (generation : UInt64) (fingerprint : SourceFingerprint)
    (cellCount : Nat) (documentHeads : List String) (reason : String) : RoomLifecycle :=
  { room with
    taskClaimed := false
    source := .Failed ⟨generation, .Content fingerprint, ⟨.Complete, cellCount, some cellCount⟩,
      some ⟨code, reason⟩, .ExplicitReconciliation⟩
    availability := .Degraded ⟨generation, documentHeads, [], .degraded false true, some reason⟩ }

def restoreIncompleteSource := room.restoreFailed "source_degraded"

def restoreSourceConflict := room.restoreFailed "source_conflict"

-- The staged import, if any, stays.
def recoverFailed (cellCount : Nat) (documentHeads : List String)
    (projection : NotebookProjection) : Option UInt64 × RoomLifecycle :=
  match room.source with
  | .Failed previous =>
    let generation := nextGeneration previous.generation
    if projection.loadGeneration ≠ generation then (none, room)
    else
      (some generation, { room with
        projection := some projection
        source := .Ready ⟨generation, previous.fingerprint,
          ⟨.Complete, cellCount, some cellCount⟩, none, .NotNeeded⟩
        taskClaimed := false
        availability := .Interactive ⟨generation, documentHeads, projection.projectionHeads,
          .interactive, none⟩ })
  | _ => (none, room)

-- A journaled generation becomes the room's own, whatever the current one.
def adopt (fingerprint : SourceFingerprint) (cellCount : Nat) (projection : NotebookProjection)
    (documentHeads : List String) : RoomLifecycle where
  source := .Ready ⟨generation, .Content fingerprint, ⟨.Complete, cellCount, some cellCount⟩, none,
    .NotNeeded⟩
  availability := .Interactive ⟨generation, documentHeads, projection.projectionHeads,
    .interactive, none⟩
  taskClaimed := false
  staged := none
  preparedProjection := none
  projection := some projection

def promoteFileBackedCheckpoint (_ : RoomLifecycle) := adopt

def completeExternalSourceRevision (_ : RoomLifecycle) := adopt

def completeReconciliation (_ : RoomLifecycle) := adopt

def failReconciliation (fingerprint : SourceFingerprint) (cellCount : Nat)
    (documentHeads : List String) (reason : String) : RoomLifecycle where
  source := .Failed ⟨generation, .Content fingerprint, ⟨.Complete, cellCount, some cellCount⟩,
    some ⟨"source_degraded", reason⟩, .ExplicitReconciliation⟩
  availability := .Degraded ⟨generation, documentHeads, room.retainedHeads,
    .degraded room.projection.isSome true, some reason⟩
  taskClaimed := false
  staged := none
  preparedProjection := none
  projection := room.projection

end RoomLifecycle

end Nteract.Lifecycle
