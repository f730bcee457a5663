import Nteract.Durability.State

namespace Nteract.Durability

open Recovery

variable (automerge : Automerge) (serde : ManifestSerde) (io : AppendIo) (state : DurabilityState)
  (checkpoint : PendingFileCheckpoint)

def ensureAcceptingCommits : DurabilityM Unit := do
  if !(← get).acceptingCommits then
    throw .ShutdownInProgress

def loadSnapshot (snapshot : Bytes) : Except RoomDurabilityError Document :=
  (automerge.load snapshot).mapError .InvalidSnapshot

def nextSequence (value : Nat) : Except RoomDurabilityError Nat :=
  match checkedAdd value 1 with
  | some next => .ok next
  | none => .error .SequenceExhausted

def snapshotContainsHeads (snapshot : Bytes) (requiredHeads : List ChangeHash) :
    Except RoomDurabilityError Bool :=
  if requiredHeads.isEmpty then
    .ok true
  else do
    let document ← loadSnapshot automerge snapshot
    return requiredHeads.all fun head => automerge.getChangeByHash document head

def applyRetainedChangeBatch (document : Document) (changes : List ChangeHash) :
    Except RoomDurabilityError (Document × List ChangeHash) := do
  let missing := changes.dedup.filter fun change => !automerge.getChangeByHash document change
  let document ← (automerge.applyChanges document missing.toFinset).mapError .InvalidSnapshot
  return (document, missing)

-- The journal failed: close the boundary, tell the watchers and report the error.
def degradeJournal {α : Type} (error : RecoveryJournalError) : DurabilityM α := do
  modify fun room =>
    let state := { room.state with degraded := some (.boundary error.display) }
    { room with state := state, status := statusFromState state }
  throw (.Journal error)

def appendRecord (manifest : RecoveryManifest) (snapshot : Bytes) : DurabilityM Unit := do
  match (← get).journal with
  | none => return ()
  | some journal =>
    match append serde io manifest snapshot journal with
    | .ok _ journal => modify fun room => { room with journal := some journal }
    | .error error journal =>
      modify fun room => { room with journal := some journal }
      degradeJournal error

def publish : DurabilityM DurableCommitOutcome := do
  modify fun room => { room with state := state, status := statusFromState state }
  return .Committed (statusFromState state)

-- The end of every commit: the record first, then the in-memory state.
def commitState (next : DurabilityState) : DurabilityM DurableCommitOutcome := do
  appendRecord serde io next.manifest next.durableSnapshot
  publish next

-- A room that was created without a source generation starts one and marks it ready.
def promotedManifest : Except RoomDurabilityError RecoveryManifest :=
  if state.manifest.sourcePhase = .Pending then do
    let durable ← loadSnapshot automerge state.durableSnapshot
    let sequence ← nextSequence state.manifest.sequence
    let generation ← nextSequence state.manifest.sourceGeneration
    return { state.manifest with
      sequence := sequence
      sourceGeneration := generation
      sourcePhase := .Ready
      stagedChangeCount := min (automerge.getChanges durable).card U64_MAX }
  else
    return state.manifest

def promoteToJournal (journal : RecoveryJournal) : DurabilityM DurableCommitOutcome := do
  ensureAcceptingCommits
  let room ← get
  let state := room.state
  if let some current := room.journal then
    if current.path = journal.path then
      return .AlreadyDurable (statusFromState state)
    throw (.InvalidSnapshot ("room recovery journal is already bound to " ++ current.path))
  if state.manifest.canonicalPath.isNone || state.manifest.fileSaveSequence.isNone then
    throw (.InvalidSnapshot
      "a room must have a committed file checkpoint before journal promotion")
  let promoted ← ofExcept (promotedManifest automerge state)
  match append serde io promoted state.durableSnapshot journal with
  | .error error _ => degradeJournal error
  | .ok _ journal =>
    modify fun room => { room with journal := some journal }
    publish { state with manifest := promoted, hasDurableRecord := true }

-- Only a daemon snapshot is merged with the applied changes of the durable one.
def committedSnapshot (candidate : Document) (snapshot : Bytes) (durableHeads : List ChangeHash)
    (mutation : DurableMutation) : Except RoomDurabilityError (Bytes × List ChangeHash) :=
  if state.hasDurableRecord && mutation = .Daemon then do
    let durable ← loadSnapshot automerge state.durableSnapshot
    let missing := (automerge.getChanges durable).filter fun change =>
      !automerge.getChangeByHash candidate change
    let merged ← (automerge.applyChanges candidate missing).mapError .InvalidSnapshot
    return (automerge.save merged, automerge.getHeads merged)
  else
    return (snapshot, durableHeads)

-- An imported source is already on disk, so it is also the exported baseline.
def snapshotManifest (manifest : RecoveryManifest) (sequence : Nat) (durableHeads : List ChangeHash)
    (mutation : DurableMutation) : RecoveryManifest :=
  let manifest := { manifest with sequence := sequence, durableHeads := durableHeads }
  let manifest := match mutation with
    | .Source _ _ _ => { manifest with exportedHeads := durableHeads, fileSaveSequence := some 0 }
    | _ => manifest
  applyMutationToManifest manifest mutation

def commitSnapshot (snapshot : Bytes) (durableHeads : List ChangeHash) (mutation : DurableMutation) :
    DurabilityM DurableCommitOutcome := do
  ensureAcceptingCommits
  let candidate ← ofExcept (loadSnapshot automerge snapshot)
  let state := (← get).state
  let (committed, durableHeads) ←
    ofExcept (committedSnapshot automerge state candidate snapshot durableHeads mutation)
  if state.hasDurableRecord && state.manifest.durableHeads = durableHeads &&
      mutationIsAlreadyReflected state.manifest mutation then
    return .AlreadyDurable (statusFromState state)
  let sequence ← ofExcept (nextSequence state.manifest.sequence)
  commitState serde io {
    manifest := snapshotManifest state.manifest sequence durableHeads mutation
    durableSnapshot := committed
    hasDurableRecord := true
    degraded := none }

def commitStagedSource (stagedSnapshot : Bytes) (stagedHeads : List ChangeHash) (generation : Nat)
    (fingerprint : SourceFingerprint) (stagedChangeHashes : List ChangeHash) :
    DurabilityM DurableCommitOutcome := do
  ensureAcceptingCommits
  let staged ← ofExcept (loadSnapshot automerge stagedSnapshot)
  if !stagedHeads.all (fun head => automerge.getChangeByHash staged head) then
    throw (.InvalidSnapshot "staged source snapshot does not contain its declared heads")
  let mutation := DurableMutation.Source generation fingerprint stagedChangeHashes
  let state := (← get).state
  if state.hasDurableRecord && mutationIsAlreadyReflected state.manifest mutation &&
      state.manifest.exportedHeads = stagedHeads then
    if ← ofExcept (snapshotContainsHeads automerge state.durableSnapshot stagedHeads) then
      return .AlreadyDurable (statusFromState state)
  let durable ← ofExcept (loadSnapshot automerge state.durableSnapshot)
  let missing := (automerge.getChanges staged).filter fun change =>
    !automerge.getChangeByHash durable change
  let merged ← ofExcept ((automerge.applyChanges durable missing).mapError .InvalidSnapshot)
  let sequence ← ofExcept (nextSequence state.manifest.sequence)
  commitState serde io {
    manifest := applyMutationToManifest
      { state.manifest with
        sequence := sequence
        durableHeads := automerge.getHeads merged
        exportedHeads := stagedHeads
        fileSaveSequence := some 0 } mutation
    durableSnapshot := automerge.save merged
    hasDurableRecord := true
    degraded := none }

def commitSourceReady (generation : Nat) : DurabilityM DurableCommitOutcome := do
  ensureAcceptingCommits
  let state := (← get).state
  let durableGeneration := state.manifest.sourceGeneration
  if durableGeneration ≠ generation then
    throw (.InvalidSnapshot
      s!"source generation {generation} cannot complete durable generation {durableGeneration}")
  let mutation := DurableMutation.SourceReady generation
  if state.hasDurableRecord && mutationIsAlreadyReflected state.manifest mutation then
    return .AlreadyDurable (statusFromState state)
  if state.manifest.sourcePhase ≠ .DurablyStaged then
    throw (.InvalidSnapshot s!"source generation {generation} is not durably staged")
  let sequence ← ofExcept (nextSequence state.manifest.sequence)
  commitState serde io { state with
    manifest := applyMutationToManifest { state.manifest with sequence := sequence } mutation
    hasDurableRecord := true
    degraded := none }

def prepareFileCheckpoint (pending : PendingFileCheckpoint) : DurabilityM DurableCommitOutcome := do
  ensureAcceptingCommits
  let state := (← get).state
  if !(← ofExcept (snapshotContainsHeads automerge state.durableSnapshot pending.exportedHeads)) then
    throw .FileCheckpointHeadsNotDurable
  if state.manifest.pendingFileCheckpoint = some pending then
    return .AlreadyDurable (statusFromState state)
  if let some existing := state.manifest.pendingFileCheckpoint then
    let existingSequence := existing.saveSequence
    let saveSequence := pending.saveSequence
    throw (.InvalidSnapshot (s!"file checkpoint {existingSequence} is still pending before " ++
      s!"sequence {saveSequence} can prepare"))
  let sequence ← ofExcept (nextSequence state.manifest.sequence)
  commitState serde io { state with
    manifest :=
      { state.manifest with sequence := sequence, pendingFileCheckpoint := some pending }
    hasDurableRecord := true }

def abortFileCheckpoint (saveSequence : Nat) : DurabilityM DurableCommitOutcome := do
  ensureAcceptingCommits
  let state := (← get).state
  match state.manifest.pendingFileCheckpoint with
  | none => return .AlreadyDurable (statusFromState state)
  | some pending =>
    if pending.saveSequence ≠ saveSequence then
      let pendingSequence := pending.saveSequence
      throw (.InvalidSnapshot (s!"cannot abort checkpoint sequence {saveSequence}; " ++
        s!"sequence {pendingSequence} is pending"))
    let sequence ← ofExcept (nextSequence state.manifest.sequence)
    commitState serde io { state with
      manifest := { state.manifest with sequence := sequence, pendingFileCheckpoint := none } }

-- Before the baseline promotion and the sequence number.
def resolvedManifest (manifest : RecoveryManifest) (pending : PendingFileCheckpoint)
    (currentSourceFingerprint : SourceFingerprint) :
    Except RoomDurabilityError RecoveryManifest :=
  if currentSourceFingerprint = pending.fileFingerprint then
    .ok (applyMutationToManifest manifest (.FileCheckpoint pending))
  else if currentSourceFingerprint = manifest.sourceFingerprint then
    .ok { manifest with pendingFileCheckpoint := none }
  else
    .error (.SourceConflict manifest.sourceFingerprint currentSourceFingerprint)

def resolveRecoveredFileCheckpoint (currentSourceFingerprint : SourceFingerprint) :
    DurabilityM DurableCommitOutcome := do
  ensureAcceptingCommits
  let state := (← get).state
  match state.manifest.pendingFileCheckpoint with
  | none => return .AlreadyDurable (statusFromState state)
  | some pending =>
    let manifest ← ofExcept (resolvedManifest state.manifest pending currentSourceFingerprint)
    let manifest := promoteUnlessDegraded state.degraded manifest
    let sequence ← ofExcept (nextSequence manifest.sequence)
    commitState serde io { state with
      manifest := { manifest with sequence := sequence }
      hasDurableRecord := true
      degraded := none }

def checkpointReflected : Bool :=
  state.hasDurableRecord && mutationIsAlreadyReflected state.manifest (.FileCheckpoint checkpoint)

-- The manifest a file checkpoint leads to, before the sequence number.
def checkpointManifest : RecoveryManifest :=
  promoteUnlessDegraded state.degraded
    (if checkpointReflected state checkpoint then state.manifest
    else applyMutationToManifest state.manifest (.FileCheckpoint checkpoint))

-- commit_file_checkpoint passes no generation, commit_reconciled_file_checkpoint one.
def commitFileCheckpointWithGeneration : DurabilityM DurableCommitOutcome := do
  ensureAcceptingCommits
  let state := (← get).state
  if !(← ofExcept
      (snapshotContainsHeads automerge state.durableSnapshot checkpoint.exportedHeads)) then
    throw .FileCheckpointHeadsNotDurable
  if let some pending := state.manifest.pendingFileCheckpoint then
    if pending ≠ checkpoint then
      let saveSequence := checkpoint.saveSequence
      let pendingSequence := pending.saveSequence
      throw (.InvalidSnapshot (s!"file checkpoint sequence {saveSequence} does not match " ++
        s!"prepared intent {pendingSequence}"))
  let manifest := checkpointManifest state checkpoint
  if checkpointReflected state checkpoint && manifest = state.manifest then
    return .AlreadyDurable (statusFromState state)
  let sequence ← ofExcept (nextSequence manifest.sequence)
  commitState serde io { state with
    manifest := { manifest with sequence := sequence }
    hasDurableRecord := true }

structure ReconciledSourceCommit where
  status : RoomDurabilityStatus
  archivedDirectory : PathBuf
  archiveDurabilityWarning : Option String
deriving DecidableEq

-- The archive replacement reports its error without closing the boundary.
def replaceJournal (io : ArchiveIo) (manifest : RecoveryManifest) (snapshot : Bytes)
    (journal : RecoveryJournal) : DurabilityM RecoveryArchiveReplacement := do
  match archiveAndReplace serde io manifest snapshot journal with
  | .ok replacement journal =>
    modify fun room => { room with journal := some journal }
    return replacement
  | .error error journal =>
    modify fun room => { room with journal := some journal }
    throw (.Journal error)

def archiveAndCommitReconciledSource (io : ArchiveIo) (snapshot : Bytes)
    (durableHeads : List ChangeHash) (canonicalPath : PathBuf)
    (sourceFingerprint : SourceFingerprint) (sourceGeneration : Nat)
    (replacementChangeHashes : List ChangeHash) (saveSequence : Nat) :
    DurabilityM ReconciledSourceCommit := do
  ensureAcceptingCommits
  let candidate ← ofExcept (loadSnapshot automerge snapshot)
  if sortUnstable (automerge.getHeads candidate) ≠ sortUnstable durableHeads then
    throw (.InvalidSnapshot "reconciled source snapshot heads do not match the declared heads")
  let room ← get
  let state := room.state
  match room.journal with
  | none => throw .JournalUnavailable
  | some journal =>
    let sequence ← ofExcept (nextSequence state.manifest.sequence)
    let manifest :=
      { RecoveryManifest.new sequence state.manifest.notebookId (some canonicalPath)
          SCHEMA_VERSION sourceFingerprint sourceGeneration with
        sourcePhase := .DurablyStaged
        stagedChangeCount := min replacementChangeHashes.length U64_MAX
        durableHeads := durableHeads
        exportedHeads := durableHeads
        fileSaveSequence := some saveSequence }
    let replacement ← replaceJournal serde io manifest snapshot journal
    let next : DurabilityState := ⟨manifest, snapshot, true, none⟩
    let _ ← publish next
    return ⟨statusFromState next, replacement.archive.directory, replacement.durabilityWarning⟩

def commitPeerChanges (changes : List ChangeHash) : DurabilityM DurableCommitOutcome := do
  ensureAcceptingCommits
  if changes.isEmpty then
    return .AlreadyDurable (← get).status
  let state := (← get).state
  let durable ← ofExcept (loadSnapshot automerge state.durableSnapshot)
  let (durable, peerHashes) ← ofExcept (applyRetainedChangeBatch automerge durable changes)
  if peerHashes.isEmpty then
    return .AlreadyDurable (statusFromState state)
  let snapshot := automerge.save durable
  if snapshot = state.durableSnapshot then
    return .AlreadyDurable (statusFromState state)
  let sequence ← ofExcept (nextSequence state.manifest.sequence)
  commitState serde io {
    manifest := applyMutationToManifest
      { state.manifest with sequence := sequence, durableHeads := automerge.getHeads durable }
      (.Peer peerHashes)
    durableSnapshot := snapshot
    hasDurableRecord := true
    degraded := none }

def commitExternalSourceRevision (changes : List ChangeHash) (observedSource : SourceFingerprint)
    (canonicalPath : PathBuf) (saveSequence : Nat) : DurabilityM DurableCommitOutcome := do
  ensureAcceptingCommits
  let state := (← get).state
  if state.hasDurableRecord && state.manifest.durableHeads ≠ state.manifest.exportedHeads &&
      state.manifest.sourceFingerprint ≠ observedSource then
    throw (.SourceConflict state.manifest.sourceFingerprint observedSource)
  let durable ← ofExcept (loadSnapshot automerge state.durableSnapshot)
  let (durable, _) ← ofExcept (applyRetainedChangeBatch automerge durable changes)
  let durableHeads := automerge.getHeads durable
  let generation ← ofExcept (nextSequence state.manifest.sourceGeneration)
  let sequence ← ofExcept (nextSequence state.manifest.sequence)
  commitState serde io {
    manifest := { state.manifest with
      sequence := sequence
      sourceGeneration := generation
      sourcePhase := .DurablyStaged
      sourceFingerprint := observedSource
      stagedChangeCount := min changes.dedup.length U64_MAX
      durableHeads := durableHeads
      exportedHeads := durableHeads
      canonicalPath := some canonicalPath
      fileSaveSequence := some saveSequence }
    durableSnapshot := automerge.save durable
    hasDurableRecord := true
    degraded := none }

def setDegraded (degraded : Option RoomDegradation) (room : RoomDurability) : RoomDurability :=
  let state := { room.state with degraded := degraded }
  { room with state := state, status := statusFromState state }

def markDegraded (kind : DegradationKind) (reason : String) (room : RoomDurability) :
    RoomDurability :=
  setDegraded (some ⟨kind, reason⟩) room

end Nteract.Durability
