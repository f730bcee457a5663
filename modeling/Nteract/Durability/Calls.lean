import Nteract.Durability.Operations
import Nteract.Lib.Effect

namespace Nteract.Durability

open Lib.Effect Recovery

inductive Operation
  | PromoteToJournal (journal : RecoveryJournal)
  | CommitSnapshot (snapshot : Bytes) (durableHeads : List ChangeHash) (mutation : DurableMutation)
  | CommitStagedSource (stagedSnapshot : Bytes) (stagedHeads : List ChangeHash) (generation : Nat)
      (fingerprint : SourceFingerprint) (stagedChangeHashes : List ChangeHash)
  | CommitSourceReady (generation : Nat)
  | PrepareFileCheckpoint (pending : PendingFileCheckpoint)
  | AbortFileCheckpoint (saveSequence : Nat)
  | ResolveRecoveredFileCheckpoint (currentSourceFingerprint : SourceFingerprint)
  | CommitFileCheckpoint (checkpoint : PendingFileCheckpoint)
  | ArchiveAndCommitReconciledSource (snapshot : Bytes) (durableHeads : List ChangeHash)
      (canonicalPath : PathBuf) (sourceFingerprint : SourceFingerprint) (sourceGeneration : Nat)
      (replacementChangeHashes : List ChangeHash) (saveSequence : Nat)
  | CommitPeerChanges (changes : List ChangeHash)
  | CommitExternalSourceRevision (changes : List ChangeHash) (observedSource : SourceFingerprint)
      (canonicalPath : PathBuf) (saveSequence : Nat)

structure JournalIo where
  append : AppendIo
  archive : ArchiveIo

def JournalIo.works (stamp : Nat) : JournalIo where
  append := .works stamp
  archive := ⟨.ok ⟨"/docs/archive", "/docs/archive/a.recovery", none⟩, .Replaced,
    true, some stamp, true⟩

variable (automerge : Automerge) (serde : ManifestSerde)

def call (io : JournalIo) : Operation → DurabilityM DurableCommitOutcome
  | .PromoteToJournal journal => promoteToJournal automerge serde io.append journal
  | .CommitSnapshot snapshot durableHeads mutation =>
    commitSnapshot automerge serde io.append snapshot durableHeads mutation
  | .CommitStagedSource stagedSnapshot stagedHeads generation fingerprint stagedChangeHashes =>
    commitStagedSource automerge serde io.append stagedSnapshot stagedHeads generation fingerprint
      stagedChangeHashes
  | .CommitSourceReady generation => commitSourceReady serde io.append generation
  | .PrepareFileCheckpoint pending => prepareFileCheckpoint automerge serde io.append pending
  | .AbortFileCheckpoint saveSequence => abortFileCheckpoint serde io.append saveSequence
  | .ResolveRecoveredFileCheckpoint currentSourceFingerprint =>
    resolveRecoveredFileCheckpoint serde io.append currentSourceFingerprint
  | .CommitFileCheckpoint checkpoint =>
    commitFileCheckpointWithGeneration automerge serde io.append checkpoint
  | .ArchiveAndCommitReconciledSource snapshot durableHeads canonicalPath sourceFingerprint
      sourceGeneration replacementChangeHashes saveSequence => do
      let commit ← archiveAndCommitReconciledSource automerge serde io.archive snapshot durableHeads
        canonicalPath sourceFingerprint sourceGeneration replacementChangeHashes saveSequence
      return .Committed commit.status
  | .CommitPeerChanges changes => commitPeerChanges automerge serde io.append changes
  | .CommitExternalSourceRevision changes observedSource canonicalPath saveSequence =>
    commitExternalSourceRevision automerge serde io.append changes observedSource canonicalPath
      saveSequence

-- `Records op state next`: the operation passes its checks and goes on to record `next`.
inductive Records : Operation → DurabilityState → DurabilityState → Prop
  | promote :
      state.manifest.canonicalPath.isSome → state.manifest.fileSaveSequence.isSome →
      promotedManifest automerge state = .ok promoted →
      Records (.PromoteToJournal journal) state
        { state with manifest := promoted, hasDurableRecord := true }
  | snapshot {sequence} :
      loadSnapshot automerge snapshot = .ok candidate →
      committedSnapshot automerge state candidate snapshot durableHeads mutation =
        .ok (committed, heads) →
      ¬ (state.hasDurableRecord = true ∧ state.manifest.durableHeads = heads ∧
        mutationIsAlreadyReflected state.manifest mutation = true) →
      nextSequence state.manifest.sequence = .ok sequence →
      Records (.CommitSnapshot snapshot durableHeads mutation) state
        ⟨snapshotManifest state.manifest sequence heads mutation, committed, true, none⟩
  | stagedSource {sequence} :
      loadSnapshot automerge stagedSnapshot = .ok staged →
      (∀ head ∈ stagedHeads, head ∈ automerge.getChanges staged) →
      loadSnapshot automerge state.durableSnapshot = .ok durable →
      automerge.applyChanges durable ((automerge.getChanges staged).filter fun change =>
        !automerge.getChangeByHash durable change) = .ok merged →
      nextSequence state.manifest.sequence = .ok sequence →
      Records (.CommitStagedSource stagedSnapshot stagedHeads generation fingerprint
          stagedChangeHashes) state
        { manifest := applyMutationToManifest
            { state.manifest with
              sequence := sequence
              durableHeads := automerge.getHeads merged
              exportedHeads := stagedHeads
              fileSaveSequence := some 0 }
            (.Source generation fingerprint stagedChangeHashes)
          durableSnapshot := automerge.save merged
          hasDurableRecord := true
          degraded := none }
  | sourceReady {sequence} :
      state.manifest.sourceGeneration = generation →
      state.manifest.sourcePhase = .DurablyStaged →
      nextSequence state.manifest.sequence = .ok sequence →
      Records (.CommitSourceReady generation) state
        { state with
          manifest := applyMutationToManifest { state.manifest with sequence := sequence }
            (.SourceReady generation)
          hasDurableRecord := true
          degraded := none }
  | prepare {sequence} :
      snapshotContainsHeads automerge state.durableSnapshot pending.exportedHeads = .ok true →
      state.manifest.pendingFileCheckpoint = none →
      nextSequence state.manifest.sequence = .ok sequence →
      Records (.PrepareFileCheckpoint pending) state
        { state with
          manifest :=
            { state.manifest with sequence := sequence, pendingFileCheckpoint := some pending }
          hasDurableRecord := true }
  | abort {sequence} :
      state.manifest.pendingFileCheckpoint = some pending →
      nextSequence state.manifest.sequence = .ok sequence →
      Records (.AbortFileCheckpoint pending.saveSequence) state
        { state with
          manifest := { state.manifest with sequence := sequence, pendingFileCheckpoint := none } }
  | resolve {sequence} :
      state.manifest.pendingFileCheckpoint = some pending →
      resolvedManifest state.manifest pending fingerprint = .ok resolved →
      nextSequence (promoteUnlessDegraded state.degraded resolved).sequence = .ok sequence →
      Records (.ResolveRecoveredFileCheckpoint fingerprint) state
        { state with
          manifest :=
            { promoteUnlessDegraded state.degraded resolved with sequence := sequence }
          hasDurableRecord := true
          degraded := none }
  | checkpoint {sequence} :
      snapshotContainsHeads automerge state.durableSnapshot checkpoint.exportedHeads = .ok true →
      (∀ pending, state.manifest.pendingFileCheckpoint = some pending → pending = checkpoint) →
      nextSequence (checkpointManifest state checkpoint).sequence = .ok sequence →
      Records (.CommitFileCheckpoint checkpoint) state
        { state with
          manifest := { checkpointManifest state checkpoint with sequence := sequence }
          hasDurableRecord := true }
  | archive {sequence} {sourceFingerprint : SourceFingerprint} :
      loadSnapshot automerge snapshot = .ok candidate →
      sortUnstable (automerge.getHeads candidate) = sortUnstable durableHeads →
      nextSequence state.manifest.sequence = .ok sequence →
      Records (.ArchiveAndCommitReconciledSource snapshot durableHeads canonicalPath
          sourceFingerprint sourceGeneration replacementChangeHashes saveSequence) state
        { manifest :=
            { RecoveryManifest.new sequence state.manifest.notebookId (some canonicalPath)
                SCHEMA_VERSION sourceFingerprint sourceGeneration with
              sourcePhase := .DurablyStaged
              stagedChangeCount := min replacementChangeHashes.length U64_MAX
              durableHeads := durableHeads
              exportedHeads := durableHeads
              fileSaveSequence := some saveSequence }
          durableSnapshot := snapshot
          hasDurableRecord := true
          degraded := none }
  | peerChanges {sequence} :
      loadSnapshot automerge state.durableSnapshot = .ok durable →
      applyRetainedChangeBatch automerge durable changes = .ok (merged, peerHashes) →
      nextSequence state.manifest.sequence = .ok sequence →
      Records (.CommitPeerChanges changes) state
        { manifest := applyMutationToManifest
            { state.manifest with sequence := sequence, durableHeads := automerge.getHeads merged }
            (.Peer peerHashes)
          durableSnapshot := automerge.save merged
          hasDurableRecord := true
          degraded := none }
  | externalSource {sequence} :
      loadSnapshot automerge state.durableSnapshot = .ok durable →
      applyRetainedChangeBatch automerge durable changes = .ok (merged, missing) →
      nextSequence state.manifest.sourceGeneration = .ok generation →
      nextSequence state.manifest.sequence = .ok sequence →
      Records (.CommitExternalSourceRevision changes observedSource canonicalPath saveSequence) state
        { manifest := { state.manifest with
            sequence := sequence
            sourceGeneration := generation
            sourcePhase := .DurablyStaged
            sourceFingerprint := observedSource
            stagedChangeCount := min changes.dedup.length U64_MAX
            durableHeads := automerge.getHeads merged
            exportedHeads := automerge.getHeads merged
            canonicalPath := some canonicalPath
            fileSaveSequence := some saveSequence }
          durableSnapshot := automerge.save merged
          hasDurableRecord := true
          degraded := none }

-- `Skips op room status`: the operation finds its effect already recorded.
inductive Skips : Operation → RoomDurability → RoomDurabilityStatus → Prop
  | promote :
      room.acceptingCommits = true → room.journal = some current → current.path = journal.path →
      Skips (.PromoteToJournal journal) room (statusFromState room.state)
  | snapshot :
      room.acceptingCommits = true →
      loadSnapshot automerge snapshot = .ok candidate →
      committedSnapshot automerge room.state candidate snapshot durableHeads mutation =
        .ok (committed, heads) →
      room.state.hasDurableRecord = true → room.state.manifest.durableHeads = heads →
      mutationIsAlreadyReflected room.state.manifest mutation = true →
      Skips (.CommitSnapshot snapshot durableHeads mutation) room (statusFromState room.state)
  | stagedSource :
      room.acceptingCommits = true →
      loadSnapshot automerge stagedSnapshot = .ok staged →
      (∀ head ∈ stagedHeads, head ∈ automerge.getChanges staged) →
      room.state.hasDurableRecord = true →
      mutationIsAlreadyReflected room.state.manifest
        (.Source generation fingerprint stagedChangeHashes) = true →
      room.state.manifest.exportedHeads = stagedHeads →
      snapshotContainsHeads automerge room.state.durableSnapshot stagedHeads = .ok true →
      Skips (.CommitStagedSource stagedSnapshot stagedHeads generation fingerprint
        stagedChangeHashes) room (statusFromState room.state)
  | sourceReady :
      room.acceptingCommits = true → room.state.hasDurableRecord = true →
      room.state.manifest.sourceGeneration = generation →
      room.state.manifest.sourcePhase = .Ready →
      Skips (.CommitSourceReady generation) room (statusFromState room.state)
  | prepare :
      room.acceptingCommits = true →
      snapshotContainsHeads automerge room.state.durableSnapshot pending.exportedHeads = .ok true →
      room.state.manifest.pendingFileCheckpoint = some pending →
      Skips (.PrepareFileCheckpoint pending) room (statusFromState room.state)
  | abort :
      room.acceptingCommits = true → room.state.manifest.pendingFileCheckpoint = none →
      Skips (.AbortFileCheckpoint saveSequence) room (statusFromState room.state)
  | resolve :
      room.acceptingCommits = true → room.state.manifest.pendingFileCheckpoint = none →
      Skips (.ResolveRecoveredFileCheckpoint fingerprint) room (statusFromState room.state)
  | checkpoint :
      room.acceptingCommits = true →
      snapshotContainsHeads automerge room.state.durableSnapshot checkpoint.exportedHeads =
        .ok true →
      checkpointReflected room.state checkpoint = true →
      checkpointManifest room.state checkpoint = room.state.manifest →
      Skips (.CommitFileCheckpoint checkpoint) room (statusFromState room.state)
  | noPeerChanges :
      room.acceptingCommits = true → Skips (.CommitPeerChanges []) room room.status
  | peerChanges :
      room.acceptingCommits = true → changes ≠ [] →
      loadSnapshot automerge room.state.durableSnapshot = .ok durable →
      applyRetainedChangeBatch automerge durable changes = .ok (merged, peerHashes) →
      (peerHashes = [] ∨ automerge.save merged = room.state.durableSnapshot) →
      Skips (.CommitPeerChanges changes) room (statusFromState room.state)

def Appended (io : AppendIo) (next : DurabilityState) :
    Option RecoveryJournal → Option RecoveryJournal → Prop
  | none, after => after = none
  | some journal, after => ∃ appended,
      append serde io next.manifest next.durableSnapshot journal = .ok () appended ∧
      after = some appended

def AppendFailed (io : AppendIo) (next : DurabilityState) (before : Option RecoveryJournal)
    (error : RecoveryJournalError) (after : RecoveryJournal) : Prop :=
  ∃ journal, before = some journal ∧
    append serde io next.manifest next.durableSnapshot journal = .error error after

def RoomDurability.publishing (room : RoomDurability) (next : DurabilityState)
    (journal : Option RecoveryJournal) : RoomDurability :=
  { room with journal := journal, state := next, status := statusFromState next }

def RoomDurability.degrading (room : RoomDurability) (error : RecoveryJournalError)
    (journal : Option RecoveryJournal) : RoomDurability :=
  setDegraded (some (.boundary error.display)) { room with journal := journal }

-- How the record of `next` reaches the journal, and how that can fail.
section Answers

variable (io : JournalIo) (op : Operation) (room : RoomDurability)

def Recorded (next : DurabilityState) (after : Option RecoveryJournal) : Prop :=
  match op with
  | .PromoteToJournal journal =>
    room.journal = none ∧ Appended serde io.append next (some journal) after
  | .ArchiveAndCommitReconciledSource _ _ _ _ _ _ _ => ∃ journal replacement replaced,
      room.journal = some journal ∧
      archiveAndReplace serde io.archive next.manifest next.durableSnapshot journal =
        .ok replacement replaced ∧ after = some replaced
  | _ => Appended serde io.append next room.journal after

def RecordFailed (next : DurabilityState) (error : RecoveryJournalError)
    (after : RoomDurability) : Prop :=
  match op with
  | .PromoteToJournal journal => room.journal = none ∧
      (∃ failed, AppendFailed serde io.append next (some journal) error failed) ∧
      after = room.degrading error none
  | .ArchiveAndCommitReconciledSource _ _ _ _ _ _ _ => ∃ journal failed,
      room.journal = some journal ∧
      archiveAndReplace serde io.archive next.manifest next.durableSnapshot journal =
        .error error failed ∧ after = { room with journal := some failed }
  | _ => ∃ failed, AppendFailed serde io.append next room.journal error failed ∧
      after = room.degrading error (some failed)

inductive CallOk : DurableCommitOutcome → RoomDurability → Prop
  | already : Skips automerge op room status → CallOk (.AlreadyDurable status) room
  | committed :
      room.acceptingCommits = true → Records automerge op room.state next →
      Recorded serde io op room next journal →
      CallOk (.Committed (statusFromState next)) (room.publishing next journal)

inductive CallError : RoomDurabilityError → RoomDurability → Prop
  | rejected (error : RoomDurabilityError) : CallError error room
  | journal :
      room.acceptingCommits = true → Records automerge op room.state next →
      RecordFailed serde io op room next error after → CallError (.Journal error) after

end Answers

structure CallEvent where
  io : JournalIo
  op : Operation
  result : Except RoomDurabilityError DurableCommitOutcome

def DurableCommitOutcome.isCommitted : DurableCommitOutcome → Bool
  | .Committed _ => true
  | .AlreadyDurable _ => false

def CallEvent.commits (event : CallEvent) : Bool :=
  match event.result with
  | .ok outcome => outcome.isCommitted
  | .error _ => false

inductive CallStep : RoomDurability → CallEvent → RoomDurability → Prop
  | ok : call automerge serde io op room = .ok outcome after →
      CallStep room ⟨io, op, .ok outcome⟩ after
  | error : call automerge serde io op room = .error error after →
      CallStep room ⟨io, op, .error error⟩ after

end Nteract.Durability
