import Nteract.Automerge
import Nteract.Recovery.Json
import Nteract.Recovery.Journal

namespace Nteract.Durability

open Lib.Bytes Recovery

-- notebook_doc::SCHEMA_VERSION
def SCHEMA_VERSION : Nat := 5

inductive DegradationKind
  | DurabilityBoundary
  | SourceState
deriving DecidableEq

structure RoomDegradation where
  kind : DegradationKind
  reason : String
deriving DecidableEq

def RoomDegradation.boundary (reason : String) : RoomDegradation := ⟨.DurabilityBoundary, reason⟩

structure RoomDurabilityStatus where
  hasDurableRecord : Bool
  journalSequence : Nat
  durableHeads : List String
  exportedHeads : List String
  sourceGeneration : Nat
  sourcePhase : RecoverySourcePhase
  sourceFingerprint : SourceFingerprint
  hasPeerChanges : Bool
  degraded : Option RoomDegradation
deriving DecidableEq

inductive DurableMutation
  | Source (generation : Nat) (fingerprint : SourceFingerprint)
      (stagedChangeHashes : List ChangeHash)
  | Peer (changeHashes : List ChangeHash)
  | SourceReady (generation : Nat)
  | Daemon
  | FileCheckpoint (checkpoint : PendingFileCheckpoint)
deriving DecidableEq

inductive DurableCommitOutcome
  | Committed (status : RoomDurabilityStatus)
  | AlreadyDurable (status : RoomDurabilityStatus)
deriving DecidableEq

inductive RoomDurabilityError
  | Journal (error : RecoveryJournalError)
  | InvalidSnapshot (reason : String)
  | ShutdownInProgress
  | SequenceExhausted
  | FileCheckpointHeadsNotDurable
  | SourceConflict (journalSource observedSource : SourceFingerprint)
  | JournalUnavailable
deriving DecidableEq

def debugFingerprint (fingerprint : SourceFingerprint) : String :=
  "SourceFingerprint([" ++
    ", ".intercalate ((digestBytes fingerprint).map fun byte => toString byte.toNat) ++ "])"

def RoomDurabilityError.display : RoomDurabilityError → String
  | .Journal error => "room recovery journal failed: " ++ error.display
  | .InvalidSnapshot reason => "durable Automerge snapshot is invalid: " ++ reason
  | .ShutdownInProgress => "room durability commits are frozen for clean shutdown"
  | .SequenceExhausted => "room journal sequence is exhausted"
  | .FileCheckpointHeadsNotDurable =>
    "file checkpoint heads are not contained in the durable recovery snapshot"
  | .SourceConflict journalSource observedSource =>
    "external source changed while journal heads were not exported (journal source " ++
      debugFingerprint journalSource ++ ", observed source " ++
      debugFingerprint observedSource ++ ")"
  | .JournalUnavailable => "room does not have an active recovery journal"

structure DurabilityState where
  manifest : RecoveryManifest
  durableSnapshot : Bytes
  hasDurableRecord : Bool
  degraded : Option RoomDegradation
deriving DecidableEq

def hexEncode (digest : Digest) : String := String.ofList (hexDigits 64 digest.val)

def statusFromState (state : DurabilityState) : RoomDurabilityStatus where
  hasDurableRecord := state.hasDurableRecord
  journalSequence := state.manifest.sequence
  durableHeads := state.manifest.durableHeads.map hexEncode
  exportedHeads := state.manifest.exportedHeads.map hexEncode
  sourceGeneration := state.manifest.sourceGeneration
  sourcePhase := state.manifest.sourcePhase
  sourceFingerprint := state.manifest.sourceFingerprint
  hasPeerChanges := state.manifest.peerChangeCount > 0
  degraded := state.degraded

-- `status` is the value of the watch channel.
structure RoomDurability where
  journal : Option RecoveryJournal
  state : DurabilityState
  status : RoomDurabilityStatus
  acceptingCommits : Bool
deriving DecidableEq

abbrev DurabilityM := EStateM RoomDurabilityError RoomDurability

def promoteFullCoverageCheckpointBaseline (manifest : RecoveryManifest) : RecoveryManifest :=
  if (manifest.sourcePhase = .Pending ∨ manifest.sourcePhase = .Failed) ∧
      manifest.pendingFileCheckpoint = none ∧ manifest.fileCheckpointCoversDurableHeads then
    { manifest with sourcePhase := .DurablyStaged }
  else
    manifest

-- Callers promote only while the room is not degraded.
def promoteUnlessDegraded (degraded : Option RoomDegradation) (manifest : RecoveryManifest) :
    RecoveryManifest :=
  if degraded.isNone then promoteFullCoverageCheckpointBaseline manifest else manifest

def fromState (journal : Option RecoveryJournal) (manifest : RecoveryManifest)
    (durableSnapshot : Bytes) (hasDurableRecord : Bool) (degraded : Option RoomDegradation) :
    RoomDurability :=
  let state : DurabilityState := ⟨manifest, durableSnapshot, hasDurableRecord, degraded⟩
  ⟨journal, state, statusFromState state, true⟩

def journaled (journal : RecoveryJournal) (notebookId : Uuid) (canonicalPath : Option PathBuf)
    (sourceFingerprint : SourceFingerprint) (sourceGeneration : Nat) (genesisSnapshot : Bytes) :
    RoomDurability :=
  fromState (some journal)
    (.new 0 notebookId canonicalPath SCHEMA_VERSION sourceFingerprint sourceGeneration)
    genesisSnapshot false none

-- A preserved corrupt tail degrades the room; a torn one does not.
def recoveredDegradation (tail : Option JournalTailIssue) : Option RoomDegradation :=
  (tail.filter fun tail => !tail.isRepairableTornSuffix).map fun tail =>
    .boundary ("recovery journal has preserved corrupt data: " ++ tail.debug)

def recovered (journal : RecoveryJournal) (recovery : RecoveredJournalRecord) : RoomDurability :=
  let degraded := recoveredDegradation recovery.ignoredTail
  fromState (some journal) (promoteUnlessDegraded degraded recovery.record.manifest)
    recovery.record.automergeSnapshot true degraded

def volatile (notebookId : Uuid) (snapshot : Bytes) (heads : List ChangeHash) : RoomDurability :=
  fromState none
    { RecoveryManifest.new 0 notebookId none SCHEMA_VERSION (sourceFingerprint []) 0 with
      durableHeads := heads }
    snapshot true none

def applyMutationToManifest (manifest : RecoveryManifest) : DurableMutation → RecoveryManifest
  | .Source generation fingerprint stagedChangeHashes =>
    { manifest with
      sourceGeneration := generation
      sourceFingerprint := fingerprint
      sourcePhase := .DurablyStaged
      stagedChangeCount := min stagedChangeHashes.length U64_MAX }
  | .Peer changeHashes =>
    { manifest with
      peerChangeCount := saturatingAdd manifest.peerChangeCount (min changeHashes.length U64_MAX) }
  | .SourceReady generation =>
    { manifest with sourceGeneration := generation, sourcePhase := .Ready }
  | .Daemon => manifest
  | .FileCheckpoint checkpoint =>
    { manifest with
      canonicalPath := some checkpoint.canonicalPath
      sourceFingerprint := checkpoint.fileFingerprint
      exportedHeads := checkpoint.exportedHeads
      fileSaveSequence := some checkpoint.saveSequence
      sourceGeneration := checkpoint.sourceGeneration.getD manifest.sourceGeneration
      sourcePhase :=
        if checkpoint.sourceGeneration.isSome then .DurablyStaged else manifest.sourcePhase
      pendingFileCheckpoint := none }

def mutationIsAlreadyReflected (manifest : RecoveryManifest) : DurableMutation → Bool
  | .Source generation fingerprint stagedChangeHashes =>
    manifest.sourceGeneration = generation ∧ manifest.sourceFingerprint = fingerprint ∧
      manifest.stagedChangeCount = min stagedChangeHashes.length U64_MAX
  | .Peer _ => true
  | .SourceReady generation =>
    manifest.sourceGeneration = generation ∧ manifest.sourcePhase = .Ready
  | .Daemon => true
  | .FileCheckpoint checkpoint =>
    manifest.canonicalPath = some checkpoint.canonicalPath ∧
      manifest.sourceFingerprint = checkpoint.fileFingerprint ∧
      manifest.exportedHeads = checkpoint.exportedHeads ∧
      manifest.fileSaveSequence = some checkpoint.saveSequence ∧
      (∀ generation ∈ checkpoint.sourceGeneration, manifest.sourceGeneration = generation) ∧
      manifest.pendingFileCheckpoint = none

end Nteract.Durability
