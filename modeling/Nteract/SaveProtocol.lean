import Nteract.Checkpoint.Saves
import Nteract.Durability.Runs

namespace Nteract.SaveProtocol

open Checkpoint Durability Recovery

-- A reconciliation commits the generation it selected with the checkpoint.
inductive FileSaveIntent
  | Ordinary
  | Reconcile (sourceGeneration : Nat)
deriving DecidableEq

def FileSaveIntent.sourceGeneration : FileSaveIntent → Option Nat
  | .Ordinary => none
  | .Reconcile sourceGeneration => some sourceGeneration

def pendingCheckpoint (preparation : FileCheckpointPreparation) (intent : FileSaveIntent) :
    PendingFileCheckpoint :=
  ⟨preparation.path, preparation.fileFingerprint, preparation.exportedHeads,
    preparation.saveSequence, intent.sourceGeneration⟩

-- The commit callback builds the same fields from the checkpoint.
def committedCheckpoint (checkpoint : FileCheckpoint) (intent : FileSaveIntent) :
    PendingFileCheckpoint :=
  ⟨checkpoint.path, checkpoint.fileFingerprint, checkpoint.exportedHeads,
    checkpoint.saveSequence, intent.sourceGeneration⟩

abbrev Returns :=
  RoomDurability → Operation → Except RoomDurabilityError DurableCommitOutcome →
    RoomDurability → Prop

def PREPARE_FAILED : String :=
  "recovery journal checkpoint intent failed before replacement: "
def ABORT_FAILED : String := "recovery journal checkpoint intent abort failed: "
def COMMIT_FAILED : String :=
  "file replacement completed but recovery journal checkpoint failed: "
def RESOLVE_FAILED : String :=
  "source_degraded: could not resolve interrupted file checkpoint: "

-- A callback makes one call; its error degrades the room and is the answer.
def Answers (returns : Returns) (op : Operation) (context : String) (room : RoomDurability)
    (answer : Except String Unit) (after : RoomDurability) : Prop :=
  (∃ outcome, returns room op (.ok outcome) after ∧ answer = .ok ()) ∨
    ∃ error failed, returns room op (.error error) failed ∧
      answer = .error (context ++ error.display) ∧
      after = markDegraded .DurabilityBoundary (context ++ error.display) failed

-- The calls of a room that change neither its source nor an intent.
def Quiet : Operation → Bool
  | .CommitPeerChanges _ => true
  | .CommitSnapshot _ _ mutation => mutation = .Daemon
  | .CommitSourceReady _ => true
  | _ => false

-- No file revision is selected from disk here.
def durabilityCallbacks (returns : Returns) : Callbacks RoomDurability where
  prepare preparation room answer after := ∃ intent,
    Answers returns (.PrepareFileCheckpoint (pendingCheckpoint preparation intent))
      PREPARE_FAILED room answer after
  abort preparation room answer after :=
    Answers returns (.AbortFileCheckpoint preparation.saveSequence) ABORT_FAILED room answer after
  commit checkpoint room answer after := ∃ intent,
    Answers returns (.CommitFileCheckpoint (committedCheckpoint checkpoint intent)) COMMIT_FAILED
      room answer after
  commitExisting _ _ _ _ := False
  other room after :=
    (∃ op result, Quiet op = true ∧ returns room op result after) ∨
      (∃ degraded, after = setDegraded degraded room) ∨
      ∃ accepting, after = { room with acceptingCommits := accepting }

-- Between a restart and the end of its startup the room takes no saves.
structure Site where
  world : World RoomDurability
  starting : Bool

inductive Interrupted
  | Idle
  | Saving (event : SaveEvent)
  | Resolving

inductive SiteEvent
  | Save (event : SaveEvent)
  | Crash (interrupted : Interrupted)
  | Open (resolution : Option (Except RoomDurabilityError DurableCommitOutcome)) (conflict : Bool)

-- What `load` says, unless resolving the intent settles it.
def startupSourceConflict (loaded : RecoveryLoadOutcome) (fingerprint : SourceFingerprint) :
    Option (Except RoomDurabilityError DurableCommitOutcome × RoomDurability) → Bool :=
  let provisional := match loaded with
    | .SourceConflict _ _ => true
    | _ => false
  fun
  | none => provisional
  | some (.ok _, room) =>
    if room.status.sourceFingerprint = fingerprint then false else provisional
  | some (.error (.SourceConflict _ _), _) => true
  | some (.error _, _) => provisional

-- The coordinator of an opened room remembers the checkpoint of its manifest.
def restoredCheckpoint (savedAt : SystemTime) (room : RoomDurability) : CheckpointState :=
  let manifest := room.state.manifest
  match manifest.fileSaveSequence, manifest.canonicalPath with
  | some saveSequence, some path =>
    if room.status.hasDurableRecord then
      (CheckpointState.new none).restore
        ⟨path, manifest.exportedHeads, manifest.sourceFingerprint, saveSequence, savedAt⟩
    else
      .new none
  | _, _ => .new none

def freshWorld (room : RoomDurability) (disk : PathBuf → Option Bytes) : World RoomDurability where
  state := .new none
  disk := disk
  saves _ := none
  holder := none
  shared := room
  replacements := []

-- What startup makes of the journal it finds beside the bytes of the notebook.
inductive Reloads (serde : ManifestSerde) (source : Bytes) (journal : RecoveryJournal) :
    RoomDurability → Prop
  | recovered :
      latestRecord serde journal.reopen = .Recovered recovery →
      Reloads serde source journal (recovered journal.reopen recovery)
  | created (notebookId : Uuid)
      (canonicalPath : Option PathBuf) (genesis : Bytes) :
      latestRecord serde journal.reopen = .Unavailable reason →
      Reloads serde source journal (journaled journal.reopen notebookId canonicalPath
        (sourceFingerprint source) 0 genesis)

variable (automerge : Automerge) (serde : ManifestSerde) (path : PathBuf)

-- Calls of a process that goes on, and calls of one that dies before it looks again.
def Living : Returns := fun room op result after =>
  RoomStep automerge serde room (.Returned op result) after

def Dying : Returns := fun room op result after =>
  ∃ io, CallStep automerge serde room ⟨io, op, result⟩ after

def SavesPath (world : World RoomDurability) : Prop :=
  ∀ sequence stage, world.saves sequence = some stage → ∀ save, stage.save = some save →
    save.claim.target.path = path

-- The room resolves the intent it found and tells what came of it.
inductive Resolves (source : Bytes) (room : RoomDurability) :
    Option (Except RoomDurabilityError DurableCommitOutcome × RoomDurability) →
    RoomDurability → Prop
  | nothing : room.state.manifest.pendingFileCheckpoint = none → Resolves source room none room
  | resolved :
      room.state.manifest.pendingFileCheckpoint ≠ none →
      Living automerge serde room (.ResolveRecoveredFileCheckpoint (sourceFingerprint source))
        (.ok outcome) after →
      Resolves source room (some (.ok outcome, after)) after
  | conflict :
      room.state.manifest.pendingFileCheckpoint ≠ none →
      Living automerge serde room (.ResolveRecoveredFileCheckpoint (sourceFingerprint source))
        (.error (.SourceConflict journalSource observedSource)) after →
      Resolves source room
        (some (.error (.SourceConflict journalSource observedSource), after)) after
  | degraded :
      room.state.manifest.pendingFileCheckpoint ≠ none →
      (∀ journalSource observedSource, error ≠ .SourceConflict journalSource observedSource) →
      Living automerge serde room (.ResolveRecoveredFileCheckpoint (sourceFingerprint source))
        (.error error) after →
      Resolves source room (some (.error error, after))
        (markDegraded .DurabilityBoundary (RESOLVE_FAILED ++ error.display) after)

inductive SiteStep : Site → SiteEvent → Site → Prop
  | saved :
      SaveStep (durabilityCallbacks (Living automerge serde)) world event after →
      SavesPath path after → SiteStep ⟨world, false⟩ (.Save event) ⟨after, false⟩
  | stopped :
      world.shared.journal = some journal → world.disk path = some source →
      Reloads serde source journal room →
      SiteStep ⟨world, starting⟩ (.Crash .Idle) ⟨freshWorld room world.disk, true⟩
  | interrupted :
      SaveStep (durabilityCallbacks (Dying automerge serde)) world event dying →
      SavesPath path dying → dying.shared.journal = some journal → dying.disk path = some source →
      Reloads serde source journal room →
      SiteStep ⟨world, false⟩ (.Crash (.Saving event)) ⟨freshWorld room dying.disk, true⟩
  | unresolved :
      world.disk path = some source →
      Dying automerge serde world.shared
        (.ResolveRecoveredFileCheckpoint (sourceFingerprint source)) result dying →
      dying.journal = some journal → Reloads serde source journal room →
      SiteStep ⟨world, true⟩ (.Crash .Resolving) ⟨freshWorld room world.disk, true⟩
  | opened (savedAt : SystemTime) :
      world.shared.journal = some journal → world.disk path = some source →
      Resolves automerge serde source world.shared resolution room →
      SiteStep ⟨world, true⟩
        (.Open (resolution.map Prod.fst)
          (startupSourceConflict (load serde journal (sourceFingerprint source))
            (sourceFingerprint source) resolution))
        ⟨{ world with state := restoredCheckpoint savedAt room, shared := room }, false⟩

end Nteract.SaveProtocol
