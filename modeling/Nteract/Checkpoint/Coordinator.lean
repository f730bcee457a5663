import Nteract.Recovery.Manifest

namespace Nteract.Checkpoint

open Recovery

abbrev SystemTime := Nat

structure FileCheckpointTarget where
  path : PathBuf
  exportedHeads : List ChangeHash
  fileFingerprint : SourceFingerprint
  expectedExistingFingerprint : Option SourceFingerprint
deriving DecidableEq

structure FileCheckpoint where
  path : PathBuf
  exportedHeads : List ChangeHash
  fileFingerprint : SourceFingerprint
  saveSequence : Nat
  savedAt : SystemTime
deriving DecidableEq

structure FileCheckpointPreparation where
  path : PathBuf
  exportedHeads : List ChangeHash
  fileFingerprint : SourceFingerprint
  saveSequence : Nat
deriving DecidableEq

def FileCheckpointTarget.forContent (path : PathBuf) (exportedHeads : List ChangeHash)
    (content : Bytes) : FileCheckpointTarget :=
  ⟨path, exportedHeads, sourceFingerprint content, none⟩

def FileCheckpointTarget.matchesCheckpoint (target : FileCheckpointTarget)
    (checkpoint : FileCheckpoint) : Bool :=
  target.path = checkpoint.path && target.exportedHeads = checkpoint.exportedHeads &&
    target.fileFingerprint = checkpoint.fileFingerprint

inductive SaveIoStage
  | CreateTemp
  | WriteTemp
  | FlushTemp
  | Replace
deriving DecidableEq

inductive SaveBlockedReason
  | SequenceExhausted
  | ContentFingerprintMismatch (declared actual : SourceFingerprint)
  | ExistingContentChanged (expected : SourceFingerprint) (actual : Option SourceFingerprint)
  | Superseded (latestSequence : Nat)
  | Io (stage : SaveIoStage) (message : String)
  | Commit (message : String)
deriving DecidableEq

inductive SaveOutcome
  | Saved (checkpoint : FileCheckpoint)
  | AlreadyCurrent (checkpoint : FileCheckpoint) (claimSequence : Nat)
  | Blocked (saveSequence : Option Nat) (reason : SaveBlockedReason)
deriving DecidableEq

def SaveOutcome.succeeds : SaveOutcome → Bool
  | .Saved _ => true
  | .AlreadyCurrent _ _ => true
  | .Blocked _ _ => false

structure SaveClaim where
  sequence : Nat
  target : FileCheckpointTarget
  alreadyCurrent : Option FileCheckpoint
deriving DecidableEq

structure CheckpointState where
  latestReservedSequence : Nat
  latestBarrierSequence : Nat
  checkpoint : Option FileCheckpoint
deriving DecidableEq

def CheckpointState.new (initialCheckpoint : Option FileCheckpoint) : CheckpointState :=
  let initialSequence := (initialCheckpoint.map FileCheckpoint.saveSequence).getD 0
  ⟨initialSequence, initialSequence, initialCheckpoint⟩

namespace CheckpointState

variable (state : CheckpointState)

def reserve : Option (Nat × CheckpointState) :=
  (checkedAdd state.latestReservedSequence 1).map fun sequence =>
    (sequence, { state with latestReservedSequence := sequence })

def bind (sequence : Nat) (target : FileCheckpointTarget) : SaveClaim where
  sequence := sequence
  target := target
  alreadyCurrent := state.checkpoint.filter fun checkpoint => target.matchesCheckpoint checkpoint

def restore (checkpoint : FileCheckpoint) : CheckpointState :=
  if state.checkpoint.any fun current => current.saveSequence > checkpoint.saveSequence then
    state
  else
    { latestReservedSequence := max state.latestReservedSequence checkpoint.saveSequence
      latestBarrierSequence := max state.latestBarrierSequence checkpoint.saveSequence
      checkpoint := some checkpoint }

def superseded (claim : SaveClaim) : Option SaveOutcome :=
  if state.latestBarrierSequence > claim.sequence then
    some (.Blocked (some claim.sequence) (.Superseded state.latestBarrierSequence))
  else
    none

-- The file already has the bytes of this claim as far as the coordinator remembers.
def fastPath (claim : SaveClaim) (checkpoint : FileCheckpoint) :
    Option (SaveOutcome × CheckpointState) :=
  match state.superseded claim with
  | some outcome => some (outcome, state)
  | none =>
    if state.checkpoint = some checkpoint ∧ claim.target.matchesCheckpoint checkpoint then
      some (.AlreadyCurrent checkpoint claim.sequence,
        { state with latestBarrierSequence := claim.sequence })
    else
      none

-- The replacement is visible and the journal marker landed.
def published (checkpoint : FileCheckpoint) : CheckpointState :=
  { state with
    latestBarrierSequence := checkpoint.saveSequence
    checkpoint := some checkpoint }

-- The replacement is visible and the journal marker did not land.
def fenced (sequence : Nat) : CheckpointState :=
  { state with latestBarrierSequence := sequence }

end CheckpointState

def blockedIo (sequence : Nat) (stage : SaveIoStage) (message : String) : SaveOutcome :=
  .Blocked (some sequence) (.Io stage message)

variable (claim : SaveClaim)

def checkContent (content : Bytes) : Except SaveOutcome Unit :=
  if sourceFingerprint content ≠ claim.target.fileFingerprint then
    .error (.Blocked (some claim.sequence)
      (.ContentFingerprintMismatch claim.target.fileFingerprint (sourceFingerprint content)))
  else
    .ok ()

-- `found` is what reading the target gives: an error, no file, or its fingerprint.
def verifyExpectedExisting (found : Except String (Option SourceFingerprint)) :
    Except SaveOutcome Unit :=
  match claim.target.expectedExistingFingerprint with
  | none => .ok ()
  | some expected =>
    match found with
    | .error message => .error (blockedIo claim.sequence .Replace message)
    | .ok actual =>
      if actual = some expected then
        .ok ()
      else
        .error (.Blocked (some claim.sequence) (.ExistingContentChanged expected actual))

def SaveClaim.preparation : FileCheckpointPreparation where
  path := claim.target.path
  exportedHeads := claim.target.exportedHeads
  fileFingerprint := claim.target.fileFingerprint
  saveSequence := claim.sequence

def SaveClaim.checkpoint (savedAt : SystemTime) : FileCheckpoint where
  path := claim.target.path
  exportedHeads := claim.target.exportedHeads
  fileFingerprint := claim.target.fileFingerprint
  saveSequence := claim.sequence
  savedAt := savedAt

def abortedOutcome (sequence : Nat) (error : String) : Except String Unit → SaveOutcome
  | .ok () => blockedIo sequence .Replace error
  | .error abortError => .Blocked (some sequence) (.Commit
      (s!"file replacement failed ({error}); checkpoint intent abort failed: " ++ abortError))

end Nteract.Checkpoint
