import Nteract.Checkpoint.Coordinator

namespace Nteract.Checkpoint

open Recovery

structure Save where
  claim : SaveClaim
  content : Bytes
deriving DecidableEq

-- `Locked` to `Replaced` hold the lock; `Crossed` and `Selected` have passed an ordering boundary.
inductive Stage
  | Reserved
  | Bound (save : Save)
  | Verified (save : Save)
  | Unwritten (save : Save)
  | Written (save : Save)
  | Locked (save : Save)
  | Prepared (save : Save)
  | Renamed (save : Save)
  | Replaced (save : Save)
  | Aborting (save : Save) (error : String)
  | Rejected (save : Save) (outcome : SaveOutcome)
  | Crossed (save : Save) (outcome : SaveOutcome)
  | Selected (checkpoint : FileCheckpoint)
  | NotSelected (reason : SaveBlockedReason)
  | Abandoned
deriving DecidableEq

def Stage.locked : Stage → Bool
  | .Locked _ | .Prepared _ | .Renamed _ | .Replaced _ => true
  | _ => false

def Stage.crossed : Stage → Bool
  | .Crossed _ _ | .Selected _ => true
  | _ => false

def Stage.save : Stage → Option Save
  | .Bound save | .Verified save | .Unwritten save | .Written save | .Locked save
  | .Prepared save | .Renamed save | .Replaced save | .Aborting save _ | .Rejected save _
  | .Crossed save _ => some save
  | .Reserved | .Selected _ | .NotSelected _ | .Abandoned => none

-- A request that can be dropped: it has not entered its locked section.
def Stage.waiting : Stage → Bool
  | .Reserved | .Bound _ | .Verified _ | .Unwritten _ | .Written _ => true
  | _ => false

structure Replacement where
  sequence : Nat
  path : PathBuf
  content : Bytes
deriving DecidableEq

-- `shared` is what the callbacks act on, `replacements` every rename, latest first.
structure World (σ : Type) where
  state : CheckpointState
  disk : PathBuf → Option Bytes
  saves : Nat → Option Stage
  holder : Option Nat
  shared : σ
  replacements : List Replacement

-- What the callbacks may answer and do, and what others may do to the shared part.
structure Callbacks (σ : Type) where
  prepare : FileCheckpointPreparation → σ → Except String Unit → σ → Prop
  abort : FileCheckpointPreparation → σ → Except String Unit → σ → Prop
  commit : FileCheckpoint → σ → Except String Unit → σ → Prop
  commitExisting : FileCheckpoint → σ → Except String Unit → σ → Prop
  other : σ → σ → Prop

inductive SaveEvent
  | Reserve
  | Abandon (sequence : Nat)
  | Bind (sequence : Nat)
  | Check (sequence : Nat)
  | FastPath (sequence : Nat)
  | WriteTemp (sequence : Nat)
  | Enter (sequence : Nat)
  | Prepare (sequence : Nat)
  | Rename (sequence : Nat) (failure : Option String)
  | SyncParent (sequence : Nat) (failure : Option String)
  | Commit (sequence : Nat) (failure : Option String)
  | Abort (sequence : Nat)
  | CommitExisting (checkpoint : FileCheckpoint)
  | Other
deriving DecidableEq

namespace World

variable {σ : Type} (world : World σ)

def put (sequence : Nat) (stage : Stage) : World σ :=
  { world with saves := Function.update world.saves sequence (some stage) }

def Reads (path : PathBuf) (found : Except String (Option SourceFingerprint)) : Prop :=
  (∃ message, found = .error message) ∨ found = .ok ((world.disk path).map sourceFingerprint)

def rename (save : Save) : World σ :=
  { world with
    disk := Function.update world.disk save.claim.target.path (some save.content)
    replacements :=
      ⟨save.claim.sequence, save.claim.target.path, save.content⟩ :: world.replacements }

end World

-- The atomic actions of `reserve`, `complete_reserved_with_durable_intent` and
-- `commit_existing_with`. Where the code locks, the lock is free.
inductive SaveStep {σ : Type} (callbacks : Callbacks σ) :
    World σ → SaveEvent → World σ → Prop
  | reserved {sequence} :
      world.holder = none → world.state.reserve = some (sequence, state) →
      SaveStep callbacks world .Reserve ({ world with state := state }.put sequence .Reserved)
  | exhausted :
      world.holder = none → world.state.reserve = none → SaveStep callbacks world .Reserve world
  | abandoned {sequence} :
      world.saves sequence = some stage → stage.waiting = true →
      SaveStep callbacks world (.Abandon sequence) (world.put sequence .Abandoned)
  | bound {sequence} (target : FileCheckpointTarget) (content : Bytes) :
      world.holder = none → world.saves sequence = some .Reserved →
      SaveStep callbacks world (.Bind sequence)
        (world.put sequence (.Bound ⟨world.state.bind sequence target, content⟩))
  | verified {sequence} :
      world.saves sequence = some (.Bound save) → world.Reads save.claim.target.path found →
      checkContent save.claim save.content = .ok () →
      verifyExpectedExisting save.claim found = .ok () →
      SaveStep callbacks world (.Check sequence) (world.put sequence (.Verified save))
  | unverified {sequence} :
      world.saves sequence = some (.Bound save) → world.Reads save.claim.target.path found →
      (checkContent save.claim save.content = .error outcome ∨
        checkContent save.claim save.content = .ok () ∧
          verifyExpectedExisting save.claim found = .error outcome) →
      SaveStep callbacks world (.Check sequence) (world.put sequence (.Rejected save outcome))
  | stale {sequence} :
      world.saves sequence = some (.Verified save) → save.claim.alreadyCurrent = none →
      SaveStep callbacks world (.FastPath sequence) (world.put sequence (.Unwritten save))
  | outdated {sequence} :
      world.saves sequence = some (.Verified save) →
      save.claim.alreadyCurrent = some checkpoint → world.holder = none →
      world.state.fastPath save.claim checkpoint = none →
      SaveStep callbacks world (.FastPath sequence) (world.put sequence (.Unwritten save))
  | answered {sequence} :
      world.saves sequence = some (.Verified save) →
      save.claim.alreadyCurrent = some checkpoint → world.holder = none →
      world.state.fastPath save.claim checkpoint = some (outcome, state) →
      SaveStep callbacks world (.FastPath sequence) ({ world with state := state }.put sequence
        (if outcome.succeeds then .Crossed save outcome else .Rejected save outcome))
  | written {sequence} :
      world.saves sequence = some (.Unwritten save) →
      SaveStep callbacks world (.WriteTemp sequence) (world.put sequence (.Written save))
  | unwritten {sequence} :
      world.saves sequence = some (.Unwritten save) → stage ≠ .Replace →
      SaveStep callbacks world (.WriteTemp sequence)
        (world.put sequence (.Rejected save (blockedIo save.claim.sequence stage message)))
  | superseded {sequence} :
      world.saves sequence = some (.Written save) → world.holder = none →
      world.state.superseded save.claim = some outcome →
      SaveStep callbacks world (.Enter sequence) (world.put sequence (.Rejected save outcome))
  | edited {sequence} :
      world.saves sequence = some (.Written save) → world.holder = none →
      world.state.superseded save.claim = none → world.Reads save.claim.target.path found →
      verifyExpectedExisting save.claim found = .error outcome →
      SaveStep callbacks world (.Enter sequence) (world.put sequence (.Rejected save outcome))
  | entered {sequence} :
      world.saves sequence = some (.Written save) → world.holder = none →
      world.state.superseded save.claim = none → world.Reads save.claim.target.path found →
      verifyExpectedExisting save.claim found = .ok () →
      SaveStep callbacks world (.Enter sequence)
        ({ world with holder := some sequence }.put sequence (.Locked save))
  | prepared {sequence} :
      world.saves sequence = some (.Locked save) →
      callbacks.prepare save.claim.preparation world.shared (.ok ()) shared →
      SaveStep callbacks world (.Prepare sequence)
        ({ world with shared := shared }.put sequence (.Prepared save))
  | unprepared {sequence} :
      world.saves sequence = some (.Locked save) →
      callbacks.prepare save.claim.preparation world.shared (.error message) shared →
      SaveStep callbacks world (.Prepare sequence)
        ({ world with shared := shared, holder := none }.put sequence
          (.Rejected save (.Blocked (some save.claim.sequence) (.Commit message))))
  | renamed {sequence} :
      world.saves sequence = some (.Prepared save) →
      SaveStep callbacks world (.Rename sequence none)
        ((world.rename save).put sequence (.Renamed save))
  | unrenamed {sequence} (error : String) :
      world.saves sequence = some (.Prepared save) →
      SaveStep callbacks world (.Rename sequence (some error))
        ({ world with holder := none }.put sequence (.Aborting save error))
  | synced {sequence} :
      world.saves sequence = some (.Renamed save) →
      SaveStep callbacks world (.SyncParent sequence none) (world.put sequence (.Replaced save))
  | unsynced {sequence} (error : String) :
      world.saves sequence = some (.Renamed save) →
      SaveStep callbacks world (.SyncParent sequence (some error))
        ({ world with holder := none }.put sequence (.Aborting save error))
  | committed {sequence}
      (savedAt : SystemTime) :
      world.saves sequence = some (.Replaced save) →
      callbacks.commit (save.claim.checkpoint savedAt) world.shared (.ok ()) shared →
      SaveStep callbacks world (.Commit sequence none)
        ({ world with
            state := world.state.published (save.claim.checkpoint savedAt)
            shared := shared
            holder := none }.put sequence
          (.Crossed save (.Saved (save.claim.checkpoint savedAt))))
  | uncommitted {sequence}
      (savedAt : SystemTime) :
      world.saves sequence = some (.Replaced save) →
      callbacks.commit (save.claim.checkpoint savedAt) world.shared (.error message) shared →
      SaveStep callbacks world (.Commit sequence (some message))
        ({ world with
            state := world.state.fenced save.claim.sequence
            shared := shared
            holder := none }.put sequence
          (.Crossed save (.Blocked (some save.claim.sequence) (.Commit message))))
  | aborted {sequence} :
      world.saves sequence = some (.Aborting save error) →
      callbacks.abort save.claim.preparation world.shared result shared →
      SaveStep callbacks world (.Abort sequence)
        ({ world with shared := shared }.put sequence
          (.Rejected save (abortedOutcome save.claim.sequence error result)))
  | overtaken :
      world.saves checkpoint.saveSequence = some .Reserved → world.holder = none →
      world.state.latestBarrierSequence > checkpoint.saveSequence →
      SaveStep callbacks world (.CommitExisting checkpoint)
        (world.put checkpoint.saveSequence
          (.NotSelected (.Superseded world.state.latestBarrierSequence)))
  | unselected :
      world.saves checkpoint.saveSequence = some .Reserved → world.holder = none →
      world.state.latestBarrierSequence ≤ checkpoint.saveSequence →
      callbacks.commitExisting checkpoint world.shared (.error message) shared →
      SaveStep callbacks world (.CommitExisting checkpoint)
        ({ world with shared := shared }.put checkpoint.saveSequence
          (.NotSelected (.Commit message)))
  | selected :
      world.saves checkpoint.saveSequence = some .Reserved → world.holder = none →
      world.state.latestBarrierSequence ≤ checkpoint.saveSequence →
      callbacks.commitExisting checkpoint world.shared (.ok ()) shared →
      SaveStep callbacks world (.CommitExisting checkpoint)
        ({ world with state := world.state.published checkpoint, shared := shared }.put
          checkpoint.saveSequence (.Selected checkpoint))
  | other :
      callbacks.other world.shared shared →
      SaveStep callbacks world .Other { world with shared := shared }

structure Starts {σ : Type} (world : World σ) : Prop where
  state : ∃ initial, world.state = CheckpointState.new initial
  idle : ∀ sequence, world.saves sequence = none
  free : world.holder = none
  history : world.replacements = []

end Nteract.Checkpoint
