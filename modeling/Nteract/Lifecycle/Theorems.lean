import Nteract.Lib.Transition
import Nteract.Lifecycle

namespace Nteract.Lifecycle

open Lib.Transition Recovery RoomLifecycle Option

inductive LifecycleCall
  | MarkSourceRequired
  | BeginSource
  | RetryFailedClaimed
  | ResumeFailedStagedClaimed
  | RecordPreparedArtifacts (generation : UInt64) (artifact : StagedImportArtifact)
      (projection : NotebookProjection)
  | NotePrepared (generation : UInt64) (fingerprint : SourceFingerprint) (totalCells : Nat)
  | NoteJournaling (generation : UInt64)
  | PublishProjectionReady (generation : UInt64) (artifact : StagedImportArtifact)
      (projection : NotebookProjection) (documentHeads : List String)
  | NotePublishedBatch (generation : UInt64) (completedBatches : Nat) (documentHeads : List String)
  | CompleteReady (generation : UInt64) (cellCount : Nat) (documentHeads : List String)
  | CompleteFailed (generation : UInt64) (code message : String)
  | MarkDegraded (reason : String) (documentHeads : List String) (documentReadable : Bool)
  | MarkSourceConflict (reason : String) (documentHeads : List String)
  | RestoreRecoveredPending (generation : UInt64) (fingerprint : SourceFingerprint)
      (cellCount : Nat) (documentHeads : List String)
  | PublishRecoveredProjectionReady (generation : UInt64) (projection : NotebookProjection)
      (documentHeads : List String)
  | RestoreIncompleteSource (generation : UInt64) (fingerprint : SourceFingerprint)
      (cellCount : Nat) (documentHeads : List String) (reason : String)
  | RestoreSourceConflict (generation : UInt64) (fingerprint : SourceFingerprint)
      (cellCount : Nat) (documentHeads : List String) (reason : String)
  | RecoverFailed (cellCount : Nat) (documentHeads : List String) (projection : NotebookProjection)
  | PromoteFileBackedCheckpoint (generation : UInt64) (fingerprint : SourceFingerprint)
      (cellCount : Nat) (projection : NotebookProjection) (documentHeads : List String)
  | CompleteExternalSourceRevision (generation : UInt64) (fingerprint : SourceFingerprint)
      (cellCount : Nat) (projection : NotebookProjection) (documentHeads : List String)
  | CompleteReconciliation (generation : UInt64) (fingerprint : SourceFingerprint)
      (cellCount : Nat) (projection : NotebookProjection) (documentHeads : List String)
  | FailReconciliation (generation : UInt64) (fingerprint : SourceFingerprint) (cellCount : Nat)
      (documentHeads : List String) (reason : String)
deriving DecidableEq

def RoomLifecycle.step (room : RoomLifecycle) : LifecycleCall → RoomLifecycle
  | .MarkSourceRequired => room.markSourceRequired.2
  | .BeginSource => room.beginSource.2
  | .RetryFailedClaimed => room.retryFailedClaimed.2
  | .ResumeFailedStagedClaimed => room.resumeFailedStagedClaimed.2
  | .RecordPreparedArtifacts generation artifact projection =>
    (room.recordPreparedArtifacts generation artifact projection).2
  | .NotePrepared generation fingerprint totalCells =>
    (room.notePrepared generation fingerprint totalCells).2
  | .NoteJournaling generation => (room.noteJournaling generation).2
  | .PublishProjectionReady generation artifact projection documentHeads =>
    (room.publishProjectionReady generation artifact projection documentHeads).2
  | .NotePublishedBatch generation completedBatches documentHeads =>
    (room.notePublishedBatch generation completedBatches documentHeads).2
  | .CompleteReady generation cellCount documentHeads =>
    (room.completeReady generation cellCount documentHeads).2
  | .CompleteFailed generation code message => (room.completeFailed generation code message).2
  | .MarkDegraded reason documentHeads documentReadable =>
    room.markDegraded reason documentHeads documentReadable
  | .MarkSourceConflict reason documentHeads => room.markSourceConflict reason documentHeads
  | .RestoreRecoveredPending generation fingerprint cellCount documentHeads =>
    room.restoreRecoveredPending generation fingerprint cellCount documentHeads
  | .PublishRecoveredProjectionReady generation projection documentHeads =>
    (room.publishRecoveredProjectionReady generation projection documentHeads).2
  | .RestoreIncompleteSource generation fingerprint cellCount documentHeads reason =>
    room.restoreIncompleteSource generation fingerprint cellCount documentHeads reason
  | .RestoreSourceConflict generation fingerprint cellCount documentHeads reason =>
    room.restoreSourceConflict generation fingerprint cellCount documentHeads reason
  | .RecoverFailed cellCount documentHeads projection =>
    (room.recoverFailed cellCount documentHeads projection).2
  | .PromoteFileBackedCheckpoint generation fingerprint cellCount projection documentHeads =>
    room.promoteFileBackedCheckpoint generation fingerprint cellCount projection documentHeads
  | .CompleteExternalSourceRevision generation fingerprint cellCount projection documentHeads =>
    room.completeExternalSourceRevision generation fingerprint cellCount projection documentHeads
  | .CompleteReconciliation generation fingerprint cellCount projection documentHeads =>
    room.completeReconciliation generation fingerprint cellCount projection documentHeads
  | .FailReconciliation generation fingerprint cellCount documentHeads reason =>
    room.failReconciliation generation fingerprint cellCount documentHeads reason

namespace LifecycleCall

-- The generation of a transition: it acts on that one or not at all.
def names : LifecycleCall → Option UInt64
  | .RecordPreparedArtifacts generation _ _ | .NotePrepared generation _ _
  | .NoteJournaling generation | .PublishProjectionReady generation _ _ _
  | .NotePublishedBatch generation _ _ | .CompleteReady generation _ _
  | .CompleteFailed generation _ _ | .PublishRecoveredProjectionReady generation _ _ =>
    some generation
  | _ => none

-- The generation that a transition installs, whatever the current one is.
def installs : LifecycleCall → Option UInt64
  | .RestoreRecoveredPending generation _ _ _ | .RestoreIncompleteSource generation _ _ _ _
  | .RestoreSourceConflict generation _ _ _ _ | .PromoteFileBackedCheckpoint generation _ _ _ _
  | .CompleteExternalSourceRevision generation _ _ _ _ | .CompleteReconciliation generation _ _ _ _
  | .FailReconciliation generation _ _ _ _ => some generation
  | _ => none

end LifecycleCall

def LifecycleStep (before : RoomLifecycle) (call : LifecycleCall) (after : RoomLifecycle) : Prop :=
  before.step call = after

variable {room : RoomLifecycle}

-- Which availability goes with which source, and what it allows.
def Paired : RoomSourceState → RoomAvailability → Prop
  | .Preparing source, .Attached status =>
    source.generation = status.generation ∧ status.capabilities = .attached
  | .Publishing source, .ProjectionReady status =>
    source.generation = status.generation ∧ status.capabilities = .projectionReady
  | .Ready source, .Interactive status =>
    source.generation = status.generation ∧ status.capabilities = .interactive
  | .Failed source, .Degraded status =>
    source.generation = status.generation ∧ status.capabilities.mutate = false ∧
      status.capabilities.execute = false
  | _, _ => False

theorem Paired.generation_eq {source : RoomSourceState} {availability : RoomAvailability}
    (hp : Paired source availability) : source.generation = availability.status.generation := by
  unfold Paired at hp
  split at hp
  all_goals first | exact hp.1 | exact hp.elim

theorem Paired.preparing {availability : RoomAvailability}
    (hp : Paired (.Preparing status) availability) (hg : next.generation = status.generation) :
    Paired (.Preparing next) availability := by
  cases availability with
  | Attached => exact ⟨hg.trans hp.1, hp.2⟩
  | _ => exact hp.elim

theorem notePreparing_foreign (hg : generation ≠ room.source.generation) :
    (room.notePreparing generation update).2 = room := by
  unfold notePreparing
  split
  · rename_i status hs
    rw [hs] at hg
    rw [if_pos fun h => hg h.symm]
  · rfl

theorem step_foreign (hn : call.names = some generation)
    (hg : generation ≠ room.source.generation) : room.step call = room := by
  have hne : room.source.generation ≠ generation := fun h => hg h.symm
  cases call with
  | RecordPreparedArtifacts | PublishRecoveredProjectionReady =>
    obtain rfl := some.inj hn
    simp only [step, recordPreparedArtifacts, publishRecoveredProjectionReady]
    split
    · rename_i status hs
      rw [hs] at hne
      rw [if_pos (.inl hne)]
    · rfl
  | NotePrepared | NoteJournaling =>
    obtain rfl := some.inj hn
    exact notePreparing_foreign hg
  | PublishProjectionReady | CompleteReady | CompleteFailed =>
    obtain rfl := some.inj hn
    simp only [step, publishProjectionReady, completeReady, completeFailed]
    rw [if_pos (.inl hne)]
  | NotePublishedBatch generation =>
    obtain rfl := some.inj hn
    simp only [step, notePublishedBatch]
    split
    · rename_i status hs
      rw [hs] at hne
      have ho : status.generation ≠ generation := hne
      rw [if_pos ho]
    · rfl
  | _ => cases hn

-- No late journal worker calls in, nothing is staged for a failed source, and no older generation
-- is installed.
def Orderly (room : RoomLifecycle) : LifecycleCall → Prop
  | .PublishProjectionReady generation artifact projection _ =>
    room.source.generation = generation → artifact.generation = generation →
      projection.loadGeneration = generation →
      match room.source with
      | .Preparing _ | .Failed _ =>
        projection.projectionHeads = artifact.stagedHeads.map headText
      | .Publishing _ => projection.projectionHeads = room.availability.status.projectionHeads
      | .Ready _ => False
  | .RecoverFailed _ _ projection =>
    projection.loadGeneration = nextGeneration room.source.generation → room.staged = none
  | call => ∀ generation, call.installs = some generation → room.source.generation ≤ generation

theorem Orderly.generations (ho : Orderly room call) :
    ∀ generation, call.installs = some generation → room.source.generation ≤ generation := by
  cases call with
  | PublishProjectionReady | RecoverFailed => exact nofun
  | _ => exact ho

-- The retained projection is the one that is advertised. A new room has none.
def Advertised (room : RoomLifecycle) : Prop :=
  (room.source = initialSource ∧ room.projection = none) ∨
    ∃ projection, room.projection = some projection ∧
      projection.projectionHeads = room.availability.status.projectionHeads

structure Retained (room : RoomLifecycle) : Prop where
  unstaged : ∀ status, room.source = .Ready status → room.staged = none
  advertised : room.availability.status.capabilities.readProjection = true → Advertised room

theorem Paired.unread (hs : room.source = .Preparing status)
    (hp : Paired room.source room.availability) :
    room.availability.status.capabilities.readProjection = false := by
  rw [hs] at hp
  cases ha : room.availability with
  | Attached =>
    rw [ha] at hp
    simp [RoomAvailability.status, hp.2, RoomCapabilities.attached]
  | _ =>
    rw [ha] at hp
    exact hp.elim

theorem Paired.publishing (hs : room.source = .Publishing status)
    (hp : Paired room.source room.availability) :
    room.availability.status.capabilities.readProjection = true := by
  rw [hs] at hp
  cases ha : room.availability with
  | ProjectionReady =>
    rw [ha] at hp
    simp [RoomAvailability.status, hp.2, RoomCapabilities.projectionReady]
  | _ =>
    rw [ha] at hp
    exact hp.elim

structure Keeps (room : RoomLifecycle) (call : LifecycleCall) (after : RoomLifecycle) : Prop where
  paired : Paired room.source room.availability → Paired after.source after.availability
  generation :
    (∀ generation, call.installs = some generation → room.source.generation ≤ generation) →
    room.source.generation ≤ after.source.generation
  retained : Orderly room call → Paired room.source room.availability → Retained room →
    Retained after

theorem Keeps.same : Keeps room call room := ⟨id, fun _ => UInt64.le_refl _, fun _ _ hr => hr⟩

-- A transition that enters a state anew, whatever the room was before.
theorem Keeps.enters (hp : Paired after.source after.availability)
    (hle : (∀ generation, call.installs = some generation → room.source.generation ≤ generation) →
      room.source.generation ≤ after.source.generation)
    (hu : Orderly room call → ∀ status, after.source = .Ready status → after.staged = none)
    (ha : Orderly room call → Paired room.source room.availability → Retained room →
      after.availability.status.capabilities.readProjection = true →
      ∃ projection, after.projection = some projection ∧
        projection.projectionHeads = after.availability.status.projectionHeads) :
    Keeps room call after :=
  ⟨fun _ => hp, hle, fun ho hpaired hr =>
    ⟨hu ho, fun hread => .inr (ha ho hpaired hr hread)⟩⟩

theorem retainedHeads_advertised (hs : room.projection.isSome) :
    ∃ projection, room.projection = some projection ∧
      projection.projectionHeads = room.retainedHeads := by
  obtain ⟨projection, hp⟩ := isSome_iff_exists.mp hs
  refine ⟨projection, hp, ?_⟩
  rw [retainedHeads, hp]

theorem notePreparing_keeps (hu : ∀ status, (update status).generation = status.generation) :
    Keeps room call (room.notePreparing generation update).2 := by
  unfold notePreparing
  split
  · rename_i status hs
    split
    · exact .same
    · refine ⟨fun hp => ?_, fun _ => ?_, fun _ hp _ => ⟨nofun, fun hr => ?_⟩⟩
      · rw [hs] at hp
        exact hp.preparing (hu status)
      · rw [hs]
        exact UInt64.le_of_eq (hu status).symm
      · rw [hp.unread hs] at hr
        cases hr
  · exact .same

theorem publishProjectionReady_keeps {projection : NotebookProjection} :
    Keeps room (.PublishProjectionReady generation artifact projection heads)
      (room.publishProjectionReady generation artifact projection heads).2 := by
  unfold publishProjectionReady
  split
  · exact .same
  · rename_i hg
    push Not at hg
    obtain ⟨hc, ha, hprojection⟩ := hg
    cases hs : room.source with
    | Preparing status | Failed status =>
      have hsame : status.generation = generation := by rw [← hc, hs]; rfl
      refine .enters ⟨hsame, by trivial⟩ (fun _ => by rw [hs]; exact UInt64.le_refl _) nofun
        fun ho _ _ _ => ⟨projection, rfl, ?_⟩
      simpa only [hs, RoomAvailability.status] using ho hc ha hprojection
    | Publishing =>
      refine ⟨fun hp => by rwa [hs] at hp, fun _ => by rw [hs]; exact UInt64.le_refl _,
        fun ho _ _ => ⟨nofun, fun _ => .inr ⟨projection, rfl, ?_⟩⟩⟩
      simpa only [hs] using ho hc ha hprojection
    | Ready =>
      refine ⟨fun hp => by rwa [hs] at hp, fun _ => by rw [hs]; exact UInt64.le_refl _,
        fun ho _ _ => absurd ?_ id⟩
      simpa only [hs] using ho hc ha hprojection

theorem completeFailed_keeps : Keeps room call (room.completeFailed generation code message).2 := by
  unfold completeFailed
  split
  · exact .same
  · rename_i hg
    have hc : room.source.generation = generation := not_not.mp fun hne => hg (.inl hne)
    refine .enters ⟨hc, ?_⟩ (fun _ => UInt64.le_refl _) nofun fun _ _ _ hr => ?_
    · split <;> exact ⟨rfl, rfl⟩
    · dsimp only [RoomAvailability.status] at hr
      split at hr
      · rename_i hs
        exact retainedHeads_advertised hs
      · cases hr

theorem adopt_keeps {projection : NotebookProjection} (hc : call.installs = some generation) :
    Keeps room call (adopt generation fingerprint cellCount projection heads) :=
  .enters ⟨rfl, rfl⟩ (fun hi => hi _ hc) (fun _ _ _ => rfl) fun _ _ _ _ => ⟨projection, rfl, rfl⟩

theorem step_keeps (room : RoomLifecycle) (call : LifecycleCall) :
    Keeps room call (room.step call) := by
  cases call with
  | MarkSourceRequired =>
    simp only [step, markSourceRequired]
    split
    · exact .same
    · exact .same
    · rename_i status hs
      split
      · exact .enters ⟨rfl, rfl⟩ (fun _ => by rw [hs]; exact le_nextGeneration _) nofun nofun
      · exact .same
    · exact .same
  | BeginSource =>
    simp only [step, beginSource]
    split
    · exact ⟨id, fun _ => UInt64.le_refl _, fun _ _ hr => ⟨hr.unstaged, hr.advertised⟩⟩
    · exact .same
  | RetryFailedClaimed =>
    simp only [step, retryFailedClaimed]
    split
    · rename_i status hs
      exact .enters ⟨rfl, rfl⟩ (fun _ => by rw [hs]; exact le_nextGeneration _) nofun nofun
    · exact .same
  | ResumeFailedStagedClaimed =>
    simp only [step, resumeFailedStagedClaimed]
    split
    · rename_i status hs
      split
      · exact .same
      · exact .enters ⟨rfl, rfl⟩ (fun _ => by rw [hs]; exact UInt64.le_refl _) nofun nofun
    · exact .same
  | RecordPreparedArtifacts =>
    simp only [step, recordPreparedArtifacts]
    split
    · rename_i status hs
      split
      · exact .same
      · refine ⟨id, fun _ => UInt64.le_refl _, fun _ hp _ => ⟨fun ready hready => ?_, ?_⟩⟩
        · cases hs.symm.trans hready
        · exact fun hread => nomatch (hp.unread hs).symm.trans hread
    · exact .same
  | NotePrepared | NoteJournaling => exact notePreparing_keeps fun _ => rfl
  | PublishProjectionReady =>
    exact publishProjectionReady_keeps
  | NotePublishedBatch =>
    simp only [step, notePublishedBatch]
    split
    · rename_i status hs
      split
      · exact .same
      · rename_i hg
        refine .enters ⟨not_not.mp hg, rfl⟩ (fun _ => by rw [hs]; exact UInt64.le_refl _) nofun
          fun _ hp hr _ => ?_
        obtain ⟨hinitial, -⟩ | hadvertised := hr.advertised (hp.publishing hs)
        · cases hs.symm.trans hinitial
        · exact hadvertised
    · exact .same
  | CompleteReady =>
    simp only [step, completeReady]
    split
    · exact .same
    · rename_i hg
      split
      · exact .same
      · rename_i projection hprojection
        obtain ⟨hprojection, -⟩ := filter_eq_some_iff.mp hprojection
        exact .enters ⟨not_not.mp fun hne => hg (.inl hne), rfl⟩ (fun _ => UInt64.le_refl _)
          (fun _ _ _ => rfl) fun _ _ _ _ => ⟨projection, hprojection, rfl⟩
  | CompleteFailed => exact completeFailed_keeps
  | PublishRecoveredProjectionReady _ projection =>
    simp only [step, publishRecoveredProjectionReady]
    split
    · rename_i status hs
      split
      · exact .same
      · rename_i hg
        exact .enters ⟨not_not.mp fun hne => hg (.inl hne), rfl⟩
          (fun _ => by rw [hs]; exact UInt64.le_refl _) nofun fun _ _ _ _ => ⟨projection, rfl, rfl⟩
    · exact .same
  | RecoverFailed _ _ projection =>
    simp only [step, recoverFailed]
    split
    · rename_i previous hs
      split
      · exact .same
      · rename_i hg
        refine .enters ⟨rfl, rfl⟩ (fun _ => by rw [hs]; exact le_nextGeneration _)
          (fun ho _ _ => ?_) fun _ _ _ _ => ⟨projection, rfl, rfl⟩
        exact ho (by rw [hs]; exact not_not.mp hg)
    · exact .same
  | MarkDegraded | MarkSourceConflict =>
    exact .enters ⟨rfl, rfl, rfl⟩ (fun _ => UInt64.le_refl _) nofun
      fun _ _ _ => retainedHeads_advertised
  | RestoreRecoveredPending =>
    exact .enters ⟨rfl, rfl⟩ (fun hi => hi _ rfl) nofun nofun
  | RestoreIncompleteSource | RestoreSourceConflict =>
    exact .enters ⟨rfl, rfl, rfl⟩ (fun hi => hi _ rfl) nofun nofun
  | FailReconciliation =>
    exact .enters ⟨rfl, rfl, rfl⟩ (fun hi => hi _ rfl) nofun fun _ _ _ => retainedHeads_advertised
  | _ => exact adopt_keeps (by rfl)

theorem paired_new (documentHeads : List String) :
    Paired (new documentHeads).source (new documentHeads).availability :=
  ⟨rfl, rfl⟩

theorem paired_run (hr : Run LifecycleStep (.new documentHeads) calls room) :
    Paired room.source room.availability := by
  refine hr.invariant (fun room => Paired room.source room.availability) ?_
    (paired_new documentHeads)
  rintro before call _ hp rfl
  exact (step_keeps before call).paired hp

theorem retained_run (hr : Run (Guarded LifecycleStep Orderly) (.new documentHeads) calls room) :
    Retained room := by
  have hn : Retained (new documentHeads) := ⟨fun _ _ => rfl, fun _ => .inl ⟨rfl, rfl⟩⟩
  refine (hr.invariant (fun room => Paired room.source room.availability ∧ Retained room) ?_
    ⟨paired_new documentHeads, hn⟩).2
  rintro before call _ ⟨hp, hretained⟩ ⟨ho, rfl⟩
  exact ⟨(step_keeps before call).paired hp, (step_keeps before call).retained ho hp hretained⟩

theorem generation_run (hr : Run (Guarded LifecycleStep Orderly) room calls last) :
    room.source.generation ≤ last.source.generation := by
  refine hr.relates (fun _ => True)
    (fun first last => first.source.generation ≤ last.source.generation)
    (fun _ => UInt64.le_refl _) (fun _ _ _ => UInt64.le_trans) ?_ trivial
  rintro before call _ - ⟨ho, rfl⟩
  exact ⟨trivial, (step_keeps before call).generation ho.generations⟩

def RoomSourceState.isReady : RoomSourceState → Bool
  | .Ready _ => true
  | _ => false

def RoomSourceState.isFailed : RoomSourceState → Bool
  | .Failed _ => true
  | _ => false

def RoomAvailability.isInteractive : RoomAvailability → Bool
  | .Interactive _ => true
  | _ => false

def RoomAvailability.isDegraded : RoomAvailability → Bool
  | .Degraded _ => true
  | _ => false

theorem Paired.capabilities {source : RoomSourceState} {availability : RoomAvailability}
    (hp : Paired source availability) :
    (availability.status.capabilities.mutate = true ↔
      source.isReady = true ∧ availability.isInteractive = true) ∧
    (availability.status.capabilities.execute = true ↔
      source.isReady = true ∧ availability.isInteractive = true) ∧
    (source.isFailed = true → availability.isDegraded = true) := by
  unfold Paired at hp
  split at hp
  · simp [hp.2, RoomAvailability.status, RoomCapabilities.attached, RoomSourceState.isReady,
      RoomSourceState.isFailed]
  · simp [hp.2, RoomAvailability.status, RoomCapabilities.projectionReady, RoomSourceState.isReady,
      RoomSourceState.isFailed]
  · simp [hp.2, RoomAvailability.status, RoomCapabilities.interactive, RoomSourceState.isReady,
      RoomAvailability.isInteractive, RoomSourceState.isFailed]
  · simp [hp.2, RoomAvailability.status, RoomSourceState.isReady, RoomAvailability.isDegraded]
  · exact hp.elim

theorem axes_agree {documentHeads : List String} {calls : List LifecycleCall}
    (hr : Run (Guarded LifecycleStep Orderly) (.new documentHeads) calls room) :
    room.source.generation = room.availability.status.generation ∧
    (room.availability.status.capabilities.mutate = true ↔
      room.source.isReady = true ∧ room.availability.isInteractive = true) ∧
    (room.availability.status.capabilities.execute = true ↔
      room.source.isReady = true ∧ room.availability.isInteractive = true) ∧
    (room.source.isFailed = true → room.availability.isDegraded = true) ∧
    (room.source ≠ initialSource →
      room.availability.status.capabilities.readProjection = true →
      ∃ projection, room.projection = some projection ∧
        projection.projectionHeads = room.availability.status.projectionHeads) ∧
    (room.source.isReady = true → room.staged = none) ∧
    (∀ later last, Run (Guarded LifecycleStep Orderly) room later last →
      room.source.generation ≤ last.source.generation) ∧
    ∀ call generation, LifecycleCall.names call = some generation →
      generation ≠ room.source.generation → room.step call = room := by
  have hp := paired_run hr.unguarded
  have hretained := retained_run hr
  obtain ⟨hm, he, hf⟩ := hp.capabilities
  refine ⟨hp.generation_eq, hm, he, hf, ?_, ?_, fun _ _ => generation_run,
    fun _ _ => step_foreign⟩
  · intro hne hread
    obtain ⟨hi, -⟩ | ha := hretained.advertised hread
    · exact absurd hi hne
    · exact ha
  · intro hready
    cases hs : room.source with
    | Ready status => exact hretained.unstaged status hs
    | _ =>
      rw [hs] at hready
      cases hready

def importArtifact : StagedImportArtifact := ⟨1, [[7]], [7]⟩

def importProjection : NotebookProjection := ⟨1, [headText 7]⟩

-- An import whose task is cancelled after the journal has it, resumed and completed.
def RESUMED_IMPORT : List LifecycleCall :=
  [.MarkSourceRequired, .BeginSource, .RecordPreparedArtifacts 1 importArtifact importProjection,
    .CompleteFailed 1 "cancelled" "task was cancelled", .ResumeFailedStagedClaimed,
    .PublishProjectionReady 1 importArtifact importProjection ["head"],
    .NotePublishedBatch 1 1 ["head"], .CompleteReady 1 3 ["head"]]

def followCalls (calls : List LifecycleCall) : RoomLifecycle :=
  calls.foldl (fun room call => room.step call) (.new [])

theorem resumed_import_agrees :
    let room := followCalls RESUMED_IMPORT
    room.source.generation = 1 ∧ room.availability.status.generation = 1 ∧
      room.availability.status.capabilities.mutate = true ∧
      room.projection = some importProjection ∧ room.staged = none := by
  intro room
  have hr : Run (Guarded LifecycleStep Orderly) (.new []) RESUMED_IMPORT room :=
    .cons ⟨nofun, rfl⟩ <| .cons ⟨nofun, rfl⟩ <| .cons ⟨nofun, rfl⟩ <| .cons ⟨nofun, rfl⟩ <|
      .cons ⟨nofun, rfl⟩ <| .cons ⟨fun _ _ _ => rfl, rfl⟩ <| .cons ⟨nofun, rfl⟩ <|
      .cons ⟨nofun, rfl⟩ (.nil room)
  have ha := axes_agree hr
  have hg : room.source.generation = 1 := by decide +kernel
  have hready : room.source.isReady = true ∧ room.availability.isInteractive = true := by
    decide +kernel
  have hp : room.projection = some importProjection := by decide +kernel
  exact ⟨hg, ha.1.symm.trans hg, ha.2.1.mpr hready, hp,
    ha.2.2.2.2.2.1 hready.1⟩

-- A late worker stages for a ready source, a room without a source advertises a projection, a
-- recovered source keeps what was staged, and an older generation can be installed.
theorem late_worker_stages :
    (∃ calls room, Run LifecycleStep (.new []) calls room ∧ room.source.isReady = true ∧
      room.staged = some importArtifact) ∧
    ((new []).availability.status.capabilities.readProjection = true ∧
      (new []).projection = none) ∧
    (∃ calls room, Run LifecycleStep (.new []) calls room ∧ room.source.isReady = true ∧
      room.source.generation = 2 ∧ room.staged = some importArtifact) ∧
    ∃ calls room call, Run LifecycleStep (.new []) calls room ∧
      (room.step call).source.generation < room.source.generation := by
  have hf : ∀ calls, Run LifecycleStep (.new []) calls (followCalls calls) := by
    intro calls
    unfold followCalls
    generalize new [] = room
    induction calls generalizing room with
    | nil => exact .nil room
    | cons _ _ ih => exact .cons rfl (ih _)
  refine ⟨⟨RESUMED_IMPORT ++ [.PublishProjectionReady 1 importArtifact importProjection ["head"]],
    _, hf _, by decide +kernel, by decide +kernel⟩, ⟨rfl, rfl⟩,
    ⟨RESUMED_IMPORT.take 4 ++ [.RecoverFailed 3 ["head"] ⟨2, ["head"]⟩], _, hf _,
      by decide +kernel, by decide +kernel, by decide +kernel⟩,
    ⟨RESUMED_IMPORT, _, .RestoreRecoveredPending 0 0 3 ["head"], hf _, by decide +kernel⟩⟩

end Nteract.Lifecycle
