import Nteract.Lifecycle.Theorems

namespace Nteract.Lifecycle

open Lib.Transition Recovery RoomLifecycle

def LifecycleCall.reconciles : LifecycleCall → Bool
  | .PromoteFileBackedCheckpoint .. | .CompleteExternalSourceRevision ..
  | .CompleteReconciliation .. => true
  | _ => false

-- The transitions that act on a failed source without a look at its retry policy.
def Automatic (room : RoomLifecycle) : LifecycleCall → Prop
  | .RetryFailedClaimed => True
  | .ResumeFailedStagedClaimed => (room.stagedImport room.source.generation).isSome
  | .PublishProjectionReady generation artifact projection _ =>
    room.source.generation = generation ∧ artifact.generation = generation ∧
      projection.loadGeneration = generation
  | .MarkDegraded .. => (room.stagedImport room.source.generation).isSome
  | .RecoverFailed _ _ projection =>
    projection.loadGeneration = nextGeneration room.source.generation
  | .RestoreRecoveredPending .. => True
  | _ => False

-- The source waits for an explicit reconciliation, and nothing can be changed.
structure Held (room : RoomLifecycle) : Prop where
  source : ∃ status, room.source = .Failed status ∧ status.retry = .ExplicitReconciliation
  availability : ∃ status, room.availability = .Degraded status

variable {room : RoomLifecycle}

theorem Held.retry (hh : Held room) : room.source.status.retry = .ExplicitReconciliation := by
  obtain ⟨_, hs, hr⟩ := hh.source
  rw [hs]
  exact hr

theorem Held.not_interactive (hh : Held room) (status : RoomAvailabilityStatus) :
    room.availability ≠ .Interactive status := by
  obtain ⟨_, ha⟩ := hh.availability
  rw [ha]
  nofun

variable {status : RoomSourceStatus}

theorem not_held_of_preparing (hs : room.source = .Preparing status) : ¬ Held room := by
  intro hh
  obtain ⟨_, hf, -⟩ := hh.source
  rw [hs] at hf
  cases hf

theorem held_markSourceConflict (reason : String) (heads : List String) :
    Held (room.markSourceConflict reason heads) :=
  ⟨⟨_, rfl, rfl⟩, ⟨_, rfl⟩⟩

section

variable (hs : room.source = .Failed status)
include hs

theorem resume_unstaged (hn : room.stagedImport status.generation = none) :
    room.resumeFailedStagedClaimed = (none, room) := by
  unfold resumeFailedStagedClaimed
  simp [hs, hn]

theorem resume_staged (ha : room.stagedImport status.generation = some artifact) :
    ∃ resumed next, room.resumeFailedStagedClaimed = (some status.generation, next) ∧
      next.source = .Preparing resumed := by
  unfold resumeFailedStagedClaimed
  simp only [hs, ha]
  exact ⟨_, _, rfl, rfl⟩

theorem generation_of_failed :
    room.source.generation = status.generation := by
  rw [hs]
  rfl

end

theorem resume_held_iff (hh : Held room) : Held room.resumeFailedStagedClaimed.2 ↔
      ¬ (room.stagedImport room.source.generation).isSome := by
  obtain ⟨status, hs, -⟩ := hh.source
  rw [generation_of_failed hs]
  cases hstaged : room.stagedImport status.generation with
  | none =>
    rw [resume_unstaged hs hstaged]
    exact ⟨fun _ => nofun, fun _ => hh⟩
  | some =>
    obtain ⟨_, _, hr, hn⟩ := resume_staged hs hstaged
    rw [hr]
    exact ⟨fun h => absurd h (not_held_of_preparing hn), fun h => absurd rfl h⟩

theorem publish_held_iff (hh : Held room) {projection : NotebookProjection} :
    Held (room.publishProjectionReady generation artifact projection heads).2 ↔
      ¬ (room.source.generation = generation ∧ artifact.generation = generation ∧
        projection.loadGeneration = generation) := by
  obtain ⟨_, hs, -⟩ := hh.source
  unfold publishProjectionReady
  by_cases hg : room.source.generation = generation ∧ artifact.generation = generation ∧
      projection.loadGeneration = generation
  · rw [if_neg (by tauto)]
    refine ⟨fun held => ?_, fun hn => absurd hg hn⟩
    simp only [hs] at held
    exact nomatch held.retry
  · rw [if_pos (by tauto)]
    exact ⟨fun _ => hg, fun _ => hh⟩

theorem markDegraded_held_iff : Held (room.markDegraded reason heads readable) ↔
      ¬ (room.stagedImport room.source.generation).isSome := by
  by_cases hs : (room.stagedImport room.source.generation).isSome
  · refine ⟨fun hh => ?_, fun hn => absurd hs hn⟩
    have hr := hh.retry
    simp [markDegraded, markDegradedWithCode, RoomSourceState.status, hs] at hr
  · refine ⟨fun _ => hs, fun _ => ⟨⟨_, rfl, ?_⟩, ⟨_, rfl⟩⟩⟩
    simp [hs]

theorem recoverFailed_held_iff (hh : Held room) {projection : NotebookProjection} :
    Held (room.recoverFailed cellCount heads projection).2 ↔
      ¬ projection.loadGeneration = nextGeneration room.source.generation := by
  obtain ⟨status, hs, -⟩ := hh.source
  unfold recoverFailed
  rw [generation_of_failed hs, hs]
  by_cases hg : projection.loadGeneration = nextGeneration status.generation
  · simp only [hg, ne_eq, not_true_eq_false, iff_false]
    exact fun held => nomatch held.retry
  · simp only [hg, ne_eq, not_false_eq_true, iff_true]
    exact hh

theorem step_held_iff (call : LifecycleCall) (hc : call.reconciles = false) (hh : Held room) :
    Held (room.step call) ↔ ¬ Automatic room call := by
  obtain ⟨_, hs, _⟩ := hh.source
  have hidle : room.source.isInProgress = false := by
    rw [hs]
    rfl
  have hstays : ∀ next : RoomLifecycle, next = room → (Held next ↔ ¬ False) := by
    rintro _ rfl
    exact ⟨fun _ h => h, fun _ => hh⟩
  cases call with
  | MarkSourceRequired | RecordPreparedArtifacts | NotePrepared | NoteJournaling
  | NotePublishedBatch | PublishRecoveredProjectionReady =>
    refine hstays _ ?_
    simp [step, markSourceRequired, recordPreparedArtifacts, notePrepared, noteJournaling,
      notePreparing, notePublishedBatch, publishRecoveredProjectionReady, hs]
  | BeginSource | CompleteReady | CompleteFailed =>
    refine hstays _ ?_
    simp [step, beginSource, completeReady, completeFailed, hidle]
  | RetryFailedClaimed =>
    simp only [step, retryFailedClaimed, hs, Automatic, not_true_eq_false, iff_false]
    exact not_held_of_preparing rfl
  | ResumeFailedStagedClaimed => exact resume_held_iff hh
  | PublishProjectionReady => exact publish_held_iff hh
  | MarkDegraded => exact markDegraded_held_iff
  | MarkSourceConflict reason documentHeads =>
    exact ⟨fun _ h => h, fun _ => held_markSourceConflict reason documentHeads⟩
  | RestoreRecoveredPending =>
    exact ⟨fun h => absurd h (not_held_of_preparing rfl), fun h => absurd trivial h⟩
  | RecoverFailed => exact recoverFailed_held_iff hh
  | PromoteFileBackedCheckpoint | CompleteExternalSourceRevision | CompleteReconciliation =>
    cases hc
  | _ => exact ⟨fun _ h => h, fun _ => ⟨⟨_, rfl, rfl⟩, ⟨_, rfl⟩⟩⟩

-- A conflict is taken back unless nothing is staged and the document has changes.
theorem attach_held_iff (hh : Held room) (isPristine : Bool) :
    Held (room.retryFailedRoomInitialLoadIfSafe isPristine).2 ↔
      ¬ (room.stagedImport room.source.generation).isSome ∧ isPristine = false := by
  obtain ⟨status, hs, -⟩ := hh.source
  unfold retryFailedRoomInitialLoadIfSafe
  rw [generation_of_failed hs]
  cases hstaged : room.stagedImport status.generation with
  | none =>
    simp only [resume_unstaged hs hstaged]
    cases isPristine with
    | false => exact ⟨fun _ => ⟨nofun, rfl⟩, fun _ => hh⟩
    | true =>
      have hretry := step_held_iff .RetryFailedClaimed rfl hh
      exact ⟨fun held => absurd trivial (hretry.mp held), fun h => nomatch h.2⟩
  | some =>
    obtain ⟨_, _, hr, hn⟩ := resume_staged hs hstaged
    simp only [hr]
    exact ⟨fun held => absurd held (not_held_of_preparing hn), fun h => absurd rfl h.1⟩

-- No automatic step is taken while the room waits, and nobody reconciles.
def Heeding (room : RoomLifecycle) (call : LifecycleCall) : Prop :=
  call.reconciles = false ∧ ¬ Automatic room call

-- Only a reconciliation leaves a conflict if every automatic path heeds it.
theorem conflict_held {calls : List LifecycleCall} {last : RoomLifecycle} (reason : String)
    (documentHeads : List String)
    (hr : Run (Guarded LifecycleStep Heeding) (room.markSourceConflict reason documentHeads) calls
      last) :
    last.source.status.retry = .ExplicitReconciliation ∧
      (∀ status, last.availability ≠ .Interactive status) ∧
      ∀ isPristine, Held (last.retryFailedRoomInitialLoadIfSafe isPristine).2 ↔
        ¬ (last.stagedImport last.source.generation).isSome ∧ isPristine = false := by
  have hheld : Held last := by
    refine hr.invariant Held ?_ (held_markSourceConflict reason documentHeads)
    rintro _ call _ hh ⟨⟨hreconciles, ha⟩, rfl⟩
    exact (step_held_iff call hreconciles hh).mpr ha
  exact ⟨hheld.retry, hheld.not_interactive, attach_held_iff hheld⟩

def importCalls : List LifecycleCall :=
  [.MarkSourceRequired, .BeginSource, .RecordPreparedArtifacts 1 importArtifact importProjection,
    .PublishProjectionReady 1 importArtifact importProjection []]

def publishingRoom : RoomLifecycle := importCalls.foldl step (.new [])

theorem late_calls_keep_conflict :
    let room := publishingRoom.markSourceConflict "edited" []
    let last := (room.step (.CompleteReady 1 0 [])).step (.CompleteFailed 1 "io" "late")
    last.source.status.retry = .ExplicitReconciliation ∧
      (∀ status, last.availability ≠ .Interactive status) ∧
      ∀ isPristine, Held (last.retryFailedRoomInitialLoadIfSafe isPristine).2 ↔
        ¬ (last.stagedImport last.source.generation).isSome ∧ isPristine = false :=
  conflict_held "edited" [] (.cons ⟨⟨rfl, id⟩, rfl⟩ (.cons ⟨⟨rfl, id⟩, rfl⟩ (.nil _)))

-- An attach resumes the staged import. A late worker gives the retry policy back.
theorem conflict_left :
    Run LifecycleStep (.new []) importCalls publishingRoom ∧
    Held (publishingRoom.markSourceConflict "edited" []) ∧
    (let attached :=
        ((publishingRoom.markSourceConflict "edited" []).retryFailedRoomInitialLoadIfSafe false).2
      let published := attached.step (.PublishProjectionReady 1 importArtifact importProjection [])
      ∃ status, (published.step (.CompleteReady 1 0 [])).availability = .Interactive status) ∧
    ((publishingRoom.markSourceConflict "edited" []).step
      (.PublishProjectionReady 1 importArtifact importProjection [])).source.status.retry =
        .ResumeStaged := by
  refine ⟨?_, held_markSourceConflict "edited" [], ⟨_, rfl⟩, rfl⟩
  exact .cons rfl (.cons rfl (.cons rfl (.cons rfl (.nil _))))

end Nteract.Lifecycle
