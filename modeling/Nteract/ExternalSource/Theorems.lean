import Nteract.Durability.FailedCommits
import Nteract.ExternalSource
import Nteract.Ingest.Theorems

namespace Nteract.ExternalSource

open Lib Lib.Effect Recovery Durability Ingest NotebookDoc Lifecycle

variable {P V O : Type}

section Sidecar

def SidecarWrite.sparesExecutions : SidecarWrite O → Bool
  | .SetFileCheckpoint _ _ | .SetFileSourceIssue _ => true
  | _ => false

variable {sidecar : SourceSidecar O} {writes : List (SidecarWrite O)}

theorem write_executions (hw : write.sparesExecutions) :
    (sidecar.write write).executions = sidecar.executions := by
  cases write with
  | SetFileCheckpoint =>
    rw [SourceSidecar.write]
    split <;> rfl
  | SetFileSourceIssue => rfl
  | _ => cases hw

theorem foldl_executions (hw : ∀ write ∈ writes, write.sparesExecutions) :
    (writes.foldl SourceSidecar.write sidecar).executions = sidecar.executions := by
  induction writes generalizing sidecar with
  | nil => rfl
  | cons write _ ih =>
    rw [List.foldl_cons, ih fun other hm => hw other (.tail _ hm)]
    exact write_executions (hw write (.head _))

theorem withDoc_executions (hw : ∀ write ∈ writes, write.sparesExecutions) :
    (withDoc io writes sidecar).2.executions = sidecar.executions := by
  unfold withDoc
  split
  · exact foldl_executions hw
  · exact foldl_executions fun write hm => hw write (List.mem_of_mem_take hm)

-- The checkpoint is written unless the closure fails first or the recorded one is as new.
theorem withDoc_checkpoint (io : WriteIo) (sidecar : SourceSidecar O) (heads : List String)
    (sequence : Nat) :
    ((withDoc io [.SetFileCheckpoint heads sequence, .SetFileSourceIssue none]
        sidecar).2.exportedHeads = sidecar.exportedHeads ∧
      (withDoc io [.SetFileCheckpoint heads sequence, .SetFileSourceIssue none]
        sidecar).2.saveSequence = sidecar.saveSequence) ↔
      (∃ text, io = some (0, text)) ∨
        sidecar.saveSequence.any fun current => current ≥ sequence := by
  have hw : ((sidecar.write (.SetFileCheckpoint heads sequence)).exportedHeads =
        sidecar.exportedHeads ∧
      (sidecar.write (.SetFileCheckpoint heads sequence)).saveSequence = sidecar.saveSequence) ↔
      sidecar.saveSequence.any fun current => current ≥ sequence := by
    unfold SourceSidecar.write
    dsimp only
    split
    case isTrue hn => exact ⟨fun _ => hn, fun _ => ⟨rfl, rfl⟩⟩
    case isFalse hn =>
      refine ⟨fun h => absurd ?_ hn, fun h => absurd h hn⟩
      rw [← h.2]
      simp
  rcases io with _ | ⟨_ | _ | _, _⟩
  · simpa [withDoc, SourceSidecar.write] using hw
  · simp [withDoc]
  · simpa [withDoc] using hw
  · simpa [withDoc, SourceSidecar.write] using hw

theorem withDoc_failure (io : WriteIo) : (withDoc io writes sidecar).1 = io.map Prod.snd := by
  rcases io with _ | ⟨_, _⟩ <;> rfl

theorem withDoc_issue (io : WriteIo) (issue : Option FileSourceIssue) :
    ∃ recorded, (withDoc io [.SetFileSourceIssue issue] sidecar).2 =
        { sidecar with sourceIssue := recorded } ∧ (io = none → recorded = issue) := by
  rcases io with _ | ⟨_ | _, _⟩
  · exact ⟨issue, rfl, fun _ => rfl⟩
  · exact ⟨sidecar.sourceIssue, rfl, nofun⟩
  · exact ⟨issue, by simp [withDoc, SourceSidecar.write], nofun⟩

end Sidecar

-- Nothing of the revision has got into the room.
structure Withheld (before after : NotebookRoom O) : Prop where
  doc : after.doc = before.doc
  exportedHeads : after.durability.state.manifest.exportedHeads =
    before.durability.state.manifest.exportedHeads
  sourceFingerprint : after.durability.state.manifest.sourceFingerprint =
    before.durability.state.manifest.sourceFingerprint
  fileCheckpoint : after.fileCheckpoint = before.fileCheckpoint
  baseline : after.primarySaveBaselineSequence = before.primarySaveBaselineSequence
  executions : after.state.executions = before.state.executions

structure Closed (revision : ExternalSourceRevision) (lifecycle : RoomLifecycle) : Prop where
  source : ∀ status, lifecycle.source = .Ready status →
    status.fingerprint ≠ .Content revision.fingerprint
  availability : ∀ status, lifecycle.availability ≠ .Interactive status

-- Nor does the runtime state name the revision, or the room open with it.
structure Unpublished (revision : ExternalSourceRevision) (before after : NotebookRoom O) :
    Prop extends Withheld before after where
  checkpointHeads : after.state.exportedHeads = before.state.exportedHeads
  checkpointSequence : after.state.saveSequence = before.state.saveSequence
  closed : Closed revision after.lifecycle

theorem Withheld.trans (hf : Withheld first middle) (hl : Withheld middle last) :
    Withheld first last where
  doc := hl.doc.trans hf.doc
  exportedHeads := hl.exportedHeads.trans hf.exportedHeads
  sourceFingerprint := hl.sourceFingerprint.trans hf.sourceFingerprint
  fileCheckpoint := hl.fileCheckpoint.trans hf.fileCheckpoint
  baseline := hl.baseline.trans hf.baseline
  executions := hl.executions.trans hf.executions

theorem Withheld.symm (hw : Withheld before after) : Withheld after before where
  doc := hw.doc.symm
  exportedHeads := hw.exportedHeads.symm
  sourceFingerprint := hw.sourceFingerprint.symm
  fileCheckpoint := hw.fileCheckpoint.symm
  baseline := hw.baseline.symm
  executions := hw.executions.symm

theorem Unpublished.unpublished_iff (hu : Unpublished revision first middle) :
    Unpublished revision first last ↔ Unpublished revision middle last where
  mp hl := ⟨hu.toWithheld.symm.trans hl.toWithheld,
    hl.checkpointHeads.trans hu.checkpointHeads.symm,
    hl.checkpointSequence.trans hu.checkpointSequence.symm, hl.closed⟩
  mpr hl := ⟨hu.toWithheld.trans hl.toWithheld, hl.checkpointHeads.trans hu.checkpointHeads,
    hl.checkpointSequence.trans hu.checkpointSequence, hl.closed⟩

section Room

variable {automerge : Automerge} {serde : ManifestSerde} {io : IngestIo V O}
  {room : NotebookRoom O} {revision : ExternalSourceRevision}

-- A journaled edit that is not exported stands against other content.
theorem call_conflict (ha : durability.acceptingCommits = true)
    (hr : durability.state.hasDurableRecord = true)
    (hh : durability.state.manifest.durableHeads ≠ durability.state.manifest.exportedHeads)
    (hs : durability.state.manifest.sourceFingerprint ≠ observedSource) :
    call automerge serde journal
        (.CommitExternalSourceRevision changes observedSource canonicalPath saveSequence) durability =
      .error (.SourceConflict durability.state.manifest.sourceFingerprint observedSource)
        durability := by
  apply Post.eq_error
  unfold call commitExternalSourceRevision
  simp [ha, hr, hh, hs]

theorem sourceReady_manifest
    (hc : call automerge serde journal (.CommitSourceReady generation) durability = .ok outcome
      after) :
    after.state.manifest.exportedHeads = durability.state.manifest.exportedHeads ∧
      after.state.manifest.sourceFingerprint = durability.state.manifest.sourceFingerprint := by
  cases call_ok hc with
  | already => exact ⟨rfl, rfl⟩
  | committed _ hr =>
    cases hr with
    | sourceReady => exact ⟨rfl, rfl⟩

theorem degrade_withheld (kind : DegradationKind) (reason : String) :
    Withheld room (degradeExternalSourceRevision io kind reason room) where
  doc := rfl
  exportedHeads := rfl
  sourceFingerprint := rfl
  fileCheckpoint := rfl
  baseline := rfl
  executions := withDoc_executions (by simp [SidecarWrite.sparesExecutions])

theorem withState_withheld (he : state.executions = room.state.executions) :
    Withheld room { room with state := state } :=
  ⟨rfl, rfl, rfl, rfl, rfl, he⟩

theorem complete_withheld :
    Withheld room (completeExternalSourceRevision automerge serde io (some revision) room).2 := by
  unfold completeExternalSourceRevision
  dsimp only
  have hs : (withDoc io.checkpoint
      [.SetFileCheckpoint room.durability.status.exportedHeads revision.saveSequence,
        .SetFileSourceIssue none] room.state).2.executions = room.state.executions :=
    withDoc_executions (by simp [SidecarWrite.sparesExecutions])
  split
  case h_1 => exact (withState_withheld hs).trans (degrade_withheld ..)
  case h_2 =>
    split
    case h_1 => exact (withState_withheld hs).trans (degrade_withheld ..)
    case h_2 =>
      split
      case h_1 error durability hc =>
        have hm := callError_manifest (call_error hc)
        have hh : Withheld room { room with durability := durability } :=
          ⟨rfl, congrArg _ hm, congrArg _ hm, rfl, rfl, rfl⟩
        exact (hh.trans (withState_withheld hs)).trans (degrade_withheld ..)
      case h_2 outcome durability hc =>
        obtain ⟨he, hsource⟩ := sourceReady_manifest hc
        exact ⟨rfl, he, hsource, rfl, rfl, hs⟩

-- The steps of the completion all succeed.
def Completes (automerge : Automerge) (serde : ManifestSerde) (io : IngestIo V O)
    (durability : RoomDurability) : Prop :=
  io.checkpoint = none ∧
    (∃ published, io.projection (UInt64.ofNat durability.status.sourceGeneration) = .ok published) ∧
    ∃ outcome after, call automerge serde io.ready
      (.CommitSourceReady durability.status.sourceGeneration) durability = .ok outcome after

-- The checkpoint of the revision is not written to the runtime state.
def CheckpointKept (io : IngestIo V O) (revision : ExternalSourceRevision)
    (state : SourceSidecar O) : Prop :=
  (∃ text, io.checkpoint = some (0, text)) ∨
    state.saveSequence.any fun current => current ≥ revision.saveSequence

-- The closures that clear the issue or write another one fail before they do.
def IssueKept (io : IngestIo V O) : Prop :=
  (∃ count text, io.checkpoint = some (count, text) ∧ count < 2) ∧
    ∃ text, io.degraded = some (0, text)

theorem degrade_closed : Closed revision
    (degradeExternalSourceRevision io kind reason room).lifecycle :=
  ⟨nofun, nofun⟩

theorem degrade_checkpoint (io : IngestIo V O) (kind : DegradationKind) (reason : String)
    (room : NotebookRoom O) :
    (degradeExternalSourceRevision io kind reason room).state.exportedHeads =
        room.state.exportedHeads ∧
      (degradeExternalSourceRevision io kind reason room).state.saveSequence =
        room.state.saveSequence := by
  obtain ⟨recorded, hs, -⟩ : ∃ recorded,
      (withDoc io.degraded [.SetFileSourceIssue (some (.Degraded reason))] room.state).2 =
        { room.state with sourceIssue := recorded } ∧ _ := withDoc_issue ..
  unfold degradeExternalSourceRevision
  rw [hs]
  exact ⟨rfl, rfl⟩

theorem degrade_issue_iff (hne : issue ≠ .Degraded reason) :
    (degradeExternalSourceRevision io kind reason room).state.sourceIssue = some issue ↔
      (∃ text, io.degraded = some (0, text)) ∧ room.state.sourceIssue = some issue := by
  unfold degradeExternalSourceRevision
  rcases hd : io.degraded with _ | ⟨_ | _, _⟩ <;>
    simp [withDoc, SourceSidecar.write, hne.symm]

-- A completion that fails leaves the room degraded, one that succeeds opens it with the revision.
theorem complete_closed_iff (revision : ExternalSourceRevision) (room : NotebookRoom O) :
    Closed revision
        (completeExternalSourceRevision automerge serde io (some revision) room).2.lifecycle ↔
      ¬Completes automerge serde io room.durability := by
  unfold completeExternalSourceRevision Completes
  dsimp only
  split
  case h_1 error hw =>
    refine iff_of_true degrade_closed fun hc => ?_
    rw [withDoc_failure, hc.1] at hw
    cases hw
  case h_2 hw =>
    have hn : io.checkpoint = none := by simpa [withDoc_failure] using hw
    split
    case h_1 error hp =>
      refine iff_of_true degrade_closed fun ⟨_, ⟨_, hok⟩, _⟩ => ?_
      rw [hp] at hok
      cases hok
    case h_2 projection cellCount hp =>
      split
      case h_1 error durability hc =>
        refine iff_of_true degrade_closed fun ⟨_, _, _, _, hok⟩ => ?_
        rw [hc] at hok
        cases hok
      case h_2 outcome durability hc =>
        refine iff_of_false (fun hclosed => hclosed.availability _ rfl) (not_not.mpr ?_)
        exact ⟨hn, ⟨_, hp⟩, _, _, hc⟩

theorem complete_checkpoint (automerge : Automerge) (serde : ManifestSerde) (io : IngestIo V O)
    (revision : ExternalSourceRevision) (room : NotebookRoom O) :
    let after := (completeExternalSourceRevision automerge serde io (some revision) room).2
    let written := (withDoc io.checkpoint
      [.SetFileCheckpoint room.durability.status.exportedHeads revision.saveSequence,
        .SetFileSourceIssue none] room.state).2
    after.state.exportedHeads = written.exportedHeads ∧
      after.state.saveSequence = written.saveSequence := by
  unfold completeExternalSourceRevision
  dsimp only
  repeat' split
  all_goals first
    | exact degrade_checkpoint ..
    | exact ⟨rfl, rfl⟩

theorem complete_unpublished_iff (room : NotebookRoom O) :
    Unpublished revision room
        (completeExternalSourceRevision automerge serde io (some revision) room).2 ↔
      ¬Completes automerge serde io room.durability ∧ CheckpointKept io revision room.state := by
  obtain ⟨hheads, hsequence⟩ := complete_checkpoint automerge serde io revision room
  have hwritten := withDoc_checkpoint io.checkpoint room.state
    room.durability.status.exportedHeads revision.saveSequence
  rw [← hheads, ← hsequence] at hwritten
  rw [← complete_closed_iff revision, CheckpointKept, ← hwritten]
  exact ⟨fun hu => ⟨hu.closed, hu.checkpointHeads, hu.checkpointSequence⟩,
    fun ⟨hclosed, hh, hs⟩ => ⟨complete_withheld, hh, hs, hclosed⟩⟩

theorem complete_issue_iff (hi : room.state.sourceIssue = some issue)
    (hne : ∀ reason : String, reason.toList.head? = some 'e' → issue ≠ .Degraded reason) :
    (completeExternalSourceRevision automerge serde io (some revision)
      room).2.state.sourceIssue = some issue ↔ IssueKept io := by
  have hwritten : (withDoc io.checkpoint
      [.SetFileCheckpoint room.durability.status.exportedHeads revision.saveSequence,
        .SetFileSourceIssue none] room.state).2.sourceIssue = some issue ↔
      ∃ count text, io.checkpoint = some (count, text) ∧ count < 2 := by
    rcases io.checkpoint with _ | ⟨_ | _ | _, _⟩
    · simp [withDoc, SourceSidecar.write]
    · simp [withDoc, hi]
    · simp only [withDoc, SourceSidecar.write, List.take_succ_cons, List.take_zero,
        List.foldl_cons, List.foldl_nil]
      split <;> simp [hi]
    · simp [withDoc, SourceSidecar.write]
  have hhead : ∀ {first rest : String}, first.toList.head? = some 'e' →
      (first ++ rest).toList.head? = some 'e' := by
    intro first rest h
    simp [String.toList_append, h]
  unfold completeExternalSourceRevision IssueKept
  dsimp only
  rw [← hwritten]
  split
  case h_1 => rw [degrade_issue_iff (hne _ (hhead (hhead (hhead rfl)))), and_comm]
  case h_2 hw =>
    have hn : io.checkpoint = none := by simpa [withDoc_failure] using hw
    have hcleared := hwritten.not.mpr (by simp [hn])
    refine iff_of_false (fun h => hcleared ?_) fun h => hcleared h.1
    split at h
    case h_1 => exact ((degrade_issue_iff (hne _ (hhead (hhead (hhead (hhead rfl)))))).mp h).2
    case h_2 =>
      split at h
      case h_1 => exact ((degrade_issue_iff (hne _ (hhead (hhead (hhead (hhead rfl)))))).mp h).2
      case h_2 => exact h

theorem reject_unpublished (hm : durability.state.manifest = room.durability.state.manifest) :
    Unpublished revision room (rejectFileWatcherChanges automerge io (automerge.save room.doc) error
        durability { room with doc := document }) ∧
      (io.issue = none → (rejectFileWatcherChanges automerge io (automerge.save room.doc) error
        durability { room with doc := document }).state.sourceIssue =
          some (rejectionIssue error)) := by
  obtain ⟨recorded, hs, hr⟩ : ∃ recorded,
      (withDoc io.issue [.SetFileSourceIssue (some (rejectionIssue error))] room.state).2 =
        { room.state with sourceIssue := recorded } ∧
        (io.issue = none → recorded = some (rejectionIssue error)) := withDoc_issue ..
  unfold rejectFileWatcherChanges
  rw [automerge.load_save]
  dsimp only
  rw [hs]
  have hc : ∃ code heads readable,
      (if isSourceConflict error then room.lifecycle.markSourceConflict (rejectionReason error)
          (headsHex automerge room.doc)
        else room.lifecycle.markDegraded (rejectionReason error) (headsHex automerge room.doc) true) =
        room.lifecycle.markDegradedWithCode code (rejectionReason error) heads readable := by
    split <;> exact ⟨_, _, _, rfl⟩
  obtain ⟨_, _, _, hl⟩ := hc
  rw [hl]
  exact ⟨⟨⟨rfl, congrArg _ hm, congrArg _ hm, rfl, rfl, rfl⟩, rfl, rfl, nofun, nofun⟩, hr⟩

theorem rejectionIssue_other (error : RoomDurabilityError) (reason : String)
    (hr : reason.toList.head? = some 'e') : rejectionIssue error ≠ .Degraded reason := by
  unfold rejectionIssue rejectionReason
  split
  · nofun
  · rintro heq
    rw [← FileSourceIssue.Degraded.inj heq] at hr
    simp [String.toList_append] at hr

-- A failed transaction leaves its document, and without a rebuild the revision is completed.
theorem failed_unpublished_iff (document : Document) (rebuild : Bool) :
    Unpublished revision room (if rebuild then { room with doc := document }
        else (completeExternalSourceRevision automerge serde io (some revision)
          { room with doc := document }).2) ↔
      document = room.doc ∧ if rebuild then Closed revision room.lifecycle
        else ¬Completes automerge serde io room.durability ∧
          CheckpointKept io revision room.state := by
  by_cases hd : document = room.doc
  · subst hd
    simp only [true_and]
    split
    · exact ⟨fun hu => hu.closed,
        fun hclosed => ⟨⟨rfl, rfl, rfl, rfl, rfl, rfl⟩, rfl, rfl, hclosed⟩⟩
    · exact complete_unpublished_iff room
  · refine iff_of_false (fun hu => hd ?_) fun h => hd h.1
    refine Eq.trans ?_ hu.doc
    split
    · rfl
    · have hw : Withheld { room with doc := document } (completeExternalSourceRevision automerge
          serde io (some revision) { room with doc := document }).2 := complete_withheld
      exact hw.doc.symm

theorem completed_rejection_iff (hu : Unpublished revision room rejected)
    (hi : rejected.state.sourceIssue = some (rejectionIssue error)) :
    (Unpublished revision room
          (completeExternalSourceRevision automerge serde io (some revision) rejected).2 ∧
        (completeExternalSourceRevision automerge serde io (some revision)
          rejected).2.state.sourceIssue = some (rejectionIssue error)) ↔
      CheckpointKept io revision room.state ∧ IssueKept io := by
  rw [complete_issue_iff hi (rejectionIssue_other error), hu.unpublished_iff,
    complete_unpublished_iff, CheckpointKept, hu.checkpointSequence]
  refine and_congr_left fun ⟨⟨_, _, hcheckpoint, _⟩, _⟩ => and_iff_right fun hcompletes => ?_
  cases hcheckpoint.symm.trans hcompletes.1

theorem transactCells_refused [LinearOrder P] {document : Document} {metadataChanged : Bool}
    (ht : io.transaction = .Done document metadataChanged)
    (hc : call automerge serde io.journal
      (commitOperation (changesSince automerge room.doc document) (some revision))
      room.durability = .error error failed) (rebuild : Bool) (ingested : Ingested P V O) :
    transactCells automerge serde io rebuild ingested (some revision) room =
      (.default, [], rejectFileWatcherChanges automerge io (automerge.save room.doc) error failed
        { room with doc := document }) := by
  simp only [transactCells, commitFileWatcherChanges, ht, hc, Option.isSome_some, Bool.or_true,
    reduceCtorEq, and_false, if_true, if_false]

section Ingestion

variable [LinearOrder P] [DecidableEq V] [DecidableEq O] [EmptyCollection V]
  {index : FractionalIndex P} {getCells : Document → Notebook P V} {hasRunningKernel : Bool}
  {external : List (ExternalCell V O)} {document : Document} {metadataChanged : Bool}
  {error : RoomDurabilityError} {failed : RoomDurability}

-- The in-place path goes on to complete the revision whose cells were given up.
theorem ended_room (he : io.external = .ok external) (hf : staleSource io (some revision) = false)
    (ht : ∀ rebuild ingested, transactCells (P := P) automerge serde io rebuild ingested
      (some revision) room = (.default, [], ended)) :
    (applyIpynbChangesFromSource automerge serde index getCells io hasRunningKernel revision room).2 =
      if needsRebuild (getCells room.doc) external then ended
      else (completeExternalSourceRevision automerge serde io (some revision) ended).2 := by
  unfold applyIpynbChangesFromSource applyIpynbChangesInner
  rw [he]
  dsimp only
  rw [hf]
  simp only [ht, Bool.false_eq_true, if_false]
  have hcurrent : (ingestContext index getCells io hasRunningKernel room).current =
    getCells room.doc := rfl
  rw [hcurrent]
  split
  · rfl
  · split <;> rfl

-- Nothing of the revision gets into the room. Only the path that rebuilds the cells also closes it
-- with the issue recorded, unless the later writes of the other path fail.
theorem refused_revision_unpublished (index : FractionalIndex P)
    (getCells : Document → Notebook P V) (hasRunningKernel : Bool) (room : NotebookRoom O)
    (hext : io.external = .ok external) (hfresh : staleSource io (some revision) = false) :
    let after := (applyIpynbChangesFromSource automerge serde index getCells io hasRunningKernel
      revision room).2
    (∀ document text, io.transaction = .Failed document text →
      (Unpublished revision room after ↔ document = room.doc ∧
        if needsRebuild (getCells room.doc) external then Closed revision room.lifecycle
        else ¬Completes automerge serde io room.durability ∧
          CheckpointKept io revision room.state)) ∧
    ∀ document metadataChanged error failed,
      io.transaction = .Done document metadataChanged →
      call automerge serde io.journal
        (commitOperation (changesSince automerge room.doc document) (some revision))
        room.durability = .error error failed →
      Withheld room after ∧
        (needsRebuild (getCells room.doc) external = true → Unpublished revision room after ∧
          (io.issue = none → after.state.sourceIssue = some (rejectionIssue error))) ∧
        (io.issue = none →
          (Unpublished revision room after ∧
              after.state.sourceIssue = some (rejectionIssue error) ↔
            needsRebuild (getCells room.doc) external = true ∨
              CheckpointKept io revision room.state ∧ IssueKept io)) := by
  refine ⟨fun document text ht => ?_, fun document metadataChanged error failed ht hc => ?_⟩
  · have hended : ∀ rebuild ingested, transactCells (P := P) automerge serde io rebuild ingested
        (some revision) room = (.default, [], { room with doc := document }) := by
      simp [transactCells, ht]
    rw [ended_room hext hfresh hended]
    exact failed_unpublished_iff document _
  · have hr : Unpublished revision room (rejectFileWatcherChanges automerge io
          (automerge.save room.doc) error failed { room with doc := document }) ∧
        (io.issue = none → (rejectFileWatcherChanges automerge io (automerge.save room.doc) error
          failed { room with doc := document }).state.sourceIssue = some (rejectionIssue error)) :=
      reject_unpublished (callError_manifest (call_error hc))
    rw [ended_room hext hfresh (transactCells_refused ht hc)]
    generalize rejectFileWatcherChanges automerge io (automerge.save room.doc) error failed
      { room with doc := document } = rejected at hr
    split
    case isTrue hrebuild =>
      exact ⟨hr.1.toWithheld, fun _ => hr, fun hi => iff_of_true ⟨hr.1, hr.2 hi⟩ (.inl hrebuild)⟩
    case isFalse hu =>
      refine ⟨hr.1.toWithheld.trans complete_withheld, fun hrebuild => absurd hrebuild hu,
        fun hi => ?_⟩
      rw [or_iff_right hu]
      exact completed_rejection_iff hr.1 (hr.2 hi)

end Ingestion

end Room

def sampleAutomerge : Automerge := referenceAutomerge fun _ => []

def twoCells (_ : Document) : Notebook ℚ (List String) :=
  ⟨[liveCell "a" 0 "1", liveCell "b" 1 "2"], by decide +kernel, by decide⟩

-- A room with an edit that is journaled and not yet exported.
def editedRoom : NotebookRoom String where
  doc := {1}
  durability := fromState (some (.new "/docs/a.recovery" none))
    { RecoveryManifest.new 3 1 (some "/docs/a.ipynb") SCHEMA_VERSION 0 1 with
      sourcePhase := .Ready
      durableHeads := [1]
      fileSaveSequence := some 1 } (referenceSave {1}) true none
  lifecycle := .adopt 1 0 2 ⟨1, []⟩ []
  state := ⟨Table.empty, [], some 1, none⟩
  fileCheckpoint := .new none
  primarySaveBaselineSequence := 1
  lastSaveSources := Table.empty

def OBSERVED : ExternalSourceRevision := ⟨sourceFingerprint [2], "/docs/a.ipynb", 2, 0⟩

def sampleIo (external : List (ExternalCell (List String) String)) (transaction : Transaction) :
    IngestIo (List String) String where
  external := .ok external
  reread := .ok [2]
  uuid := fun id => id
  transaction := transaction
  journal := .works 1
  issue := none
  sidecars := none
  checkpoint := none
  projection := fun generation => .ok (⟨generation, []⟩, 2)
  ready := .works 2
  degraded := none

def sampleCommit (document : Document) : EStateM.Result RoomDurabilityError RoomDurability
    DurableCommitOutcome :=
  call sampleAutomerge sampleSerde (.works 1)
    (commitOperation (changesSince sampleAutomerge editedRoom.doc document) (some OBSERVED))
    editedRoom.durability

def ingested (io : IngestIo (List String) String) : NotebookRoom String :=
  (applyIpynbChangesFromSource sampleAutomerge sampleSerde rationals twoCells io false OBSERVED
    editedRoom).2

theorem observed_other : (0 : SourceFingerprint) ≠ OBSERVED.fingerprint := by decide +kernel

theorem sampleCommit_refused (document : Document) : sampleCommit document =
    .error (.SourceConflict 0 OBSERVED.fingerprint) editedRoom.durability :=
  call_conflict rfl rfl (by decide) observed_other

theorem sample_fresh (external : List (ExternalCell (List String) String))
    (transaction : Transaction) :
    staleSource (sampleIo external transaction) (some OBSERVED) = false := by
  simp [staleSource, sampleIo, OBSERVED]

theorem reordered_revision_refused :
    Unpublished OBSERVED editedRoom (ingested (sampleIo REORDERED (.Done {1, 2} false))) ∧
      (ingested (sampleIo REORDERED (.Done {1, 2} false))).state.sourceIssue =
        some (rejectionIssue (.SourceConflict 0 OBSERVED.fingerprint)) := by
  obtain ⟨-, hrebuild, -⟩ := (refused_revision_unpublished rationals twoCells false
    editedRoom rfl (sample_fresh REORDERED _)).2 {1, 2} false _ _ rfl (sampleCommit_refused _)
  obtain ⟨hu, hi⟩ := hrebuild (by decide)
  exact ⟨hu, hi rfl⟩

def REFUSED : NotebookRoom String := ingested (sampleIo [] (.Done {1, 2} false))

-- The rebuild path with a transaction that fails after its edits.
def HALF_EDITED : NotebookRoom String :=
  ingested (sampleIo REORDERED (.Failed {1, 2} "unknown object"))

-- The room is open with the refused revision. A transaction that fails leaves its edits.
theorem refused_revision_published :
    (sampleCommit {1, 2} = .error (.SourceConflict 0 OBSERVED.fingerprint) editedRoom.durability ∧
      REFUSED.lifecycle = .adopt 1 OBSERVED.fingerprint 2 ⟨1, []⟩ [headText 1] ∧
      REFUSED.state.sourceIssue = none ∧ REFUSED.state.saveSequence = some 2 ∧
      ¬ Unpublished OBSERVED editedRoom REFUSED) ∧
    HALF_EDITED.doc = {1, 2} ∧ HALF_EDITED.lifecycle = editedRoom.lifecycle ∧
      ¬ Unpublished OBSERVED editedRoom HALF_EDITED := by
  have hr : REFUSED.lifecycle = .adopt 1 OBSERVED.fingerprint 2 ⟨1, []⟩ [headText 1] := by
    decide +kernel
  have he : HALF_EDITED.doc = {1, 2} := by decide +kernel
  refine ⟨⟨sampleCommit_refused _, hr, by decide +kernel, by decide +kernel, fun hu => ?_⟩,
    he, by decide +kernel, fun hu => ?_⟩
  · exact hu.closed.source _ (congrArg RoomLifecycle.source hr) rfl
  · exact absurd (he.symm.trans hu.doc) (by decide)

end Nteract.ExternalSource
