import Nteract.Durability.Runs

namespace Nteract.Durability

open Lib.Effect Lib.Transition Recovery Option

variable {automerge : Automerge} {serde : ManifestSerde} {room after : RoomDurability}

section Tail

def Undamaged (serde : ManifestSerde) (room : RoomDurability) : Prop :=
  ∀ journal, room.journal = some journal → TornAtMost serde journal

def UndamagedTarget (serde : ManifestSerde) (_ : DurabilityState) : Operation → Prop
  | .PromoteToJournal journal => TornAtMost serde journal
  | _ => True

theorem appended_undamaged (hc : ∀ journal, before = some journal → CursorSound serde journal)
    (ha : Appended serde appendIo next before journal) (appended : RecoveryJournal)
    (hj : journal = some appended) : TornAtMost serde appended := by
  cases before with
  | none =>
    rw [show journal = none from ha] at hj
    cases hj
  | some before =>
    obtain ⟨_, happend, rfl⟩ := ha
    cases hj
    have hs := (post_append (hc before rfl)).of_ok happend
    exact tornAtMost_of_no_tail (register_successful hs).2

variable (hc : JournalSound serde room) (hu : Undamaged serde room)
include hc hu

theorem callStep_undamaged (hs : CallStep automerge serde room event after) (ho : event.op.Opened) :
    Undamaged serde after := by
  cases hs with
  | @ok io op _ _ _ hcall =>
    cases call_ok hcall with
    | already => exact hu
    | committed _ _ hr =>
      cases op with
      | PromoteToJournal =>
        refine appended_undamaged ?_ hr.2
        rintro _ ⟨⟩
        exact cursorSound_of_no_cursor ho
      | ArchiveAndCommitReconciledSource =>
        obtain ⟨_, _, _, _, ha, rfl⟩ := hr
        rintro _ ⟨⟩
        exact tornAtMost_archived ha
      | _ => exact appended_undamaged hc hr
  | @error io op _ _ _ hcall =>
    cases call_error hcall with
    | rejected => exact hu
    | journal _ _ hf =>
      cases op with
      | PromoteToJournal =>
        obtain ⟨_, _, rfl⟩ := hf
        rintro _ ⟨⟩
      | ArchiveAndCommitReconciledSource =>
        obtain ⟨journal, _, hj, ha, rfl⟩ := hf
        rintro _ ⟨⟩
        exact tornAtMost_not_archived (hu journal hj) ha
      | _ =>
        obtain ⟨_, ⟨journal, hj, ha⟩, rfl⟩ := hf
        rintro _ ⟨⟩
        exact tornAtMost_failed (hu journal hj) ((post_append (hc journal hj)).of_error ha)

theorem leaves_undamaged (ht : ∀ op, inFlight = some op → UndamagedTarget serde room.state op)
    (hl : Leaves automerge serde room inFlight journal) : TornAtMost serde journal := by
  cases hl with
  | idle hj => exact hu journal hj
  | calling hs ho hj => exact callStep_undamaged hc hu hs ho journal hj
  | promoting _ hcursor _ happend =>
    exact tornAtMost_failed (ht _ rfl)
      ((post_append (cursorSound_of_no_cursor hcursor)).of_error happend)

theorem roomStep_undamaged (ht : event.Meets (UndamagedTarget serde) room)
    (hs : RoomStep automerge serde room event after) : Undamaged serde after := by
  cases hs with
  | returned hs ho => exact callStep_undamaged hc hu hs ho
  | marked | gated => exact hu
  | reloaded hl =>
    have htorn := leaves_undamaged hc hu ht hl
    rintro _ ⟨⟩
    exact htorn
  | started _ _ _ _ _ hl =>
    have htorn := leaves_undamaged hc hu ht hl
    rintro _ ⟨⟩
    exact htorn

end Tail

theorem resolvedManifest_ok (hr : resolvedManifest manifest pending fingerprint = .ok resolved) :
    (fingerprint = pending.fileFingerprint ∧
        resolved = applyMutationToManifest manifest (.FileCheckpoint pending)) ∨
      (fingerprint ≠ pending.fileFingerprint ∧ fingerprint = manifest.sourceFingerprint ∧
        resolved = { manifest with pendingFileCheckpoint := none }) := by
  unfold resolvedManifest at hr
  split_ifs at hr with hn ho
  · cases hr
    exact .inl ⟨hn, rfl⟩
  · cases hr
    exact .inr ⟨hn, ho, rfl⟩

theorem resolvedManifest_error (hr : resolvedManifest manifest pending fingerprint = .error error) :
    fingerprint ≠ pending.fileFingerprint ∧ fingerprint ≠ manifest.sourceFingerprint ∧
      error = .SourceConflict manifest.sourceFingerprint fingerprint := by
  unfold resolvedManifest at hr
  split_ifs at hr with hn ho
  cases hr
  exact ⟨hn, ho, rfl⟩

theorem nextSequence_eq_error (hn : nextSequence value = .error error) :
    error = .SequenceExhausted ∧ U64_MAX ≤ value := by
  unfold nextSequence checkedAdd at hn
  split_ifs at hn
  cases hn
  exact ⟨rfl, by omega⟩

def resolvedState (state : DurabilityState) (resolved : RecoveryManifest) : DurabilityState :=
  { state with
    manifest := { promoteUnlessDegraded state.degraded resolved with
      sequence := state.manifest.sequence + 1 }
    hasDurableRecord := true
    degraded := none }

theorem post_resolve (haccept : room.acceptingCommits = true)
    (hp : room.state.manifest.pendingFileCheckpoint = some pending) :
    Post (call automerge serde io (.ResolveRecoveredFileCheckpoint fingerprint)) room
      (fun outcome after => outcome.isCommitted = true ∧ ∃ resolved journal,
        resolvedManifest room.state.manifest pending fingerprint = .ok resolved ∧
        Appended serde io.append (resolvedState room.state resolved) room.journal journal ∧
        after = room.publishing (resolvedState room.state resolved) journal)
      (fun error after =>
        (resolvedManifest room.state.manifest pending fingerprint = .error error ∧ after = room) ∨
        ∃ resolved, resolvedManifest room.state.manifest pending fingerprint = .ok resolved ∧
          (error = .SequenceExhausted ∧ after = room ∧ U64_MAX ≤ room.state.manifest.sequence ∨
            ∃ failure journal, error = .Journal failure ∧
              after = room.degrading failure (some journal) ∧
              AppendFailed serde io.append (resolvedState room.state resolved) room.journal failure
                journal)) := by
  unfold call resolveRecoveredFileCheckpoint
  simp only [post_bind, post_ensureAcceptingCommits, post_get, hp, post_ofExcept, post_commitState]
  refine ⟨fun _ => ⟨fun resolved hr => ⟨fun sequence hs => ?_, fun error hs => ?_⟩,
    fun error hr => .inl ⟨hr, trivial⟩⟩, fun hf => by rw [haccept] at hf; cases hf⟩
  · obtain ⟨_, hphase⟩ := promoteUnlessDegraded_eq resolved room.state.degraded
    have hsequence : sequence = room.state.manifest.sequence + 1 := by
      rw [hphase] at hs
      rw [← (resolvedManifest_kept hr).2.1]
      exact nextSequence_eq_ok hs
    subst hsequence
    exact ⟨fun journal ha => ⟨rfl, resolved, journal, hr, ha, rfl⟩, fun failure journal hf =>
      .inr ⟨resolved, hr, .inr ⟨failure, journal, rfl, rfl, hf⟩⟩⟩
  · obtain ⟨_, hphase⟩ := promoteUnlessDegraded_eq resolved room.state.degraded
    rw [hphase] at hs
    obtain ⟨rfl, hn⟩ := nextSequence_eq_error hs
    rw [(resolvedManifest_kept hr).2.1] at hn
    exact .inr ⟨resolved, hr, .inl ⟨rfl, trivial, hn⟩⟩

-- Where every system call works, only a conflict keeps a room from resolving.
theorem resolve_works {state : DurabilityState} {manifest next : RecoveryManifest} (stamp : Nat)
    (fingerprint : SourceFingerprint) (ht : (scanFile serde journal.bytes).ignoredTail = none)
    (hm : (recovered journal ⟨state.record, none⟩).state.manifest = manifest)
    (hp : manifest.pendingFileCheckpoint = some pending)
    (hr : resolvedManifest manifest pending fingerprint = .ok resolved)
    (hs : manifest.sequence < U64_MAX)
    (hn : { promoteUnlessDegraded none resolved with sequence := manifest.sequence + 1 } = next)
    (he : (encodeRecord serde next state.durableSnapshot).toOption.isSome = true) :
    ∃ outcome after, call automerge serde (.works stamp)
        (.ResolveRecoveredFileCheckpoint fingerprint) (recovered journal ⟨state.record, none⟩) =
          .ok outcome after ∧ after.state.manifest = next := by
  subst hm hn
  cases hc : call automerge serde (.works stamp) (.ResolveRecoveredFileCheckpoint fingerprint)
      (recovered journal ⟨state.record, none⟩) with
  | ok outcome after =>
    obtain ⟨_, _, _, hresolved, _, rfl⟩ := (post_resolve rfl hp).of_ok hc
    rw [hr] at hresolved
    cases hresolved
    exact ⟨outcome, _, rfl, rfl⟩
  | error =>
    rcases (post_resolve rfl hp).of_error hc with ⟨hn, _⟩ | ⟨_, hresolved, hcase⟩
    · rw [hr] at hn
      cases hn
    · rw [hr] at hresolved
      cases hresolved
      rcases hcase with ⟨_, _, _⟩ | ⟨_, _, _, _, _, ⟨⟩, hf⟩
      · omega
      · exact ((post_append_works he ht).of_error hf).elim

theorem checkpointManifest_of_pending (hp : state.manifest.pendingFileCheckpoint = some pending) :
    promoteUnlessDegraded state.degraded
        (applyMutationToManifest state.manifest (.FileCheckpoint pending)) =
      checkpointManifest state pending := by
  have hn : checkpointReflected state pending ≠ true := by
    intro hr
    rw [checkpointReflected_pending hr] at hp
    cases hp
  rw [checkpointManifest, if_neg hn]

theorem commitFileCheckpoint_manifest
    (hp : room.state.manifest.pendingFileCheckpoint = some pending)
    (hc : call automerge serde io (.CommitFileCheckpoint pending) room = .ok outcome after) :
    after.state.manifest = { checkpointManifest room.state pending with
      sequence := room.state.manifest.sequence + 1 } := by
  cases call_ok hc with
  | already hs =>
    cases hs with
    | checkpoint _ _ hreflected =>
      rw [checkpointReflected_pending hreflected] at hp
      cases hp
  | committed _ hr =>
    cases hr with
    | checkpoint _ _ hs =>
      rw [checkpointManifest_kept.1] at hs
      rw [nextSequence_eq_ok hs]
      rfl

-- Once the checkpoint covers the durable heads, the source need not be staged again.
theorem promote_settles (manifest : RecoveryManifest) (hp : manifest.pendingFileCheckpoint = none)
    (hc : manifest.fileCheckpointCoversDurableHeads = true) :
    (promoteFullCoverageCheckpointBaseline manifest).sourcePhase ≠ .Pending ∧
      (promoteFullCoverageCheckpointBaseline manifest).sourcePhase ≠ .Failed := by
  unfold promoteFullCoverageCheckpointBaseline
  by_cases hphase : manifest.sourcePhase = .Pending ∨ manifest.sourcePhase = .Failed
  · rw [if_pos ⟨hphase, hp, hc⟩]
    exact ⟨by simp, by simp⟩
  · rw [if_neg fun h => hphase h.1]
    exact not_or.mp hphase

section Recovered

variable {recovery : RecoveredJournalRecord}

theorem recoveredDegradation_of_torn
    (ht : ∀ tail, recovery.ignoredTail = some tail → tail.isRepairableTornSuffix = true) :
    recoveredDegradation recovery.ignoredTail = none := by
  unfold recoveredDegradation
  cases hi : recovery.ignoredTail with
  | none => rfl
  | some tail => simp [ht tail hi]

theorem latestRecord_tail (hl : latestRecord serde journal = .Recovered recovery) :
    recovery.ignoredTail = (scanFile serde journal.bytes).ignoredTail := by
  have hr := latestRecord_eq_recovered hl
  rw [latestRecord_of_register hr, RecoveryLatestOutcome.Recovered.injEq] at hl
  exact (congrArg RecoveredJournalRecord.ignoredTail hl).symm

theorem recovered_resolvedState (hd : state.degraded = none)
    (hr : recovery.record = (resolvedState state resolved).record)
    (ht : recovery.ignoredTail = none) :
    (recovered journal recovery).state = resolvedState state resolved := by
  have hm : promoteUnlessDegraded none (resolvedState state resolved).manifest =
      (resolvedState state resolved).manifest := by
    simp only [resolvedState, hd]
    rw [promoteUnlessDegraded_withSequence, promoteUnlessDegraded_idem]
  simp only [recovered, ht, hr, recoveredDegradation, filter_none, map_none,
    DurabilityState.record, appendedRecord, hm]
  rfl

end Recovered

section Restart

-- The intent is taken over with its bytes on disk, dropped with the old ones.
def ResolvedAs (automerge : Automerge) (serde : ManifestSerde) (room : RoomDurability)
    (pending : PendingFileCheckpoint) (fingerprint : SourceFingerprint)
    (outcome : DurableCommitOutcome) (after : RoomDurability) : Prop :=
  outcome.isCommitted = true ∧ after.state.durableSnapshot = room.state.durableSnapshot ∧
    (fingerprint = pending.fileFingerprint ∧
        after.state.manifest = { checkpointManifest room.state pending with
          sequence := room.state.manifest.sequence + 1 } ∧
        (∀ io committing committed,
          call automerge serde io (.CommitFileCheckpoint pending) room = .ok committing committed →
          committed.state.manifest = after.state.manifest) ∨
      fingerprint ≠ pending.fileFingerprint ∧
        fingerprint = room.state.manifest.sourceFingerprint ∧
        after.state.manifest = { promoteFullCoverageCheckpointBaseline
            { room.state.manifest with pendingFileCheckpoint := none } with
          sequence := room.state.manifest.sequence + 1 })

-- A failed resolution: a third fingerprint is a conflict and changes nothing.
def NotResolved (room : RoomDurability) (pending : PendingFileCheckpoint)
    (fingerprint : SourceFingerprint) (error : RoomDurabilityError) (after : RoomDurability) :
    Prop :=
  after.state.durableSnapshot = room.state.durableSnapshot ∧
    after.state.manifest = room.state.manifest ∧
    (fingerprint ≠ pending.fileFingerprint ∧
        fingerprint ≠ room.state.manifest.sourceFingerprint ∧ after = room ∧
        error = .SourceConflict room.state.manifest.sourceFingerprint fingerprint ∨
      (fingerprint = pending.fileFingerprint ∨
          fingerprint = room.state.manifest.sourceFingerprint) ∧
        (error = .SequenceExhausted ∨ ∃ failure, error = .Journal failure))

variable {pending : PendingFileCheckpoint}

theorem resolve_classified (ha : room.acceptingCommits = true) (hd : room.state.degraded = none)
    (hp : room.state.manifest.pendingFileCheckpoint = some pending) (io : JournalIo)
    (fingerprint : SourceFingerprint) :
    Post (call automerge serde io (.ResolveRecoveredFileCheckpoint fingerprint)) room
      (ResolvedAs automerge serde room pending fingerprint)
      (NotResolved room pending fingerprint) := by
  refine (post_resolve ha hp).imp ?_ ?_
  · rintro _ after ⟨hcommitted, resolved, _, hresolved, _, rfl⟩
    refine ⟨hcommitted, rfl, ?_⟩
    rcases resolvedManifest_ok hresolved with ⟨hn, rfl⟩ | ⟨hn, ho, rfl⟩
    · have hm : (resolvedState room.state
          (applyMutationToManifest room.state.manifest (.FileCheckpoint pending))).manifest =
          { checkpointManifest room.state pending with
            sequence := room.state.manifest.sequence + 1 } := by
        rw [← checkpointManifest_of_pending hp]
        rfl
      refine .inl ⟨hn, hm, fun io committing committed hc => ?_⟩
      rw [commitFileCheckpoint_manifest hp hc]
      exact hm.symm
    · refine .inr ⟨hn, ho, ?_⟩
      simp only [resolvedState, hd]
      rfl
  · rintro _ _ (⟨hr, rfl⟩ | ⟨_, hr, hcase⟩)
    · obtain ⟨hn, ho, rfl⟩ := resolvedManifest_error hr
      exact ⟨rfl, rfl, .inl ⟨hn, ho, rfl, rfl⟩⟩
    · have hmatch : fingerprint = pending.fileFingerprint ∨
          fingerprint = room.state.manifest.sourceFingerprint := by
        rcases resolvedManifest_ok hr with ⟨hn, _⟩ | ⟨_, ho, _⟩
        · exact .inl hn
        · exact .inr ho
      rcases hcase with ⟨rfl, rfl, _⟩ | ⟨failure, _, rfl, rfl, _⟩
      · exact ⟨rfl, rfl, .inr ⟨hmatch, .inl rfl⟩⟩
      · exact ⟨rfl, rfl, .inr ⟨hmatch, .inr ⟨failure, rfl⟩⟩⟩

def Settled (automerge : Automerge) (serde : ManifestSerde) (room : RoomDurability) : Prop :=
  ∃ journal recovery, room.journal = some journal ∧
    latestRecord serde journal.reopen = .Recovered recovery ∧
    (recovered journal.reopen recovery).state = room.state ∧
    ∀ io fingerprint, ∃ status,
      call automerge serde io (.ResolveRecoveredFileCheckpoint fingerprint)
          (recovered journal.reopen recovery) =
        .ok (.AlreadyDurable status) (recovered journal.reopen recovery)

theorem settled_of_recovered {journal : RecoveryJournal} {recovery : RecoveredJournalRecord}
    (hl : latestRecord serde journal.reopen = .Recovered recovery)
    (hj : room.journal = some journal)
    (hs : (recovered journal.reopen recovery).state = room.state)
    (hp : room.state.manifest.pendingFileCheckpoint = none) : Settled automerge serde room := by
  refine ⟨journal, recovery, hj, hl, hs, fun io fingerprint => ?_⟩
  exact ⟨_, call_of_skips (.resolve rfl (by rw [hs]; exact hp))⟩

theorem resolvedState_pending
    (hr : resolvedManifest state.manifest pending fingerprint = .ok resolved) :
    (resolvedState state resolved).manifest.pendingFileCheckpoint = none := by
  obtain ⟨_, hphase⟩ := promoteUnlessDegraded_eq resolved state.degraded
  simp only [resolvedState, hphase]
  exact (resolvedManifest_kept hr).1

theorem resolve_settles {journal : RecoveryJournal} {recovery : RecoveredJournalRecord}
    (hl : latestRecord serde journal.reopen = .Recovered recovery)
    (hd : (recovered journal.reopen recovery).state.degraded = none) {io : JournalIo}
    {fingerprint : SourceFingerprint} {outcome : DurableCommitOutcome}
    (hc : call automerge serde io (.ResolveRecoveredFileCheckpoint fingerprint)
      (recovered journal.reopen recovery) = .ok outcome after) : Settled automerge serde after := by
  cases hp : (recovered journal.reopen recovery).state.manifest.pendingFileCheckpoint with
  | none =>
    rw [call_of_skips (.resolve rfl hp)] at hc
    cases hc
    exact @settled_of_recovered automerge serde _ journal.reopen recovery hl rfl rfl hp
  | some =>
    obtain ⟨_, _, _, hr, ⟨_, ha, rfl⟩, rfl⟩ :=
      (post_resolve rfl hp).of_ok hc
    have hsound : CursorSound serde journal.reopen := cursorSound_of_no_cursor rfl
    have hs := (post_append hsound).of_ok ha
    obtain ⟨hregister, ht⟩ := register_successful hs
    refine settled_of_recovered (latestRecord_of_register hregister) rfl ?_
      (resolvedState_pending hr)
    exact recovered_resolvedState hd rfl ht

abbrev UndamagedStep (automerge : Automerge) (serde : ManifestSerde) :
    RoomDurability → RoomEvent → RoomDurability → Prop :=
  Guarded (RoomStep automerge serde) fun room event => event.Meets (UndamagedTarget serde) room

-- A pending intent is classified by the bytes on disk, a covered baseline is not staged again, and
-- a second recovery changes nothing.
theorem restart_classified {first last : RoomDurability} {events : List RoomEvent}
    {inFlight : Option Operation} {journal : RecoveryJournal} {recovery : RecoveredJournalRecord}
    (hf : ∀ journal, first.journal = some journal →
      journal.appendCursor = none ∧ TornAtMost serde journal)
    (hr : Run (UndamagedStep automerge serde) first events last)
    (ht : ∀ op, inFlight = some op → UndamagedTarget serde last.state op)
    (hl : Leaves automerge serde last inFlight journal)
    (hlatest : latestRecord serde journal.reopen = .Recovered recovery) :
    (recovered journal.reopen recovery).state.degraded = none ∧
    (∀ pending,
      (recovered journal.reopen recovery).state.manifest.pendingFileCheckpoint = some pending →
      ∀ io fingerprint,
        Post (call automerge serde io (.ResolveRecoveredFileCheckpoint fingerprint))
          (recovered journal.reopen recovery)
          (ResolvedAs automerge serde (recovered journal.reopen recovery) pending fingerprint)
          (NotResolved (recovered journal.reopen recovery) pending fingerprint)) ∧
    ((recovered journal.reopen recovery).state.manifest.pendingFileCheckpoint = none →
      (recovered journal.reopen recovery).state.manifest.fileCheckpointCoversDurableHeads = true →
      (recovered journal.reopen recovery).state.manifest.sourcePhase ≠ .Pending ∧
        (recovered journal.reopen recovery).state.manifest.sourcePhase ≠ .Failed) ∧
    ∀ io fingerprint outcome after,
      call automerge serde io (.ResolveRecoveredFileCheckpoint fingerprint)
        (recovered journal.reopen recovery) = .ok outcome after → Settled automerge serde after := by
  have hinv := hr.invariant (fun room => JournalSound serde room ∧ Undamaged serde room)
    (fun before event after hi hs =>
      ⟨(roomStep_effect hi.1 hs.2).2, roomStep_undamaged hi.1 hi.2 hs.1 hs.2⟩)
    ⟨fun journal hj => cursorSound_of_no_cursor (hf journal hj).1, fun journal hj => (hf journal hj).2⟩
  have htorn := leaves_undamaged hinv.1 hinv.2 ht hl
  have hd : recoveredDegradation recovery.ignoredTail = none := by
    apply recoveredDegradation_of_torn
    rw [latestRecord_tail hlatest]
    exact htorn
  refine ⟨hd, fun pending hp io fingerprint => resolve_classified rfl hd hp io fingerprint,
    ?_, fun io fingerprint outcome after hc => resolve_settles hlatest hd hc⟩
  simp only [recovered, hd]
  obtain ⟨_, hphase⟩ := promoteUnlessDegraded_eq recovery.record.manifest none
  intro hp hc
  rw [hphase] at hp hc
  exact promote_settles recovery.record.manifest hp hc

end Restart

-- Saved while degraded, then prepared again. The fingerprints are 21 and 22.
def savedOnce (sequence : Nat) (phase : RecoverySourcePhase)
    (pending : Option PendingFileCheckpoint) : RecoveryManifest :=
  { RecoveryManifest.new sequence 1 (some "/docs/a.ipynb") SCHEMA_VERSION 21 0 with
    sourcePhase := phase
    durableHeads := [5]
    exportedHeads := [5]
    fileSaveSequence := some 1
    peerChangeCount := 1
    pendingFileCheckpoint := pending }

def firstSave : PendingFileCheckpoint := ⟨"/docs/a.ipynb", 21, [5], 1, none⟩
def secondSave : PendingFileCheckpoint := ⟨"/docs/a.ipynb", 22, [5], 2, none⟩

def unsavedManifest : RecoveryManifest :=
  { RecoveryManifest.new 1 1 (some "/docs/a.ipynb") SCHEMA_VERSION 9 0 with
    durableHeads := [5]
    peerChangeCount := 1 }

def saveSerde : ManifestSerde :=
  knownSerde [unsavedManifest, savedOnce 2 .Pending none, savedOnce 3 .Pending (some secondSave),
    savedOnce 4 .DurablyStaged none] (by decide +kernel)

def unsavedRoom : RoomDurability :=
  journaled (.new "/docs/a.recovery" none) 1 (some "/docs/a.ipynb") 9 0 (referenceSave ∅)

def saveCall (stamp : Nat) (op : Operation) : DurabilityM DurableCommitOutcome :=
  call (referenceAutomerge fun _ => []) saveSerde (.works stamp) op

def conflicted (room : RoomDurability) : RoomDurability :=
  markDegraded .SourceState "source_conflict" room

-- The cursor describes the file: there is no tail to scan for.
def cursorDescribes (room : RoomDurability) : Bool :=
  room.journal.any fun journal =>
    journal.appendCursor.any fun cursor => journal.file.any cursor.describes

theorem recovery_of_call (hc : JournalSound serde room)
    (hcall : call automerge serde io op room = .ok outcome after) (ho : op.Opened)
    (hk : outcome.isCommitted = true) (hd : cursorDescribes after = true) :
    ∃ journal, after.journal = some journal ∧
      (scanFile serde journal.reopen.bytes).ignoredTail = none ∧
      latestRecord serde journal.reopen = .Recovered ⟨after.state.record, none⟩ := by
  obtain ⟨journal, hj, hd⟩ := any_eq_true _ _ |>.mp hd
  obtain ⟨cursor, hcursor, hd⟩ := any_eq_true _ _ |>.mp hd
  obtain ⟨file, hf, hd⟩ := any_eq_true _ _ |>.mp hd
  have ht := (sound_of_call hc hcall ho journal hj).no_tail file cursor hf hcursor hd
  have hb : journal.reopen.bytes = file.bytes := by
    simp [RecoveryJournal.bytes, RecoveryJournal.reopen, hf]
  rw [← hb] at ht
  have hstored := stored_of_call hc hcall ho hk (by simp [hj])
  rw [stored_of_journal hj] at hstored
  refine ⟨journal, hj, ht, ?_⟩
  rw [← ht]
  exact latestRecord_of_register hstored

theorem unsavedRoom_sound : JournalSound saveSerde unsavedRoom := by
  rintro _ ⟨⟩
  exact cursorSound_of_no_cursor rfl

theorem interrupted_second_save : ∃ first second third committed saved prepared journal recovery
    outcome resolved,
    saveCall 1 (.CommitPeerChanges [5]) unsavedRoom = .ok first committed ∧
    saveCall 2 (.CommitFileCheckpoint firstSave) (conflicted committed) = .ok second saved ∧
    saveCall 3 (.PrepareFileCheckpoint secondSave) saved = .ok third prepared ∧
    prepared.journal = some journal ∧
    latestRecord saveSerde journal.reopen = .Recovered recovery ∧
    (recovered journal.reopen recovery).state.manifest = savedOnce 3 .Pending (some secondSave) ∧
    saveCall 4 (.ResolveRecoveredFileCheckpoint 21) (recovered journal.reopen recovery) =
      .ok outcome resolved ∧
    resolved.state.manifest = savedOnce 4 .DurablyStaged none := by
  have hy : yields (saveCall 1 (.CommitPeerChanges [5])) unsavedRoom (fun _ committed =>
      yields (saveCall 2 (.CommitFileCheckpoint firstSave)) (conflicted committed) fun _ saved =>
        yields (saveCall 3 (.PrepareFileCheckpoint secondSave)) saved fun third prepared =>
          third.isCommitted && cursorDescribes prepared &&
            decide (prepared.state.manifest = savedOnce 3 .Pending (some secondSave)) &&
            (encodeRecord saveSerde (savedOnce 4 .DurablyStaged none)
              prepared.state.durableSnapshot).toOption.isSome) = true := by
    decide +kernel
  obtain ⟨first, committed, hf, hy⟩ := exists_of_yields hy
  obtain ⟨second, saved, hs, hy⟩ := exists_of_yields hy
  obtain ⟨third, prepared, hthird, hy⟩ := exists_of_yields hy
  simp only [Bool.and_eq_true, decide_eq_true_eq] at hy
  obtain ⟨⟨⟨hk, hd⟩, hm⟩, he⟩ := hy
  have hmarked : JournalSound saveSerde (conflicted committed) :=
    fun journal hj => sound_of_call unsavedRoom_sound hf trivial journal hj
  obtain ⟨journal, hj, ht, hl⟩ :=
    recovery_of_call (sound_of_call hmarked hs trivial) hthird trivial hk hd
  have hmanifest : (recovered journal.reopen ⟨prepared.state.record, none⟩).state.manifest =
      savedOnce 3 .Pending (some secondSave) := congrArg (promoteUnlessDegraded none) hm
  obtain ⟨outcome, resolved, hr, hresolved⟩ := resolve_works 4 21 ht hmanifest rfl rfl
    (by decide) rfl he
  exact ⟨first, second, third, committed, saved, prepared, journal, _, outcome, resolved,
    hf, hs, hthird, hj, hl, hmanifest, hr, hresolved⟩

theorem saveCall_step (hc : saveCall stamp op room = .ok outcome after) (ho : op.Opened)
    (ht : UndamagedTarget saveSerde room.state op) :
    UndamagedStep (referenceAutomerge fun _ => []) saveSerde room (.Returned op (.ok outcome))
      after :=
  ⟨ht, .returned (.ok hc) ho nofun⟩

-- The second intent after the restart, with the first save's bytes on disk.
theorem restart_classified_interrupted : ∃ prepared journal recovery,
    Leaves (referenceAutomerge fun _ => []) saveSerde prepared none journal ∧
    latestRecord saveSerde journal.reopen = .Recovered recovery ∧
    (recovered journal.reopen recovery).state.manifest = savedOnce 3 .Pending (some secondSave) ∧
    (recovered journal.reopen recovery).state.degraded = none ∧
    Post (saveCall 4 (.ResolveRecoveredFileCheckpoint 21)) (recovered journal.reopen recovery)
      (ResolvedAs (referenceAutomerge fun _ => []) saveSerde (recovered journal.reopen recovery)
        secondSave 21)
      (NotResolved (recovered journal.reopen recovery) secondSave 21) := by
  obtain ⟨_, _, _, committed, _, prepared, journal, recovery, _, _, hfirst, hs, ht,
    hj, hl, hm, _⟩ := interrupted_second_save
  have hmarked : UndamagedStep (referenceAutomerge fun _ => []) saveSerde committed .Changed
      (conflicted committed) := ⟨trivial, .marked committed _⟩
  have hr := Run.cons (saveCall_step hfirst trivial trivial) (.cons hmarked
    (.cons (saveCall_step hs trivial trivial)
      (.cons (saveCall_step ht trivial trivial) (.nil _))))
  have hf : ∀ journal, unsavedRoom.journal = some journal →
      journal.appendCursor = none ∧ TornAtMost saveSerde journal := by
    rintro _ ⟨⟩
    exact ⟨rfl, tornAtMost_of_no_tail rfl⟩
  have hleaves : Leaves (referenceAutomerge fun _ => []) saveSerde prepared none journal := .idle hj
  obtain ⟨hd, hc, _⟩ := restart_classified hf hr (by rintro _ ⟨⟩) hleaves hl
  exact ⟨prepared, journal, recovery, hleaves, hl, hm, hd,
    hc secondSave (by rw [hm]; rfl) _ 21⟩

-- More than the intent changes: the sequence number and the source phase do too.
theorem previous_fingerprint_promotes : ∃ first second third committed saved prepared journal
    recovery outcome resolved,
    saveCall 1 (.CommitPeerChanges [5]) unsavedRoom = .ok first committed ∧
    saveCall 2 (.CommitFileCheckpoint firstSave) (conflicted committed) = .ok second saved ∧
    saveCall 3 (.PrepareFileCheckpoint secondSave) saved = .ok third prepared ∧
    prepared.journal = some journal ∧
    latestRecord saveSerde journal.reopen = .Recovered recovery ∧
    (recovered journal.reopen recovery).state.manifest.sourceFingerprint = 21 ∧
    saveCall 4 (.ResolveRecoveredFileCheckpoint 21) (recovered journal.reopen recovery) =
      .ok outcome resolved ∧
    (recovered journal.reopen recovery).state.manifest.sourcePhase = .Pending ∧
    resolved.state.manifest.sourcePhase = .DurablyStaged ∧
    resolved.state.manifest ≠
      { (recovered journal.reopen recovery).state.manifest with pendingFileCheckpoint := none } := by
  obtain ⟨first, second, third, committed, saved, prepared, journal, recovery, outcome, resolved,
    hfirst, hsecond, hthird, hj, hl, hmanifest, hresolve, hresolved⟩ := interrupted_second_save
  refine ⟨first, second, third, committed, saved, prepared, journal, recovery, outcome, resolved,
    hfirst, hsecond, hthird, hj, hl, ?_, hresolve, ?_, ?_, ?_⟩
  · rw [hmanifest]
    rfl
  · rw [hmanifest]
    rfl
  · rw [hresolved]
    rfl
  · rw [hmanifest, hresolved]
    decide

end Nteract.Durability
