import Nteract.Durability.FailedCommits
import Nteract.Recovery.Register

namespace Nteract.Durability

open Recovery

variable {automerge : Automerge} {serde : ManifestSerde} {room after : RoomDurability}

def RoomDurability.stored (serde : ManifestSerde) (room : RoomDurability) : Option RecoveryRecord :=
  room.journal.bind (register serde)

def DurabilityState.record (state : DurabilityState) : RecoveryRecord :=
  appendedRecord state.manifest state.durableSnapshot

def JournalSound (serde : ManifestSerde) (room : RoomDurability) : Prop :=
  ∀ journal, room.journal = some journal → CursorSound serde journal

inductive RoomEvent
  | Returned (op : Operation) (result : Except RoomDurabilityError DurableCommitOutcome)
  | Changed
  | Restarted (inFlight : Option Operation)

def RoomEvent.Meets (guard : DurabilityState → Operation → Prop) (room : RoomDurability) :
    RoomEvent → Prop
  | .Returned op _ => guard room.state op
  | .Changed => True
  | .Restarted inFlight => ∀ op, inFlight = some op → guard room.state op

def Operation.Opened : Operation → Prop
  | .PromoteToJournal journal => journal.appendCursor = none
  | _ => True

-- A failed append that changed the file also moved its modification time.
def FileMoves (io : AppendIo) (room after : RoomDurability) : Prop :=
  ∀ journal failed, room.journal = some journal → after.journal = some failed →
    failed.file ≠ journal.file → io.Moves journal

section Steps

variable (automerge serde)

-- The operation in flight has ended, or failed where the process died.
inductive Leaves : RoomDurability → Option Operation → RecoveryJournal → Prop
  | idle {room : RoomDurability} {journal : RecoveryJournal} :
      room.journal = some journal → Leaves room none journal
  | calling {room after : RoomDurability} {event : CallEvent} {journal : RecoveryJournal} :
      CallStep automerge serde room event after → event.op.Opened → after.journal = some journal →
      Leaves room (some event.op) journal
  | promoting {room : RoomDurability} {io : AppendIo} {target journal : RecoveryJournal}
      {next : DurabilityState} {error : RecoveryJournalError} :
      room.journal = none → target.appendCursor = none →
      Records automerge (.PromoteToJournal target) room.state next →
      append serde io next.manifest next.durableSnapshot target = .error error journal →
      Leaves room (some (.PromoteToJournal target)) journal

-- Calls that return, the degraded marker, the shutdown gate, and restarts.
inductive RoomStep : RoomDurability → RoomEvent → RoomDurability → Prop
  | returned {room after : RoomDurability} {event : CallEvent} :
      CallStep automerge serde room event after → event.op.Opened →
      (∀ error, event.result = .error error → FileMoves event.io.append room after) →
      RoomStep room (.Returned event.op event.result) after
  | marked (room : RoomDurability) (degraded : Option RoomDegradation) :
      RoomStep room .Changed (setDegraded degraded room)
  | gated (room : RoomDurability) (accepting : Bool) :
      RoomStep room .Changed { room with acceptingCommits := accepting }
  | reloaded {room : RoomDurability} {inFlight : Option Operation} {journal : RecoveryJournal}
      {recovery : RecoveredJournalRecord} :
      Leaves automerge serde room inFlight journal →
      latestRecord serde journal.reopen = .Recovered recovery →
      RoomStep room (.Restarted inFlight) (recovered journal.reopen recovery)
  | started {room : RoomDurability} {inFlight : Option Operation} {journal : RecoveryJournal}
      {reason : RecoveryUnavailableReason} (notebookId : Uuid) (canonicalPath : Option PathBuf)
      (sourceFingerprint : SourceFingerprint) (sourceGeneration : Nat) (genesis : Bytes) :
      Leaves automerge serde room inFlight journal →
      latestRecord serde journal.reopen = .Unavailable reason →
      RoomStep room (.Restarted inFlight) (journaled journal.reopen notebookId canonicalPath
        sourceFingerprint sourceGeneration genesis)

-- The record on disk once `op` was tried: the one before, or its own.
def Tried (op : Operation) (room : RoomDurability) (stored : Option RecoveryRecord) : Prop :=
  stored = room.stored serde ∨
    ∃ next, Records automerge op room.state next ∧ stored = some next.record

def Found (inFlight : Option Operation) (room : RoomDurability) (stored : Option RecoveryRecord) :
    Prop :=
  match inFlight with
  | none => stored = room.stored serde
  | some op => Tried automerge serde op room stored ∨
      ∃ target, op = .PromoteToJournal target ∧ stored = register serde target

inductive Effect : RoomDurability → RoomEvent → RoomDurability → Prop
  | skipped {room : RoomDurability} {op : Operation} {status : RoomDurabilityStatus} :
      Skips automerge op room status →
      Effect room (.Returned op (.ok (.AlreadyDurable status))) room
  | committed {room after : RoomDurability} {op : Operation} {status : RoomDurabilityStatus} :
      Records automerge op room.state after.state →
      (room.journal = none ∧ after.journal = none ∨
        after.stored serde = some after.state.record) →
      Effect room (.Returned op (.ok (.Committed status))) after
  | failed {room after : RoomDurability} {op : Operation} {error : RoomDurabilityError} :
      after.state = { room.state with degraded := after.state.degraded } →
      after.journal.isSome = room.journal.isSome →
      Tried automerge serde op room (after.stored serde) →
      Effect room (.Returned op (.error error)) after
  | changed {room after : RoomDurability} :
      after.state = { room.state with degraded := after.state.degraded } →
      after.journal.isSome = room.journal.isSome →
      after.stored serde = room.stored serde → Effect room .Changed after
  | reloaded {room after : RoomDurability} {inFlight : Option Operation} {record : RecoveryRecord} :
      Found automerge serde inFlight room (some record) → after.stored serde = some record →
      after.state = ⟨promoteUnlessDegraded after.state.degraded record.manifest,
        record.automergeSnapshot, true, after.state.degraded⟩ →
      Effect room (.Restarted inFlight) after
  | started {room after : RoomDurability} {inFlight : Option Operation} :
      Found automerge serde inFlight room none → after.journal.isSome = true →
      after.stored serde = none → after.state.hasDurableRecord = false →
      after.state.manifest.durableHeads = [] → after.state.manifest.exportedHeads = [] →
      after.state.manifest.pendingFileCheckpoint = none →
      Effect room (.Restarted inFlight) after

end Steps

theorem appended_stored (hc : ∀ journal, before = some journal → CursorSound serde journal)
    (ha : Appended serde appendIo next before journal) :
    (before = none ∧ journal = none ∨ journal.bind (register serde) = some next.record) ∧
      ∀ appended, journal = some appended → CursorSound serde appended := by
  cases before with
  | none =>
    cases ha
    exact ⟨.inl ⟨rfl, rfl⟩, by simp⟩
  | some before =>
    obtain ⟨_, happend, rfl⟩ := ha
    have hs := (post_append (hc before rfl)).of_ok happend
    refine ⟨.inr (register_successful hs).1, ?_⟩
    rintro _ ⟨⟩
    exact cursorSound_successful hs

theorem stored_of_journal (hj : room.journal = some journal) :
    room.stored serde = register serde journal := by
  rw [RoomDurability.stored, hj, Option.bind_some]

theorem effect_tried (he : Effect automerge serde room (.Returned op result) after)
    (hj : after.journal = some journal) : Tried automerge serde op room (after.stored serde) := by
  cases he with
  | skipped => exact .inl rfl
  | committed hr hs =>
    rcases hs with ⟨_, hn⟩ | hs
    · rw [hj] at hn
      cases hn
    · exact .inr ⟨_, hr, hs⟩
  | failed _ _ htried => exact htried

theorem register_of_unavailable (hl : latestRecord serde journal = .Unavailable reason) :
    register serde journal = none := by
  cases hr : register serde journal with
  | none => rfl
  | some =>
    rw [latestRecord_of_register hr] at hl
    cases hl

variable (hc : JournalSound serde room)
include hc

theorem recorded_stored (ho : op.Opened) (hr : Recorded serde io op room next journal) :
    (room.journal = none ∧ journal = none ∨ journal.bind (register serde) = some next.record) ∧
      ∀ appended, journal = some appended → CursorSound serde appended := by
  cases op with
  | PromoteToJournal target =>
    have ht : ∀ journal, some target = some journal → CursorSound serde journal := by
      rintro _ ⟨⟩
      exact cursorSound_of_no_cursor ho
    obtain ⟨hstored, hs⟩ := appended_stored ht hr.2
    exact ⟨.inr (hstored.resolve_left (by simp)), hs⟩
  | ArchiveAndCommitReconciledSource =>
    obtain ⟨_, _, _, _, ha, rfl⟩ := hr
    obtain ⟨hregister, hs⟩ := register_archived ha
    refine ⟨.inr hregister, ?_⟩
    rintro _ ⟨⟩
    exact hs
  | _ => exact appended_stored hc hr

theorem recordFailed_stored (hf : RecordFailed serde io op room next error after) :
    (after.stored serde = room.stored serde ∨ after.stored serde = some next.record) ∧
      (FileMoves io.append room after → JournalSound serde after) := by
  cases op with
  | PromoteToJournal =>
    obtain ⟨hn, _, rfl⟩ := hf
    refine ⟨.inl ?_, fun _ journal hj => ?_⟩
    · simp [RoomDurability.stored, RoomDurability.degrading, setDegraded, hn]
    · simp [RoomDurability.degrading, setDegraded] at hj
  | ArchiveAndCommitReconciledSource =>
    obtain ⟨journal, _, hj, ha, rfl⟩ := hf
    obtain ⟨hr, hs⟩ := register_not_archived (hc journal hj) ha
    rw [stored_of_journal hj]
    refine ⟨hr, fun _ other ho => ?_⟩
    cases ho
    exact hs
  | _ =>
    obtain ⟨_, ⟨journal, hj, ha⟩, rfl⟩ := hf
    have hfailed := (post_append (hc journal hj)).of_error ha
    rw [stored_of_journal hj]
    refine ⟨register_failed hfailed, fun hm other ho => ?_⟩
    · cases ho
      exact cursorSound_failed (hc journal hj) hfailed (hm journal _ hj rfl)

theorem callStep_effect (hs : CallStep automerge serde room event after) (ho : event.op.Opened) :
    Effect automerge serde room (.Returned event.op event.result) after := by
  cases hs with
  | ok hcall =>
    cases call_ok hcall with
    | already hskips => exact .skipped hskips
    | committed _ hr hrecorded => exact .committed hr (recorded_stored hc ho hrecorded).1
  | error hcall =>
    cases call_error hcall with
    | rejected => exact .failed rfl rfl (.inl rfl)
    | journal _ hr hf =>
      obtain ⟨hstate, hb, -⟩ := recordFailed_invisible hf
      refine .failed hstate (by simpa [RoomDurability.binding] using congrArg Option.isSome hb) ?_
      rcases (recordFailed_stored hc hf).1 with hstored | hstored
      · exact .inl hstored
      · exact .inr ⟨_, hr, hstored⟩

theorem callStep_sound (hs : CallStep automerge serde room event after) (ho : event.op.Opened)
    (hm : ∀ error, event.result = .error error → FileMoves event.io.append room after) :
    JournalSound serde after := by
  cases hs with
  | ok hcall =>
    cases call_ok hcall with
    | already => exact hc
    | committed _ _ hrecorded => exact (recorded_stored hc ho hrecorded).2
  | error hcall =>
    cases call_error hcall with
    | rejected => exact hc
    | journal _ _ hf => exact (recordFailed_stored hc hf).2 (hm _ rfl)

theorem sound_of_call (hcall : call automerge serde io op room = .ok outcome after) (ho : op.Opened) :
    JournalSound serde after :=
  callStep_sound hc (.ok hcall) ho nofun

theorem stored_of_call (hcall : call automerge serde io op room = .ok outcome after)
    (ho : op.Opened) (hk : outcome.isCommitted = true) (hj : after.journal.isSome = true) :
    after.stored serde = some after.state.record := by
  cases callStep_effect hc (.ok hcall) ho with
  | skipped => cases hk
  | committed _ hs =>
    refine hs.resolve_left fun hn => ?_
    rw [hn.2] at hj
    cases hj

theorem leaves_found (hl : Leaves automerge serde room inFlight journal) :
    Found automerge serde inFlight room (register serde journal) := by
  cases hl with
  | idle hj => simp [Found, RoomDurability.stored, hj]
  | calling hs ho hj =>
    have ht := effect_tried (callStep_effect hc hs ho) hj
    simp only [RoomDurability.stored, hj] at ht
    exact .inl ht
  | @promoting _ target _ next _ hj hcursor hr ha =>
    have hf := (post_append (cursorSound_of_no_cursor hcursor)).of_error ha
    rcases register_failed hf with hregister | hregister
    · exact .inr ⟨target, rfl, hregister⟩
    · exact .inl (.inr ⟨next, hr, hregister⟩)

theorem roomStep_effect (hs : RoomStep automerge serde room event after) :
    Effect automerge serde room event after ∧ JournalSound serde after := by
  have hreopened : ∀ journal : RecoveryJournal, CursorSound serde journal.reopen :=
    fun _ => cursorSound_of_no_cursor rfl
  cases hs with
  | returned hs ho hm => exact ⟨callStep_effect hc hs ho, callStep_sound hc hs ho hm⟩
  | @reloaded _ journal recovery hl hlatest =>
    have hr := latestRecord_eq_recovered hlatest
    rw [register_reopen] at hr
    have hf := leaves_found hc hl
    rw [hr] at hf
    refine ⟨.reloaded hf ?_ rfl, ?_⟩
    · simpa [RoomDurability.stored, recovered, fromState] using hr
    · rintro _ ⟨⟩
      exact hreopened journal
  | @started _ journal _ _ _ _ _ _ hl hlatest =>
    have hr := register_of_unavailable hlatest
    rw [register_reopen] at hr
    have hf := leaves_found hc hl
    rw [hr] at hf
    refine ⟨.started hf rfl ?_ rfl rfl rfl rfl, ?_⟩
    · simpa [RoomDurability.stored, journaled, fromState] using hr
    · rintro _ ⟨⟩
      exact hreopened journal
  | _ => exact ⟨.changed rfl rfl rfl, hc⟩

end Nteract.Durability
