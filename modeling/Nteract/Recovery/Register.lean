import Nteract.Lib.Register
import Nteract.Recovery.Journal.Theorems

namespace Nteract.Recovery

open Lib.Effect Lib.Register Lib.Transition

variable {serde : ManifestSerde} {journal after : RecoveryJournal} {io : AppendIo}
  {manifest : RecoveryManifest} {snapshot : Bytes}

def register (serde : ManifestSerde) (journal : RecoveryJournal) : Option RecoveryRecord :=
  (scanFile serde journal.bytes).latest

def RecoveryJournal.reopen (journal : RecoveryJournal) : RecoveryJournal :=
  { journal with appendCursor := none }

@[simp] theorem register_reopen (serde : ManifestSerde) (journal : RecoveryJournal) :
    register serde journal.reopen = register serde journal := rfl

def appendedRecord (manifest : RecoveryManifest) (snapshot : Bytes) : RecoveryRecord where
  manifest := manifest
  automergeSnapshot := snapshot
  sourceManifestVersion := RECOVERY_MANIFEST_VERSION

theorem latestRecord_of_register (hr : register serde journal = some record) :
    latestRecord serde journal =
      .Recovered ⟨record, (scanFile serde journal.bytes).ignoredTail⟩ := by
  unfold latestRecord
  cases hf : journal.file with
  | none => simp [register, RecoveryJournal.bytes, hf, scanFile, scanLoop_nil, JournalScan.start] at hr
  | some file =>
    have hb : journal.bytes = file.bytes := by simp [RecoveryJournal.bytes, hf]
    rw [register, hb] at hr
    simp [hr, hb]

theorem latestRecord_eq_recovered (hl : latestRecord serde journal = .Recovered recovery) :
    register serde journal = some recovery.record := by
  unfold latestRecord at hl
  cases hf : journal.file with
  | none => simp [hf] at hl
  | some file =>
    have hb : journal.bytes = file.bytes := by simp [RecoveryJournal.bytes, hf]
    rw [hf] at hl
    simp only at hl
    rw [register, hb]
    cases hs : (scanFile serde file.bytes).latest with
    | none =>
      rw [hs] at hl
      simp only at hl
      split at hl <;> cases hl
    | some =>
      rw [hs] at hl
      cases hl
      rfl

theorem register_successful (hs : SuccessfulAppend serde io manifest snapshot journal after) :
    register serde after = some (appendedRecord manifest snapshot) ∧
      (scanFile serde after.bytes).ignoredTail = none := by
  obtain ⟨written, rfl, rfl, _, _, _, rfl, _, rfl | rfl⟩ := hs
  · have hscan := scanFile_validPart_written journal.bytes written
    exact ⟨congrArg JournalScan.latest hscan, congrArg JournalScan.ignoredTail hscan⟩
  · have hscan := scanFile_written written
    exact ⟨congrArg JournalScan.latest hscan, congrArg JournalScan.ignoredTail hscan⟩

theorem register_failed (hf : FailedAppend serde io manifest snapshot journal after) :
    register serde after = register serde journal ∨
      register serde after = some (appendedRecord manifest snapshot) := by
  rcases hf with rfl | ⟨hn, rfl⟩ | ⟨written, rfl, rfl, _, available, rfl⟩
  · exact .inl rfl
  · left
    simp [register, RecoveryJournal.bytes, hn]
  · rcases scanFile_validPart_cut journal.bytes written available with hs | ⟨_, hs, _⟩
    · exact .inr (congrArg JournalScan.latest hs)
    · left
      simp [register, hs]

theorem cursorSound_successful (hs : SuccessfulAppend serde io manifest snapshot journal after) :
    CursorSound serde after := by
  have ht := (register_successful hs).2
  obtain ⟨_, _, _, _, _, _, rfl, he, _⟩ := hs
  constructor
  · intro other ho
    cases ho
    exact he
  · intro file other hf _ _
    cases hf
    exact ht

-- A failed append moved the modification time, by which the cursor notices the change.
def AppendIo.Moves (io : AppendIo) (journal : RecoveryJournal) : Prop :=
  ∀ cursor, journal.appendCursor = some cursor → cursor.modified.isSome → cursor.modified ≠ io.stamp

theorem cursorSound_failed (hc : CursorSound serde journal)
    (hf : FailedAppend serde io manifest snapshot journal after)
    (hm : after.file ≠ journal.file → io.Moves journal) : CursorSound serde after := by
  rcases hf with rfl | ⟨_, rfl⟩ | ⟨written, _, _, _, available, rfl⟩
  · exact hc
  · refine ⟨hc.at_end, ?_⟩
    intro file cursor hfile _ _
    cases hfile
    rfl
  · refine ⟨hc.at_end, ?_⟩
    intro file cursor hfile hcursor hd
    by_cases hs : (journal.withFile
        ⟨validPart serde journal.bytes ++ written.bytes.take available, io.stamp⟩).file =
        journal.file
    · exact hc.no_tail file cursor (hs ▸ hfile) hcursor hd
    · simp only [RecoveryJournal.withFile_file, Option.some.injEq] at hfile
      simp only [JournalAppendCursor.describes, Bool.and_eq_true, decide_eq_true_eq] at hd
      have hmoved := hm hs cursor hcursor hd.1.2
      exact absurd (hd.2.trans (by rw [← hfile])) hmoved

theorem register_archived {io : ArchiveIo}
    (ha : archiveAndReplace serde io manifest snapshot journal = .ok replacement after) :
    register serde after = some (appendedRecord manifest snapshot) ∧ CursorSound serde after := by
  obtain ⟨written, rfl, rfl, hbytes, he⟩ := post_archiveAndReplace.of_ok ha
  have hs := scanFile_written written
  refine ⟨?_, he, ?_⟩
  · rw [register, hbytes, hs]
    rfl
  · intro file cursor hf _ _
    have hb : file.bytes = written.bytes := by rw [← hbytes, RecoveryJournal.bytes, hf]; rfl
    rw [hb, hs]
    rfl

theorem register_not_archived {io : ArchiveIo} (hc : CursorSound serde journal)
    (ha : archiveAndReplace serde io manifest snapshot journal = .error error after) :
    (register serde after = register serde journal ∨
      register serde after = some (appendedRecord manifest snapshot)) ∧ CursorSound serde after := by
  rcases post_archiveAndReplace.of_error ha with rfl | ⟨written, rfl, rfl, rfl⟩
  · exact ⟨.inl rfl, hc⟩
  · have hs := scanFile_written written
    refine ⟨.inr (congrArg JournalScan.latest hs), hc.at_end, ?_⟩
    intro file cursor hf _ _
    cases hf
    exact congrArg JournalScan.ignoredTail hs

-- The file ends with a whole record or with a torn one.
def TornAtMost (serde : ManifestSerde) (journal : RecoveryJournal) : Prop :=
  ∀ tail, (scanFile serde journal.bytes).ignoredTail = some tail →
    tail.isRepairableTornSuffix = true

theorem tornAtMost_of_no_tail (hn : (scanFile serde journal.bytes).ignoredTail = none) :
    TornAtMost serde journal := by
  intro tail ht
  rw [hn] at ht
  cases ht

theorem tornAtMost_failed (ht : TornAtMost serde journal)
    (hf : FailedAppend serde io manifest snapshot journal after) : TornAtMost serde after := by
  rcases hf with rfl | ⟨_, rfl⟩ | ⟨written, rfl, rfl, _, available, rfl⟩
  · exact ht
  · exact tornAtMost_of_no_tail rfl
  · rcases scanFile_validPart_cut journal.bytes written available with hs | ⟨_, hs, htorn⟩
    · exact tornAtMost_of_no_tail (by rw [RecoveryJournal.withFile_bytes, hs]; rfl)
    · intro issue hi
      rw [RecoveryJournal.withFile_bytes, hs] at hi
      exact htorn issue hi

theorem tornAtMost_archived {io : ArchiveIo}
    (ha : archiveAndReplace serde io manifest snapshot journal = .ok replacement after) :
    TornAtMost serde after := by
  obtain ⟨written, _, _, hb, _⟩ := post_archiveAndReplace.of_ok ha
  exact tornAtMost_of_no_tail (by rw [hb, scanFile_written written]; rfl)

theorem tornAtMost_not_archived {io : ArchiveIo} (ht : TornAtMost serde journal)
    (ha : archiveAndReplace serde io manifest snapshot journal = .error error after) :
    TornAtMost serde after := by
  rcases post_archiveAndReplace.of_error ha with rfl | ⟨written, _, _, rfl⟩
  · exact ht
  · refine tornAtMost_of_no_tail ?_
    rw [RecoveryJournal.withFile_bytes, scanFile_written written]
    rfl

-- A crash cuts an append at any of its system calls and loses the cursor.
inductive JournalStep (serde : ManifestSerde) :
    RecoveryJournal → Event RecoveryRecord → RecoveryJournal → Prop
  | acknowledged {journal after : RecoveryJournal} {manifest : RecoveryManifest}
      {snapshot : Bytes} (io : AppendIo) :
      append serde io manifest snapshot journal = .ok () after →
      JournalStep serde journal (.Acknowledged (appendedRecord manifest snapshot)) after
  | failed {journal after : RecoveryJournal} {manifest : RecoveryManifest} {snapshot : Bytes}
      {error : RecoveryJournalError} (io : AppendIo) :
      append serde io manifest snapshot journal = .error error after →
      (after.file ≠ journal.file → io.Moves journal) →
      JournalStep serde journal (.Interrupted (appendedRecord manifest snapshot)) after
  | crashed {journal after : RecoveryJournal} {manifest : RecoveryManifest} {snapshot : Bytes}
      (io : AppendIo) :
      append serde io manifest snapshot journal = .ok () after ∨
        (∃ error, append serde io manifest snapshot journal = .error error after) →
      JournalStep serde journal (.Interrupted (appendedRecord manifest snapshot))
        after.reopen
  | reopened (journal : RecoveryJournal) :
      JournalStep serde journal .Reopened journal.reopen

theorem journalStep_refines (hc : CursorSound serde journal)
    (hs : JournalStep serde journal event after) :
    CursorSound serde after ∧ Step (register serde journal) event (register serde after) := by
  cases hs with
  | acknowledged _ ha =>
    have hsuccess := (post_append hc).of_ok ha
    refine ⟨cursorSound_successful hsuccess, ?_⟩
    rw [(register_successful hsuccess).1]
    exact .acknowledged _ _
  | failed _ ha hm =>
    have hf := (post_append hc).of_error ha
    refine ⟨cursorSound_failed hc hf hm, ?_⟩
    rcases register_failed hf with hr | hr
    · rw [hr]
      exact .lost _ _
    · rw [hr]
      exact .taken _ _
  | crashed _ ha =>
    refine ⟨cursorSound_of_no_cursor rfl, ?_⟩
    rw [register_reopen]
    rcases ha with ha | ⟨_, ha⟩
    · rw [(register_successful ((post_append hc).of_ok ha)).1]
      exact .taken _ _
    · rcases register_failed ((post_append hc).of_error ha) with hr | hr
      · rw [hr]
        exact .lost _ _
      · rw [hr]
        exact .taken _ _
  | reopened => exact ⟨cursorSound_of_no_cursor rfl, .reopened _⟩

theorem run_refines (hc : CursorSound serde journal)
    (hr : Run (JournalStep serde) journal events after) :
    CursorSound serde after ∧ Run Step (register serde journal) events (register serde after) :=
  ⟨hr.invariant (CursorSound serde) (fun _ _ _ hi hs => (journalStep_refines hi hs).1) hc,
    hr.simulates (CursorSound serde) Step (register serde)
      (fun _ _ _ hi hs => journalStep_refines hi hs) hc⟩

-- Reading returns the last acknowledged record or one interrupted since, and a tail that is not a
-- torn append is left alone.
theorem journal_refines_register {events : List (Event RecoveryRecord)}
    (hn : journal.appendCursor = none) (hr : Run (JournalStep serde) journal events after) :
    Run Step (register serde journal) events (register serde after) ∧
      (∀ before record later, events = before ++ .Acknowledged record :: later →
        (∀ other, Event.Acknowledged other ∉ later) →
        ∃ recovery, latestRecord serde after = .Recovered recovery ∧
          (recovery.record = record ∨ Event.Interrupted recovery.record ∈ later) ∧
          ∀ fingerprint, load serde after fingerprint = .Match recovery ∨
            load serde after fingerprint = .SourceConflict recovery fingerprint) ∧
      (∀ tail, (scanFile serde after.bytes).ignoredTail = some tail →
        tail.isRepairableTornSuffix = false →
        ∀ io manifest snapshot,
          ∃ error, append serde io manifest snapshot after = .error error after) := by
  obtain ⟨hs, hrun⟩ := run_refines (cursorSound_of_no_cursor hn) hr
  refine ⟨hrun, ?_, ?_⟩
  · intro before record later he hlast
    rw [he] at hrun
    obtain ⟨_, hv, hcase⟩ := run_value hrun hlast
    have hl := latestRecord_of_register hv
    refine ⟨_, hl, hcase, fun fingerprint => ?_⟩
    simp only [load, hl]
    split
    · exact .inl rfl
    · exact .inr rfl
  · intro tail ht hc io manifest snapshot
    apply append_refuses_tail hs
    intro ha
    rw [(ha tail ht).1] at hc
    cases hc

-- One acknowledged append, then a crash that leaves a hundred bytes of the next one.
theorem journal_refines_register_sample :
    ∃ second,
      Run (JournalStep sampleSerde) (RecoveryJournal.new "/docs/a.recovery" none)
        [.Acknowledged (appendedRecord (sampleManifest 1) [133, 111, 74, 131]),
          .Interrupted (appendedRecord (sampleManifest 2) [133, 111, 74, 131])] second ∧
      ∃ recovery, latestRecord sampleSerde second = .Recovered recovery ∧
        (recovery.record = appendedRecord (sampleManifest 1) [133, 111, 74, 131] ∨
          recovery.record = appendedRecord (sampleManifest 2) [133, 111, 74, 131]) := by
  have hy : yields (append sampleSerde (.works 1) (sampleManifest 1) [133, 111, 74, 131])
      (.new "/docs/a.recovery" none) (fun _ _ => true) = true := by decide +kernel
  obtain ⟨_, middle, hf, _⟩ := exists_of_yields hy
  let cut : AppendIo := { AppendIo.works 2 with
    failure := fun stage => if stage = .Write then some "No space left on device" else none
    written := 100 }
  obtain ⟨second, hs⟩ : ∃ second, append sampleSerde cut (sampleManifest 2)
      [133, 111, 74, 131] middle = .ok () second ∨
      ∃ error, append sampleSerde cut (sampleManifest 2) [133, 111, 74, 131] middle =
        .error error second := by
    cases append sampleSerde cut (sampleManifest 2) [133, 111, 74, 131] middle with
    | ok _ after => exact ⟨after, .inl rfl⟩
    | error failure after => exact ⟨after, .inr ⟨failure, rfl⟩⟩
  have hr : Run (JournalStep sampleSerde) (RecoveryJournal.new "/docs/a.recovery" none)
      [.Acknowledged (appendedRecord (sampleManifest 1) [133, 111, 74, 131]),
        .Interrupted (appendedRecord (sampleManifest 2) [133, 111, 74, 131])] second.reopen :=
    .cons (.acknowledged _ hf) (.cons (.crashed cut hs) (.nil _))
  obtain ⟨recovery, hl, hc, _⟩ := (journal_refines_register rfl hr).2.1 [] _ _ rfl
    (by simp)
  refine ⟨_, hr, recovery, hl, ?_⟩
  simpa using hc

end Nteract.Recovery
