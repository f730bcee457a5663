import Nteract.Lib.Effect
import Nteract.Recovery.Journal
import Nteract.Recovery.Record.Theorems

namespace Nteract.Recovery

open Lib.Effect

variable {serde : ManifestSerde} {journal : RecoveryJournal} {io : AppendIo}
  {manifest : RecoveryManifest} {snapshot : Bytes}

@[simp] theorem post_attempt (stage : AppendStage) (ok : Unit → RecoveryJournal → Prop)
    (error : RecoveryJournalError → RecoveryJournal → Prop) :
    Post (attempt io stage) journal ok error ↔ (io.failure stage = none → ok () journal) ∧
        ∀ message, io.failure stage = some message → error (.Io message) journal := by
  unfold attempt
  cases io.failure stage <;> simp

@[simp] theorem post_writeFile (bytes : Bytes) (modified : Option Nat)
    (ok : Unit → RecoveryJournal → Prop) (error : RecoveryJournalError → RecoveryJournal → Prop) :
    Post (writeFile bytes modified) journal ok error ↔
      ok () (journal.withFile ⟨bytes, modified⟩) := Iff.rfl

theorem writeAt_end (bytes data : Bytes) : writeAt bytes bytes.length data = bytes ++ data := by
  simp [writeAt]

-- A cursor that describes the file says that it is a sequence of whole records.
structure CursorSound (serde : ManifestSerde) (journal : RecoveryJournal) : Prop where
  at_end : ∀ cursor, journal.appendCursor = some cursor → cursor.fileLen = cursor.lastValidEnd
  no_tail : ∀ file cursor, journal.file = some file → journal.appendCursor = some cursor →
    cursor.describes file = true → (scanFile serde file.bytes).ignoredTail = none

theorem cursorSound_of_no_cursor (hn : journal.appendCursor = none) :
    CursorSound serde journal := by
  constructor <;> simp [hn]

theorem JournalAppendCursor.describes_length {cursor : JournalAppendCursor}
    (hd : cursor.describes file = true) : cursor.fileLen = file.bytes.length := by
  simp only [describes, Bool.and_eq_true, decide_eq_true_eq] at hd
  exact hd.1.1

-- The tail, if any, is a torn append behind a valid record.
def JournalScan.appendable (scan : JournalScan) : Prop :=
  ∀ tail, scan.ignoredTail = some tail →
    tail.isRepairableTornSuffix = true ∧ 0 < scan.validRecordCount

theorem post_openFile : Post (openFile io) journal
      (fun file after => after = journal.withFile file ∧ file.bytes = journal.bytes ∧
        (journal.file = some file ∨ journal.file = none ∧ file = ⟨[], io.stamp⟩))
      (fun _ after => after = journal) := by
  unfold openFile
  simp only [post_bind, post_attempt, post_get]
  refine ⟨fun _ => ⟨fun _ => ?_, by simp⟩, by simp⟩
  cases hf : journal.file with
  | none => simp [RecoveryJournal.bytes, hf]
  | some =>
    exact ⟨(RecoveryJournal.withFile_of_eq hf).symm, by simp [RecoveryJournal.bytes, hf], by simp⟩

-- Whether it comes from the cursor or from a scan, the position is that of the scan.
theorem post_appendPosition {file : JournalFile} (hf : journal.file = some file) :
    Post (appendPosition serde io file) journal
      (fun position after => after = journal ∧ (CursorSound serde journal →
        position.1 = (scanFile serde file.bytes).lastValidEnd ∧
        position.2.2 = (scanFile serde file.bytes).ignoredTail ∧
        (position.2.2 ≠ none → position.2.1 = (scanFile serde file.bytes).validRecordCount)))
      (fun _ after => after = journal) := by
  unfold appendPosition
  simp only [post_bind, post_get]
  cases hm : journal.appendCursor.filter fun cursor => cursor.describes file with
  | none => simp
  | some cursor =>
    obtain ⟨hcursor, hd⟩ := Option.filter_eq_some_iff.mp hm
    simp only [post_pure]
    refine ⟨trivial, fun hc => ?_⟩
    have hn := hc.no_tail file cursor hf hcursor hd
    have he : cursor.lastValidEnd = file.bytes.length := by
      rw [← hc.at_end cursor hcursor, JournalAppendCursor.describes_length hd]
    exact ⟨by rw [he, scanFile_end _ hn], hn.symm, by simp⟩

theorem post_repairTail (hf : journal.file = some file) :
    Post (repairTail io file lastValidEnd validRecordCount tail) journal
      (fun repaired after => after = journal.withFile repaired ∧ (tail = none ∧ repaired = file ∨
          ∃ issue, tail = some issue ∧ issue.isRepairableTornSuffix = true ∧ 0 < validRecordCount ∧
            repaired = ⟨file.bytes.take lastValidEnd, io.stamp⟩))
      (fun _ after => after = journal ∨
        ∃ issue, tail = some issue ∧ issue.isRepairableTornSuffix = true ∧ 0 < validRecordCount ∧
          after = journal.withFile ⟨file.bytes.take lastValidEnd, io.stamp⟩) := by
  cases tail with
  | none => simp [repairTail, RecoveryJournal.withFile_of_eq hf]
  | some =>
    simp only [repairTail, post_bind, post_ite, post_throw, post_pure, post_attempt, post_writeFile]
    grind

theorem post_writeRecord : Post (writeRecord io file start encoded) journal
      (fun _ after => start = file.bytes.length →
        after = journal.withFile ⟨file.bytes ++ encoded, io.stamp⟩)
      (fun _ after => after.path = journal.path ∧ (start = file.bytes.length → after = journal ∨
        ∃ available, after = journal.withFile ⟨file.bytes ++ encoded.take available, io.stamp⟩)) := by
  unfold writeRecord
  simp only [post_bind, post_attempt]
  refine ⟨fun _ => ?_, by simp⟩
  cases io.failure .Write with
  | some =>
    refine ⟨rfl, ?_⟩
    rintro rfl
    exact .inr ⟨io.written, by rw [writeAt_end]⟩
  | none =>
    simp only [post_bind, post_attempt]
    refine ⟨?_, fun message _ => ⟨rfl, ?_⟩⟩
    · rintro - rfl
      rw [writeAt_end]
    · rintro rfl
      exact .inr ⟨encoded.length, by rw [List.take_length, writeAt_end]⟩

theorem post_compact : Post (compact io appendedEnd appendedRecordCount encoded) journal
      (fun _ after => after = journal ∨ after = journal.withFile ⟨encoded, io.stamp⟩)
      (fun _ _ => False) := by
  unfold compact
  simp only [post_ite, post_pure, true_or, implies_true, and_true]
  intro _
  cases io.compaction <;> simp

-- The file as it was, empty, or its valid part with the new record cut.
def FailedAppend (serde : ManifestSerde) (io : AppendIo) (manifest : RecoveryManifest)
    (snapshot : Bytes) (journal after : RecoveryJournal) : Prop :=
  after = journal ∨
  journal.file = none ∧ after = journal.withFile ⟨[], io.stamp⟩ ∨
  ∃ written : WrittenRecord serde, written.manifest = manifest ∧ written.snapshot = snapshot ∧
    (scanFile serde journal.bytes).appendable ∧ ∃ available,
      after = journal.withFile
        ⟨validPart serde journal.bytes ++ written.bytes.take available, io.stamp⟩

-- A successful append leaves the valid part and the new record, or the record alone.
def SuccessfulAppend (serde : ManifestSerde) (io : AppendIo) (manifest : RecoveryManifest)
    (snapshot : Bytes) (journal after : RecoveryJournal) : Prop :=
  ∃ written : WrittenRecord serde, written.manifest = manifest ∧ written.snapshot = snapshot ∧
    (scanFile serde journal.bytes).appendable ∧ ∃ bytes cursor,
      after = ⟨journal.path, some cursor, some ⟨bytes, io.stamp⟩⟩ ∧
      cursor.fileLen = cursor.lastValidEnd ∧
      (bytes = validPart serde journal.bytes ++ written.bytes ∨ bytes = written.bytes)

theorem post_appendTarget (hf : journal.file = some file) :
    Post (appendTarget serde io file) journal
      (fun target after => after = journal.withFile target.1 ∧ (CursorSound serde journal →
        (scanFile serde file.bytes).appendable ∧ target.1.bytes = validPart serde file.bytes ∧
        target.2.1 = target.1.bytes.length ∧ (target.1 = file ∨ target.1.modified = io.stamp)))
      (fun _ after => after.path = journal.path ∧ (CursorSound serde journal →
        after = journal ∨ (scanFile serde file.bytes).appendable ∧
          after = journal.withFile ⟨validPart serde file.bytes, io.stamp⟩)) := by
  unfold appendTarget
  simp only [post_bind]
  refine (post_appendPosition hf).imp ?_ fun _ _ hj => ⟨by rw [hj], fun _ => .inl hj⟩
  rintro ⟨_, validRecordCount, tail⟩ after ⟨rfl, hp⟩
  simp only at hp
  have hrepairable : CursorSound serde after → ∀ issue, tail = some issue →
      issue.isRepairableTornSuffix = true → 0 < validRecordCount →
      (scanFile serde file.bytes).appendable := by
    intro hc issue hi hr hpos issue' hissue'
    obtain ⟨-, ht, hcount⟩ := hp hc
    rw [← ht, hi, Option.some.injEq] at hissue'
    rw [← hcount (by simp [hi]), ← hissue']
    exact ⟨hr, hpos⟩
  refine (post_repairTail hf).imp ?_ ?_
  · rintro repaired _ ⟨ha, hrepaired⟩
    refine ⟨ha, fun hc => ?_⟩
    obtain ⟨he, ht, -⟩ := hp hc
    rcases hrepaired with ⟨rfl, rfl⟩ | ⟨issue, hi, hr, hpos, rfl⟩
    · have hv := validPart_of_no_tail repaired.bytes ht.symm
      refine ⟨?_, hv.symm, by rw [he, scanFile_end _ ht.symm], .inl rfl⟩
      intro issue hi
      rw [← ht] at hi
      cases hi
    · refine ⟨hrepairable hc issue hi hr hpos, by rw [he]; rfl, ?_, .inr rfl⟩
      simp only [he]
      exact (validPart_length file.bytes).symm
  · rintro _ _ (rfl | ⟨issue, hi, hr, hpos, rfl⟩)
    · exact ⟨rfl, fun _ => .inl rfl⟩
    · refine ⟨rfl, fun hc => .inr ⟨hrepairable hc issue hi hr hpos, ?_⟩⟩
      rw [(hp hc).1]
      rfl

-- An append never moves a journal to another path, whatever its cursor says.
theorem post_append_path : Post (append serde io manifest snapshot) journal
      (fun _ after => CursorSound serde journal →
        SuccessfulAppend serde io manifest snapshot journal after)
      (fun _ after => after.path = journal.path ∧ (CursorSound serde journal →
        FailedAppend serde io manifest snapshot journal after)) := by
  unfold append
  simp only [post_bind, post_ofExcept]
  refine ⟨fun encoded hencoded => ?_, fun _ _ => ⟨trivial, fun _ => .inl rfl⟩⟩
  let written : WrittenRecord serde := ⟨manifest, snapshot, encoded, hencoded⟩
  let grown (_ : Unit) (after : RecoveryJournal) := CursorSound serde journal →
    (scanFile serde journal.bytes).appendable ∧
      after = journal.withFile ⟨validPart serde journal.bytes ++ encoded, io.stamp⟩
  let failed (_ : RecoveryJournalError) (after : RecoveryJournal) := after.path = journal.path ∧
    (CursorSound serde journal → FailedAppend serde io manifest snapshot journal after)
  refine post_openFile.imp ?_ fun _ _ hj => ⟨by rw [hj], fun _ => .inl hj⟩
  rintro file _ ⟨rfl, hbytes, hfile⟩
  have hopened : FailedAppend serde io manifest snapshot journal (journal.withFile file) := by
    rcases hfile with hfile | ⟨hnone, rfl⟩
    · exact .inl (RecoveryJournal.withFile_of_eq hfile)
    · exact .inr (.inl ⟨hnone, rfl⟩)
  have hsound (hc : CursorSound serde journal) : CursorSound serde (journal.withFile file) := by
    rcases hfile with hfile | ⟨_, rfl⟩
    · rwa [RecoveryJournal.withFile_of_eq hfile]
    · refine ⟨hc.at_end, ?_⟩
      intro other cursor hother _ _
      cases hother
      rfl
  have hcut : ∀ bytes available, (scanFile serde journal.bytes).appendable →
      bytes = validPart serde journal.bytes → FailedAppend serde io manifest snapshot journal
        (journal.withFile ⟨bytes ++ encoded.take available, io.stamp⟩) := by
    rintro bytes available happ rfl
    exact .inr (.inr ⟨written, rfl, rfl, happ, available, rfl⟩)
  -- from here on: the record is written behind the valid part
  have hrest : Post (appendTarget serde io file) (journal.withFile file)
      (fun target after => Post (writeRecord io target.1 target.2.1 encoded) after grown failed)
      failed := by
    have htarget := @post_appendTarget serde (journal.withFile file) io file rfl
    rw [hbytes] at htarget
    refine htarget.imp ?_ ?_
    · rintro ⟨⟨bytes, _⟩, _, count⟩ _ ⟨rfl, htarget⟩
      refine post_writeRecord.imp (fun _ after hwritten hc => ?_) fun _ after hfailed => ?_
      · obtain ⟨happ, hvalid, hend, -⟩ := htarget (hsound hc)
        rw [hwritten hend, ← hvalid]
        exact ⟨happ, rfl⟩
      · refine ⟨hfailed.1, fun hc => ?_⟩
        obtain ⟨happ, hvalid, hend, hmodified⟩ := htarget (hsound hc)
        rcases hfailed.2 hend with rfl | ⟨available, rfl⟩
        · rcases hmodified with rfl | rfl
          · exact hopened
          · simpa using hcut bytes 0 happ hvalid
        · exact hcut bytes available happ hvalid
    · rintro _ after ⟨hpath, hfailed⟩
      refine ⟨hpath, fun hc => ?_⟩
      rcases hfailed (hsound hc) with rfl | ⟨happ, rfl⟩
      · exact hopened
      · simpa using hcut _ 0 happ rfl
  have hcompact : ∀ appendedEnd count after, grown () after →
      Post (compact io appendedEnd count encoded) after
        (fun active after => Post (rememberCursor io.modifiedReadable active.1 active.2) after
          (fun _ after => CursorSound serde journal →
            SuccessfulAppend serde io manifest snapshot journal after) failed) failed := by
    intro appendedEnd count _ hbefore
    refine post_compact.imp (fun active _ hafter hc => ?_) fun _ _ => False.elim
    obtain ⟨happ, rfl⟩ := hbefore hc
    rcases hafter with rfl | rfl
    · exact ⟨written, rfl, rfl, happ, _, _, rfl, rfl, .inl rfl⟩
    · exact ⟨written, rfl, rfl, happ, _, _, rfl, rfl, .inr rfl⟩
  have hall := hrest.imp (fun target _ hw => hw.imp
      (fun _ after hdone => hcompact (target.2.1 + encoded.length) (target.2.2 + 1) after hdone)
      (fun _ _ hfailed => hfailed))
    (fun _ _ hfailed => hfailed)
  simp only [post_attempt, post_ite, post_bind]
  exact ⟨fun _ => ⟨fun _ => ⟨fun _ => hall, fun _ _ => ⟨rfl, fun _ => hopened⟩⟩, fun _ => hall⟩,
    fun _ _ => ⟨rfl, fun _ => hopened⟩⟩

theorem post_append (hc : CursorSound serde journal) :
    Post (append serde io manifest snapshot) journal
      (fun _ after => SuccessfulAppend serde io manifest snapshot journal after)
      (fun _ after => FailedAppend serde io manifest snapshot journal after) :=
  post_append_path.imp (fun _ _ h => h hc) fun _ _ h => h.2 hc

theorem post_appendPosition_works {file : JournalFile}
    (hn : (scanFile serde file.bytes).ignoredTail = none) :
    Post (appendPosition serde (.works stamp) file) journal (fun position _ => position.2.2 = none)
      fun _ _ => False := by
  unfold appendPosition
  simp only [post_bind, post_get]
  split <;> simp [hn, AppendIo.works]

-- A journal without a tail takes every record that can be encoded.
theorem post_append_works (he : (encodeRecord serde manifest snapshot).toOption.isSome = true)
    (hn : (scanFile serde journal.bytes).ignoredTail = none) :
    Post (append serde (.works stamp) manifest snapshot) journal (fun _ _ => True)
      fun _ _ => False := by
  unfold append openFile appendTarget writeRecord compact rememberCursor
  cases hencoded : encodeRecord serde manifest snapshot with
  | error => simp [hencoded, Except.toOption] at he
  | ok =>
    cases hf : journal.file
    all_goals
      simp only [RecoveryJournal.bytes, hf] at hn
      simp [hf, AppendIo.works, writeFile]
      refine (post_appendPosition_works hn).imp ?_ fun _ _ => False.elim
      rintro ⟨_, _, _⟩ _ rfl
      simp [repairTail]

-- A tail that is not a torn append behind a valid record is never written to.
theorem append_refuses_tail (hc : CursorSound serde journal)
    (hr : ¬ (scanFile serde journal.bytes).appendable) :
    ∃ error, append serde io manifest snapshot journal = .error error journal := by
  have hne : journal.file ≠ none := by
    intro hn
    apply hr
    intro tail ht
    simp [RecoveryJournal.bytes, hn, scanFile, scanLoop_nil, JournalScan.start] at ht
  have hp := @post_append serde journal io manifest snapshot hc
  cases ha : append serde io manifest snapshot journal with
  | ok =>
    obtain ⟨_, _, _, happ, _⟩ := hp.of_ok ha
    exact absurd happ hr
  | error failure =>
    rcases hp.of_error ha with rfl | ⟨hn, _⟩ | ⟨_, _, _, happ, _⟩
    · exact ⟨failure, rfl⟩
    · exact absurd hn hne
    · exact absurd happ hr

theorem post_replaceActive {io : ArchiveIo} : Post (replaceActive io archive encoded) journal
      (fun _ after => after.bytes = encoded)
      (fun _ after => after = journal ∨ after = journal.withFile ⟨encoded, io.stamp⟩) := by
  unfold replaceActive replacementOutcome
  cases hr : io.replace with
  | Failed =>
    simp only [ReplaceOutcome.visible, Bool.false_eq_true, if_false, post_bind, post_get, post_ite,
      post_pure, post_throw]
    refine ⟨fun ha => ?_, fun _ => .inl trivial⟩
    rw [RecoveryJournal.bytes, ha.2]
    rfl
  | _ => simp [ReplaceOutcome.visible, RecoveryJournal.bytes, RecoveryJournal.withFile]

-- The file is the old one or the new record alone, which it is if reported as committed.
theorem post_archiveAndReplace {io : ArchiveIo} :
    Post (archiveAndReplace serde io manifest snapshot) journal
      (fun _ after => ∃ written : WrittenRecord serde, written.manifest = manifest ∧
        written.snapshot = snapshot ∧ after.bytes = written.bytes ∧
        ∀ cursor, after.appendCursor = some cursor → cursor.fileLen = cursor.lastValidEnd)
      (fun _ after => after = journal ∨ ∃ written : WrittenRecord serde,
        written.manifest = manifest ∧ written.snapshot = snapshot ∧
        after = journal.withFile ⟨written.bytes, io.stamp⟩) := by
  unfold archiveAndReplace
  simp only [post_bind, post_ofExcept, post_get, post_ite, post_throw]
  refine ⟨fun encoded he => ⟨fun _ => .inl trivial, fun _ => ⟨fun archive _ => ?_,
    fun _ _ => .inl trivial⟩⟩, fun _ _ => .inl trivial⟩
  let written : WrittenRecord serde := ⟨manifest, snapshot, encoded, he⟩
  refine post_replaceActive.imp ?_ ?_
  · rintro _ after hb
    refine ⟨written, rfl, rfl, hb, ?_⟩
    intro cursor hc
    cases hc
    rfl
  · rintro _ _ (rfl | rfl)
    · exact .inl rfl
    · exact .inr ⟨written, rfl, rfl, rfl⟩

end Nteract.Recovery
