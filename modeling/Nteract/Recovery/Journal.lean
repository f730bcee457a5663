import Nteract.Recovery.Record

namespace Nteract.Recovery

def COMPACT_AFTER_RECORDS : Nat := 32
def COMPACT_AFTER_BYTES : Nat := 64 * 1024 * 1024

-- The bytes at the journal's path and their modification time, if the filesystem has one.
structure JournalFile where
  bytes : Bytes
  modified : Option Nat
deriving DecidableEq

structure JournalAppendCursor where
  fileLen : Nat
  modified : Option Nat
  lastValidEnd : Nat
  validRecordCount : Nat
deriving DecidableEq

-- A journal with its file. Clones share the cursor, so there is one of each.
structure RecoveryJournal where
  path : PathBuf
  appendCursor : Option JournalAppendCursor
  file : Option JournalFile
deriving DecidableEq

def RecoveryJournal.new (path : PathBuf) (file : Option JournalFile) : RecoveryJournal where
  path := path
  appendCursor := none
  file := file

variable (journal : RecoveryJournal) (file : JournalFile)

def RecoveryJournal.bytes : Bytes :=
  (journal.file.map JournalFile.bytes).getD []

def RecoveryJournal.withFile : RecoveryJournal :=
  { journal with file := some file }

@[simp] theorem RecoveryJournal.withFile_file : (journal.withFile file).file = some file := rfl

@[simp] theorem RecoveryJournal.withFile_path : (journal.withFile file).path = journal.path := rfl

@[simp] theorem RecoveryJournal.withFile_bytes : (journal.withFile file).bytes = file.bytes := rfl

@[simp] theorem RecoveryJournal.withFile_withFile (first second : JournalFile) :
    (journal.withFile first).withFile second = journal.withFile second := rfl

theorem RecoveryJournal.withFile_of_eq {journal : RecoveryJournal} {file : JournalFile}
    (hf : journal.file = some file) : journal.withFile file = journal := by
  rw [withFile, ← hf]

abbrev JournalM := EStateM RecoveryJournalError RecoveryJournal

inductive AppendStage
  | EnsureParent
  | Open
  | Metadata
  | SyncDirectory
  | Scan
  | Truncate
  | SyncTruncated
  | Seek
  | Write
  | SyncWritten
deriving DecidableEq

-- A failed flush of the directory is an error although the new bytes are in place.
inductive ReplaceOutcome
  | Replaced
  | Failed (error : String)
  | ReplacedUnsynced (error : String)
deriving DecidableEq

def ReplaceOutcome.visible : ReplaceOutcome → Bool
  | .Replaced => true
  | .Failed _ => false
  | .ReplacedUnsynced _ => true

-- The first failing call, the bytes that a failing write leaves, the later modification time, the
-- outcome of a compaction, and whether the time can be read back.
structure AppendIo where
  failure : AppendStage → Option String
  written : Nat
  stamp : Option Nat
  compaction : ReplaceOutcome
  modifiedReadable : Bool

def AppendIo.works (stamp : Nat) : AppendIo where
  failure _ := none
  written := 0
  stamp := some stamp
  compaction := .Replaced
  modifiedReadable := true

variable (serde : ManifestSerde) (io : AppendIo)

def attempt (stage : AppendStage) : JournalM Unit :=
  match io.failure stage with
  | some error => throw (.Io error)
  | none => pure ()

def writeFile (bytes : Bytes) (modified : Option Nat) : JournalM Unit :=
  modify fun journal => journal.withFile ⟨bytes, modified⟩

-- Writing at an offset overwrites in place; past the end the gap reads as zeros.
def writeAt (bytes : Bytes) (offset : Nat) (data : Bytes) : Bytes :=
  bytes.take offset ++ List.replicate (offset - bytes.length) 0 ++ data ++
    bytes.drop (offset + data.length)

def openFile : JournalM JournalFile := do
  attempt io .EnsureParent
  attempt io .Open
  match (← get).file with
  | some file => return file
  | none =>
    writeFile [] io.stamp
    return ⟨[], io.stamp⟩

def JournalAppendCursor.describes (cursor : JournalAppendCursor) (file : JournalFile) : Bool :=
  cursor.fileLen = file.bytes.length && cursor.modified.isSome && cursor.modified = file.modified

-- From the cursor when it still describes the file, and from a full scan otherwise.
def appendPosition (file : JournalFile) : JournalM (Nat × Nat × Option JournalTailIssue) := do
  match (← get).appendCursor.filter (fun cursor => cursor.describes file) with
  | some cursor => return (cursor.lastValidEnd, cursor.validRecordCount, none)
  | none =>
    attempt io .Scan
    let scan := scanFile serde file.bytes
    return (scan.lastValidEnd, scan.validRecordCount, scan.ignoredTail)

-- Truncate a torn suffix behind a valid record; refuse every other tail.
def repairTail (file : JournalFile) (lastValidEnd validRecordCount : Nat) :
    Option JournalTailIssue → JournalM JournalFile
  | none => return file
  | some tail => do
    if tail.isUnsupportedVersion then
      throw (.UnsupportedTailVersion tail)
    if validRecordCount = 0 then
      throw (.NoValidRecord tail)
    if !tail.isRepairableTornSuffix then
      throw (.CorruptTailRequiresReconciliation tail)
    attempt io .Truncate
    writeFile (file.bytes.take lastValidEnd) io.stamp
    attempt io .SyncTruncated
    return ⟨file.bytes.take lastValidEnd, io.stamp⟩

-- The file, where the record starts and how many records precede it.
def appendTarget (file : JournalFile) : JournalM (JournalFile × Nat × Nat) := do
  let (lastValidEnd, validRecordCount, ignoredTail) ← appendPosition serde io file
  let file ← repairTail io file lastValidEnd validRecordCount ignoredTail
  return (file, lastValidEnd, validRecordCount)

def writeRecord (file : JournalFile) (start : Nat) (encoded : Bytes) : JournalM Unit := do
  attempt io .Seek
  match io.failure .Write with
  | some error =>
    writeFile (writeAt file.bytes start (encoded.take io.written)) io.stamp
    throw (.Io error)
  | none =>
    writeFile (writeAt file.bytes start encoded) io.stamp
    attempt io .SyncWritten

-- A compaction error is logged and the cursor keeps the uncompacted end.
def compact (appendedEnd appendedRecordCount : Nat) (encoded : Bytes) : JournalM (Nat × Nat) := do
  if appendedRecordCount ≥ COMPACT_AFTER_RECORDS ∨ appendedEnd ≥ COMPACT_AFTER_BYTES then
    match io.compaction with
    | .Replaced =>
      writeFile encoded io.stamp
      return (encoded.length, 1)
    | .Failed _ => return (appendedEnd, appendedRecordCount)
    | .ReplacedUnsynced _ =>
      writeFile encoded io.stamp
      return (appendedEnd, appendedRecordCount)
  else
    return (appendedEnd, appendedRecordCount)

def rememberCursor (modifiedReadable : Bool) (activeEnd activeRecordCount : Nat) : JournalM Unit :=
  modify fun journal =>
    { journal with
      appendCursor := some {
        fileLen := activeEnd
        modified := if modifiedReadable then journal.file.bind JournalFile.modified else none
        lastValidEnd := activeEnd
        validRecordCount := activeRecordCount } }

-- The manifest sidecar is only an index that recovery never reads: it is left out.
def append (manifest : RecoveryManifest) (snapshot : Bytes) : JournalM Unit := do
  let encoded ← ofExcept (encodeRecord serde manifest snapshot)
  let file ← openFile io
  attempt io .Metadata
  if file.bytes.isEmpty then
    attempt io .SyncDirectory
  let (file, startOffset, validRecordCount) ← appendTarget serde io file
  writeRecord io file startOffset encoded
  let (activeEnd, activeRecordCount) ←
    compact io (startOffset + encoded.length) (validRecordCount + 1) encoded
  rememberCursor io.modifiedReadable activeEnd activeRecordCount

inductive RecoveryUnavailableReason
  | MissingJournal
  | EmptyJournal
  | NoValidRecord (tail : JournalTailIssue)
deriving DecidableEq

structure RecoveredJournalRecord where
  record : RecoveryRecord
  ignoredTail : Option JournalTailIssue
deriving DecidableEq

inductive RecoveryLatestOutcome
  | Recovered (recovery : RecoveredJournalRecord)
  | Unavailable (reason : RecoveryUnavailableReason)
deriving DecidableEq

inductive RecoveryLoadOutcome
  | Match (recovery : RecoveredJournalRecord)
  | SourceConflict (recovery : RecoveredJournalRecord)
      (currentSourceFingerprint : SourceFingerprint)
  | Unavailable (reason : RecoveryUnavailableReason)
deriving DecidableEq

def latestRecord (journal : RecoveryJournal) : RecoveryLatestOutcome :=
  match journal.file with
  | none => .Unavailable .MissingJournal
  | some file =>
    let scan := scanFile serde file.bytes
    match scan.latest with
    | some record => .Recovered ⟨record, scan.ignoredTail⟩
    | none =>
      match scan.ignoredTail with
      | some tail => .Unavailable (.NoValidRecord tail)
      | none => .Unavailable .EmptyJournal

def RecoveryManifest.matchesSource (manifest : RecoveryManifest)
    (currentSourceFingerprint : SourceFingerprint) : Bool :=
  manifest.sourceFingerprint = currentSourceFingerprint ||
    manifest.pendingFileCheckpoint.any fun pending =>
      pending.fileFingerprint = currentSourceFingerprint

def load (journal : RecoveryJournal) (currentSourceFingerprint : SourceFingerprint) :
    RecoveryLoadOutcome :=
  match latestRecord serde journal with
  | .Unavailable reason => .Unavailable reason
  | .Recovered recovery =>
    if recovery.record.manifest.matchesSource currentSourceFingerprint then
      .Match recovery
    else
      .SourceConflict recovery currentSourceFingerprint

-- Publishing the archive copy, replacing the active journal, and reading it back.
structure ArchiveIo where
  archive : Except RecoveryJournalError RecoveryArchivePaths
  replace : ReplaceOutcome
  readBack : Bool
  stamp : Option Nat
  modifiedReadable : Bool

structure RecoveryArchiveReplacement where
  archive : RecoveryArchivePaths
  durabilityWarning : Option String
deriving DecidableEq

-- An error is forgiven when the active file holds the new bytes anyway.
def replacementOutcome (io : ArchiveIo) (archive : RecoveryArchivePaths) (encoded : Bytes) :
    JournalM (Option String) := do
  match io.replace with
  | .Replaced => return none
  | .Failed error | .ReplacedUnsynced error =>
    let active := (← get).file.map JournalFile.bytes
    if io.readBack ∧ active = some encoded then
      return some ("reconciled journal replacement committed, but its directory flush failed: " ++
        error)
    else
      throw (.ArchiveNotCommitted archive error)

def replaceActive (io : ArchiveIo) (archive : RecoveryArchivePaths) (encoded : Bytes) :
    JournalM (Option String) := do
  if io.replace.visible then
    writeFile encoded io.stamp
  replacementOutcome io archive encoded

def archiveAndReplace (io : ArchiveIo) (manifest : RecoveryManifest) (snapshot : Bytes) :
    JournalM RecoveryArchiveReplacement := do
  let encoded ← ofExcept (encodeRecord serde manifest snapshot)
  if (← get).file.isNone then
    throw (.Io "No such file or directory (os error 2)")
  let archive ← ofExcept io.archive
  let durabilityWarning ← replaceActive io archive encoded
  rememberCursor io.modifiedReadable encoded.length 1
  return ⟨archive, durabilityWarning⟩

end Nteract.Recovery
