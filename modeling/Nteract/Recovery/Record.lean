import Nteract.Recovery.Manifest

namespace Nteract.Recovery

open Lib.Bytes Lib.Sha256

def RECORD_MAGIC : Bytes := "NTRJNL01".toList.map fun char => UInt8.ofNat char.toNat
@[simp] theorem RECORD_MAGIC_length : RECORD_MAGIC.length = 8 := rfl

def RECORD_FORMAT_VERSION : Nat := 1
def HEADER_PREFIX_LEN : Nat := 8 + 2 + 4 + 8
def CHECKSUM_LEN : Nat := 32
def HEADER_LEN : Nat := HEADER_PREFIX_LEN + CHECKSUM_LEN
def MAX_MANIFEST_BYTES : Nat := 256 * 1024
def MAX_AUTOMERGE_SNAPSHOT_BYTES : Nat := 256 * 1024 * 1024
def MAX_RECORD_BYTES : Nat := HEADER_LEN + MAX_MANIFEST_BYTES + MAX_AUTOMERGE_SNAPSHOT_BYTES

structure RecoveryRecord where
  manifest : RecoveryManifest
  automergeSnapshot : Bytes
  sourceManifestVersion : Nat
deriving DecidableEq

inductive JournalTailIssue
  | TruncatedHeader (offset available : Nat)
  | InvalidMagic (offset : Nat)
  | UnsupportedRecordVersion (offset version : Nat)
  | InvalidLengths (offset manifestLen snapshotLen : Nat)
  | TruncatedPayload (offset expected available : Nat)
  | ChecksumMismatch (offset : Nat)
  | InvalidManifest (offset : Nat) (reason : String)
  | UnsupportedManifestVersion (offset version : Nat)
deriving DecidableEq

def JournalTailIssue.isUnsupportedVersion : JournalTailIssue → Bool
  | .UnsupportedRecordVersion _ _ => true
  | .UnsupportedManifestVersion _ _ => true
  | _ => false

-- Only byte-short records at the end of the file are torn appends.
def JournalTailIssue.isRepairableTornSuffix : JournalTailIssue → Bool
  | .TruncatedHeader _ _ => true
  | .TruncatedPayload _ _ _ => true
  | _ => false

theorem JournalTailIssue.not_unsupported_of_repairable {tail : JournalTailIssue}
    (ht : tail.isRepairableTornSuffix) : tail.isUnsupportedVersion = false := by
  cases tail <;> simp_all [isRepairableTornSuffix, isUnsupportedVersion]

-- The derived Debug text of a tail.
def JournalTailIssue.debug : JournalTailIssue → String
  | .TruncatedHeader offset available =>
    s!"TruncatedHeader \x7b offset: {offset}, available: {available} \x7d"
  | .InvalidMagic offset => s!"InvalidMagic \x7b offset: {offset} \x7d"
  | .UnsupportedRecordVersion offset version =>
    s!"UnsupportedRecordVersion \x7b offset: {offset}, version: {version} \x7d"
  | .InvalidLengths offset manifestLen snapshotLen =>
    s!"InvalidLengths \x7b offset: {offset}, manifest_len: {manifestLen}, " ++
      s!"snapshot_len: {snapshotLen} \x7d"
  | .TruncatedPayload offset expected available =>
    s!"TruncatedPayload \x7b offset: {offset}, expected: {expected}, available: {available} \x7d"
  | .ChecksumMismatch offset => s!"ChecksumMismatch \x7b offset: {offset} \x7d"
  | .InvalidManifest offset reason =>
    s!"InvalidManifest \x7b offset: {offset}, reason: \"" ++ reason ++ "\" \x7d"
  | .UnsupportedManifestVersion offset version =>
    s!"UnsupportedManifestVersion \x7b offset: {offset}, version: {version} \x7d"

structure RecoveryArchivePaths where
  directory : PathBuf
  journal : PathBuf
  manifest : Option PathBuf
deriving DecidableEq

-- The errors of append, archive_and_replace and the encoder. I/O errors are their text.
inductive RecoveryJournalError
  | Io (error : String)
  | ManifestSerialization (error : String)
  | UnsupportedManifestVersion (version : Nat)
  | EmptySnapshot
  | ManifestTooLarge (actual maximum : Nat)
  | SnapshotTooLarge (actual maximum : Nat)
  | RecordTooLarge (actual maximum : Nat)
  | NoValidRecord (tail : JournalTailIssue)
  | UnsupportedTailVersion (tail : JournalTailIssue)
  | CorruptTailRequiresReconciliation (tail : JournalTailIssue)
  | ArchiveNotCommitted (archive : RecoveryArchivePaths) (source : String)
deriving DecidableEq

def RecoveryArchivePaths.debug (archive : RecoveryArchivePaths) : String :=
  "RecoveryArchivePaths \x7b directory: \"" ++ archive.directory ++ "\", journal: \"" ++
    archive.journal ++ "\", manifest: " ++
    (match archive.manifest with
      | some path => "Some(\"" ++ path ++ "\")"
      | none => "None") ++ " \x7d"

def RecoveryJournalError.display : RecoveryJournalError → String
  | .Io error => "recovery journal I/O failed: " ++ error
  | .ManifestSerialization error => "recovery manifest serialization failed: " ++ error
  | .UnsupportedManifestVersion version => s!"unsupported recovery manifest version {version}"
  | .EmptySnapshot => "Automerge recovery snapshot is empty"
  | .ManifestTooLarge actual maximum =>
    s!"recovery manifest is {actual} bytes; maximum is {maximum}"
  | .SnapshotTooLarge actual maximum =>
    s!"Automerge recovery snapshot is {actual} bytes; maximum is {maximum}"
  | .RecordTooLarge actual maximum =>
    s!"encoded recovery record is {actual} bytes; maximum is {maximum}"
  | .NoValidRecord tail =>
    "journal contains no valid record before corrupt tail: " ++ tail.debug
  | .UnsupportedTailVersion tail =>
    "refusing to rewrite recovery data from a newer format: " ++ tail.debug
  | .CorruptTailRequiresReconciliation tail =>
    "refusing to truncate corrupt recovery data without reconciliation: " ++ tail.debug
  | .ArchiveNotCommitted archive source =>
    "recovery archive was published at " ++ archive.debug ++
      ", but the active journal was not retired: " ++ source

def RecoveryManifest.validate (manifest : RecoveryManifest) : Except RecoveryJournalError Unit :=
  if manifest.version ≠ RECOVERY_MANIFEST_VERSION then
    .error (.UnsupportedManifestVersion manifest.version)
  else
    .ok ()

def recordChecksum (headerBytes manifest snapshot : Bytes) : Bytes :=
  digestBytes (sha256 (headerBytes ++ manifest ++ snapshot))

@[simp] theorem recordChecksum_length (headerBytes manifest snapshot : Bytes) :
    (recordChecksum headerBytes manifest snapshot).length = CHECKSUM_LEN := by
  simp [recordChecksum, CHECKSUM_LEN]

-- The checksummed part of the header: magic, format version and both lengths.
def recordHeader (manifestLen snapshotLen : Nat) : Bytes :=
  RECORD_MAGIC ++ leBytes 2 RECORD_FORMAT_VERSION ++ leBytes 4 manifestLen ++ leBytes 8 snapshotLen

@[simp] theorem recordHeader_length (manifestLen snapshotLen : Nat) :
    (recordHeader manifestLen snapshotLen).length = HEADER_PREFIX_LEN := by
  rfl

def recordBytes (manifestBytes snapshot : Bytes) : Bytes :=
  let header := recordHeader manifestBytes.length snapshot.length
  header ++ recordChecksum header manifestBytes snapshot ++ manifestBytes ++ snapshot

@[simp] theorem recordBytes_length (manifestBytes snapshot : Bytes) :
    (recordBytes manifestBytes snapshot).length =
      HEADER_LEN + (manifestBytes.length + snapshot.length) := by
  simp [recordBytes, HEADER_LEN, Nat.add_assoc]

variable (serde : ManifestSerde)

-- The source's length conversions to u32 and u64 cannot fail below these bounds.
def encodeRecord (manifest : RecoveryManifest) (snapshot : Bytes) :
    Except RecoveryJournalError Bytes := do
  manifest.validate
  if snapshot.isEmpty then
    throw .EmptySnapshot
  if snapshot.length > MAX_AUTOMERGE_SNAPSHOT_BYTES then
    throw (.SnapshotTooLarge snapshot.length MAX_AUTOMERGE_SNAPSHOT_BYTES)
  let manifestBytes ← (serde.toVec manifest).mapError .ManifestSerialization
  if manifestBytes.length > MAX_MANIFEST_BYTES then
    throw (.ManifestTooLarge manifestBytes.length MAX_MANIFEST_BYTES)
  let totalLen := HEADER_LEN + manifestBytes.length + snapshot.length
  if totalLen > MAX_RECORD_BYTES then
    throw (.RecordTooLarge totalLen MAX_RECORD_BYTES)
  return recordBytes manifestBytes snapshot

structure WrittenRecord (serde : ManifestSerde) where
  manifest : RecoveryManifest
  snapshot : Bytes
  bytes : Bytes
  encoded : encodeRecord serde manifest snapshot = .ok bytes

def WrittenRecord.record {serde : ManifestSerde} (written : WrittenRecord serde) :
    RecoveryRecord where
  manifest := written.manifest
  automergeSnapshot := written.snapshot
  sourceManifestVersion := RECOVERY_MANIFEST_VERSION

def journalBytes {serde : ManifestSerde} (records : List (WrittenRecord serde)) : Bytes :=
  records.flatMap WrittenRecord.bytes

def slice (bytes : Bytes) (first last : Nat) : Bytes := (bytes.take last).drop first

-- The record at the front with its length, or the reason why there is none.
def scanRecord (offset : Nat) (rest : Bytes) : Except JournalTailIssue (RecoveryRecord × Nat) :=
  if rest.length < HEADER_LEN then
    .error (.TruncatedHeader offset rest.length)
  else
    let header := rest.take HEADER_LEN
    let recordVersion := leNat (slice header 8 10)
    let manifestLen := leNat (slice header 10 14)
    let snapshotLen := leNat (slice header 14 22)
    let payloadLen := manifestLen + snapshotLen
    let payload := rest.drop HEADER_LEN
    if header.take RECORD_MAGIC.length ≠ RECORD_MAGIC then
      .error (.InvalidMagic offset)
    else if recordVersion ≠ RECORD_FORMAT_VERSION then
      .error (.UnsupportedRecordVersion offset recordVersion)
    else if ¬ (payloadLen ≤ U64_MAX ∧ manifestLen ≤ MAX_MANIFEST_BYTES ∧ 0 < snapshotLen ∧
        snapshotLen ≤ MAX_AUTOMERGE_SNAPSHOT_BYTES ∧
        payloadLen ≤ MAX_RECORD_BYTES - HEADER_LEN) then
      .error (.InvalidLengths offset manifestLen snapshotLen)
    else if payload.length < payloadLen then
      .error (.TruncatedPayload offset payloadLen payload.length)
    else
      let manifestBytes := payload.take manifestLen
      let snapshot := slice payload manifestLen payloadLen
      if recordChecksum (header.take HEADER_PREFIX_LEN) manifestBytes snapshot ≠
          slice header HEADER_PREFIX_LEN HEADER_LEN then
        .error (.ChecksumMismatch offset)
      else
        match decodeManifest serde manifestBytes with
        | .ok (.Supported manifest sourceVersion) =>
          .ok (⟨manifest, snapshot, sourceVersion⟩, HEADER_LEN + payloadLen)
        | .ok (.Unsupported version) => .error (.UnsupportedManifestVersion offset version)
        | .error reason => .error (.InvalidManifest offset reason)

structure JournalScan where
  latest : Option RecoveryRecord
  ignoredTail : Option JournalTailIssue
  lastValidEnd : Nat
  validRecordCount : Nat
deriving DecidableEq

def JournalScan.start : JournalScan where
  latest := none
  ignoredTail := none
  lastValidEnd := 0
  validRecordCount := 0

-- The source saturates at usize::MAX, which no file of u64 length reaches.
def JournalScan.advance (scan : JournalScan) (record : RecoveryRecord) (recordLen : Nat) :
    JournalScan where
  latest := some record
  ignoredTail := none
  lastValidEnd := scan.lastValidEnd + recordLen
  validRecordCount := scan.validRecordCount + 1

-- Every record takes bytes, so as many rounds as there are bytes are enough.
def scanRounds (serde : ManifestSerde) : Nat → JournalScan → Bytes → JournalScan
  | 0, scan, _ => scan
  | rounds + 1, scan, rest =>
    if rest.isEmpty then
      scan
    else
      match scanRecord serde scan.lastValidEnd rest with
      | .error tail => { scan with ignoredTail := some tail }
      | .ok (record, recordLen) =>
        scanRounds serde rounds (scan.advance record recordLen) (rest.drop recordLen)

def scanLoop (scan : JournalScan) (rest : Bytes) : JournalScan :=
  scanRounds serde rest.length scan rest

def scanFile (bytes : Bytes) : JournalScan :=
  scanLoop serde .start bytes

end Nteract.Recovery
