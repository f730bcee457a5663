import Nteract.Recovery.Json
import Nteract.Recovery.Record

namespace Nteract.Recovery

open Lib.Bytes
open List hiding tail count

theorem slice_append (front middle back : Bytes) :
    slice (front ++ (middle ++ back)) front.length (front.length + middle.length) = middle := by
  simp [slice, take_append]

theorem encodeRecord_eq_ok (he : encodeRecord serde manifest snapshot = .ok bytes) :
    manifest.version = RECOVERY_MANIFEST_VERSION ∧ 0 < snapshot.length ∧
      snapshot.length ≤ MAX_AUTOMERGE_SNAPSHOT_BYTES ∧
      ∃ manifestBytes, serde.toVec manifest = .ok manifestBytes ∧
        manifestBytes.length ≤ MAX_MANIFEST_BYTES ∧ bytes = recordBytes manifestBytes snapshot := by
  unfold encodeRecord RecoveryManifest.validate at he
  by_cases hv : manifest.version = RECOVERY_MANIFEST_VERSION
  · cases hm : serde.toVec manifest with
    | error =>
      simp only [hv, hm, Except.mapError, Bind.bind, Except.bind] at he
      split_ifs at he
    | ok =>
      simp only [hv, hm, Except.mapError, Bind.bind, Except.bind, Pure.pure, Except.pure] at he
      split_ifs at he
      simp_all [length_pos_iff]
  · simp [hv, Bind.bind, Except.bind] at he

theorem encodeRecord_intro (hv : manifest.version = RECOVERY_MANIFEST_VERSION)
    (hne : 0 < snapshot.length) (hs : snapshot.length ≤ MAX_AUTOMERGE_SNAPSHOT_BYTES)
    (hb : serde.toVec manifest = .ok manifestBytes)
    (hm : manifestBytes.length ≤ MAX_MANIFEST_BYTES) :
    encodeRecord serde manifest snapshot = .ok (recordBytes manifestBytes snapshot) := by
  have hempty : snapshot.isEmpty = false := by
    cases snapshot <;> simp_all
  have htotal : ¬ HEADER_LEN + manifestBytes.length + snapshot.length > MAX_RECORD_BYTES := by
    unfold MAX_RECORD_BYTES
    omega
  unfold encodeRecord RecoveryManifest.validate
  simp [hv, hempty, hb, Nat.not_lt.mpr hs, Nat.not_lt.mpr hm, htotal, Except.mapError, Bind.bind,
    Except.bind, Pure.pure, Except.pure]

section Header

variable (manifestBytes snapshot rest : Bytes)

theorem recordBytes_append : recordBytes manifestBytes snapshot ++ rest =
      (recordHeader manifestBytes.length snapshot.length ++
        recordChecksum (recordHeader manifestBytes.length snapshot.length) manifestBytes snapshot) ++
        (manifestBytes ++ (snapshot ++ rest)) := by
  simp [recordBytes]

theorem recordBytes_take_header : (recordBytes manifestBytes snapshot ++ rest).take HEADER_LEN =
      recordHeader manifestBytes.length snapshot.length ++
        recordChecksum (recordHeader manifestBytes.length snapshot.length) manifestBytes snapshot := by
  rw [recordBytes_append, take_append_of_le_length (by simp [HEADER_LEN])]
  exact take_of_length_le (by simp [HEADER_LEN])

theorem recordBytes_drop_header : (recordBytes manifestBytes snapshot ++ rest).drop HEADER_LEN =
      manifestBytes ++ (snapshot ++ rest) := by
  rw [recordBytes_append]
  exact drop_left' (by simp [HEADER_LEN])

end Header

section HeaderFields

variable (manifestLen snapshotLen : Nat) (checksum : Bytes)

theorem recordHeader_magic :
    (recordHeader manifestLen snapshotLen ++ checksum).take RECORD_MAGIC.length = RECORD_MAGIC := by
  exact take_left' rfl

theorem recordHeader_version :
    leNat (slice (recordHeader manifestLen snapshotLen ++ checksum) 8 10) =
      RECORD_FORMAT_VERSION := by
  have hs := slice_append RECORD_MAGIC (leBytes 2 RECORD_FORMAT_VERSION)
    (leBytes 4 manifestLen ++ (leBytes 8 snapshotLen ++ checksum))
  have he : slice (recordHeader manifestLen snapshotLen ++ checksum) 8 10 =
      leBytes 2 RECORD_FORMAT_VERSION := by
    simpa [recordHeader, append_assoc] using hs
  rw [he, leNat_leBytes _ _ (by decide)]

theorem recordHeader_manifestLen (hm : manifestLen < 256 ^ 4) :
    leNat (slice (recordHeader manifestLen snapshotLen ++ checksum) 10 14) = manifestLen := by
  have hs := slice_append (RECORD_MAGIC ++ leBytes 2 RECORD_FORMAT_VERSION) (leBytes 4 manifestLen)
    (leBytes 8 snapshotLen ++ checksum)
  have he : slice (recordHeader manifestLen snapshotLen ++ checksum) 10 14 =
      leBytes 4 manifestLen := by
    simpa [recordHeader, append_assoc] using hs
  rw [he, leNat_leBytes _ _ hm]

theorem recordHeader_snapshotLen (hs : snapshotLen < 256 ^ 8) :
    leNat (slice (recordHeader manifestLen snapshotLen ++ checksum) 14 22) = snapshotLen := by
  have hc := slice_append (RECORD_MAGIC ++ leBytes 2 RECORD_FORMAT_VERSION ++ leBytes 4 manifestLen)
    (leBytes 8 snapshotLen) checksum
  have he : slice (recordHeader manifestLen snapshotLen ++ checksum) 14 22 =
      leBytes 8 snapshotLen := by
    simpa [recordHeader, append_assoc] using hc
  rw [he, leNat_leBytes _ _ hs]

theorem recordHeader_checksum (hc : checksum.length = CHECKSUM_LEN) :
    slice (recordHeader manifestLen snapshotLen ++ checksum) HEADER_PREFIX_LEN HEADER_LEN =
      checksum := by
  have hs := slice_append (recordHeader manifestLen snapshotLen) checksum []
  rwa [recordHeader_length, hc, append_nil] at hs

end HeaderFields

theorem payload_bounds (hm : manifestLen ≤ MAX_MANIFEST_BYTES) (hne : 0 < snapshotLen)
    (hs : snapshotLen ≤ MAX_AUTOMERGE_SNAPSHOT_BYTES) :
    manifestLen < 256 ^ 4 ∧ snapshotLen < 256 ^ 8 ∧
      (manifestLen + snapshotLen ≤ U64_MAX ∧ manifestLen ≤ MAX_MANIFEST_BYTES ∧
        0 < snapshotLen ∧ snapshotLen ≤ MAX_AUTOMERGE_SNAPSHOT_BYTES ∧
        manifestLen + snapshotLen ≤ MAX_RECORD_BYTES - HEADER_LEN) := by
  unfold U64_MAX MAX_RECORD_BYTES MAX_MANIFEST_BYTES MAX_AUTOMERGE_SNAPSHOT_BYTES at *
  omega

theorem scanRecord_recordBytes (offset : Nat) (manifest : RecoveryManifest)
    (manifestBytes snapshot rest : Bytes) (sourceVersion : Nat)
    (hm : manifestBytes.length ≤ MAX_MANIFEST_BYTES) (hne : 0 < snapshot.length)
    (hs : snapshot.length ≤ MAX_AUTOMERGE_SNAPSHOT_BYTES)
    (hd : decodeManifest serde manifestBytes = .ok (.Supported manifest sourceVersion)) :
    scanRecord serde offset (recordBytes manifestBytes snapshot ++ rest) =
      .ok (⟨manifest, snapshot, sourceVersion⟩,
        HEADER_LEN + (manifestBytes.length + snapshot.length)) := by
  have hlen : ¬ (recordBytes manifestBytes snapshot ++ rest).length < HEADER_LEN := by
    simp only [length_append, recordBytes_length]
    omega
  obtain ⟨hm4, hs8, hvalid⟩ := payload_bounds hm hne hs
  have hpayload : ¬ (manifestBytes ++ (snapshot ++ rest)).length <
      manifestBytes.length + snapshot.length := by
    simp only [length_append]
    omega
  unfold scanRecord
  simp only [recordBytes_take_header, recordBytes_drop_header, recordHeader_magic,
    recordHeader_version, recordHeader_manifestLen _ _ _ hm4, recordHeader_snapshotLen _ _ _ hs8,
    recordHeader_checksum _ _ _ (recordChecksum_length _ _ _), slice_append]
  rw [if_neg hlen, if_neg (by simp), if_neg (by simp), if_neg (not_not.mpr hvalid),
    if_neg hpayload, take_left' rfl, if_neg (by simp), hd]

-- The cut falls in the header, or the header announces more payload than there is.
theorem scanRecord_torn (offset : Nat) (manifestBytes snapshot : Bytes) (available : Nat)
    (hm : manifestBytes.length ≤ MAX_MANIFEST_BYTES) (hne : 0 < snapshot.length)
    (hs : snapshot.length ≤ MAX_AUTOMERGE_SNAPSHOT_BYTES)
    (hcut : available < (recordBytes manifestBytes snapshot).length) :
    ∃ tail, scanRecord serde offset ((recordBytes manifestBytes snapshot).take available) =
      .error tail ∧ tail.isRepairableTornSuffix := by
  have hlen : ((recordBytes manifestBytes snapshot).take available).length = available := by
    rw [length_take]
    omega
  by_cases hheader : available < HEADER_LEN
  · refine ⟨.TruncatedHeader offset available, ?_, rfl⟩
    unfold scanRecord
    rw [hlen, if_pos hheader]
  · refine ⟨.TruncatedPayload offset (manifestBytes.length + snapshot.length)
      (available - HEADER_LEN), ?_, rfl⟩
    have htake : ((recordBytes manifestBytes snapshot).take available).take HEADER_LEN =
        recordHeader manifestBytes.length snapshot.length ++
          recordChecksum (recordHeader manifestBytes.length snapshot.length) manifestBytes
            snapshot := by
      rw [take_take, Nat.min_eq_left (Nat.le_of_not_lt hheader)]
      simpa using recordBytes_take_header manifestBytes snapshot []
    obtain ⟨hm4, hs8, hvalid⟩ := payload_bounds hm hne hs
    rw [recordBytes_length] at hcut
    unfold scanRecord
    simp only [htake, hlen, recordHeader_magic, recordHeader_version,
      recordHeader_manifestLen _ _ _ hm4, recordHeader_snapshotLen _ _ _ hs8, length_drop]
    rw [if_neg hheader, if_neg (by simp), if_neg (by simp), if_neg (not_not.mpr hvalid),
      if_pos (by omega)]

theorem scanRecord_bounds (hs : scanRecord serde offset rest = .ok (record, recordLen)) :
    0 < recordLen ∧ HEADER_LEN ≤ recordLen ∧ recordLen ≤ rest.length := by
  unfold scanRecord at hs
  simp only at hs
  split_ifs at hs with hlen hmagic hversion hvalid hpayload hsum
  split at hs <;> cases hs
  rw [length_drop] at hpayload
  omega

theorem scanRecord_congr (hs : scanRecord serde offset bytes = .ok (record, recordLen))
    (htake : other.take recordLen = bytes.take recordLen) :
    scanRecord serde offset other = .ok (record, recordLen) := by
  obtain ⟨_, hheader, _⟩ := scanRecord_bounds hs
  have hother : recordLen ≤ other.length := by
    have := congrArg List.length htake
    simp only [length_take] at this
    omega
  have hhead : other.take HEADER_LEN = bytes.take HEADER_LEN := by
    have := congrArg (List.take HEADER_LEN) htake
    rwa [take_take, take_take, Nat.min_eq_left hheader] at this
  have hpart : ∀ count, HEADER_LEN + count ≤ recordLen →
      (other.drop HEADER_LEN).take count = (bytes.drop HEADER_LEN).take count := by
    intro count hc
    rw [take_drop, take_drop]
    have := congrArg (fun front => (front.take (HEADER_LEN + count)).drop HEADER_LEN) htake
    simpa only [take_take, Nat.min_eq_left hc] using this
  unfold scanRecord at hs ⊢
  simp only [hhead] at hs ⊢
  split_ifs at hs with hshort hmagic hversion hvalid hpayload hsum
  have hrec : HEADER_LEN + (leNat (slice (bytes.take HEADER_LEN) 10 14) +
      leNat (slice (bytes.take HEADER_LEN) 14 22)) = recordLen := by
    split at hs <;> cases hs
    rfl
  have hslice : slice (other.drop HEADER_LEN) (leNat (slice (bytes.take HEADER_LEN) 10 14))
      (leNat (slice (bytes.take HEADER_LEN) 10 14) + leNat (slice (bytes.take HEADER_LEN) 14 22)) =
      slice (bytes.drop HEADER_LEN) (leNat (slice (bytes.take HEADER_LEN) 10 14))
      (leNat (slice (bytes.take HEADER_LEN) 10 14) + leNat (slice (bytes.take HEADER_LEN) 14 22)) :=
    congrArg (List.drop _) (hpart _ (Nat.le_of_eq hrec))
  rw [if_neg (by omega), if_neg hmagic, if_neg hversion, if_neg (not_not.mpr hvalid),
    if_neg (by rw [length_drop]; omega), hpart _ (by omega), hslice, if_neg hsum]
  exact hs

theorem scanRecord_append (hs : scanRecord serde offset front = .ok (record, recordLen))
    (rest : Bytes) : scanRecord serde offset (front ++ rest) = .ok (record, recordLen) :=
  scanRecord_congr hs (take_append_of_le_length (scanRecord_bounds hs).2.2)

section ScanLoop

theorem scanRounds_nil (rounds : Nat) (scan : JournalScan) :
    scanRounds serde rounds scan [] = scan := by
  cases rounds <;> rfl

theorem scanRounds_enough (first second : Nat) (scan : JournalScan) (rest : Bytes)
    (hf : rest.length ≤ first) (hs : rest.length ≤ second) :
    scanRounds serde first scan rest = scanRounds serde second scan rest := by
  induction first generalizing second scan rest with
  | zero =>
    have hnil : rest = [] := length_eq_zero_iff.mp (Nat.le_zero.mp hf)
    rw [hnil, scanRounds_nil, scanRounds_nil]
  | succ _ ih =>
    by_cases hne : rest = []
    · rw [hne, scanRounds_nil, scanRounds_nil]
    · have hpos := length_pos_iff.mpr hne
      obtain ⟨second, rfl⟩ : ∃ count, second = count + 1 := ⟨second - 1, by omega⟩
      rw [scanRounds, scanRounds]
      cases hr : scanRecord serde scan.lastValidEnd rest with
      | error => rfl
      | ok found =>
        obtain ⟨record, recordLen⟩ := found
        have hlen := scanRecord_bounds hr
        have hdrop : (rest.drop recordLen).length < rest.length := by
          rw [length_drop]
          omega
        simp [ih second (scan.advance record recordLen) (rest.drop recordLen) (by omega) (by omega)]

theorem scanLoop_nil (scan : JournalScan) : scanLoop serde scan [] = scan := rfl

theorem scanLoop_ok (hs : scanRecord serde scan.lastValidEnd bytes = .ok (record, recordLen)) :
    scanLoop serde scan bytes =
      scanLoop serde (scan.advance record recordLen) (bytes.drop recordLen) := by
  have hlen := scanRecord_bounds hs
  have hne : bytes.isEmpty = false := by
    cases bytes with
    | nil => simp only [length_nil] at hlen; omega
    | cons => rfl
  obtain ⟨rounds, hr⟩ : ∃ rounds, bytes.length = rounds + 1 := ⟨bytes.length - 1, by omega⟩
  rw [scanLoop, hr, scanRounds, hs, hne]
  apply scanRounds_enough
  · rw [length_drop]
    omega
  · exact Nat.le_refl _

theorem scanLoop_error (hne : bytes ≠ [])
    (hs : scanRecord serde scan.lastValidEnd bytes = .error tail) :
    scanLoop serde scan bytes = { scan with ignoredTail := some tail } := by
  have hpos := length_pos_iff.mpr hne
  obtain ⟨rounds, hr⟩ : ∃ rounds, bytes.length = rounds + 1 := ⟨bytes.length - 1, by omega⟩
  rw [scanLoop, hr, scanRounds, hs, if_neg (by simpa using hne)]

-- The scan stops at the end or at a damaged record, or goes on behind a valid one.
theorem scanLoop_induct {motive : JournalScan → Bytes → Prop} (hnil : ∀ scan, motive scan [])
    (herror : ∀ scan bytes tail, bytes ≠ [] →
      scanRecord serde scan.lastValidEnd bytes = .error tail → motive scan bytes)
    (hok : ∀ scan bytes record recordLen,
      scanRecord serde scan.lastValidEnd bytes = .ok (record, recordLen) →
      motive (scan.advance record recordLen) (bytes.drop recordLen) → motive scan bytes)
    (scan : JournalScan) (bytes : Bytes) : motive scan bytes := by
  induction hn : bytes.length using Nat.strong_induction_on generalizing scan bytes with
  | _ _ ih =>
    by_cases hne : bytes = []
    · subst hne
      exact hnil scan
    · cases hs : scanRecord serde scan.lastValidEnd bytes with
      | error tail => exact herror scan bytes tail hne hs
      | ok found =>
        obtain ⟨record, recordLen⟩ := found
        have hlen := scanRecord_bounds hs
        exact hok scan bytes record recordLen hs
          (ih (bytes.drop recordLen).length (by rw [length_drop]; omega) _ _ rfl)

variable (scan : JournalScan) (bytes : Bytes)

theorem scanLoop_append (front rest : Bytes) (ht : (scanLoop serde scan front).ignoredTail = none) :
    scanLoop serde scan (front ++ rest) = scanLoop serde (scanLoop serde scan front) rest := by
  induction scan, front using @scanLoop_induct serde with
  | hnil => rw [scanLoop_nil, nil_append]
  | herror _ _ _ hne hs =>
    rw [scanLoop_error hne hs] at ht
    cases ht
  | hok _ _ _ _ hs ih =>
    rw [scanLoop_ok hs] at ht ⊢
    rw [scanLoop_ok (scanRecord_append hs rest),
      drop_append_of_le_length (scanRecord_bounds hs).2.2]
    exact ih ht

theorem scanLoop_end (ht : (scanLoop serde scan bytes).ignoredTail = none) :
    (scanLoop serde scan bytes).lastValidEnd = scan.lastValidEnd + bytes.length := by
  induction scan, bytes using @scanLoop_induct serde with
  | hnil => rfl
  | herror _ _ _ hne hs =>
    rw [scanLoop_error hne hs] at ht
    cases ht
  | hok _ _ _ _ hs ih =>
    have hlen := scanRecord_bounds hs
    rw [scanLoop_ok hs] at ht ⊢
    rw [ih ht, length_drop]
    simp only [JournalScan.advance]
    omega

-- The bytes up to the last valid end are scanned alike, without the tail.
theorem scanLoop_valid (hn : scan.ignoredTail = none) :
    scan.lastValidEnd ≤ (scanLoop serde scan bytes).lastValidEnd ∧ scanLoop serde scan
        (bytes.take ((scanLoop serde scan bytes).lastValidEnd - scan.lastValidEnd)) =
        { scanLoop serde scan bytes with ignoredTail := none } := by
  induction scan, bytes using @scanLoop_induct serde with
  | hnil =>
    rw [take_nil, ← hn]
    exact ⟨Nat.le_refl _, rfl⟩
  | herror _ _ _ hne hs =>
    rw [scanLoop_error hne hs, Nat.sub_self, take_zero, ← hn]
    exact ⟨Nat.le_refl _, rfl⟩
  | hok scan bytes record recordLen hs ih =>
    obtain ⟨hle, hvalid⟩ := ih rfl
    rw [scanLoop_ok hs]
    generalize hresult : scanLoop serde (scan.advance record recordLen)
      (bytes.drop recordLen) = result at hle hvalid ⊢
    simp only [JournalScan.advance] at hle hvalid
    have hsplit : result.lastValidEnd - scan.lastValidEnd =
        recordLen + (result.lastValidEnd - (scan.lastValidEnd + recordLen)) := by
      omega
    have hfront : scanRecord serde scan.lastValidEnd
        (bytes.take (result.lastValidEnd - scan.lastValidEnd)) = .ok (record, recordLen) := by
      apply scanRecord_congr hs
      rw [take_take, Nat.min_eq_left (by omega)]
    refine ⟨by omega, ?_⟩
    rw [scanLoop_ok hfront, hsplit, ← take_drop]
    exact hvalid

end ScanLoop

section ScanFile

variable {serde : ManifestSerde}

def validPart (serde : ManifestSerde) (bytes : Bytes) : Bytes :=
  bytes.take (scanFile serde bytes).lastValidEnd

variable (bytes : Bytes)

theorem scanFile_validPart :
    scanFile serde (validPart serde bytes) = { scanFile serde bytes with ignoredTail := none } := by
  have hv := (@scanLoop_valid .start bytes serde rfl).2
  rwa [show JournalScan.start.lastValidEnd = 0 from rfl, Nat.sub_zero] at hv

theorem scanFile_end (ht : (scanFile serde bytes).ignoredTail = none) :
    (scanFile serde bytes).lastValidEnd = bytes.length := by
  have he := @scanLoop_end .start bytes serde ht
  rwa [show JournalScan.start.lastValidEnd = 0 from rfl, Nat.zero_add] at he

theorem validPart_of_no_tail (ht : (scanFile serde bytes).ignoredTail = none) :
    validPart serde bytes = bytes := by
  rw [validPart, scanFile_end bytes ht, take_length]

theorem validPart_length :
    (validPart serde bytes).length = (scanFile serde bytes).lastValidEnd := by
  have hs := @scanFile_validPart serde bytes
  have he := @scanFile_end serde (validPart serde bytes) (by rw [hs])
  rw [hs] at he
  exact he.symm

theorem scanFile_validPart_append (bytes rest : Bytes) :
    scanFile serde (validPart serde bytes ++ rest) =
      scanLoop serde { scanFile serde bytes with ignoredTail := none } rest := by
  have hs := @scanFile_validPart serde bytes
  unfold scanFile at hs ⊢
  rw [scanLoop_append _ _ _ (by rw [hs]), hs]

end ScanFile

section Journal

variable {serde : ManifestSerde} (offset : Nat) (scan : JournalScan) (bytes : Bytes)
  (written : WrittenRecord serde) (records : List (WrittenRecord serde))

def JournalScan.replay : JournalScan :=
  records.foldl (fun scan written => scan.advance written.record written.bytes.length) scan

theorem WrittenRecord.bytes_length_pos : 0 < written.bytes.length := by
  obtain ⟨_, _, _, _, _, _, hb⟩ := encodeRecord_eq_ok written.encoded
  rw [hb, recordBytes_length]
  omega

theorem scanRecord_written (rest : Bytes) : scanRecord serde offset (written.bytes ++ rest) =
      .ok (written.record, written.bytes.length) := by
  obtain ⟨hv, hne, hs, manifestBytes, hto, hm, hb⟩ := encodeRecord_eq_ok written.encoded
  rw [hb, recordBytes_length]
  exact scanRecord_recordBytes offset written.manifest manifestBytes written.snapshot rest _ hm hne
    hs (decodeManifest_toVec serde written.manifest manifestBytes hv hto)

theorem scanRecord_written_torn (available : Nat) (hcut : available < written.bytes.length) :
    ∃ tail, scanRecord serde offset (written.bytes.take available) = .error tail ∧
      tail.isRepairableTornSuffix := by
  obtain ⟨_, hne, hs, manifestBytes, _, hm, hb⟩ := encodeRecord_eq_ok written.encoded
  rw [hb] at hcut ⊢
  exact scanRecord_torn offset manifestBytes written.snapshot available hm hne hs hcut

theorem scanLoop_journalBytes (rest : Bytes) :
    scanLoop serde scan (journalBytes records ++ rest) = scanLoop serde (scan.replay records) rest := by
  induction records generalizing scan with
  | nil => rfl
  | cons written records ih =>
    have hb : journalBytes (written :: records) ++ rest =
        written.bytes ++ (journalBytes records ++ rest) := by
      simp [journalBytes]
    rw [hb, scanLoop_ok (scanRecord_written _ written _), drop_left' rfl, ih]
    rfl

theorem scanLoop_torn (available : Nat) (hpos : 0 < available)
    (hcut : available < written.bytes.length) :
    ∃ tail, scanLoop serde scan (written.bytes.take available) =
      { scan with ignoredTail := some tail } ∧ tail.isRepairableTornSuffix := by
  obtain ⟨tail, hs, ht⟩ := scanRecord_written_torn scan.lastValidEnd written available hcut
  refine ⟨tail, scanLoop_error ?_ hs, ht⟩
  intro hnil
  have hlen := congrArg List.length hnil
  simp only [length_take, length_nil] at hlen
  omega

theorem scanFile_written :
    scanFile serde written.bytes = JournalScan.start.advance written.record written.bytes.length := by
  have hs := scanLoop_journalBytes .start [written] []
  simpa [journalBytes, scanFile, scanLoop_nil, JournalScan.replay] using hs

theorem scanFile_validPart_written : scanFile serde (validPart serde bytes ++ written.bytes) =
      (scanFile serde bytes).advance written.record written.bytes.length := by
  have hs := scanLoop_journalBytes { scanFile serde bytes with ignoredTail := none } [written] []
  rw [scanFile_validPart_append]
  simpa [journalBytes, scanLoop_nil, JournalScan.replay, JournalScan.advance] using hs

-- The record is whole, or the rest is at most a torn suffix.
theorem scanFile_validPart_cut (available : Nat) :
    scanFile serde (validPart serde bytes ++ written.bytes.take available) =
        (scanFile serde bytes).advance written.record written.bytes.length ∨
      ∃ tail, scanFile serde (validPart serde bytes ++ written.bytes.take available) =
          { scanFile serde bytes with ignoredTail := tail } ∧
        ∀ issue, tail = some issue → issue.isRepairableTornSuffix := by
  by_cases hz : available = 0
  · right
    refine ⟨none, ?_, by simp⟩
    rw [hz, take_zero, append_nil, scanFile_validPart]
  · by_cases hw : available < written.bytes.length
    · right
      obtain ⟨tail, htorn, hrepair⟩ := scanLoop_torn { scanFile serde bytes with ignoredTail := none }
        written available (by omega) hw
      refine ⟨some tail, ?_, by simpa using hrepair⟩
      rw [scanFile_validPart_append, htorn]
    · left
      rw [take_of_length_le (by omega), scanFile_validPart_written]

theorem replay_start :
    JournalScan.start.replay records = ⟨records.getLast?.map WrittenRecord.record, none,
      (journalBytes records).length, records.length⟩ := by
  induction records using reverseRecOn with
  | nil => rfl
  | append_singleton records written ih =>
    rw [JournalScan.replay] at ih ⊢
    rw [foldl_append, ih]
    simp [JournalScan.advance, journalBytes]

-- Where a cut of the concatenation falls: on a record boundary, or inside one record.
theorem journalBytes_cut (cut : Nat) (hc : cut ≤ (journalBytes records).length) :
    ∃ count ≤ records.length, (journalBytes records).take cut = journalBytes (records.take count) ∧
        cut = (journalBytes (records.take count)).length ∨
      ∃ written available, records[count]? = some written ∧ 0 < available ∧
        available < written.bytes.length ∧
        cut = (journalBytes (records.take count)).length + available ∧
        (journalBytes records).take cut =
          journalBytes (records.take count) ++ written.bytes.take available := by
  induction records generalizing cut with
  | nil =>
    refine ⟨0, Nat.le_refl _, .inl ?_⟩
    simp [journalBytes] at hc ⊢
    exact hc
  | cons written records ih =>
    have hb : journalBytes (written :: records) = written.bytes ++ journalBytes records := rfl
    rw [hb] at hc ⊢
    by_cases hz : cut = 0
    · refine ⟨0, Nat.zero_le _, .inl ?_⟩
      simp [hz, journalBytes]
    · by_cases hw : cut < written.bytes.length
      · refine ⟨0, Nat.zero_le _, .inr ⟨written, cut, rfl, by omega, hw, ?_, ?_⟩⟩
        · simp [journalBytes]
        · rw [take_append_of_le_length (Nat.le_of_lt hw)]
          rfl
      · obtain ⟨rest, rfl⟩ : ∃ rest, cut = written.bytes.length + rest :=
          ⟨cut - written.bytes.length, by omega⟩
        rw [length_append] at hc
        obtain ⟨count, hle, hcase⟩ := ih rest (by omega)
        have htake : (written :: records).take (count + 1) = written :: records.take count := rfl
        refine ⟨count + 1, by simpa using hle, ?_⟩
        rw [htake]
        have hcons : journalBytes (written :: records.take count) =
            written.bytes ++ journalBytes (records.take count) := rfl
        rw [hcons, length_append, take_append, Nat.add_sub_cancel_left,
          take_of_length_le (by omega)]
        rcases hcase with ⟨heq, hlen⟩ | ⟨torn, available, hget, hpos, hlt, hlen, heq⟩
        · left
          exact ⟨by rw [heq], by omega⟩
        · right
          exact ⟨torn, available, by simpa using hget, hpos, hlt, by omega,
            by rw [heq, append_assoc]⟩

theorem journalBytes_take_mono (hlt : first < second) (hle : second ≤ records.length) :
    (journalBytes (records.take first)).length < (journalBytes (records.take second)).length := by
  have hsplit : records.take second = records.take first ++ (records.take second).drop first := by
    conv_lhs => rw [← take_append_drop first (records.take second)]
    rw [take_take, Nat.min_eq_left (Nat.le_of_lt hlt)]
  obtain ⟨written, rest, hd⟩ : ∃ written rest, (records.take second).drop first =
      written :: rest := by
    apply exists_cons_of_ne_nil
    intro hnil
    have hlen := congrArg List.length hnil
    simp only [length_drop, length_take, length_nil] at hlen
    omega
  have hpos := written.bytes_length_pos
  rw [hsplit, hd]
  simp only [journalBytes, flatMap_append, flatMap_cons, length_append]
  omega

-- The records before the cut are read back; the rest is a repairable suffix.
theorem scanFile_prefix_law (records : List (WrittenRecord serde)) (cut : Nat)
    (hc : cut ≤ (journalBytes records).length) :
    ∃ count ≤ records.length,
      (journalBytes (records.take count)).length ≤ cut ∧
      (∀ other ≤ records.length, (journalBytes (records.take other)).length ≤ cut → other ≤ count) ∧
      let scan := scanFile serde ((journalBytes records).take cut)
      scan.latest = (records.take count).getLast?.map WrittenRecord.record ∧
      scan.validRecordCount = count ∧
      scan.lastValidEnd = (journalBytes (records.take count)).length ∧
      (scan.ignoredTail = none ↔
        ∃ other ≤ records.length, cut = (journalBytes (records.take other)).length) ∧
      ∀ tail, scan.ignoredTail = some tail →
        tail.isRepairableTornSuffix = true ∧ tail.isUnsupportedVersion = false := by
  obtain ⟨count, hle, hcase⟩ := journalBytes_cut records cut hc
  have hcount : (records.take count).length = count := by
    rw [length_take]
    omega
  have hreplay := replay_start (records.take count)
  rw [hcount] at hreplay
  rcases hcase with ⟨htake, hlen⟩ | ⟨written, available, hget, hpos, hlt, hlen, htake⟩
  · have hscan : scanFile serde ((journalBytes records).take cut) =
        JournalScan.start.replay (records.take count) := by
      rw [htake, scanFile, ← append_nil (journalBytes _), scanLoop_journalBytes, scanLoop_nil]
    refine ⟨count, hle, by omega, ?_, ?_⟩
    · intro other hother hcut
      by_contra hgt
      have := journalBytes_take_mono records (Nat.lt_of_not_le hgt) hother
      omega
    · rw [hscan, hreplay]
      exact ⟨rfl, rfl, rfl, ⟨fun _ => ⟨count, hle, hlen⟩, fun _ => rfl⟩, nofun⟩
  · obtain ⟨tail, htorn, hrepair⟩ := scanLoop_torn (JournalScan.start.replay (records.take count))
      written available hpos hlt
    have hscan : scanFile serde ((journalBytes records).take cut) =
        { JournalScan.start.replay (records.take count) with ignoredTail := some tail } := by
      rw [htake, scanFile, scanLoop_journalBytes, htorn]
    have hnext : (journalBytes (records.take (count + 1))).length =
        (journalBytes (records.take count)).length + written.bytes.length := by
      rw [take_add_one, hget]
      simp [journalBytes]
    have hinside : ∀ other ≤ records.length,
        (journalBytes (records.take other)).length ≤ cut → other ≤ count := by
      intro other hother hcut
      by_contra hgt
      have hgt : count + 1 ≤ other := Nat.lt_of_not_le hgt
      rcases Nat.lt_or_eq_of_le hgt with hfar | hsucc
      · have := journalBytes_take_mono records hfar hother
        omega
      · rw [← hsucc] at hcut
        omega
    refine ⟨count, hle, by omega, hinside, ?_⟩
    rw [hscan, hreplay]
    refine ⟨rfl, rfl, rfl, ?_, ?_⟩
    · constructor
      · intro hnone
        cases hnone
      · rintro ⟨other, hother, _⟩
        rcases Nat.lt_or_eq_of_le (hinside other hother (by omega)) with hbefore | rfl
        · have := journalBytes_take_mono records hbefore hle
          omega
        · omega
    · intro reported hreported
      cases hreported
      exact ⟨hrepair, tail.not_unsupported_of_repairable hrepair⟩

end Journal

-- Two records of one notebook, the second cut in its payload.
def sampleManifest (sequence : Nat) : RecoveryManifest :=
  .new sequence 1 (some "/work/a.ipynb") 4 0 0

def sampleSerde : ManifestSerde :=
  knownSerde [sampleManifest 1, sampleManifest 2] (by decide +kernel)

def sampleRecord (sequence : Nat) (hs : sampleManifest sequence ∈ [sampleManifest 1, sampleManifest 2])
    (hl : (jsonManifest (sampleManifest sequence)).length ≤ MAX_MANIFEST_BYTES) :
    WrittenRecord sampleSerde where
  manifest := sampleManifest sequence
  snapshot := [133, 111, 74, 131]
  bytes := recordBytes (jsonManifest (sampleManifest sequence)) [133, 111, 74, 131]
  encoded := encodeRecord_intro rfl (by decide) (by decide) (if_pos hs) hl

def sampleRecords : List (WrittenRecord sampleSerde) :=
  [sampleRecord 1 (by simp) (by decide +kernel), sampleRecord 2 (by simp) (by decide +kernel)]

theorem scanFile_prefix_law_sample :
    600 ≤ (journalBytes sampleRecords).length ∧
      ∃ count ≤ sampleRecords.length,
        (scanFile sampleSerde ((journalBytes sampleRecords).take 600)).validRecordCount = count ∧
        (scanFile sampleSerde ((journalBytes sampleRecords).take 600)).latest =
          (sampleRecords.take count).getLast?.map WrittenRecord.record := by
  have hc : 600 ≤ (journalBytes sampleRecords).length := by decide +kernel
  obtain ⟨count, hle, _, _, hl, hcount, _⟩ := scanFile_prefix_law sampleRecords 600 hc
  exact ⟨hc, count, hle, hcount, hl⟩

end Nteract.Recovery
