import Nteract.Lib.Sha256

namespace Nteract.Recovery

open Lib.Bytes Lib.Sha256

abbrev Bytes := List UInt8
abbrev PathBuf := String
abbrev Uuid := Fin (2 ^ 128)
abbrev SourceFingerprint := Digest
abbrev ChangeHash := Digest

instance neZeroUuid : NeZero (2 ^ 128) := ⟨(Nat.two_pow_pos 128).ne'⟩

def U64_MAX : Nat := 2 ^ 64 - 1

def LEGACY_RECOVERY_MANIFEST_VERSION : Nat := 1
def RECOVERY_MANIFEST_VERSION : Nat := 2

def sourceFingerprint (content : Bytes) : SourceFingerprint := sha256 content

-- u64 arithmetic, over the natural numbers up to `U64_MAX`.
def checkedAdd (value amount : Nat) : Option Nat :=
  if value + amount ≤ U64_MAX then some (value + amount) else none

def saturatingAdd (value amount : Nat) : Nat := min (value + amount) U64_MAX

theorem checkedAdd_eq_some :
    checkedAdd value amount = some total ↔ value + amount ≤ U64_MAX ∧ total = value + amount := by
  unfold checkedAdd
  split <;> simp_all [eq_comm]

def sortUnstable (hashes : List ChangeHash) : List ChangeHash :=
  hashes.insertionSort (· ≤ ·)

theorem sortUnstable_perm (hashes : List ChangeHash) : (sortUnstable hashes).Perm hashes :=
  List.perm_insertionSort _ _

theorem perm_of_sortUnstable_eq (he : sortUnstable first = sortUnstable second) :
    first.Perm second :=
  (sortUnstable_perm first).symm.trans (he ▸ sortUnstable_perm second)

theorem sortUnstable_eq_of_perm (hp : first.Perm second) :
    sortUnstable first = sortUnstable second :=
  (((sortUnstable_perm first).trans hp).trans (sortUnstable_perm second).symm).eq_of_sortedLE
    List.sortedLE_insertionSort List.sortedLE_insertionSort

inductive RecoverySourcePhase
  | Pending
  | DurablyStaged
  | Ready
  | Failed
deriving DecidableEq

-- The intent written before a notebook file is replaced.
structure PendingFileCheckpoint where
  canonicalPath : PathBuf
  fileFingerprint : SourceFingerprint
  exportedHeads : List ChangeHash
  saveSequence : Nat
  sourceGeneration : Option Nat
deriving DecidableEq

structure RecoveryManifest where
  version : Nat
  sequence : Nat
  notebookId : Uuid
  canonicalPath : Option PathBuf
  notebookSchemaVersion : Nat
  sourceFingerprint : SourceFingerprint
  sourceGeneration : Nat
  sourcePhase : RecoverySourcePhase
  stagedChangeCount : Nat
  peerChangeCount : Nat
  durableHeads : List ChangeHash
  exportedHeads : List ChangeHash
  fileSaveSequence : Option Nat
  pendingFileCheckpoint : Option PendingFileCheckpoint
deriving DecidableEq

def RecoveryManifest.new (sequence : Nat) (notebookId : Uuid) (canonicalPath : Option PathBuf)
    (notebookSchemaVersion : Nat) (sourceFingerprint : SourceFingerprint)
    (sourceGeneration : Nat) : RecoveryManifest where
  version := RECOVERY_MANIFEST_VERSION
  sequence := sequence
  notebookId := notebookId
  canonicalPath := canonicalPath
  notebookSchemaVersion := notebookSchemaVersion
  sourceFingerprint := sourceFingerprint
  sourceGeneration := sourceGeneration
  sourcePhase := .Pending
  stagedChangeCount := 0
  peerChangeCount := 0
  durableHeads := []
  exportedHeads := []
  fileSaveSequence := none
  pendingFileCheckpoint := none

-- Head order is not significant.
def RecoveryManifest.fileCheckpointCoversDurableHeads (manifest : RecoveryManifest) : Bool :=
  if manifest.canonicalPath.isNone || manifest.fileSaveSequence.isNone ||
      manifest.durableHeads.isEmpty then
    false
  else
    sortUnstable manifest.exportedHeads = sortUnstable manifest.durableHeads

-- Version 1 kept every staged and peer change hash; it is only decoded.
structure LegacyRecoveryManifestV1 where
  version : Nat
  sequence : Nat
  notebookId : Uuid
  canonicalPath : Option PathBuf
  notebookSchemaVersion : Nat
  sourceFingerprint : SourceFingerprint
  sourceGeneration : Nat
  sourcePhase : RecoverySourcePhase
  stagedChangeHashes : List ChangeHash
  peerChangeHashes : List ChangeHash
  durableHeads : List ChangeHash
  exportedHeads : List ChangeHash
  fileSaveSequence : Option Nat
  pendingFileCheckpoint : Option PendingFileCheckpoint
deriving DecidableEq

def LegacyRecoveryManifestV1.into (legacy : LegacyRecoveryManifestV1) : RecoveryManifest where
  version := RECOVERY_MANIFEST_VERSION
  sequence := legacy.sequence
  notebookId := legacy.notebookId
  canonicalPath := legacy.canonicalPath
  notebookSchemaVersion := legacy.notebookSchemaVersion
  sourceFingerprint := legacy.sourceFingerprint
  sourceGeneration := legacy.sourceGeneration
  sourcePhase := legacy.sourcePhase
  stagedChangeCount := min legacy.stagedChangeHashes.length U64_MAX
  peerChangeCount := min legacy.peerChangeHashes.length U64_MAX
  durableHeads := legacy.durableHeads
  exportedHeads := legacy.exportedHeads
  fileSaveSequence := legacy.fileSaveSequence
  pendingFileCheckpoint := legacy.pendingFileCheckpoint

-- `headerFromSlice` reads the version field alone. What `toVec` writes is read back.
structure ManifestSerde where
  toVec : RecoveryManifest → Except String Bytes
  headerFromSlice : Bytes → Except String Nat
  legacyFromSlice : Bytes → Except String LegacyRecoveryManifestV1
  fromSlice : Bytes → Except String RecoveryManifest
  header_toVec : ∀ manifest bytes, toVec manifest = .ok bytes →
    headerFromSlice bytes = .ok manifest.version
  fromSlice_toVec : ∀ manifest bytes, toVec manifest = .ok bytes → fromSlice bytes = .ok manifest

inductive DecodedRecoveryManifest
  | Supported (manifest : RecoveryManifest) (sourceVersion : Nat)
  | Unsupported (version : Nat)
deriving DecidableEq

def decodeManifest (serde : ManifestSerde) (bytes : Bytes) :
    Except String DecodedRecoveryManifest := do
  let version ← serde.headerFromSlice bytes
  if version = LEGACY_RECOVERY_MANIFEST_VERSION then
    let legacy ← serde.legacyFromSlice bytes
    return .Supported legacy.into LEGACY_RECOVERY_MANIFEST_VERSION
  else if version = RECOVERY_MANIFEST_VERSION then
    let manifest ← serde.fromSlice bytes
    return .Supported manifest RECOVERY_MANIFEST_VERSION
  else
    return .Unsupported version

theorem decodeManifest_toVec (serde : ManifestSerde) (manifest : RecoveryManifest) (bytes : Bytes)
    (hv : manifest.version = RECOVERY_MANIFEST_VERSION) (hb : serde.toVec manifest = .ok bytes) :
    decodeManifest serde bytes = .ok (.Supported manifest RECOVERY_MANIFEST_VERSION) := by
  have hh := serde.header_toVec manifest bytes hb
  have hm := serde.fromSlice_toVec manifest bytes hb
  rw [hv] at hh
  simp [decodeManifest, hh, hm, RECOVERY_MANIFEST_VERSION, LEGACY_RECOVERY_MANIFEST_VERSION,
    Bind.bind, Except.bind, Pure.pure, Except.pure]

end Nteract.Recovery
