import Nteract.Recovery.Manifest

namespace Nteract.Recovery

open Lib.Bytes

-- The JSON text of a manifest, and a serializer that knows a fixed list of manifests.
abbrev Json := List Char

def jsonNat (value : Nat) : Json := Nat.toDigits 10 value

def jsonString (text : String) : Json :=
  ['"'] ++ text.toList.flatMap (fun char =>
    if char = '"' ∨ char = '\\' then ['\\', char] else [char]) ++ ['"']

def jsonArray (items : List Json) : Json := ['['] ++ [','].intercalate items ++ [']']

def jsonObject (fields : List (String × Json)) : Json :=
  ['\x7b'] ++ [','].intercalate (fields.map fun field => jsonString field.1 ++ [':'] ++ field.2) ++
    ['\x7d']

def jsonOption {α : Type} (json : α → Json) : Option α → Json
  | some value => json value
  | none => "null".toList

def jsonDigest (digest : Digest) : Json :=
  jsonArray ((digestBytes digest).map fun byte => jsonNat byte.toNat)

def hexDigits (count value : Nat) : Json :=
  (List.range count).map fun index => Nat.digitChar (value / 16 ^ (count - 1 - index) % 16)

def jsonUuid (uuid : Uuid) : Json :=
  ['"'] ++ ['-'].intercalate [hexDigits 8 (uuid.val / 2 ^ 96), hexDigits 4 (uuid.val / 2 ^ 80),
    hexDigits 4 (uuid.val / 2 ^ 64), hexDigits 4 (uuid.val / 2 ^ 48), hexDigits 12 uuid.val] ++ ['"']

def jsonPhase : RecoverySourcePhase → Json
  | .Pending => jsonString "pending"
  | .DurablyStaged => jsonString "durably_staged"
  | .Ready => jsonString "ready"
  | .Failed => jsonString "failed"

def jsonPendingFileCheckpoint (pending : PendingFileCheckpoint) : Json :=
  jsonObject [
    ("canonical_path", jsonString pending.canonicalPath),
    ("file_fingerprint", jsonDigest pending.fileFingerprint),
    ("exported_heads", jsonArray (pending.exportedHeads.map jsonDigest)),
    ("save_sequence", jsonNat pending.saveSequence),
    ("source_generation", jsonOption jsonNat pending.sourceGeneration)]

@[irreducible] def jsonManifest (manifest : RecoveryManifest) : Bytes :=
  (jsonObject [
    ("version", jsonNat manifest.version),
    ("sequence", jsonNat manifest.sequence),
    ("notebook_id", jsonUuid manifest.notebookId),
    ("canonical_path", jsonOption jsonString manifest.canonicalPath),
    ("notebook_schema_version", jsonNat manifest.notebookSchemaVersion),
    ("source_fingerprint", jsonDigest manifest.sourceFingerprint),
    ("source_generation", jsonNat manifest.sourceGeneration),
    ("source_phase", jsonPhase manifest.sourcePhase),
    ("staged_change_count", jsonNat manifest.stagedChangeCount),
    ("peer_change_count", jsonNat manifest.peerChangeCount),
    ("durable_heads", jsonArray (manifest.durableHeads.map jsonDigest)),
    ("exported_heads", jsonArray (manifest.exportedHeads.map jsonDigest)),
    ("file_save_sequence", jsonOption jsonNat manifest.fileSaveSequence),
    ("pending_file_checkpoint",
      jsonOption jsonPendingFileCheckpoint manifest.pendingFileCheckpoint)]).map
    fun char => UInt8.ofNat char.toNat

def readManifest (known : List RecoveryManifest) (bytes : Bytes) : Except String RecoveryManifest :=
  match known.find? (fun manifest => jsonManifest manifest = bytes) with
  | some manifest => .ok manifest
  | none => .error "expected value at line 1 column 1"

theorem find_by_key {α β : Type} [DecidableEq β] (key : α → β) {items : List α} {item : α}
    (hn : (items.map key).Nodup) (hi : item ∈ items) :
    items.find? (fun other => key other = key item) = some item := by
  induction items with
  | nil => cases hi
  | cons head _ ih =>
    rw [List.map_cons, List.nodup_cons] at hn
    rcases List.mem_cons.mp hi with rfl | ht
    · simp
    · have hne : key head ≠ key item := fun he => hn.1 (he ▸ List.mem_map_of_mem ht)
      simp [hne, ih hn.2 ht]

theorem readManifest_json {known : List RecoveryManifest}
    (hn : (known.map jsonManifest).Nodup) {manifest : RecoveryManifest} (hm : manifest ∈ known) :
    readManifest known (jsonManifest manifest) = .ok manifest := by
  rw [readManifest, find_by_key jsonManifest hn hm]

def knownSerde (known : List RecoveryManifest) (hn : (known.map jsonManifest).Nodup) :
    ManifestSerde where
  toVec manifest :=
    if manifest ∈ known then .ok (jsonManifest manifest) else .error "path contains invalid UTF-8"
  headerFromSlice bytes := (readManifest known bytes).map RecoveryManifest.version
  legacyFromSlice _ := .error "missing field staged_change_hashes"
  fromSlice := readManifest known
  header_toVec manifest bytes hb := by
    split at hb
    · cases hb
      rw [readManifest_json hn ‹_›]
      rfl
    · cases hb
  fromSlice_toVec manifest bytes hb := by
    split at hb
    · cases hb
      exact readManifest_json hn ‹_›
    · cases hb

end Nteract.Recovery
