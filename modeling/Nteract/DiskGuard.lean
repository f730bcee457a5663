import Nteract.Lib.Table
import Nteract.SaveProtocol

namespace Nteract.DiskGuard

open Lib Recovery SaveProtocol

inductive BlockedReason
  | SourceConflict (message : String)
  | SourceDegraded (message : String)
deriving DecidableEq

inductive SaveError
  | Retryable (message : String)
  | Unrecoverable (message : String)
  | CheckpointBlocked (saveSequence : Option Nat) (reason : BlockedReason)
deriving DecidableEq

structure RoomPersistence where
  lastKnownDiskHash : Option SourceFingerprint
  primarySaveBaselineSequence : Nat
  loadFailed : Bool
deriving DecidableEq

namespace RoomPersistence

def new : RoomPersistence := ⟨none, 0, false⟩

variable (persistence : RoomPersistence)

def noteDiskContent (bytes : Bytes) : RoomPersistence :=
  { persistence with lastKnownDiskHash := some (sourceFingerprint bytes) }

-- An older completion does not replace the baseline of a newer one.
def notePrimarySaveBaseline (saveSequence : Nat) (bytes : Bytes) : RoomPersistence :=
  if persistence.primarySaveBaselineSequence > saveSequence then persistence
  else { persistence.noteDiskContent bytes with primarySaveBaselineSequence := saveSequence }

-- Without a baseline the check is disabled.
def diskContentDiverged (bytes : Bytes) : Bool :=
  match persistence.lastKnownDiskHash with
  | some baseline => sourceFingerprint bytes ≠ baseline
  | none => false

def markLoadFailed : RoomPersistence := { persistence with loadFailed := true }

def clearLoadFailed : RoomPersistence := { persistence with loadFailed := false }

end RoomPersistence

inductive FileRead
  | Found (bytes : Bytes)
  | NotFound
  | Failed (error : String)
deriving DecidableEq

-- Every error is read as a file that is not there.
def FileRead.existingRaw : FileRead → Option Bytes
  | .Found bytes => some bytes
  | .NotFound => none
  | .Failed _ => none

-- u8::is_ascii_whitespace
def isAsciiWhitespace (byte : UInt8) : Bool := [0x09, 0x0a, 0x0c, 0x0d, 0x20].contains byte

def hasContent (bytes : Bytes) : Bool := bytes.any fun byte => !isAsciiWhitespace byte

-- The reason of a degraded room and the code of its source error.
structure Degradation where
  reason : Option String
  code : Option String
deriving DecidableEq

structure SaveRequest where
  intent : FileSaveIntent
  target : Option PathBuf
deriving DecidableEq

-- Where a save is. The bytes are those it has read, or those it writes.
inductive SaveStage
  | Checked (request : SaveRequest) (existingRaw : Option Bytes)
  | Guarded (request : SaveRequest)
  | Written (request : SaveRequest) (content : Bytes)
deriving DecidableEq

def SaveStage.request : SaveStage → SaveRequest
  | .Checked request _ | .Guarded request | .Written request _ => request

-- A room bound to a file. `seen`: the contents loaded, ingested or written.
structure FileRoom where
  path : PathBuf
  disk : Option Bytes
  persistence : RoomPersistence
  degraded : Option Degradation
  evicted : Bool
  staged : Option Bytes
  watching : Option Bytes
  saves : Table Nat SaveStage
  seen : List Bytes
deriving DecidableEq

namespace FileRoom

def opened (path : PathBuf) (disk : Option Bytes) : FileRoom :=
  ⟨path, disk, .new, none, false, none, none, Table.empty, []⟩

variable (room : FileRoom)

def notebookPath (request : SaveRequest) : Except SaveError PathBuf :=
  match request.target with
  | none => .ok room.path
  | some target =>
    if target.toList.head? ≠ some '/' then
      .error (.Unrecoverable ("Relative paths are not supported for save: '" ++ target ++
        "'. Please provide an absolute path."))
    else if ".ipynb".toList.isSuffixOf target.toList then .ok target
    else .ok (target ++ ".ipynb")

def isPrimaryPath (request : SaveRequest) (path : PathBuf) : Bool :=
  request.target.isNone || path = room.path

def DEGRADED_MESSAGE : String := "room source is degraded; explicit reconciliation is required"

def refuseDegraded (sequence : Nat) (degradation : Degradation) : SaveError :=
  let message := degradation.reason.getD DEGRADED_MESSAGE
  .CheckpointBlocked (some sequence)
    (if degradation.code = some "source_conflict" then .SourceConflict message
      else .SourceDegraded message)

-- The guards up to the first write, for the file as it has been read.
def checkSave (sequence : Nat) (request : SaveRequest) (read : FileRead) :
    Except SaveError (Option Bytes) := do
  let path ← room.notebookPath request
  let guarded := room.isPrimaryPath request path && request.intent = .Ordinary
  if guarded then
    if let some degradation := room.degraded then
      throw (refuseDegraded sequence degradation)
    if let some bytes := read.existingRaw then
      if room.persistence.diskContentDiverged bytes then
        throw (.Retryable ("on-disk content of '" ++ path ++
          "' changed externally; deferring save"))
  if room.isPrimaryPath request path && room.evicted then
    throw (.Unrecoverable ("notebook room for '" ++ path ++
      "' was evicted; refusing post-eviction save"))
  return read.existingRaw

-- `resolve`: the file that a path names; a missing file has no canonical path.
variable {φ : Type} [DecidableEq φ] (resolve : PathBuf → φ)

def namesBound (request : SaveRequest) : Bool :=
  match room.notebookPath request with
  | .ok path => resolve path = resolve room.path
  | .error _ => false

def isInPlaceSave (request : SaveRequest) : Bool :=
  match request.target with
  | none => true
  | some _ =>
    match room.notebookPath request with
    | .ok path => path = room.path || room.disk.isSome && resolve path = resolve room.path
    | .error _ => false

-- A room that was not loaded does not overwrite its source.
def guardFailedLoad (request : SaveRequest) (existingRaw : Option Bytes) : Except SaveError Unit :=
  if room.isInPlaceSave resolve request && room.persistence.loadFailed &&
      request.intent = .Ordinary && existingRaw.any hasContent then
    .error (.Retryable ("Cannot save " ++ room.path ++
      " in place because its initial file load failed; the existing file was preserved. " ++
      "Retry after the file is reconciled, or save to a different path."))
  else
    .ok ()

end FileRoom

inductive WatcherIngestDecision
  | Skip
  | Ingest
deriving DecidableEq

def classifyWatcherObservation (observed : SourceFingerprint)
    (knownDiskHash : Option SourceFingerprint) (manifestFingerprint : SourceFingerprint)
    (pendingCheckpointFingerprint : Option SourceFingerprint) : WatcherIngestDecision :=
  if knownDiskHash = some observed then .Skip
  else if observed = manifestFingerprint then .Skip
  else if pendingCheckpointFingerprint = some observed then .Skip
  else .Ingest

-- `LeaveSave`: every other way out of a save, such as an error, a current file or a failed commit
-- after the replacement.
inductive RoomEvent
  | External (content : Option Bytes)
  | LoadRead
  | LoadNote
  | LoadComplete
  | LoadFail
  | Degrade (degraded : Option Degradation)
  | Evict
  | BeginSave (sequence : Nat) (request : SaveRequest) (read : FileRead)
  | GuardSave (sequence : Nat)
  | ReplaceFile (sequence : Nat) (content : Bytes)
  | FinishSave (sequence : Nat) (recovered : Bool)
  | LeaveSave (sequence : Nat)
  | WatchRead (manifest : SourceFingerprint) (pending : Option SourceFingerprint)
  | WatchIngest (sequence : Nat) (reread : FileRead) (journaled reconciled : Bool)
  | WatchLeave
deriving DecidableEq

def FileRead.reads : FileRead → Option Bytes → Bool
  | .Found bytes, disk => disk = some bytes
  | .NotFound, disk => disk = none
  | .Failed _, _ => true

namespace FileRoom

variable {φ : Type} [DecidableEq φ] (resolve : PathBuf → φ) (room : FileRoom) (sequence : Nat)

def put (stage : SaveStage) : FileRoom :=
  { room with saves := room.saves.set sequence stage }

def drop : FileRoom := { room with saves := room.saves.remove sequence }

def beginSave (request : SaveRequest) (read : FileRead) : FileRoom :=
  match room.checkSave sequence request read with
  | .ok existingRaw => room.put sequence (.Checked request existingRaw)
  | .error _ => room

def guardSave : Option FileRoom :=
  match room.saves.find sequence with
  | some (.Checked request existingRaw) =>
    match room.guardFailedLoad resolve request existingRaw with
    | .ok () => some (room.put sequence (.Guarded request))
    | .error _ => some (room.drop sequence)
  | _ => none

-- The file of the room changes only if the save names it.
def replaceFile (content : Bytes) : Option FileRoom :=
  match room.saves.find sequence with
  | some (.Guarded request) =>
    let room := room.put sequence (.Written request content)
    if room.namesBound resolve request then
      some { room with disk := some content, seen := content :: room.seen }
    else
      some room
  | _ => none

-- A saved room counts as recovered. The baseline is the one of the bound path alone.
def finishSave (recovered : Bool) : Option FileRoom :=
  match room.saves.find sequence with
  | some (.Written request content) =>
    let persistence :=
      if request.intent = .Ordinary ∧ recovered then room.persistence.clearLoadFailed
      else room.persistence
    let persistence :=
      match room.notebookPath request with
      | .ok path =>
        if room.isPrimaryPath request path then
          persistence.notePrimarySaveBaseline sequence content
        else persistence
      | .error _ => persistence
    some { room.drop sequence with persistence := persistence }
  | _ => none

def watchRead (manifest : SourceFingerprint) (pending : Option SourceFingerprint) :
    Option FileRoom :=
  match room.disk, room.watching with
  | some contents, none =>
    match classifyWatcherObservation (sourceFingerprint contents)
        room.persistence.lastKnownDiskHash manifest pending with
    | .Skip => some room
    | .Ingest => some { room with watching := some contents }
  | _, _ => none

-- The baseline moves for a revision journaled, reconciled and still on disk.
def watchIngest (reread : FileRead) (journaled reconciled : Bool) : Option FileRoom :=
  match room.watching with
  | none => none
  | some contents =>
    if reread.existingRaw.map sourceFingerprint = some (sourceFingerprint contents) ∧
        journaled = true ∧ reconciled = true then
      some { room with
        watching := none
        persistence :=
          room.persistence.clearLoadFailed.notePrimarySaveBaseline sequence contents
        seen := contents :: room.seen }
    else
      some { room with watching := none }

-- Nobody else writes the file while a save is on its way.
def next : RoomEvent → Option FileRoom
  | .External content =>
    if room.saves.entries = [] then some { room with disk := content } else none
  | .LoadRead => room.disk.map fun bytes => { room with staged := some bytes }
  | .LoadNote => room.staged.map fun bytes =>
    { room with
      persistence := room.persistence.noteDiskContent bytes
      seen := bytes :: room.seen }
  | .LoadComplete => some { room with persistence := room.persistence.clearLoadFailed }
  | .LoadFail => some { room with persistence := room.persistence.markLoadFailed }
  | .Degrade degraded => some { room with degraded := degraded }
  | .Evict => some { room with evicted := true }
  | .BeginSave sequence request read =>
    if room.saves.find sequence = none ∧ read.reads room.disk then
      some (room.beginSave sequence request read)
    else none
  | .GuardSave sequence => room.guardSave resolve sequence
  | .ReplaceFile sequence content => room.replaceFile resolve sequence content
  | .FinishSave sequence recovered => room.finishSave sequence recovered
  | .LeaveSave sequence => some (room.drop sequence)
  | .WatchRead manifest pending => room.watchRead manifest pending
  | .WatchIngest sequence reread journaled reconciled =>
    if reread.reads room.disk then room.watchIngest sequence reread journaled reconciled
    else none
  | .WatchLeave => some { room with watching := none }

end FileRoom

end Nteract.DiskGuard
