import Nteract.Durability.Acknowledged
import Nteract.Identity

namespace Nteract.PeerSync

open Durability Identity Recovery

-- A receive leaves a document and a state, also when it fails.
structure Received (State : Type) where
  result : Except String Unit
  document : Document
  state : State

-- A receive adds changes of the message only, all of them unless it fails. A generated message
-- carries changes of the document. Changes are acyclic.
structure SyncProtocol (automerge : Automerge) (State Message : Type) where
  new : State
  decode : Bytes → Except String Message
  changes : Message → Finset ChangeHash
  withoutChanges : Message → Message
  receive : Document → State → Message → Received State
  isRecoverableSyncError : String → Bool
  generate : Document → State → Option Message × State
  changes_withoutChanges : ∀ message, changes (withoutChanges message) = ∅
  receive_grows : ∀ document state message, document ⊆ (receive document state message).document
  receive_adds : ∀ document state message,
    (receive document state message).document ⊆ document ∪ changes message
  receive_ok : ∀ document state message, (receive document state message).result = .ok () →
    changes message ⊆ (receive document state message).document
  generate_changes : ∀ document state message,
    (generate document state).1 = some message → changes message ⊆ document
  acyclic : WellFounded fun dep change : ChangeHash => dep ∈ automerge.deps change

inductive FrameError
  | Decode (error : String)
  | PreviewFailed (error : String)
  | UnresolvedDependencies (count : Nat)
  | Admission (error : AdmissionError)
  | ReceiveFailed (error : String)
  | AdmissionDiffered (expected applied : Nat)
  | JournalCommit (error : RoomDurabilityError)
  | ReplyFailed (error : String)
deriving DecidableEq

inductive Notice (Message : Type)
  | Changed
  | Reply (message : Message)
deriving DecidableEq

-- What the room lets out, with the document and durable snapshot of then.
structure Emission (Message : Type) where
  notice : Notice Message
  live : Document
  durableSnapshot : Bytes

structure NotebookDocSideEffects where
  persistBytes : Option Bytes
  metadataChanged : Bool
  syncReplyQueued : Bool
deriving DecidableEq

-- What a failed commit tells the lifecycle and the file source issue.
structure CommitDegradation where
  reason : String
  documentHeads : List String
  documentReadable : Bool
deriving DecidableEq

-- The journal's answers, the error of a reply and the sync state it leaves.
structure FrameIo (State : Type) where
  append : AppendIo
  replyFault : Option (String × State)

structure FrameResult (State Message : Type) where
  outcome : Except FrameError (NotebookDocSideEffects × Option Message)
  live : Document
  peerState : State
  durability : RoomDurability
  emitted : List (Emission Message)
  degradation : Option CommitDegradation

variable {automerge : Automerge} {State Message : Type} (serde : ManifestSerde)
  (protocol : SyncProtocol automerge State Message) (actors : ChangeActors)
  (diffMetadataTouched : List ChangeHash → List ChangeHash → Bool)

-- A recoverable error rebuilds the document from its save and tries once more.
def receiveRecovering (document : Document) (state : State) (message : Message) :
    Received State :=
  let first := protocol.receive document state message
  match first.result with
  | .ok () => first
  | .error error =>
    if protocol.isRecoverableSyncError error then
      match automerge.load (automerge.save first.document) with
      | .ok rebuilt => protocol.receive rebuilt protocol.new message
      | .error rebuildError => ⟨.error rebuildError, first.document, protocol.new⟩
    else
      first

-- get_changes of the heads of `before`: the applied changes that are not behind them.
def getChangesSince (automerge : Automerge) (before after : Document) : List ChangeHash :=
  sortedList (automerge.getChanges after \ automerge.getChanges before)

def canonicalChangeHashes (changes : List ChangeHash) : List ChangeHash :=
  (sortUnstable changes).dedup

def reconcileApplied (admitted applied : List ChangeHash) : Except FrameError (List ChangeHash) :=
  let expected := canonicalChangeHashes admitted
  let actual := canonicalChangeHashes applied
  if expected ≠ actual then
    .error (.AdmissionDiffered expected.length actual.length)
  else
    .ok applied

variable (identity : RoomConnectionIdentity) (io : FrameIo State) (live : Document)
  (peerState : State) (message : Message)

-- Admission on a copy of the document and of the sync state.
def admitPreview : Except FrameError (List ChangeHash) :=
  let preview := receiveRecovering protocol live peerState message
  match preview.result with
  | .error error => .error (.PreviewFailed error)
  | .ok () =>
    let unresolved := automerge.getMissingDeps preview.document []
    if unresolved ≠ [] then
      .error (.UnresolvedDependencies unresolved.length)
    else
      (admitNotebookChanges actors identity
        (getChangesSince automerge live preview.document)).mapError .Admission

def admitFrame : Except FrameError (List ChangeHash) :=
  if protocol.changes message ≠ ∅ then
    admitPreview protocol actors identity live peerState message
  else
    (admitNotebookChanges actors identity []).mapError .Admission

-- The document to go back to, if the frame had changes and the save loads.
def restored (automerge : Automerge) (hasClientChanges : Bool) (live : Document) :
    Option Document :=
  if hasClientChanges then
    match automerge.load (automerge.save live) with
    | .ok document => some document
    | .error _ => none
  else
    none

-- The end of a frame that was accepted: tell the room, then answer the sender.
def replyToFrame (effects : Option Message → NotebookDocSideEffects) (changed : Bool)
    (live : Document) (peerState : State) (durability : RoomDurability) :
    FrameResult State Message :=
  let told : List (Emission Message) :=
    if changed then [⟨.Changed, live, durability.state.durableSnapshot⟩] else []
  match io.replyFault with
  | some (error, left) => ⟨.error (.ReplyFailed error), live, left, durability, told, none⟩
  | none =>
    match protocol.generate live peerState with
    | (some reply, next) =>
      ⟨.ok (effects (some reply), some reply), live, next, durability,
        told ++ [⟨.Reply reply, live, durability.state.durableSnapshot⟩], none⟩
    | (none, next) => ⟨.ok (effects none, none), live, next, durability, told, none⟩

def journalReason (error : RoomDurabilityError) : String :=
  "journal commit failed before peer acknowledgement: " ++ error.display

-- A failed commit: document and sync state go back, the room is degraded.
def rejectFrame (hasClientChanges : Bool) (before received : Document) (peerState : State)
    (error : RoomDurabilityError) (durability : RoomDurability) : FrameResult State Message :=
  let document := restored automerge hasClientChanges before
  let live := document.getD received
  { outcome := .error (.JournalCommit error)
    live := live
    peerState := peerState
    durability := markDegraded .DurabilityBoundary (journalReason error) durability
    emitted := []
    degradation := some
      ⟨journalReason error, (automerge.getHeads live).map hexEncode, document.isSome⟩ }

-- The frame after it was admitted and received by the live document.
def commitFrame (hasClientChanges : Bool) (before : Document) (peerState : State)
    (applied : List ChangeHash) (received : Received State) (durability : RoomDurability) :
    FrameResult State Message :=
  let headsBefore := automerge.getHeads before
  let headsAfter := automerge.getHeads received.document
  let changed := headsBefore ≠ headsAfter
  let effects (reply : Option Message) : NotebookDocSideEffects :=
    { persistBytes := if changed then some (automerge.save received.document) else none
      metadataChanged := changed && diffMetadataTouched headsBefore headsAfter
      syncReplyQueued := reply.isSome }
  if changed ∧ hasClientChanges then
    match commitPeerChanges automerge serde io.append applied durability with
    | .error error failed =>
      @rejectFrame automerge State Message hasClientChanges before received.document peerState
        error failed
    | .ok _ committed =>
      replyToFrame protocol io effects changed received.document received.state committed
  else
    replyToFrame protocol io effects changed received.document received.state durability

-- The frame after admission, on the live document.
def receiveFrame (admitted : List ChangeHash) (durability : RoomDurability) :
    FrameResult State Message :=
  let hasClientChanges := decide (protocol.changes message ≠ ∅)
  let received := receiveRecovering protocol live peerState message
  match received.result with
  | .error error =>
    ⟨.error (.ReceiveFailed error), received.document, received.state, durability, [], none⟩
  | .ok () =>
    match reconcileApplied admitted (getChangesSince automerge live received.document) with
    | .error error =>
      ⟨.error error, (restored automerge hasClientChanges live).getD received.document,
        peerState, durability, [], none⟩
    | .ok applied =>
      commitFrame serde protocol diffMetadataTouched io hasClientChanges live peerState applied
        received durability

-- Changes from a connection that may not write are dropped from the message.
def stripChanges : Message :=
  if protocol.changes message ≠ ∅ ∧ identity.allowsNotebookWrite = false then
    protocol.withoutChanges message
  else
    message

def applyNotebookDocFrame (durability : RoomDurability) (payload : Bytes) :
    FrameResult State Message :=
  match protocol.decode payload with
  | .error error => ⟨.error (.Decode error), live, peerState, durability, [], none⟩
  | .ok decoded =>
    let message := stripChanges protocol identity decoded
    match admitFrame protocol actors identity live peerState message with
    | .error error => ⟨.error error, live, peerState, durability, [], none⟩
    | .ok admitted =>
      receiveFrame serde protocol diffMetadataTouched io live peerState message admitted
        durability

structure PeerRoom (State : Type) where
  live : Document
  durability : RoomDurability
  peerStates : Nat → State
  identities : Nat → RoomConnectionIdentity

-- `Broadcast`: forward_notebook_doc_broadcast and queue_doc_sync.
inductive PeerEvent (State : Type)
  | Frame (connection : Nat) (payload : Bytes) (io : FrameIo State)
  | Broadcast (connection : Nat) (fault : Option (String × State))

variable (room : PeerRoom State)

def PeerRoom.setPeerState (connection : Nat) (state : State) : Nat → State :=
  fun other => if other = connection then state else room.peerStates other

def PeerRoom.applyFrame (connection : Nat) (payload : Bytes) (io : FrameIo State) :
    FrameResult State Message :=
  applyNotebookDocFrame serde protocol actors diffMetadataTouched (room.identities connection) io
    room.live (room.peerStates connection) room.durability payload

def PeerRoom.emits : PeerEvent State → List (Emission Message)
  | .Frame connection payload io =>
    (room.applyFrame serde protocol actors diffMetadataTouched connection payload io).emitted
  | .Broadcast connection fault =>
    match fault, (protocol.generate room.live (room.peerStates connection)).1 with
    | none, some message => [⟨.Reply message, room.live, room.durability.state.durableSnapshot⟩]
    | _, _ => []

def PeerRoom.handle : PeerEvent State → PeerRoom State
  | .Frame connection payload io =>
    let result := room.applyFrame serde protocol actors diffMetadataTouched connection payload io
    { room with
      live := result.live
      durability := result.durability
      peerStates := room.setPeerState connection result.peerState }
  | .Broadcast connection fault =>
    let next := match fault with
      | some (_, left) => left
      | none => (protocol.generate room.live (room.peerStates connection)).2
    { room with peerStates := room.setPeerState connection next }

def PeerRoom.run (events : List (PeerEvent State)) : PeerRoom State :=
  events.foldl (PeerRoom.handle serde protocol actors diffMetadataTouched) room

end Nteract.PeerSync
