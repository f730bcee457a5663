import Nteract.KeyedDoc

namespace Nteract.KeyedDoc

open Identity Lib Lib.JsonText PeerSync Recovery RuntimeDoc Function

structure KeyedDocHub (Room : Type) where
  kinds : Table Points (KeyedDocKind Room)
  routing : Bool
  docs : Table KeyedDocKey HubDoc
  removals : Nat
  rooms : Points → Room

-- DocResync; the reason is sent as its text.
structure DocResync where
  key : KeyedDocKey
  epoch : Nat
  reason : KeyedDocRejection
deriving DecidableEq

structure KeyedFrameReply where
  frames : List Bytes
  resync : Option DocResync
deriving DecidableEq

def MAX_RECORD_READS : Nat := 3

-- One read of the record, with the removals counted just before it.
structure RecordRead where
  removals : Nat
  record : Option KeyedDocRecord
deriving DecidableEq

variable {automerge : Automerge} {State Message Room : Type}
  (protocol : KeyedSyncProtocol automerge State Message) (actors : ChangeActors)

namespace KeyedDocHub

def new (kinds : List (KeyedDocKind Room)) (rooms : Points → Room) : KeyedDocHub Room where
  kinds := kinds.foldl (fun table kind => table.set kind.kind kind) .empty
  routing := true
  docs := .empty
  removals := 0
  rooms := rooms

def kind (hub : KeyedDocHub Room) (kind : Points) : Option (KeyedDocKind Room) :=
  if hub.routing then hub.kinds.find kind else none

variable (hub : KeyedDocHub Room)

-- Frames that fail here are dropped without a reply.
def admitFrame (payload : Bytes) : Option (KeyedDocFrameHeader × Bytes × KeyedDocKind Room) :=
  match tryParse payload with
  | .error _ => none
  | .ok (header, body) => (hub.kind header.kind).map fun kind => (header, body, kind)

def withDoc (key : KeyedDocKey) : Option (Nat × Document) :=
  (hub.docs.find key).bind HubDoc.usable

-- The blobs of every replica and those that the kinds hold, as a list.
def blobRoots : List String :=
  (hub.kinds.entries.flatMap fun (name, kind) => kind.roomBlobRoots (hub.rooms name)) ++
    hub.docs.entries.flatMap fun (key, hubDoc) =>
      match hub.kinds.find key.kind with
      | none => []
      | some kind =>
        kind.referencedBlobs (hub.rooms key.kind) hubDoc.doc ++
          match hubDoc.retained with
          | some (_, retained) => kind.referencedBlobs (hub.rooms key.kind) retained
          | none => []

def removeDocs (keys : List KeyedDocKey) : KeyedDocHub Room :=
  { hub with
    docs := keys.foldl (fun docs key => docs.remove key) hub.docs
    removals := hub.removals + 1 }

end KeyedDocHub

def checkBodySize (kind : KeyedDocKind Room) (body : Bytes) : Except KeyedDocRejection Unit :=
  if kind.cap < body.length then .error (.TooLarge body.length kind.cap) else .ok ()

-- The replica for the key, replaced with a fresh one when the epoch is newer.
def ensureEpoch (docs : Table KeyedDocKey HubDoc) (key : KeyedDocKey) (epoch : Nat) : HubDoc :=
  match docs.find key with
  | none => .new epoch
  | some hubDoc =>
    if he : hubDoc.epoch < epoch then hubDoc.succeed epoch he else hubDoc

def encodeFrame (key : KeyedDocKey) (epoch : Nat) (encodeHeader : KeyedDocFrameHeader → Bytes)
    (body : Bytes) : Bytes :=
  let header := encodeHeader ⟨key.kind, key.id, epoch⟩
  [UInt8.ofNat (header.length / 256 ^ 3), UInt8.ofNat (header.length / 256 ^ 2),
    UInt8.ofNat (header.length / 256), UInt8.ofNat header.length] ++ header ++ body

-- `encodeHeader` is serde_json's text of a header.
variable (encodeHeader : KeyedDocFrameHeader → Bytes)

def generate (key : KeyedDocKey) (hubDoc : HubDoc) (states : KeyedSyncStates State) :
    KeyedSyncStates State × List Bytes :=
  let generated := protocol.generate hubDoc.doc
    (KeyedSyncStates.forEpoch protocol.new states key hubDoc.epoch)
  (KeyedSyncStates.put states key hubDoc.epoch generated.2,
    generated.1.toList.map fun message =>
      encodeFrame key hubDoc.epoch encodeHeader (protocol.encode message))

-- What a frame leaves behind. `changed` is the notice to the other connections.
structure FrameEffect (State Room : Type) where
  hub : KeyedDocHub Room
  states : KeyedSyncStates State
  reply : KeyedFrameReply
  changed : Bool

variable (hub : KeyedDocHub Room) (states : KeyedSyncStates State)

def dropped : FrameEffect State Room :=
  ⟨hub, states, ⟨[], none⟩, false⟩

-- Every head that the producer advertised is there and nothing is missing.
def isComplete (hubDoc : HubDoc) (state : State) : Bool :=
  match protocol.theirHeads state with
  | none => false
  | some heads =>
    heads.all (automerge.getChangeByHash hubDoc.doc) &&
      (automerge.getMissingDeps hubDoc.doc []).isEmpty

-- A failed receive may have applied a part.
def receiveProduced (kind : KeyedDocKind Room) (room : Room) (hubDoc : HubDoc) (state : State)
    (message : Message) : HubDoc × State :=
  let received := protocol.receive hubDoc.doc state message
  let state := match received.result with
    | .ok () => received.state
    | .error _ => protocol.new
  let hubDoc := { hubDoc with doc := received.document }
  if !hubDoc.ready && isComplete protocol hubDoc state &&
      kind.isRuntimeSnapshotReady room hubDoc.epoch hubDoc.doc then
    (hubDoc.promote, state)
  else
    (hubDoc, state)

def commitProduced (key : KeyedDocKey) (kind : KeyedDocKind Room) (epoch : Nat) (message : Message) :
    FrameEffect State Room :=
  let hubDoc := ensureEpoch hub.docs key epoch
  let state := KeyedSyncStates.forEpoch protocol.new states key hubDoc.epoch
  let received := receiveProduced protocol kind (hub.rooms key.kind) hubDoc state message
  let succeeded := match (protocol.receive hubDoc.doc state message).result with
    | .ok () => true
    | .error _ => false
  let moved := succeeded && (decide (automerge.getHeads received.1.doc ≠
    automerge.getHeads hubDoc.doc) || decide ((hub.docs.find key).map HubDoc.epoch ≠ some epoch))
  let changed := received.1.ready && (moved || !hubDoc.ready)
  let rooms := if changed then
      update hub.rooms key.kind
        (kind.onRuntimeChange (hub.rooms key.kind) key.id received.1.epoch received.1.doc)
    else
      hub.rooms
  let generated := generate protocol encodeHeader key received.1
    (KeyedSyncStates.put states key hubDoc.epoch received.2)
  ⟨{ hub with docs := hub.docs.set key received.1, rooms := rooms }, generated.1,
    ⟨generated.2, none⟩, changed⟩

-- The producer has no replica to resync, so a frame that is refused is dropped.
def receiveRuntimeFrame (payload : Bytes) : FrameEffect State Room :=
  match hub.admitFrame payload with
  | none => dropped hub states
  | some (header, body, kind) =>
    match checkBodySize kind body with
    | .error _ => dropped hub states
    | .ok () =>
      match protocol.decode body with
      | .error _ => dropped hub states
      | .ok message =>
        let current := (hub.docs.find header.key).map HubDoc.epoch
        let ctx : KeyedWriteContext := ⟨.RuntimePeer, current.getD header.epoch⟩
        match ctx.checkFrameEpoch header.epoch with
        | .error _ => dropped hub states
        | .ok () =>
          commitProduced protocol encodeHeader hub states header.key kind header.epoch
            message

section Admission

-- What a peer's message leaves, and whether it was refused or answered.
structure Admission (State Message : Type) where
  doc : Document
  state : State
  result : Except KeyedDocRejection (Option Message)

variable (kind : KeyedDocKind Room) (room : Room) (doc : Document) (state : State)

-- check_change_actors: the first change of a foreign actor.
def checkChangeActors (identity : RoomConnectionIdentity) :
    List ChangeHash → Except AdmissionError Unit
  | [] => .ok ()
  | change :: changes =>
    match validateActorLabel identity (actors.actorLabel change) with
    | .error error => .error error
    | .ok () => checkChangeActors identity changes

-- Ask for everything again, on a fresh sync state.
def fullSyncRequest : Option Message × State :=
  let generated := protocol.generate doc protocol.new
  (generated.1.map protocol.fullRequest, generated.2)

-- preview_receive on copies, then the actors and the kind's own validation.
def admitValidated (message : Message) (ctx : KeyedWriteContext) (identity : RoomConnectionIdentity) :
    Admission State Message :=
  let preview := receiveRecovering protocol.toSyncProtocol doc state message
  match preview.result with
  | .error _ => ⟨doc, state, .error .Undecodable⟩
  | .ok () =>
    if automerge.getMissingDeps preview.document [] ≠ [] then
      let request := fullSyncRequest protocol doc
      ⟨doc, request.2, .ok request.1⟩
    else
      let newChanges := getChangesSince automerge doc preview.document
      match checkChangeActors actors identity newChanges with
      | .error error => ⟨doc, state, .error (.UnauthorizedActor error)⟩
      | .ok () =>
        match kind.validatePeerChanges room doc newChanges ctx with
        | .error rejection => ⟨doc, state, .error rejection⟩
        | .ok () => ⟨preview.document, preview.state, .ok none⟩

def admitReceived (message : Message) (refused : Option KeyedDocRejection) :
    Admission State Message :=
  let received := protocol.receive doc state message
  match received.result with
  | .error _ => ⟨received.document, received.state, .error .Undecodable⟩
  | .ok () =>
    ⟨received.document, received.state, match refused with
      | some rejection => .error rejection
      | none => .ok none⟩

variable (body : Bytes) (frameEpoch : Nat) (ctx : KeyedWriteContext)
  (record : Option KeyedDocRecord) (identity : RoomConnectionIdentity)

def admitPeerMessage : Admission State Message :=
  match ctx.checkFrameEpoch frameEpoch with
  | .error rejection => ⟨doc, state, .error rejection⟩
  | .ok () =>
    match protocol.decode body with
    | .error _ => ⟨doc, state, .error .Undecodable⟩
    | .ok message =>
      if protocol.changes message = ∅ then
        admitReceived protocol doc state message none
      else
        match defaultWritePermission kind.kind ctx.scope record with
        | .error rejection =>
          -- without its changes the message still tells what the peer has
          admitReceived protocol doc state (protocol.withoutChanges message) (some rejection)
        | .ok .Producer => admitReceived protocol doc state message none
        | .ok .Validated =>
          admitValidated protocol actors kind room doc state message ctx identity

def admitSized : Admission State Message :=
  match checkBodySize kind body with
  | .error rejection => ⟨doc, state, .error rejection⟩
  | .ok () => admitPeerMessage protocol actors kind room doc state body frameEpoch ctx record identity

end Admission

-- The first read that no removal has overtaken.
def chooseRead (key : KeyedDocKey) (reads : List RecordRead) : Option RecordRead :=
  (reads.take MAX_RECORD_READS).find? fun read =>
    (hub.docs.find key).isSome || decide (read.removals = hub.removals)

-- The epoch that the hub and the record agree on: the newer of the two.
def currentEpoch (key : KeyedDocKey) (record : Option KeyedDocRecord) : Option Nat :=
  match (hub.docs.find key).map HubDoc.epoch, record with
  | none, none => none
  | none, some record => some record.epoch
  | some epoch, none => some epoch
  | some epoch, some record => some (max epoch record.epoch)

def settlePeer (key : KeyedDocKey) (current : Nat) (hubDoc : HubDoc)
    (admission : Admission State Message) : FrameEffect State Room :=
  let admitted := { hubDoc with doc := admission.doc }
  let hub := { hub with docs := hub.docs.set key admitted }
  let changed := decide (automerge.getHeads admission.doc ≠ automerge.getHeads hubDoc.doc)
  match admission.result with
  | .ok (some request) =>
    ⟨hub, KeyedSyncStates.put states key current admission.state,
      ⟨[encodeFrame key current encodeHeader (protocol.encode request)], none⟩, false⟩
  | .ok none =>
    let generated := generate protocol encodeHeader key admitted
      (KeyedSyncStates.put states key current admission.state)
    ⟨hub, generated.1, ⟨generated.2, none⟩, changed⟩
  | .error rejection =>
    let generated := generate protocol encodeHeader key admitted
      (KeyedSyncStates.put states key current protocol.new)
    ⟨hub, generated.1, ⟨generated.2, some ⟨key, current, rejection⟩⟩, changed⟩

def answerPeer (key : KeyedDocKey) (kind : KeyedDocKind Room) (current : Nat)
    (header : KeyedDocFrameHeader) (body : Bytes) (record : Option KeyedDocRecord)
    (identity : RoomConnectionIdentity) : FrameEffect State Room :=
  let hubDoc := ensureEpoch hub.docs key current
  let ctx : KeyedWriteContext := ⟨writeScope identity.scope, current⟩
  if hubDoc.ready = false then
    -- only the producer may fill a replica that is not ready
    let resync := match ctx.checkFrameEpoch header.epoch with
      | .error rejection => some ⟨key, current, rejection⟩
      | .ok () => none
    ⟨{ hub with docs := hub.docs.set key hubDoc },
      KeyedSyncStates.put states key current protocol.new, ⟨[], resync⟩, false⟩
  else
    settlePeer protocol encodeHeader hub states key current hubDoc
      (admitSized protocol actors kind (hub.rooms key.kind) hubDoc.doc
        (KeyedSyncStates.forEpoch protocol.new states key current) body header.epoch ctx record
        identity)

-- `reads` are the reads of the record, made before the hub is locked.
def receivePeerFrame (payload : Bytes) (identity : RoomConnectionIdentity) (reads : List RecordRead) :
    FrameEffect State Room :=
  match hub.admitFrame payload with
  | none => dropped hub states
  | some (header, body, kind) =>
    match chooseRead hub header.key reads with
    | none => dropped hub states
    | some read =>
      match currentEpoch hub header.key read.record with
      | none => dropped hub states
      | some current =>
        answerPeer protocol actors encodeHeader hub states header.key kind current header
          body read.record identity

structure KeyedRoom (State Room : Type) where
  hub : KeyedDocHub Room
  runtime : KeyedSyncStates State
  peers : String → KeyedSyncStates State

-- `Removed`: documents whose records ended. `Kept`: a kind's own state moved on. `keep`: the sync
-- states still needed.
inductive KeyedEvent (Room : Type)
  | RuntimeFrame (payload : Bytes)
  | PeerFrame (peer : String) (identity : RoomConnectionIdentity) (payload : Bytes)
      (reads : List RecordRead)
  | RuntimeUpdate (key : KeyedDocKey)
  | PeerUpdate (peer : String) (key : KeyedDocKey)
  | RuntimeRetain (keep : KeyedDocKey → Bool)
  | PeerRetain (peer : String) (keep : KeyedDocKey → Bool)
  | Removed (keys : List KeyedDocKey)
  | Kept (kind : Points) (room : Room)
  | DisableRouting

variable (room : KeyedRoom State Room)

def KeyedRoom.new (kinds : List (KeyedDocKind Room)) (rooms : Points → Room) :
    KeyedRoom State Room :=
  ⟨.new kinds rooms, .empty, fun _ => .empty⟩

def peerEffect (peer : String) (identity : RoomConnectionIdentity) (payload : Bytes)
    (reads : List RecordRead) : FrameEffect State Room :=
  receivePeerFrame protocol actors encodeHeader room.hub (room.peers peer) payload identity reads

-- The message of a peer was refused with a DocResync.
def KeyedRoom.refuses : KeyedEvent Room → Bool
  | .PeerFrame peer identity payload reads =>
    (peerEffect protocol actors encodeHeader room peer identity payload reads).reply.resync.isSome
  | _ => false

def KeyedRoom.step : KeyedEvent Room → KeyedRoom State Room
  | .RuntimeFrame payload =>
    let effect := receiveRuntimeFrame protocol encodeHeader room.hub room.runtime payload
    { room with hub := effect.hub, runtime := effect.states }
  | .PeerFrame peer identity payload reads =>
    let effect := peerEffect protocol actors encodeHeader room peer identity payload reads
    { room with hub := effect.hub, peers := update room.peers peer effect.states }
  | .RuntimeUpdate key =>
    match room.hub.docs.find key with
    | none => room
    | some hubDoc =>
      { room with runtime := (generate protocol encodeHeader key hubDoc room.runtime).1 }
  | .PeerUpdate peer key =>
    match room.hub.docs.find key with
    | none => room
    | some hubDoc =>
      if hubDoc.ready ∧ ((room.peers peer).find key).isSome then
        let states := (generate protocol encodeHeader key hubDoc (room.peers peer)).1
        { room with peers := update room.peers peer states }
      else
        room
  | .RuntimeRetain keep => { room with runtime := room.runtime.retain keep }
  | .PeerRetain peer keep =>
    { room with peers := update room.peers peer ((room.peers peer).retain keep) }
  | .Removed keys => { room with hub := room.hub.removeDocs keys }
  | .Kept kind state =>
    { room with hub := { room.hub with rooms := update room.hub.rooms kind state } }
  | .DisableRouting => { room with hub := { room.hub with routing := false } }

end Nteract.KeyedDoc
