import Nteract.KeyedDoc.Frame
import Nteract.PeerSync
import Nteract.RuntimeDoc

namespace Nteract.KeyedDoc

open Identity Lib Lib.JsonText PeerSync Recovery RuntimeDoc

structure KeyedDocRecord where
  epoch : Nat
  acceptsPeerWrites : Bool
  statusLabel : String
deriving DecidableEq

inductive KeyedWritePermission
  | Producer
  | Validated
deriving DecidableEq

inductive KeyedDocRejection
  | Scope (scope : String) (kind : Points)
  | NotWritable (kind : Points) (status : String)
  | StaleEpoch (frame current : Nat)
  | UnknownDocument (id : Points)
  | UnauthorizedActor (reason : AdmissionError)
  | Undecodable
  | TooLarge (size cap : Nat)
  | Content (reason : String)
deriving DecidableEq

structure KeyedWriteContext where
  scope : RuntimeStateWriteScope
  currentEpoch : Nat
deriving DecidableEq

-- The runtime peer may be ahead of the room.
def KeyedWriteContext.checkFrameEpoch (ctx : KeyedWriteContext) (frameEpoch : Nat) :
    Except KeyedDocRejection Unit :=
  let stale := match ctx.scope with
    | .RuntimePeer => decide (frameEpoch < ctx.currentEpoch)
    | _ => decide (frameEpoch ≠ ctx.currentEpoch)
  if stale then .error (.StaleEpoch frameEpoch ctx.currentEpoch) else .ok ()

def defaultWritePermission (kind : Points) (scope : RuntimeStateWriteScope)
    (record : Option KeyedDocRecord) : Except KeyedDocRejection KeyedWritePermission :=
  match scope with
  | .RuntimePeer => .ok .Producer
  | .Viewer => .error (.Scope RuntimeStateWriteScope.Viewer.asStr kind)
  | .Editor | .Owner =>
    match record with
    | some record =>
      if record.acceptsPeerWrites then .ok .Validated
      else .error (.NotWritable kind record.statusLabel)
    | none => .error (.NotWritable kind "unknown")

def writeScope : ConnectionScope → RuntimeStateWriteScope
  | .Viewer => .Viewer
  | .Editor => .Editor
  | .RuntimePeer => .RuntimePeer
  | .Owner => .Owner

-- After a receive the state knows the heads that the message advertised.
structure KeyedSyncProtocol (automerge : Automerge) (State Message : Type) extends
    SyncProtocol automerge State Message where
  encode : Message → Bytes
  heads : Message → List ChangeHash
  theirHeads : State → Option (List ChangeHash)
  fullRequest : Message → Message
  theirHeads_new : theirHeads new = none
  theirHeads_receive : ∀ document state message,
    (receive document state message).result = .ok () →
      theirHeads (receive document state message).state = some (heads message)

-- One kind of keyed documents. `Room` is the state that the kind keeps for the room.
structure KeyedDocKind (Room : Type) where
  kind : Points
  cap : Nat
  validatePeerChanges : Room → Document → List ChangeHash → KeyedWriteContext →
    Except KeyedDocRejection Unit
  referencedBlobs : Room → Document → List String
  roomBlobRoots : Room → List String
  isRuntimeSnapshotReady : Room → Nat → Document → Bool
  onRuntimeChange : Room → Points → Nat → Document → Room

-- The hub's replica of a document. Until it is ready, the last usable one stays.
structure HubDoc where
  epoch : Nat
  doc : Document
  retained : Option (Nat × Document)
  ready : Bool
  alone : ready = true → retained = none
  older : ∀ replica, retained = some replica → replica.1 < epoch

namespace HubDoc

def new (epoch : Nat) : HubDoc := ⟨epoch, ∅, none, false, nofun, nofun⟩

def usable (hubDoc : HubDoc) : Option (Nat × Document) :=
  match hubDoc.retained with
  | some replica => some replica
  | none => if hubDoc.ready then some (hubDoc.epoch, hubDoc.doc) else none

theorem usable_eq_some {hubDoc : HubDoc} :
    hubDoc.usable = some replica ↔ hubDoc.retained = some replica ∨
      hubDoc.retained = none ∧ hubDoc.ready = true ∧ (hubDoc.epoch, hubDoc.doc) = replica := by
  unfold usable
  split <;> simp [*]

-- The fresh replica of a newer epoch keeps the last usable one.
def succeed (hubDoc : HubDoc) (epoch : Nat) (he : hubDoc.epoch < epoch) : HubDoc where
  epoch := epoch
  doc := ∅
  retained := if hubDoc.ready then some (hubDoc.epoch, hubDoc.doc) else hubDoc.retained
  ready := false
  alone := nofun
  older := by
    intro replica hr
    split at hr
    · rw [← Option.some.inj hr]
      exact he
    · exact (hubDoc.older replica hr).trans he

theorem usable_succeed (hubDoc : HubDoc) {epoch : Nat} (he : hubDoc.epoch < epoch) :
    (hubDoc.succeed epoch he).usable = hubDoc.usable := by
  unfold usable succeed
  by_cases hr : hubDoc.ready = true
  · simp [hr, hubDoc.alone hr]
  · simp [hr]

def promote (hubDoc : HubDoc) : HubDoc :=
  { hubDoc with ready := true, retained := none, alone := fun _ => rfl, older := nofun }

end HubDoc

-- The sync states of a connection, for the keys with a frame exchanged.
abbrev KeyedSyncStates (State : Type) := Table KeyedDocKey (Nat × State)

namespace KeyedSyncStates

variable {State : Type}

-- for_epoch: a state of another epoch is started afresh.
def forEpoch (fresh : State) (states : KeyedSyncStates State) (key : KeyedDocKey) (epoch : Nat) :
    State :=
  match states.find key with
  | some (current, state) => if current = epoch then state else fresh
  | none => fresh

def put (states : KeyedSyncStates State) (key : KeyedDocKey) (epoch : Nat) (state : State) :
    KeyedSyncStates State :=
  states.set key (epoch, state)

end KeyedSyncStates

end Nteract.KeyedDoc
