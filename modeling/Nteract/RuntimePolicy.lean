import Nteract.Lib.Checks
import Nteract.Lib.JsonValue
import Nteract.RuntimeDoc

namespace Nteract.RuntimePolicy

open Lib JsonValue
open RuntimeDoc (QueueState RuntimeStateWriteScope)

inductive RuntimeStateError
  | UnauthorizedActor (text : String)
deriving DecidableEq

def runtimeStatePolicyError (scope : RuntimeStateWriteScope) (field reason : String) :
    RuntimeStateError :=
  .UnauthorizedActor
    ("scope " ++ scope.asStr ++ " cannot write RuntimeStateDoc " ++ field ++ ": " ++ reason)

-- An execution as the policy reads it, its status being any text.
structure ExecutionState (ν : Type) where
  status : String
  executionCount : Option Int
  success : Option Bool
  outputs : List (JsonValue ν)
  source : Option String
  cellId : Option String
  seq : Option Nat
  submittedByActorLabel : Option String
deriving DecidableEq

structure CommDocEntry (ν : Type) where
  targetName : String
  modelModule : String
  modelName : String
  state : JsonValue ν
  outputs : List (JsonValue ν)
  seq : Nat
  captureMsgId : String
deriving DecidableEq

inductive BokehSessionStatus
  | Connected
  | Disconnected
  | Closed
  | Error
deriving DecidableEq

def BokehSessionStatus.debug : BokehSessionStatus → String
  | .Connected => "Connected"
  | .Disconnected => "Disconnected"
  | .Closed => "Closed"
  | .Error => "Error"

structure BokehSessionState where
  outputId : String
  cellId : String
  executionId : String
  kernelId : String
  status : BokehSessionStatus
  producerName : String
  producerVersion : String
  bokehVersion : String
  rootIds : List String
  epoch : Nat
  docHeads : List String
  previousHeads : List String
deriving DecidableEq

-- `β` are the records that the policy only compares as a whole.
structure RuntimeState (ν β : Type) where
  runtimeStateDocId : Option String
  kernel : β
  queue : QueueState
  env : β
  trust : β
  lastSaved : Option String
  fileCheckpoint : β
  projectTrust : β
  path : Option String
  executions : Table String (ExecutionState ν)
  comms : Table String (CommDocEntry ν)
  bokehSessions : Table String BokehSessionState
  projectContext : β
  workstation : Option β
deriving DecidableEq

structure RuntimeStatePolicySnapshot (ν β : Type) where
  state : RuntimeState ν β
  rootKeys : List String
  displayIndex : Option (List (String × List (String × String)))
  localEnvironmentIdentity : List (List (String × String))
deriving DecidableEq

def BOKEH_SESSION_MIME : String := "application/vnd.nteract.bokeh-session.v1+json"

section Sessions

variable {ν : Type} (scope : RuntimeStateWriteScope) (sessionId : String)

def bokehError (reason : String) : RuntimeStateError :=
  runtimeStatePolicyError scope "bokeh_sessions" reason

def isAsciiHexdigit (char : Char) : Bool :=
  (48 ≤ char.toNat && char.toNat ≤ 57) || (65 ≤ char.toNat && char.toNat ≤ 70) ||
    (97 ≤ char.toNat && char.toNat ≤ 102)

def validHeads (heads : List String) : Bool :=
  heads.all fun head => head.length == 64 && head.toList.all isAsciiHexdigit

def validateBokehSessionRecord (session : BokehSessionState) : Check RuntimeStateError :=
  .all [
    .require
      (!(session.outputId.isEmpty || session.cellId.isEmpty || session.executionId.isEmpty ||
        session.kernelId.isEmpty || session.producerName.isEmpty || session.bokehVersion.isEmpty ||
        session.rootIds.isEmpty))
      (bokehError scope ("Bokeh session " ++ sessionId ++ " has incomplete topology")),
    .require
      (!(session.docHeads.isEmpty || !validHeads session.docHeads ||
        !validHeads session.previousHeads ||
        (session.epoch == 0) != session.previousHeads.isEmpty))
      (bokehError scope ("Bokeh session " ++ sessionId ++ " has an invalid document identity"))]

def isDisplay (output : JsonValue ν) : Bool :=
  match (output.get "output_type").bind asStr with
  | some type => type == "display_data" || type == "execute_result"
  | none => false

def executionHasBokehOutput (execution : ExecutionState ν) (outputId : String) : Bool :=
  execution.outputs.any fun output =>
    (output.get "output_id").bind asStr == some outputId && isDisplay output &&
      match (output.get "data").bind asObject with
      | some data => (data.lookup BOKEH_SESSION_MIME).isSome
      | none => false

def bokehSessionStatusTransitionAllowed (before after : BokehSessionStatus) : Bool :=
  before == after ||
    match before, after with
    | .Connected, .Disconnected | .Connected, .Closed | .Connected, .Error
    | .Disconnected, .Closed | .Error, .Closed => true
    | _, _ => false

def validateNewBokehSession (executions : Table String (ExecutionState ν))
    (session : BokehSessionState) : Check RuntimeStateError :=
  match executions.find session.executionId with
  | none =>
    .error (bokehError scope
      ("new Bokeh session " ++ sessionId ++ " must reference an accepted execution"))
  | some execution =>
    .all [
      .require (execution.cellId == some session.cellId)
        (bokehError scope
          ("new Bokeh session " ++ sessionId ++ " must match its accepted execution cell")),
      .require (executionHasBokehOutput execution session.outputId)
        (bokehError scope
          ("new Bokeh session " ++ sessionId ++ " must reference its accepted Bokeh output")),
      .require (session.status == .Connected)
        (bokehError scope ("new Bokeh session " ++ sessionId ++ " must start connected"))]

def sameProvenance (before after : BokehSessionState) : Bool :=
  before.outputId == after.outputId && before.cellId == after.cellId &&
    before.executionId == after.executionId && before.kernelId == after.kernelId &&
    before.producerName == after.producerName && before.producerVersion == after.producerVersion &&
    before.bokehVersion == after.bokehVersion && before.rootIds == after.rootIds

def validateBokehSessionUpdate (before after : BokehSessionState) : Check RuntimeStateError :=
  .all [
    .require (sameProvenance before after)
      (bokehError scope ("Bokeh session provenance is immutable for " ++ sessionId)),
    .require (bokehSessionStatusTransitionAllowed before.status after.status)
      (bokehError scope ("invalid Bokeh session status transition for " ++ sessionId ++ ": " ++
        before.status.debug ++ " -> " ++ after.status.debug)),
    .require (!(before.status == .Closed && before != after))
      (bokehError scope ("closed Bokeh session is immutable: " ++ sessionId)),
    .require (!decide (after.epoch < before.epoch))
      (bokehError scope ("Bokeh session epoch cannot move backward: " ++ sessionId)),
    .require
      (!(after.epoch == before.epoch && (after.docHeads != before.docHeads ||
        after.previousHeads != before.previousHeads)))
      (bokehError scope
        ("Bokeh session document identity changes only with its epoch: " ++ sessionId))]

end Sessions

variable {ν β : Type} [DecidableEq ν] [DecidableEq β] (scope : RuntimeStateWriteScope)
  (before after : RuntimeStatePolicySnapshot ν β)

-- validate_runtime_peer_delta of the Bokeh sessions.
def validateBokehSessions : Check RuntimeStateError :=
  .all [
    .forEach before.state.bokehSessions.entries fun (sessionId, _) =>
      .require (after.state.bokehSessions.find sessionId).isSome
        (bokehError scope
          ("Bokeh session records cannot be removed by runtime-peer sync: " ++ sessionId)),
    .forEach after.state.bokehSessions.entries fun (sessionId, session) =>
      .all [
        validateBokehSessionRecord scope sessionId session,
        match before.state.bokehSessions.find sessionId with
        | none => validateNewBokehSession scope sessionId after.state.executions session
        | some earlier => validateBokehSessionUpdate scope sessionId earlier session]]

def RUNTIME_PEER_RECORD_ROOTS : List String := ["bokeh_sessions"]

def validateRuntimePeerRootKeys : Check RuntimeStateError :=
  .all [
    .require (before.rootKeys.all fun key => after.rootKeys.contains key)
      (runtimeStatePolicyError scope "schema"
        "raw RuntimeStateDoc root keys cannot be removed by a runtime peer"),
    .require
      (after.rootKeys.all fun key =>
        before.rootKeys.contains key || RUNTIME_PEER_RECORD_ROOTS.contains key)
      (runtimeStatePolicyError scope "schema"
        "raw RuntimeStateDoc root keys are room-host/daemon-owned")]

def unchangedByPeer (field : String) (same : Bool) : Check RuntimeStateError :=
  .require same (runtimeStatePolicyError scope field "room-host/daemon-owned")

def validateRuntimePeerRoomHostOwnedDelta : Check RuntimeStateError :=
  .all [
    unchangedByPeer scope "local environment identity"
      (before.localEnvironmentIdentity == after.localEnvironmentIdentity),
    unchangedByPeer scope "env" (decide (before.state.env = after.state.env)),
    unchangedByPeer scope "trust" (decide (before.state.trust = after.state.trust)),
    unchangedByPeer scope "runtime_state_doc_id"
      (before.state.runtimeStateDocId == after.state.runtimeStateDocId),
    unchangedByPeer scope "last_saved" (before.state.lastSaved == after.state.lastSaved),
    unchangedByPeer scope "file_checkpoint"
      (decide (before.state.fileCheckpoint = after.state.fileCheckpoint)),
    unchangedByPeer scope "project_trust"
      (decide (before.state.projectTrust = after.state.projectTrust)),
    unchangedByPeer scope "path" (before.state.path == after.state.path),
    unchangedByPeer scope "project_context"
      (decide (before.state.projectContext = after.state.projectContext)),
    unchangedByPeer scope "workstation"
      (decide (before.state.workstation = after.state.workstation))]

def displayId (output : JsonValue ν) : Option String :=
  ((output.get "transient").bind fun transient => transient.get "display_id").bind asStr

def objectAt (value : JsonValue ν) (key : String) : Bool :=
  match value.get key with
  | some field => field.isObject
  | none => false

-- Display handles stay live after their execution: the payload and the metadata may change.
def runtimePeerDisplayUpdateAllowed (before after : JsonValue ν) : Bool :=
  isDisplay before &&
    (match displayId before with
      | some id => !id.isEmpty
      | none => false) &&
    objectAt after "data" && objectAt after "metadata" &&
    match before.asObject, after.asObject with
    | some before, some after =>
      decide (without ["data", "metadata"] before =
        without ["data", "metadata"] after)
    | _, _ => false

def runtimePeerOutputsPreservedPrefix (before after : List (JsonValue ν)) : Bool :=
  decide (before.length ≤ after.length) &&
    (before.zip after).all fun (earlier, later) =>
      decide (earlier = later) || runtimePeerDisplayUpdateAllowed earlier later

def runtimePeerStatusTransitionAllowed (before after : String) : Bool :=
  before == after ||
    [("queued", "running"), ("queued", "done"), ("queued", "error"), ("queued", "cancelled"),
      ("running", "done"), ("running", "error")].contains (before, after)

-- A cancelled execution has no result to protect.
def isSettled (status : String) : Bool := status == "done" || status == "error"

def validateRuntimePeerExecutionUpdate (executionId : String) (before after : ExecutionState ν) :
    Check RuntimeStateError :=
  let refuse reason := runtimeStatePolicyError scope "executions" reason
  .all [
    .require
      (before.source == after.source && before.cellId == after.cellId && before.seq == after.seq &&
        before.submittedByActorLabel == after.submittedByActorLabel)
      (refuse ("accepted execution provenance is coordinator-owned for " ++ executionId)),
    .require (runtimePeerStatusTransitionAllowed before.status after.status)
      (refuse ("invalid runtime-peer status transition for " ++ executionId ++ ": " ++
        before.status ++ " -> " ++ after.status)),
    .require
      (!(isSettled before.status && before.status == after.status &&
        (before.success != after.success || before.executionCount != after.executionCount)))
      (refuse ("terminal execution result metadata is immutable for " ++ executionId)),
    .require
      (!(isSettled before.status && before.status == after.status &&
        !runtimePeerOutputsPreservedPrefix before.outputs after.outputs))
      (refuse ("terminal execution outputs permit only append or display data updates for " ++
        executionId))]

def validateRuntimePeerExecutionDelta : Check RuntimeStateError :=
  .all [
    .forEach after.state.executions.entries fun (executionId, _) =>
      .require (before.state.executions.find executionId).isSome
        (runtimeStatePolicyError scope "executions"
          "execution intent must go through ExecuteCell or RunAllCells"),
    .forEach before.state.executions.entries fun (executionId, _) =>
      .require (after.state.executions.find executionId).isSome
        (runtimeStatePolicyError scope "executions"
          "accepted execution records cannot be removed by runtime-peer sync"),
    .forEach before.state.executions.entries fun (executionId, earlier) =>
      match after.state.executions.find executionId with
      | none => .ok ()
      | some later => validateRuntimePeerExecutionUpdate scope executionId earlier later]

def isTerminal (status : String) : Bool := isSettled status || status == "cancelled"

-- `seen` are the ids of the entries before this one.
def validateQueueEntries (seen : List String) : List String → Check RuntimeStateError
  | [] => .ok ()
  | executionId :: entries =>
    let refuse reason := runtimeStatePolicyError scope "queue" reason
    .all [
      .require (!seen.contains executionId)
        (refuse "queue entries must not repeat an execution id"),
      .require (before.state.executions.find executionId).isSome
        (refuse
          "queue entries must reference executions accepted through ExecuteCell or RunAllCells"),
      match after.state.executions.find executionId with
      | none => .error (refuse "queue entries must reference existing executions")
      | some execution =>
        .require (!isTerminal execution.status)
          (refuse "terminal executions cannot be re-queued by runtime-peer sync"),
      validateQueueEntries (executionId :: seen) entries]

def validateRuntimePeerQueueDelta : Check RuntimeStateError :=
  if before.state.queue = after.state.queue then .ok ()
  else
    validateQueueEntries scope before after []
      (after.state.queue.executing.toList ++ after.state.queue.queued)

def validateRuntimePeerCommStateDelta : Check RuntimeStateError :=
  .forEach after.state.comms.entries fun (commId, comm) =>
    match before.state.comms.find commId with
    | some earlier =>
      .require (decide (earlier.state = comm.state))
        (runtimeStatePolicyError scope "comms" ("comm state moved to CommsDoc for " ++ commId))
    | none =>
      .require (comm.state.asObject.map List.isEmpty == some true)
        (runtimeStatePolicyError scope "comms"
          ("new RuntimeStateDoc comm state must be empty for " ++ commId))

def validateRuntimePeerRuntimeDelta : Check RuntimeStateError :=
  .all [
    validateRuntimePeerRootKeys scope before after,
    validateRuntimePeerExecutionDelta scope before after,
    validateRuntimePeerQueueDelta scope before after,
    validateRuntimePeerRoomHostOwnedDelta scope before after,
    validateRuntimePeerCommStateDelta scope before after,
    validateBokehSessions scope before after]

-- Maps are equal when they hold the same entries.
def sameEntries {γ : Type} [DecidableEq γ] (first second : Table String γ) : Bool :=
  (first.entries.all fun (key, value) => decide (second.find key = some value)) &&
    second.entries.all fun (key, value) => decide (first.find key = some value)

def sameSnapshot : Bool :=
  sameEntries before.state.executions after.state.executions &&
    sameEntries before.state.comms after.state.comms &&
    sameEntries before.state.bokehSessions after.state.bokehSessions &&
    decide ({ before with state := { before.state with
      executions := after.state.executions
      comms := after.state.comms
      bokehSessions := after.state.bokehSessions } } = after)

def validateRuntimeStateSyncScope : Check RuntimeStateError :=
  match scope with
  | .RuntimePeer => validateRuntimePeerRuntimeDelta scope before after
  | .Viewer | .Editor | .Owner =>
    .require (sameSnapshot before after)
      (runtimeStatePolicyError scope "runtime state" "RuntimeStateDoc is runtime-peer only")

end Nteract.RuntimePolicy
