import Nteract.Kernel.State

namespace Nteract.Agent

open RuntimeDoc Kernel

inductive KernelLaunchFailureKind
  | RetryableStartupTransport
  | PortBind
  | ProcessExited
  | StartupTimeout
  | ToolBootstrap
  | Misconfiguration
  | Unsupported
  | Other
deriving DecidableEq

def usesFreshPortRetry : KernelLaunchFailureKind → Bool
  | .PortBind => true
  | .RetryableStartupTransport => true
  | _ => false

def usesCapturedEnvRebuild : KernelLaunchFailureKind → Bool
  | .ProcessExited => true
  | .StartupTimeout => true
  | .ToolBootstrap => true
  | _ => false

def coordinatorMayRetry (kind : KernelLaunchFailureKind) : Bool :=
  usesFreshPortRetry kind || usesCapturedEnvRebuild kind

structure LaunchedKernel where
  envSource : String
  interruptHandle : Bool
deriving DecidableEq

inductive LaunchOutcome
  | Launched (kernel : LaunchedKernel)
  | Failed (kind : KernelLaunchFailureKind) (error : String)
deriving DecidableEq

-- The slots of the agent's loop, with the ids already handed to the queue.
structure Session where
  kernel : Option LaunchedKernel
  runtime : Runtime
  seenExecutionIds : List ExecutionId
  interruptHandle : Bool
deriving DecidableEq

inductive RuntimeAgentResponse
  | KernelLaunched (envSource : String)
  | KernelRestarted (envSource : String)
  | KernelLaunchFailed (kind : KernelLaunchFailureKind) (error : String)
  | InterruptAcknowledged (cleared : List QueueEntry)
  | Error (error : String)
  | Ok
deriving DecidableEq

-- `Query` stands for the requests that do not reach the queue machine.
inductive RuntimeAgentRequest
  | LaunchKernel (outcome : LaunchOutcome) (connection : Connection)
  | RestartKernel (outcome : LaunchOutcome)
  | InterruptExecution (answer : Except String Unit)
  | ShutdownKernel
  | Query (response : RuntimeAgentResponse)

inductive LifecycleSignal
  | ExecutionDone (executionId : ExecutionId) (connection : Connection)
  | KernelIdle (executionId : Option ExecutionId) (connection : Connection)
  | CellError (executionId : ExecutionId)
  | KernelDied

-- The running execution failed, the queued ones never ran.
def resolveLocal (executing : Option ExecutionId) (queued : List ExecutionId)
    (doc : RuntimeStateDoc) : RuntimeStateDoc :=
  queued.foldl (fun doc executionId => doc.setExecutionCancelled executionId)
    (match executing with
      | some executionId => doc.setExecutionDone executionId false
      | none => doc)

-- The local ids, then whatever is still queued or running, then the queue.
def resolveInterruptedExecutions (executing : Option ExecutionId) (queued : List ExecutionId)
    (doc : RuntimeStateDoc) : RuntimeStateDoc :=
  ((resolveLocal executing queued doc).abortInflightExecutions).setQueue none []

namespace Session

def new (doc : RuntimeStateDoc) : Session := ⟨none, .new doc, [], false⟩

variable (session : Session)

def state : KernelState := session.runtime.state

def doc : RuntimeStateDoc := session.runtime.doc

def setState (state : KernelState) (session : Session) : Session :=
  { session with runtime := { session.runtime with state := state } }

def setDoc (doc : RuntimeStateDoc) (session : Session) : Session :=
  { session with runtime := { session.runtime with doc := doc } }

-- An entry counts as handed over only when the call succeeded.
def submit (connection : Connection) (session : Session)
    (queued : ExecutionId × ExecutionState) : Session :=
  if queued.1 ∈ session.seenExecutionIds then
    session
  else
    match queued.2.source with
    | none => session
    | some source =>
      let (result, runtime) :=
        session.runtime.queueCell queued.1 queued.2.cellId source connection
      match result with
      | .ok _ =>
        { session with
          runtime := runtime
          seenExecutionIds := queued.1 :: session.seenExecutionIds }
      | .error _ => { session with runtime := runtime }

def queueSyncedExecutions (queued : List (ExecutionId × ExecutionState)) (connection : Connection)
    (session : Session) : Session :=
  match session.kernel with
  | none => session
  | some _ => queued.foldl (submit connection) session

def adopt (kernel : LaunchedKernel) (session : Session) : Session :=
  ({ session with kernel := some kernel }).setState session.state.reset.setIdle

-- The kernel slot and the queue machine are left as they are.
def recordKernelLaunchFailedState : Session :=
  session.setDoc session.doc.abortInflightExecutions

def recordFailure (kind : KernelLaunchFailureKind) (session : Session) : Session :=
  if coordinatorMayRetry kind then session else session.recordKernelLaunchFailedState

def launchKernel (outcome : LaunchOutcome) (connection : Connection) (session : Session) :
    RuntimeAgentResponse × Session :=
  match outcome with
  | .Launched kernel =>
    let session := { session.adopt kernel with seenExecutionIds := [] }
    (.KernelLaunched kernel.envSource,
      session.queueSyncedExecutions session.doc.getQueuedExecutions connection)
  | .Failed kind error =>
    (.KernelLaunchFailed kind ("Failed to launch kernel: " ++ error), session.recordFailure kind)

-- The queue machine is reset only if the launch that follows succeeds.
def tearDown : Session :=
  { session with kernel := none, seenExecutionIds := [] }.setDoc
    (resolveInterruptedExecutions session.state.executing session.state.waiting session.doc)

def restartKernel (outcome : LaunchOutcome) (session : Session) :
    RuntimeAgentResponse × Session :=
  match outcome with
  | .Launched kernel => (.KernelRestarted kernel.envSource, session.tearDown.adopt kernel)
  | .Failed kind error =>
    (.KernelLaunchFailed kind ("Failed to restart kernel: " ++ error),
      session.tearDown.recordFailure kind)

def interrupted : List QueueEntry × Session :=
  let ((executing, cleared), state) := session.state.interrupt
  (cleared, (session.setState state).setDoc
    (resolveInterruptedExecutions (executing.map QueueEntry.executionId) (cleared.map QueueEntry.executionId)
      session.doc))

def interruptExecution (answer : Except String Unit) (session : Session) :
    RuntimeAgentResponse × Session :=
  match session.kernel with
  | none => (.Error "No kernel running", session)
  | some _ =>
    match answer with
    | .ok () => (.InterruptAcknowledged session.interrupted.1, session.interrupted.2)
    | .error error => (.Error ("Failed to interrupt: " ++ error), session)

def shutdownKernel : Session :=
  let ((executing, cleared), state) := session.state.shutdown
  (({ session with kernel := none, seenExecutionIds := [] }).setState state).setDoc
    (resolveInterruptedExecutions executing (cleared.map QueueEntry.executionId) session.doc)

def handleRuntimeAgentRequest : RuntimeAgentRequest → RuntimeAgentResponse × Session
  | .LaunchKernel outcome connection => session.launchKernel outcome connection
  | .RestartKernel outcome => session.restartKernel outcome
  | .InterruptExecution answer => session.interruptExecution answer
  | .ShutdownKernel => (.Ok, session.shutdownKernel)
  | .Query response => (response, session)

-- Every handled request derives the interrupt handle from the kernel slot anew.
def installKernelChannels : Session :=
  { session with interruptHandle := session.kernel.any (·.interruptHandle) }

-- An interrupt goes through the stored handle, whatever became of the kernel since.
def receiveRequest (request : RuntimeAgentRequest) (session : Session) : Session :=
  match request, session.interruptHandle with
  | .InterruptExecution _, true => session.interrupted.2
  | request, _ => (session.handleRuntimeAgentRequest request).2.installKernelChannels

def runQueue (call : Runtime → Runtime) (session : Session) : Session :=
  match session.kernel with
  | none => session
  | some _ => { session with runtime := call session.runtime }

-- The empty queue is written although the cell still holds the executing slot.
def cellError (executionId : ExecutionId) (session : Session) : Session :=
  let (current, state) := session.state.markExecutionError executionId
  if current then
    let (cleared, state) := state.clearQueue
    (session.setState state).setDoc
      ((resolveLocal none (cleared.map QueueEntry.executionId) session.doc).setQueue none [])
  else
    session

def kernelDied : Session :=
  if session.state.status = .ShuttingDown then
    session
  else
    let ((executing, cleared), state) := session.state.kernelDied
    (({ session with kernel := none }).setState state).setDoc
      ((resolveLocal executing (cleared.map QueueEntry.executionId)
        session.doc.abortInflightExecutions).setQueue none [])

def handleLifecycleSignal : LifecycleSignal → Session
  | .ExecutionDone executionId connection =>
    session.runQueue fun runtime => (runtime.executionDone executionId connection).2
  | .KernelIdle executionId connection =>
    session.runQueue fun runtime => (runtime.kernelIdle executionId connection).2
  | .CellError executionId => session.cellError executionId
  | .KernelDied => session.kernelDied

-- A death ends the generation, also one that was expected.
def handleSessionLifecycleSignal (signal : LifecycleSignal) (session : Session) : Session :=
  match signal with
  | .KernelDied => { session.handleLifecycleSignal signal with seenExecutionIds := [] }
  | _ => session.handleLifecycleSignal signal

-- The queued executions of `merged`, the document after the frame, are read again.
def receiveSync (merged : RuntimeStateDoc) (connection : Connection) (session : Session) :
    Session :=
  (session.setDoc merged).queueSyncedExecutions merged.getQueuedExecutions connection

end Session

-- Frames that change nothing in the document are not events.
inductive AgentEvent
  | Request (request : RuntimeAgentRequest)
  | RuntimeStateSync (merged : RuntimeStateDoc) (connection : Connection)
  | Signal (signal : LifecycleSignal)

def handle (session : Session) : AgentEvent → Session
  | .Request request => session.receiveRequest request
  | .RuntimeStateSync merged connection => session.receiveSync merged connection
  | .Signal signal => session.handleSessionLifecycleSignal signal

def AgentStep (before : Session) (event : AgentEvent) (after : Session) : Prop :=
  after = handle before event

end Nteract.Agent
