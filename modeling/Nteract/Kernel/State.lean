import Nteract.RuntimeDoc

namespace Nteract.Kernel

open RuntimeDoc

inductive KernelStatus
  | Starting
  | Idle
  | Busy
  | Error
  | ShuttingDown
  | Dead
deriving DecidableEq

structure QueuedCell where
  executionId : ExecutionId
  cellId : Option String
  code : String
deriving DecidableEq

-- The protocol's queue entry. KernelState leaves the cell id empty.
structure QueueEntry where
  cellId : String
  executionId : ExecutionId
deriving DecidableEq

def queueEntry (executionId : ExecutionId) : QueueEntry := ⟨"", executionId⟩

structure KernelState where
  queue : List QueuedCell
  executing : Option ExecutionId
  executionHadError : Bool
  interruptPending : Option ExecutionId
  status : KernelStatus
deriving DecidableEq

-- What the kernel's connection answers to an execute request during one call.
abbrev Connection := ExecutionId → Except String Unit

-- A KernelState, its document and the requests, each with whether the connection took it.
structure Runtime where
  state : KernelState
  doc : RuntimeStateDoc
  requests : List (ExecutionId × Bool)
deriving DecidableEq

namespace KernelState

def new : KernelState := ⟨[], none, false, none, .Starting⟩

variable (state : KernelState)

def waiting : List ExecutionId := state.queue.map (·.executionId)

def queuedEntries : List QueueEntry := state.waiting.map queueEntry

def held : List ExecutionId := state.executing.toList ++ state.waiting

def reset (_ : KernelState) : KernelState := new

def setIdle : KernelState :=
  { state with interruptPending := none, status := .Idle }

def clearQueue : List QueueEntry × KernelState :=
  (state.queuedEntries, { state with queue := [] })

def shutdown : (Option ExecutionId × List QueueEntry) × KernelState :=
  ((state.executing, state.queuedEntries), ⟨[], none, false, none, .ShuttingDown⟩)

def markExecutionError (executionId : ExecutionId) (state : KernelState) : Bool × KernelState :=
  if state.executing = some executionId then
    (true, { state with executionHadError := true })
  else
    (false, state)

-- The gate is set to the execution this interrupt hit, also when it hit none.
def interrupt : (Option QueueEntry × List QueueEntry) × KernelState :=
  ((state.executing.map queueEntry, state.queuedEntries),
    { queue := []
      executing := none
      executionHadError := false
      interruptPending := state.executing
      status := if state.executing.isSome then .Busy else .Idle })

def kernelDied : (Option ExecutionId × List QueueEntry) × KernelState :=
  if state.status = .Dead || state.status = .ShuttingDown then
    ((none, []), state)
  else
    ((state.executing, state.queuedEntries),
      { state with queue := [], executing := none, status := .Dead })

end KernelState

namespace Runtime

def new (doc : RuntimeStateDoc) : Runtime := ⟨.new, doc, []⟩

-- The cell takes the executing slot, then its execute request goes out.
def start (cell : QueuedCell) (queue : List QueuedCell) (answer : Except String Unit)
    (runtime : Runtime) : Runtime :=
  let state := { runtime.state with
    queue := queue, executing := some cell.executionId, status := .Busy }
  { state := state
    doc := (runtime.doc.setExecutionRunning cell.executionId).setQueue
      state.executing state.waiting
    requests := runtime.requests ++ [(cell.executionId, answer.isOk)] }

variable (executionId : ExecutionId) (cellId : Option String) (source : String)
  (connection : Connection) (runtime : Runtime)

-- Already executing, behind the interrupt gate or nothing queued: no request.
def processNext : Except String Unit × Runtime :=
  if runtime.state.executing.isSome then
    (.ok (), runtime)
  else if runtime.state.interruptPending.isSome then
    (.ok (), runtime)
  else
    match runtime.state.queue with
    | [] => (.ok (), runtime)
    | cell :: queue =>
      let answer := connection cell.executionId
      (answer, runtime.start cell queue answer)

-- The id enters the queue and the document, then the queue is given a chance to move.
def enqueue : Runtime :=
  let state := { runtime.state with
    queue := runtime.state.queue ++ [⟨executionId, cellId, source⟩] }
  { runtime with
    state := state
    doc := (runtime.doc.createExecution executionId).setQueue state.executing state.waiting }

def queueCell : Except String ExecutionId × Runtime :=
  if runtime.state.executing = some executionId then
    (.ok executionId, runtime)
  else if executionId ∈ runtime.state.waiting then
    (.ok executionId, runtime)
  else
    let (result, runtime) := processNext connection (enqueue executionId cellId source runtime)
    (result.map fun _ => executionId, runtime)

def finish : Runtime :=
  let success := !runtime.state.executionHadError
  let state := { runtime.state with executing := none, executionHadError := false, status := .Idle }
  { runtime with
    state := state
    doc := (runtime.doc.setExecutionDone executionId success).setQueue none state.waiting }

def executionDone : Except String Unit × Runtime :=
  if runtime.state.executing = some executionId then
    processNext connection (finish executionId runtime)
  else
    (.ok (), runtime)

def openGate : Runtime :=
  { runtime with state := { runtime.state with interruptPending := none, status := .Idle } }

def kernelIdle (executionId : Option ExecutionId) (connection : Connection) (runtime : Runtime) :
    Except String Unit × Runtime :=
  if runtime.state.interruptPending.isSome && runtime.state.interruptPending = executionId then
    processNext connection (openGate runtime)
  else
    (.ok (), runtime)

theorem processNext_cases : (runtime.processNext connection = (.ok (), runtime) ∧
      (runtime.state.executing = none → runtime.state.interruptPending = none →
        runtime.state.queue = [])) ∨
    ∃ cell queue, runtime.state.queue = cell :: queue ∧ runtime.state.executing = none ∧
      runtime.state.interruptPending = none ∧
      runtime.processNext connection = (connection cell.executionId,
          runtime.start cell queue (connection cell.executionId)) := by
  unfold processNext
  by_cases he : runtime.state.executing.isSome
  · left
    rw [if_pos he]
    refine ⟨rfl, fun hn => ?_⟩
    simp [hn] at he
  · rw [if_neg he]
    by_cases hp : runtime.state.interruptPending.isSome
    · left
      rw [if_pos hp]
      refine ⟨rfl, fun _ hn => ?_⟩
      simp [hn] at hp
    · rw [if_neg hp]
      cases hq : runtime.state.queue with
      | nil => exact .inl ⟨rfl, fun _ _ => rfl⟩
      | cons cell queue =>
        right
        refine ⟨cell, queue, rfl, ?_, ?_, rfl⟩
        · simpa using he
        · simpa using hp

end Runtime

inductive KernelEvent
  | QueueCell (executionId : ExecutionId) (cellId : Option String) (source : String)
      (connection : Connection)
  | ProcessNext (connection : Connection)
  | ExecutionDone (executionId : ExecutionId) (connection : Connection)
  | MarkExecutionError (executionId : ExecutionId)
  | Interrupt
  | KernelIdle (executionId : Option ExecutionId) (connection : Connection)
  | ClearQueue
  | KernelDied
  | Shutdown
  | Reset
  | SetIdle

def perform (runtime : Runtime) : KernelEvent → Runtime
  | .QueueCell executionId cellId source connection =>
    (runtime.queueCell executionId cellId source connection).2
  | .ProcessNext connection => (runtime.processNext connection).2
  | .ExecutionDone executionId connection => (runtime.executionDone executionId connection).2
  | .MarkExecutionError executionId =>
    { runtime with state := (runtime.state.markExecutionError executionId).2 }
  | .Interrupt => { runtime with state := runtime.state.interrupt.2 }
  | .KernelIdle executionId connection => (runtime.kernelIdle executionId connection).2
  | .ClearQueue => { runtime with state := runtime.state.clearQueue.2 }
  | .KernelDied => { runtime with state := runtime.state.kernelDied.2 }
  | .Shutdown => { runtime with state := runtime.state.shutdown.2 }
  | .Reset => { runtime with state := runtime.state.reset }
  | .SetIdle => { runtime with state := runtime.state.setIdle }

end Nteract.Kernel
