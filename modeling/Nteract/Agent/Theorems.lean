import Nteract.Agent
import Nteract.Lib.Transition

namespace Nteract.Agent

open RuntimeDoc Kernel Lib.Transition

-- What holds whatever the document says.
structure Ready (session : Session) : Prop where
  drained : session.state.executing = none → session.state.interruptPending = none →
    session.state.queue = []
  seen : session.kernel.isSome → ∀ executionId ∈ session.state.waiting,
    executionId ∈ session.seenExecutionIds
  stopped : session.state.status = .ShuttingDown ∨ session.state.status = .Dead →
    session.kernel = none
  distinct : session.state.held.Nodup

variable {session : Session} {connection : Connection} {executionId : ExecutionId}

@[simp] theorem state_setState (state : KernelState) (session : Session) :
    (session.setState state).state = state := rfl

@[simp] theorem state_setDoc (doc : RuntimeStateDoc) (session : Session) :
    (session.setDoc doc).state = session.state := rfl

def queuedBehind (queued : ExecutionId × ExecutionState) (source : String) (session : Session) :
    Session :=
  { session with
    runtime := session.runtime.enqueue queued.1 queued.2.cellId source
    seenExecutionIds := queued.1 :: session.seenExecutionIds }

def sentAtOnce (queued : ExecutionId × ExecutionState) (source : String) (connection : Connection)
    (session : Session) : Session :=
  { session with
    runtime := (session.runtime.enqueue queued.1 queued.2.cellId source).start
      ⟨queued.1, queued.2.cellId, source⟩ [] (connection queued.1)
    seenExecutionIds :=
      if (connection queued.1).isOk then queued.1 :: session.seenExecutionIds
      else session.seenExecutionIds }

inductive Submitted (connection : Connection) (session : Session)
    (queued : ExecutionId × ExecutionState) : Session → Prop
  | Skipped : Submitted connection session queued session
  | Held (hs : queued.1 ∉ session.seenExecutionIds) (hh : queued.1 ∈ session.state.held) :
      Submitted connection session queued
        { session with seenExecutionIds := queued.1 :: session.seenExecutionIds }
  | Behind (source : String) (hs : queued.1 ∉ session.seenExecutionIds)
      (hh : queued.1 ∉ session.state.held)
      (hb : session.state.executing.isSome ∨ session.state.interruptPending.isSome) :
      Submitted connection session queued (queuedBehind queued source session)
  | Sent (source : String) (hs : queued.1 ∉ session.seenExecutionIds)
      (hh : queued.1 ∉ session.state.held) (he : session.state.executing = none)
      (hp : session.state.interruptPending = none) (hq : session.state.queue = []) :
      Submitted connection session queued (sentAtOnce queued source connection session)

theorem queueCell_held {runtime : Runtime} (hh : executionId ∈ runtime.state.held) :
    runtime.queueCell executionId cellId source connection = (.ok executionId, runtime) := by
  unfold Runtime.queueCell
  by_cases he : runtime.state.executing = some executionId
  · rw [if_pos he]
  · have hw : executionId ∈ runtime.state.waiting := by
      simpa [KernelState.held, he] using hh
    rw [if_neg he, if_pos hw]

theorem queueCell_fresh {runtime : Runtime} (hh : executionId ∉ runtime.state.held) :
    runtime.queueCell executionId cellId source connection =
      (((runtime.enqueue executionId cellId source).processNext connection).1.map
          fun _ => executionId,
        ((runtime.enqueue executionId cellId source).processNext connection).2) := by
  have he : runtime.state.executing ≠ some executionId := by
    intro he
    simp [KernelState.held, he] at hh
  have hw : executionId ∉ runtime.state.waiting := by
    intro hw
    simp [KernelState.held, hw] at hh
  unfold Runtime.queueCell
  rw [if_neg he, if_neg hw]

theorem submit_cases (hr : Ready session) (queued : ExecutionId × ExecutionState) :
    Submitted connection session queued (session.submit connection queued) := by
  unfold Session.submit
  by_cases hs : queued.1 ∈ session.seenExecutionIds
  · rw [if_pos hs]
    exact .Skipped
  · rw [if_neg hs]
    cases hsource : queued.2.source with
    | none => exact .Skipped
    | some source =>
      by_cases hh : queued.1 ∈ session.state.held
      · simp only [queueCell_held hh]
        exact .Held hs hh
      · simp only [queueCell_fresh hh]
        rcases Runtime.processNext_cases connection
            (session.runtime.enqueue queued.1 queued.2.cellId source) with
          ⟨hn, hf⟩ | ⟨cell, queue, hq, he, hp, hn⟩
        · rw [hn]
          refine .Behind source hs hh ?_
          by_contra hclosed
          simp only [not_or, Option.not_isSome_iff_eq_none] at hclosed
          have hq := hf hclosed.1 hclosed.2
          simp [Runtime.enqueue] at hq
        · -- the slot was free, so nothing waited before
          have hempty : session.runtime.state.queue = [] := hr.drained he hp
          have hcell : cell = ⟨queued.1, queued.2.cellId, source⟩ ∧ queue = [] := by
            simp only [Runtime.enqueue, hempty, List.nil_append, List.cons.injEq] at hq
            exact ⟨hq.1.symm, hq.2.symm⟩
          obtain ⟨rfl, rfl⟩ := hcell
          rw [hn]
          have hsent : Submitted connection session queued _ :=
            .Sent source hs hh he hp hempty
          unfold sentAtOnce at hsent
          cases hc : connection queued.1 with
          | ok | error => simpa [hc, Except.map, Except.isOk, Except.toBool] using hsent

-- Free the slot or open the gate, and then start the first waiting cell.
inductive Progressed (connection : Connection) (runtime : Runtime) : Runtime → Prop
  | Same : Progressed connection runtime runtime
  | Finished (executionId : ExecutionId) (he : runtime.state.executing = some executionId)
      (hn : runtime.state.interruptPending = none → runtime.state.queue = []) :
      Progressed connection runtime (runtime.finish executionId)
  | FinishedNext (executionId : ExecutionId) (cell : QueuedCell) (queue : List QueuedCell)
      (he : runtime.state.executing = some executionId)
      (hq : runtime.state.queue = cell :: queue) :
      Progressed connection runtime
        ((runtime.finish executionId).start cell queue (connection cell.executionId))
  | Opened (hn : runtime.state.executing = none → runtime.state.queue = []) :
      Progressed connection runtime runtime.openGate
  | OpenedNext (cell : QueuedCell) (queue : List QueuedCell)
      (he : runtime.state.executing = none) (hq : runtime.state.queue = cell :: queue) :
      Progressed connection runtime
        (runtime.openGate.start cell queue (connection cell.executionId))

theorem executionDone_progressed (runtime : Runtime) :
    Progressed connection runtime (runtime.executionDone executionId connection).2 := by
  unfold Runtime.executionDone
  by_cases he : runtime.state.executing = some executionId
  · rw [if_pos he]
    rcases Runtime.processNext_cases connection (runtime.finish executionId) with
      ⟨hn, hf⟩ | ⟨cell, queue, hq, -, -, hn⟩
    · rw [hn]
      exact .Finished executionId he (hf rfl)
    · rw [hn]
      exact .FinishedNext executionId cell queue he hq
  · rw [if_neg he]
    exact .Same

theorem kernelIdle_progressed (idle : Option ExecutionId) (runtime : Runtime) :
    Progressed connection runtime (runtime.kernelIdle idle connection).2 := by
  unfold Runtime.kernelIdle
  split
  · rcases Runtime.processNext_cases connection runtime.openGate with
      ⟨hn, hf⟩ | ⟨cell, queue, hq, he, -, hn⟩
    · rw [hn]
      exact .Opened fun he => hf he rfl
    · rw [hn]
      exact .OpenedNext cell queue he hq
  · exact .Same

-- What one event of the loop does, up to the stored interrupt handle.
inductive Handled (session : Session) : AgentEvent → Session → Prop
  | Kept (event : AgentEvent) : Handled session event session
  | Launched (kernel : LaunchedKernel) (connection : Connection) :
      Handled session (.Request (.LaunchKernel (.Launched kernel) connection))
        (session.launchKernel (.Launched kernel) connection).2
  | LaunchFailed (kind : KernelLaunchFailureKind) (error : String) (connection : Connection)
      (hk : coordinatorMayRetry kind = false) :
      Handled session (.Request (.LaunchKernel (.Failed kind error) connection))
        session.recordKernelLaunchFailedState
  | Restarted (kernel : LaunchedKernel) :
      Handled session (.Request (.RestartKernel (.Launched kernel))) (session.tearDown.adopt kernel)
  | RestartFailed (kind : KernelLaunchFailureKind) (error : String) :
      Handled session (.Request (.RestartKernel (.Failed kind error)))
        (session.tearDown.recordFailure kind)
  | Interrupted (answer : Except String Unit) :
      Handled session (.Request (.InterruptExecution answer)) session.interrupted.2
  | Shutdown : Handled session (.Request .ShutdownKernel) session.shutdownKernel
  | Synced (merged : RuntimeStateDoc) (connection : Connection) :
      Handled session (.RuntimeStateSync merged connection)
        (session.receiveSync merged connection)
  | Progress (signal : LifecycleSignal) (connection : Connection) (after : Runtime)
      (hk : session.kernel.isSome) (hp : Progressed connection session.runtime after) :
      Handled session (.Signal signal) { session with runtime := after }
  | Failed (executionId : ExecutionId) (he : session.state.executing = some executionId) :
      Handled session (.Signal (.CellError executionId))
        ((session.setState { session.state with executionHadError := true, queue := [] }).setDoc
          ((resolveLocal none session.state.waiting session.doc).setQueue none []))
  | Expected (hs : session.state.status = .ShuttingDown) :
      Handled session (.Signal .KernelDied) { session with seenExecutionIds := [] }
  | Died (hs : session.state.status ≠ .ShuttingDown) :
      Handled session (.Signal .KernelDied) { session.kernelDied with seenExecutionIds := [] }

@[simp] theorem waiting_of_queuedEntries (state : KernelState) :
    state.queuedEntries.map QueueEntry.executionId = state.waiting := by
  simp [KernelState.queuedEntries, queueEntry, Function.comp_def]

theorem handled_request (request : RuntimeAgentRequest) :
    Handled session (.Request request) (session.handleRuntimeAgentRequest request).2 := by
  cases request with
  | LaunchKernel outcome connection =>
    cases outcome with
    | Launched kernel => exact .Launched kernel connection
    | Failed kind error =>
      simp only [Session.handleRuntimeAgentRequest, Session.launchKernel, Session.recordFailure]
      cases hk : coordinatorMayRetry kind with
      | true => exact .Kept _
      | false => exact .LaunchFailed kind error connection hk
  | RestartKernel outcome =>
    cases outcome with
    | Launched kernel => exact .Restarted kernel
    | Failed kind error => exact .RestartFailed kind error
  | InterruptExecution answer =>
    simp only [Session.handleRuntimeAgentRequest, Session.interruptExecution]
    cases session.kernel with
    | none => exact .Kept _
    | some =>
      cases answer with
      | ok => exact .Interrupted _
      | error => exact .Kept _
  | ShutdownKernel => exact .Shutdown
  | Query => exact .Kept _

theorem handled_runQueue {call : Runtime → Runtime}
    (hp : ∀ runtime, Progressed connection runtime (call runtime)) :
    Handled session (.Signal signal) (session.runQueue call) := by
  unfold Session.runQueue
  split
  · exact .Kept _
  · rename_i hk
    exact .Progress signal connection _ (by simp [hk]) (hp session.runtime)

theorem handled_signal (signal : LifecycleSignal) :
    Handled session (.Signal signal) (session.handleSessionLifecycleSignal signal) := by
  cases signal with
  | ExecutionDone => exact handled_runQueue executionDone_progressed
  | KernelIdle idle => exact handled_runQueue (kernelIdle_progressed idle)
  | CellError executionId =>
    simp only [Session.handleSessionLifecycleSignal, Session.handleLifecycleSignal,
      Session.cellError, KernelState.markExecutionError]
    by_cases he : session.state.executing = some executionId
    · simp only [if_pos he]
      have hf := Handled.Failed executionId he
      rw [← waiting_of_queuedEntries] at hf
      exact hf
    · simp only [if_neg he]
      exact .Kept _
  | KernelDied =>
    simp only [Session.handleSessionLifecycleSignal, Session.handleLifecycleSignal]
    by_cases hs : session.state.status = .ShuttingDown
    · have heq : session.kernelDied = session := if_pos hs
      rw [heq]
      exact .Expected hs
    · exact .Died hs

theorem handle_rule (property : Session → Prop)
    (hi : ∀ after, property after → property after.installKernelChannels)
    (hh : ∀ after, Handled session event after → property after) :
    property (handle session event) := by
  cases event with
  | Request =>
    simp only [handle, Session.receiveRequest]
    split
    · exact hh _ (.Interrupted _)
    · exact hi _ (hh _ (handled_request _))
  | RuntimeStateSync merged connection => exact hh _ (.Synced merged connection)
  | Signal signal => exact hh _ (handled_signal signal)

section Preservation

theorem kernel_submitted (hs : Submitted connection session queued after) :
    after.kernel = session.kernel := by
  cases hs <;> rfl

theorem ready_new (doc : RuntimeStateDoc) : Ready (.new doc) where
  drained := fun _ _ => rfl
  seen := by simp [Session.new]
  stopped := fun _ => rfl
  distinct := List.nodup_nil

theorem ready_of_empty (hq : session.state.queue = [])
    (hs : session.state.status = .ShuttingDown ∨ session.state.status = .Dead →
      session.kernel = none) : Ready session where
  drained := fun _ _ => hq
  seen := by simp [KernelState.waiting, hq]
  stopped := hs
  distinct := by
    cases he : session.state.executing <;>
      simp [KernelState.held, KernelState.waiting, hq, he]

theorem ready_adopt (kernel : LaunchedKernel) : Ready (session.adopt kernel) := by
  refine ready_of_empty rfl ?_
  intro hs
  rcases hs with hs | hs <;> cases hs

theorem ready_interrupted : Ready session.interrupted.2 := by
  refine ready_of_empty rfl ?_
  have hs : session.interrupted.2.state.status =
      if session.state.executing.isSome then .Busy else .Idle := rfl
  rw [hs]
  split <;> simp

-- A state that was dead or shut down before stays as it is, any other one is emptied.
theorem state_kernelDied_cases (state : KernelState) : state.kernelDied.2 = state ∨
      state.kernelDied.2 = { state with queue := [], executing := none, status := .Dead } := by
  unfold KernelState.kernelDied
  split
  · exact .inl rfl
  · exact .inr rfl

theorem kernelDied_cases (hs : session.state.status ≠ .ShuttingDown) :
    session.kernelDied.kernel = none ∧
    session.kernelDied.runtime.requests = session.runtime.requests ∧
    (session.kernelDied.runtime.state = session.runtime.state ∨ session.kernelDied.runtime.state =
        { session.runtime.state with queue := [], executing := none, status := .Dead }) := by
  unfold Session.kernelDied
  rw [if_neg hs]
  exact ⟨rfl, rfl, state_kernelDied_cases session.runtime.state⟩

variable (hr : Ready session)
include hr

theorem Ready.withDoc (doc : RuntimeStateDoc) : Ready (session.setDoc doc) :=
  ⟨hr.drained, hr.seen, hr.stopped, hr.distinct⟩

theorem Ready.withoutKernel (seen : List ExecutionId) :
    Ready { session with kernel := none, seenExecutionIds := seen } :=
  ⟨hr.drained, by simp, fun _ => rfl, hr.distinct⟩

theorem Ready.installed : Ready session.installKernelChannels :=
  ⟨hr.drained, hr.seen, hr.stopped, hr.distinct⟩

theorem ready_submitted (hs : Submitted connection session queued after) : Ready after := by
  cases hs with
  | Skipped => exact hr
  | Held =>
    exact ⟨hr.drained, fun hk id hm => .tail _ (hr.seen hk id hm), hr.stopped, hr.distinct⟩
  | Behind source _ hh hb =>
    refine ⟨?_, ?_, hr.stopped, ?_⟩
    · intro he hp
      have he' : session.state.executing = none := he
      have hp' : session.state.interruptPending = none := hp
      simp [he', hp'] at hb
    · intro hk id hm
      have hm' : id ∈ session.state.waiting ∨ id = queued.1 := by
        simpa [queuedBehind, Runtime.enqueue, Session.state, KernelState.waiting] using hm
      rcases hm' with hm' | rfl
      · exact .tail _ (hr.seen hk id hm')
      · exact (.head _)
    · have hheld : (queuedBehind queued source session).state.held =
          session.state.held ++ [queued.1] := by
        simp [queuedBehind, Runtime.enqueue, Session.state, KernelState.held, KernelState.waiting]
      rw [hheld]
      exact List.nodup_append.mpr ⟨hr.distinct, List.nodup_singleton _,
        fun id hm other ho he => hh (List.mem_singleton.mp ho ▸ he ▸ hm)⟩
  | Sent =>
    refine ready_of_empty rfl ?_
    intro hs
    rcases hs with hs | hs <;> cases hs

theorem Ready.waiting_nodup : session.state.waiting.Nodup :=
  hr.distinct.sublist (List.sublist_append_right _ _)

theorem Ready.front {runtime : Runtime} (hq : session.state.queue = cell :: queue) :
    Ready { session with runtime := runtime.start cell queue answer } := by
  have hw : session.state.waiting = cell.executionId :: queue.map (·.executionId) := by
    simp [KernelState.waiting, hq]
  have hn := hr.waiting_nodup
  rw [hw] at hn
  refine ⟨nofun, fun hk other hm => hr.seen hk other ?_, ?_, hn⟩
  · rw [hw]
    exact .tail _ hm
  · intro hs
    rcases hs with hs | hs <;> cases hs

theorem ready_progressed (hp : Progressed connection session.runtime after) :
    Ready { session with runtime := after } := by
  cases hp with
  | Same => exact hr
  | Finished _ _ hn =>
    refine ⟨fun _ ho => hn ho, hr.seen, fun hs => ?_, hr.waiting_nodup⟩
    rcases hs with hs | hs <;> cases hs
  | FinishedNext _ _ _ _ hq => exact hr.front hq
  | Opened hn =>
    refine ⟨fun he _ => hn he, hr.seen, fun hs => ?_, hr.distinct⟩
    rcases hs with hs | hs <;> cases hs
  | OpenedNext _ _ _ hq => exact hr.front hq

-- A property carried through a scan of the document.
omit hr in
theorem foldl_submit (property : List (ExecutionId × ExecutionState) → Session → Prop)
    (hstep : ∀ session queued rest after, Ready session → session.kernel.isSome → property (queued
      :: rest) session → Submitted connection session queued after → property rest after)
    (hr : Ready session) (hk : session.kernel.isSome) (hp : property queued session) :
    property [] (queued.foldl (Session.submit connection) session) ∧
      Ready (queued.foldl (Session.submit connection) session) := by
  induction queued generalizing session with
  | nil => exact ⟨hp, hr⟩
  | cons first _ ih =>
    have hs := @submit_cases session connection hr first
    exact ih (ready_submitted hr hs) (kernel_submitted hs ▸ hk) (hstep _ _ _ _ hr hk hp hs)

theorem ready_scan : Ready (session.queueSyncedExecutions queued connection) := by
  unfold Session.queueSyncedExecutions
  cases hk : session.kernel with
  | none => exact hr
  | some =>
    exact (foldl_submit (fun _ _ => True) (fun _ _ _ _ _ _ _ _ => trivial) hr
      (by simp [hk]) trivial).2

theorem ready_kernelDied (hs : session.state.status ≠ .ShuttingDown) :
    Ready { session.kernelDied with seenExecutionIds := [] } := by
  obtain ⟨hk, -, hsame | he⟩ := kernelDied_cases hs
  · refine ⟨?_, by simp [hk], fun _ => hk, ?_⟩
    · simp only [Session.state, hsame]
      exact hr.drained
    · simp only [Session.state, hsame]
      exact hr.distinct
  · refine ready_of_empty ?_ fun _ => hk
    simp [Session.state, he]

theorem ready_handled (hh : Handled session event after) : Ready after := by
  cases hh with
  | Kept => exact hr
  | Launched kernel =>
    have ha : Ready (session.adopt kernel) := ready_adopt kernel
    have hf : Ready { session.adopt kernel with seenExecutionIds := [] } :=
      ready_of_empty rfl ha.stopped
    exact ready_scan hf
  | LaunchFailed => exact hr.withDoc _
  | Restarted kernel => exact ready_adopt kernel
  | RestartFailed =>
    have ht : Ready session.tearDown := (hr.withoutKernel []).withDoc _
    unfold Session.recordFailure
    split
    · exact ht
    · exact ht.withDoc _
  | Interrupted => exact ready_interrupted
  | Shutdown => exact ready_of_empty rfl fun _ => rfl
  | Synced merged => exact ready_scan (hr.withDoc merged)
  | Progress _ _ _ _ hp => exact ready_progressed hr hp
  | Failed => exact ready_of_empty rfl hr.stopped
  | Expected hs => exact ⟨hr.drained, by simp [hr.stopped (.inl hs)], hr.stopped, hr.distinct⟩
  | Died hs => exact ready_kernelDied hr hs

theorem ready_handle (event : AgentEvent) : Ready (handle session event) :=
  handle_rule Ready (fun _ hr => hr.installed) fun _ => ready_handled hr

end Preservation

theorem run_ready (hrun : Run AgentStep first events last) (hr : Ready first) : Ready last := by
  refine hrun.invariant Ready ?_ hr
  intro before event after hr hs
  rw [hs]
  exact ready_handle hr event

def queuedDocument (executionIds : List ExecutionId) : RuntimeStateDoc :=
  executionIds.foldl (fun doc executionId =>
    { doc with
      executions := doc.executions.add executionId ⟨.Queued, none, some "1", none, some 1⟩ })
    .new

def jupyter : LaunchedKernel := ⟨"uv:inline", true⟩

def takes : Connection := fun _ => .ok ()

def LAUNCH : AgentEvent := .Request (.LaunchKernel (.Launched jupyter) takes)

end Nteract.Agent
