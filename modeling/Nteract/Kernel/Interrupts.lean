import Nteract.Kernel.State
import Nteract.Lib.Transition

namespace Nteract.Kernel

open RuntimeDoc Lib.Transition

def KernelStep (before : Runtime) (event : KernelEvent) (after : Runtime) : Prop :=
  after = perform before event

-- What may open the gate an interrupt closed. kernel_died does not.
def Releases (executionId : ExecutionId) : KernelEvent → Prop
  | .KernelIdle idle _ => idle = some executionId
  | .Shutdown => True
  | .Reset => True
  | .SetIdle => True
  | _ => False

-- No interrupt arrives while the gate of an earlier one is closed.
def InterruptsOnlyWhenOpen (runtime : Runtime) : KernelEvent → Prop
  | .Interrupt => runtime.state.interruptPending = none
  | _ => True

-- The gate is closed for `executionId` and nothing runs.
def Gated (executionId : ExecutionId) (runtime : Runtime) : Prop :=
  runtime.state.interruptPending = some executionId ∧ runtime.state.executing = none

variable {executionId : ExecutionId}

theorem processNext_gated (hg : Gated executionId runtime) (connection : Connection) :
    runtime.processNext connection = (.ok (), runtime) := by
  unfold Runtime.processNext
  simp [hg.1]

theorem gated_interrupt (he : runtime.state.executing = some executionId) :
    Gated executionId (perform runtime .Interrupt) := by
  simp [Gated, perform, KernelState.interrupt, he]

theorem kernelStep_gated (hg : Gated executionId runtime)
    (ho : InterruptsOnlyWhenOpen runtime event) (hr : ¬ Releases executionId event) :
    Gated executionId (perform runtime event) ∧
      (perform runtime event).requests = runtime.requests := by
  cases event with
  | QueueCell queued cellId source =>
    simp only [perform, Runtime.queueCell]
    split
    · exact ⟨hg, rfl⟩
    · split
      · exact ⟨hg, rfl⟩
      · have hq : Gated executionId (runtime.enqueue queued cellId source) := hg
        rw [processNext_gated hq]
        exact ⟨hq, rfl⟩
  | ProcessNext =>
    simp only [perform, processNext_gated hg]
    exact ⟨hg, trivial⟩
  | ExecutionDone finished =>
    have hne : runtime.state.executing ≠ some finished := by simp [hg.2]
    simp only [perform, Runtime.executionDone, if_neg hne]
    exact ⟨hg, trivial⟩
  | MarkExecutionError failed =>
    have hne : runtime.state.executing ≠ some failed := by simp [hg.2]
    simp only [perform, KernelState.markExecutionError, if_neg hne]
    exact ⟨hg, trivial⟩
  | Interrupt =>
    have hopen : runtime.state.interruptPending = none := ho
    rw [hg.1] at hopen
    cases hopen
  | KernelIdle idle =>
    have hne : runtime.state.interruptPending ≠ idle := by
      intro he
      exact hr (he.symm.trans hg.1)
    simp only [perform, Runtime.kernelIdle, hne, decide_false, Bool.and_false,
      Bool.false_eq_true, if_false]
    exact ⟨hg, trivial⟩
  | ClearQueue => exact ⟨hg, rfl⟩
  | KernelDied =>
    simp only [perform, KernelState.kernelDied]
    split
    · exact ⟨hg, trivial⟩
    · exact ⟨⟨hg.1, rfl⟩, trivial⟩
  | _ => exact absurd trivial hr

theorem run_gated (hr : Run (Guarded KernelStep InterruptsOnlyWhenOpen) runtime events last)
    (hg : Gated executionId runtime) (hk : ∀ event ∈ events, ¬ Releases executionId event) :
    Gated executionId last ∧ last.requests = runtime.requests := by
  induction hr with
  | nil => exact ⟨hg, rfl⟩
  | cons hs _ ih =>
    obtain ⟨ho, rfl⟩ := hs
    rw [List.forall_mem_cons] at hk
    obtain ⟨hn, hsame⟩ := kernelStep_gated hg ho hk.1
    obtain ⟨hl, hsent⟩ := ih hn hk.2
    exact ⟨hl, hsent.trans hsame⟩

-- No execute request is sent until an event releases the gate.
theorem interrupt_gate_holds {hit last : Runtime} {events : List KernelEvent}
    (he : hit.state.executing = some executionId)
    (hr : Run (Guarded KernelStep InterruptsOnlyWhenOpen) (perform hit .Interrupt) events last)
    (hk : ∀ event ∈ events, ¬ Releases executionId event) : last.requests = hit.requests :=
  (run_gated hr (gated_interrupt he) hk).2

def accepting : Connection := fun _ => .ok ()

-- The room runs "first" when the interrupt arrives.
def INTERRUPTED : Runtime :=
  perform (.new .new) (.QueueCell "first" none "loop()" accepting)

-- The late signals of the interrupted execution do not send the next cell.
theorem queued_behind_gate_waits :
    (perform (perform (perform INTERRUPTED .Interrupt)
      (.QueueCell "second" none "1" accepting)) (.ExecutionDone "first" accepting)).requests =
        INTERRUPTED.requests :=
  @interrupt_gate_holds "first" INTERRUPTED _
    [.QueueCell "second" none "1" accepting, .ExecutionDone "first" accepting]
    (by decide)
    (.cons ⟨trivial, rfl⟩ (.cons ⟨trivial, rfl⟩ (.nil _)))
    (by simp [Releases])

-- The next cell is sent although the kernel never reported idle for "first".
theorem second_interrupt_opens_gate :
    INTERRUPTED.state.executing = some "first" ∧
    (∀ event ∈ [KernelEvent.Interrupt, .QueueCell "second" none "1" accepting],
      ¬ Releases "first" event) ∧
    Run KernelStep (perform INTERRUPTED .Interrupt)
      [.Interrupt, .QueueCell "second" none "1" accepting]
      (perform (perform (perform INTERRUPTED .Interrupt) .Interrupt)
        (.QueueCell "second" none "1" accepting)) ∧
    (perform (perform (perform INTERRUPTED .Interrupt) .Interrupt)
      (.QueueCell "second" none "1" accepting)).requests =
        INTERRUPTED.requests ++ [("second", true)] := by
  refine ⟨by decide, by simp [Releases], .cons rfl (.cons rfl (.nil _)), by decide⟩

end Nteract.Kernel
