import Nteract.Kernel.Interrupts

namespace Nteract.Kernel

open RuntimeDoc Lib.Transition

-- The execution in the slot is the one of the last request, which the connection took.
def InFlight (runtime : Runtime) : Prop :=
  ∀ executionId, runtime.state.executing = some executionId →
    runtime.requests.getLast? = some (executionId, true) ∧
      runtime.state.interruptPending = none

def Healthy (connection : Connection) : Prop := ∀ executionId, connection executionId = .ok ()

def SendsHealthy (_ : Runtime) : KernelEvent → Prop
  | .QueueCell _ _ _ connection | .ProcessNext connection | .ExecutionDone _ connection
  | .KernelIdle _ connection => Healthy connection
  | _ => True

def Frees (executionId : ExecutionId) : KernelEvent → Prop
  | .ExecutionDone finished _ => finished = executionId
  | .Interrupt | .KernelDied | .Shutdown | .Reset => True
  | _ => False

variable {runtime : Runtime} {connection : Connection}

theorem inFlight_of_free (he : runtime.state.executing = none) : InFlight runtime := by
  intro executionId hx
  rw [he] at hx
  cases hx

theorem processNext_inFlight (hc : Healthy connection) (hi : InFlight runtime) :
    InFlight (runtime.processNext connection).2 := by
  rcases runtime.processNext_cases connection with ⟨hn, -⟩ | ⟨_, _, -, -, hp, hn⟩
  · rwa [hn]
  · rw [hn, hc]
    rintro _ ⟨⟩
    exact ⟨List.getLast?_concat .., hp⟩

theorem kernelStep_inFlight (hi : InFlight runtime) (hc : SendsHealthy runtime event) :
    InFlight (perform runtime event) := by
  cases event with
  | QueueCell =>
    simp only [perform, Runtime.queueCell]
    split
    · exact hi
    · split
      · exact hi
      · exact processNext_inFlight hc hi
  | ProcessNext => exact processNext_inFlight hc hi
  | ExecutionDone =>
    simp only [perform, Runtime.executionDone]
    split
    · exact processNext_inFlight hc (inFlight_of_free rfl)
    · exact hi
  | KernelIdle =>
    simp only [perform, Runtime.kernelIdle]
    split
    · exact processNext_inFlight hc fun executionId hx => ⟨(hi executionId hx).1, rfl⟩
    · exact hi
  | MarkExecutionError =>
    simp only [perform, KernelState.markExecutionError]
    split <;> exact hi
  | KernelDied =>
    simp only [perform, KernelState.kernelDied]
    split
    · exact hi
    · exact inFlight_of_free rfl
  | SetIdle => exact fun executionId hx => ⟨(hi executionId hx).1, rfl⟩
  | ClearQueue => exact hi
  | Interrupt | Shutdown | Reset => exact inFlight_of_free rfl

theorem processNext_sends (hc : Healthy connection) (he : runtime.state.executing = none)
    (hp : runtime.state.interruptPending = none) (hq : runtime.state.queue = cell :: queue) :
    runtime.processNext connection = (.ok (), runtime.start cell queue (.ok ())) := by
  simp [Runtime.processNext, he, hp, hq, hc cell.executionId]

-- While the connection takes requests, the slot never holds an execution without one in flight, and
-- a free slot takes the first waiting cell.
theorem waiting_execution_sent
    (hr : Run (Guarded KernelStep SendsHealthy) (.new doc) events runtime)
    (hc : Healthy connection) (hq : runtime.state.queue = cell :: queue) :
    InFlight runtime ∧
      (runtime.state.executing = none → runtime.state.interruptPending = none →
        (runtime.processNext connection).2.requests =
          runtime.requests ++ [(cell.executionId, true)]) ∧
      ∀ executionId, runtime.state.executing = some executionId →
        (runtime.executionDone executionId connection).2.requests =
          runtime.requests ++ [(cell.executionId, true)] := by
  have hi : InFlight runtime := by
    refine hr.invariant InFlight ?_ (inFlight_of_free rfl)
    rintro _ _ _ hi ⟨hs, rfl⟩
    exact kernelStep_inFlight hi hs
  refine ⟨hi, fun he hp => ?_, fun executionId he => ?_⟩
  · rw [processNext_sends hc he hp hq]
    rfl
  · have hp : (runtime.finish executionId).state.interruptPending = none := (hi executionId he).2
    rw [Runtime.executionDone, if_pos he, processNext_sends hc rfl hp hq]
    rfl

def failing : Connection := fun _ => .error "connection reset"

def SENT_AND_WAITING : List KernelEvent :=
  [.QueueCell "first" none "1" accepting, .QueueCell "second" none "2" accepting]

theorem second_sent_after_first : ∃ runtime : Runtime,
    Run (Guarded KernelStep SendsHealthy) (.new .new) SENT_AND_WAITING runtime ∧
    runtime.state.executing = some "first" ∧
    (runtime.executionDone "first" accepting).2.requests =
      runtime.requests ++ [("second", true)] := by
  have hr : Run (Guarded KernelStep SendsHealthy) (.new .new) SENT_AND_WAITING _ :=
    .cons ⟨fun _ => rfl, rfl⟩ (.cons ⟨fun _ => rfl, rfl⟩ (.nil _))
  exact ⟨_, hr, by decide, (@waiting_execution_sent _ accepting _ _
    ⟨"second", none, "2"⟩ [] hr (fun _ => rfl) (by decide)).2.2 "first" (by decide)⟩

theorem kernelStep_occupied (he : runtime.state.executing = some executionId)
    (hf : ¬ Frees executionId event) :
    (perform runtime event).state.executing = some executionId ∧
      (perform runtime event).requests = runtime.requests := by
  have hn : ∀ connection (occupied : Runtime), occupied.state.executing = some executionId →
      occupied.processNext connection = (.ok (), occupied) := by
    intro connection occupied ho
    simp [Runtime.processNext, ho]
  cases event with
  | QueueCell queued cellId source =>
    simp only [perform, Runtime.queueCell]
    split
    · exact ⟨he, rfl⟩
    · split
      · exact ⟨he, rfl⟩
      · rw [hn _ (runtime.enqueue queued cellId source) he]
        exact ⟨he, rfl⟩
  | ProcessNext =>
    rw [perform, hn _ runtime he]
    exact ⟨he, rfl⟩
  | ExecutionDone finished =>
    have hne : runtime.state.executing ≠ some finished := by
      rintro hx
      exact hf (Option.some.inj (hx.symm.trans he))
    simp only [perform, Runtime.executionDone, if_neg hne]
    exact ⟨he, trivial⟩
  | KernelIdle =>
    simp only [perform, Runtime.kernelIdle]
    split
    · rw [hn _ runtime.openGate he]
      exact ⟨he, rfl⟩
    · exact ⟨he, rfl⟩
  | MarkExecutionError =>
    simp only [perform, KernelState.markExecutionError]
    split <;> exact ⟨he, trivial⟩
  | ClearQueue | SetIdle => exact ⟨he, rfl⟩
  | _ => exact absurd trivial hf

-- The send of "first" fails, and nothing is sent until the slot is emptied.
theorem failed_send_wedges : ∃ runtime : Runtime, runtime.state.waiting = ["first", "second"] ∧
    (runtime.processNext failing).2.state.waiting = ["second"] ∧
    (runtime.processNext failing).2.state.executing = some "first" ∧
    (runtime.processNext failing).2.requests = [("first", false)] ∧
    ∀ events last, Run (Guarded KernelStep fun _ event => ¬ Frees "first" event)
      (runtime.processNext failing).2 events last →
      last.state.executing = some "first" ∧ last.requests = [("first", false)] := by
  let runtime : Runtime := ((Runtime.new .new).enqueue "first" none "1").enqueue "second" none "2"
  refine ⟨runtime, rfl, rfl, rfl, rfl, fun events last hr => ?_⟩
  refine hr.invariant (fun runtime => runtime.state.executing = some "first" ∧
    runtime.requests = [("first", false)]) ?_ ⟨rfl, rfl⟩
  rintro _ _ _ ⟨he, hq⟩ ⟨hf, rfl⟩
  obtain ⟨hslot, hs⟩ := kernelStep_occupied he hf
  exact ⟨hslot, hs.trans hq⟩

end Nteract.Kernel
