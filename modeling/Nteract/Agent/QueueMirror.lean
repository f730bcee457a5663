import Nteract.Agent.Theorems

namespace Nteract.Agent

open RuntimeDoc Kernel Lib.Transition RuntimeStateDoc

def Mirrors (session : Session) : Prop :=
  session.doc.queue = ⟨session.state.executing, session.state.waiting⟩

-- The cell in the slot has reported an error and is not done yet.
structure Failing (session : Session) : Prop where
  hadError : session.state.executionHadError = true
  executing : session.state.executing.isSome
  waiting : session.state.waiting = []
  published : session.doc.queue = ⟨none, []⟩

-- Neither a failed restart nor a successful launch finds the queue machine with work.
def Unburdened (session : Session) : AgentEvent → Prop
  | .Request (.LaunchKernel (.Launched _) _) => session.state.held = []
  | .Request (.RestartKernel (.Failed _ _)) => session.state.held = []
  | .RuntimeStateSync merged _ => merged.queue = session.doc.queue
  | _ => True

structure Published (session : Session) : Prop where
  queue : Mirrors session ∨ Failing session
  dead : session.state.status = .Dead → session.state.held = []

variable {session : Session}

theorem held_eq_nil {state : KernelState} :
    state.held = [] ↔ state.executing = none ∧ state.waiting = [] := by
  simp [KernelState.held]

theorem Published.queue_of_held (hp : Published session) (hh : session.state.held = []) :
    session.doc.queue = ⟨none, []⟩ := by
  obtain ⟨he, hw⟩ := held_eq_nil.mp hh
  rcases hp.queue with hm | hf
  · rw [Mirrors, he, hw] at hm
    exact hm
  · exact hf.published

theorem Published.same (hp : Published session) (hq : after.doc.queue = session.doc.queue)
    (hs : after.state = session.state) : Published after := by
  refine ⟨hp.queue.imp (fun hm => ?_) fun hf => ?_, hs ▸ hp.dead⟩
  · rw [Mirrors, hq, hs]
    exact hm
  · exact ⟨hs ▸ hf.hadError, hs ▸ hf.executing, hs ▸ hf.waiting, hq.trans hf.published⟩

theorem published_of_empty (hq : session.doc.queue = ⟨none, []⟩)
    (hh : session.state.held = []) : Published session := by
  obtain ⟨he, hw⟩ := held_eq_nil.mp hh
  refine ⟨.inl ?_, fun _ => hh⟩
  rw [Mirrors, he, hw, hq]

theorem published_of_write (hm : Mirrors session) (hs : session.state.status ≠ .Dead) :
    Published session :=
  ⟨.inl hm, fun hd => absurd hd hs⟩

theorem queue_resolveInterruptedExecutions (executing : Option ExecutionId)
    (queued : List ExecutionId) (doc : RuntimeStateDoc) :
    (resolveInterruptedExecutions executing queued doc).queue = ⟨none, []⟩ := by
  exact queue_setQueue _ _ _

theorem mirrors_start (cell : QueuedCell) (queue : List QueuedCell) (answer : Except String Unit)
    (runtime : Runtime) : Mirrors { session with runtime := runtime.start cell queue answer } :=
  queue_setQueue _ _ _

theorem published_submitted (hp : Published session) (hr : Ready session)
    (hk : session.kernel.isSome) (hs : Submitted connection session queued after) :
    Published after := by
  have ha : session.state.status ≠ .Dead := by
    intro hd
    rw [hr.stopped (.inr hd)] at hk
    cases hk
  cases hs with
  | Skipped => exact hp
  | Held => exact hp.same rfl rfl
  | Behind =>
    exact published_of_write (queue_setQueue _ _ _) ha
  | Sent =>
    exact published_of_write (queue_setQueue _ _ _) nofun

theorem published_progressed {after : Runtime} (hp : Published session)
    (hq : Progressed connection session.runtime after) :
    Published { session with runtime := after } := by
  cases hq with
  | Same => exact hp
  | Finished =>
    exact published_of_write (queue_setQueue _ _ _) nofun
  | Opened =>
    refine ⟨hp.queue.imp_right fun hf => ?_, nofun⟩
    exact ⟨hf.hadError, hf.executing, hf.waiting, hf.published⟩
  | _ => exact published_of_write (mirrors_start _ _ _ _) nofun

theorem published_scan (hp : Published session) (hr : Ready session) :
    Published (session.queueSyncedExecutions queued connection) := by
  unfold Session.queueSyncedExecutions
  cases hk : session.kernel with
  | none => exact hp
  | some =>
    exact (foldl_submit (fun _ session => Published session)
      (fun _ _ _ _ hr hk hp hs => published_submitted hp hr hk hs) hr (by simp [hk]) hp).1

theorem published_handled (hp : Published session) (hr : Ready session)
    (hu : Unburdened session event) (hh : Handled session event after) : Published after := by
  cases hh with
  | Kept => exact hp
  | Launched kernel =>
    have hempty : Published { session.adopt kernel with seenExecutionIds := [] } :=
      published_of_empty (hp.queue_of_held hu) rfl
    exact published_scan hempty (ready_of_empty rfl (@ready_adopt session kernel).stopped)
  | LaunchFailed => exact hp.same rfl rfl
  | Restarted =>
    exact published_of_empty (queue_resolveInterruptedExecutions _ _ _) rfl
  | RestartFailed =>
    unfold Session.recordFailure
    split <;> exact published_of_empty (queue_resolveInterruptedExecutions _ _ _) hu
  | Interrupted | Shutdown => exact published_of_empty (queue_resolveInterruptedExecutions _ _ _) rfl
  | Synced merged => exact published_scan (hp.same hu rfl) (hr.withDoc merged)
  | Progress _ _ _ _ hq => exact published_progressed hp hq
  | Failed _ he =>
    refine ⟨.inr ⟨rfl, ?_, rfl, queue_setQueue _ _ _⟩, ?_⟩
    · simp [he]
    · intro hd
      have hheld := held_eq_nil.mp (hp.dead hd)
      rw [he] at hheld
      cases hheld.1
  | Expected => exact hp.same rfl rfl
  | Died hs =>
    have hqueue : session.kernelDied.doc.queue = ⟨none, []⟩ := by
      unfold Session.kernelDied
      rw [if_neg hs]
      exact queue_setQueue _ _ _
    refine published_of_empty hqueue ?_
    by_cases hd : session.state.status = .Dead
    · obtain ⟨-, -, hsame | hempty⟩ := kernelDied_cases hs
      · simp only [Session.state, hsame]
        exact hp.dead hd
      · simp only [Session.state, hempty]
        rfl
    · have hstate : session.kernelDied.state =
          { session.state with queue := [], executing := none, status := .Dead } := by
        unfold Session.kernelDied KernelState.kernelDied
        simp only [hd, hs]
        rfl
      exact congrArg KernelState.held hstate

theorem published_handle (hp : Published session) (hr : Ready session)
    (hu : Unburdened session event) : Published (handle session event) :=
  handle_rule _ (fun _ hp => hp.same rfl rfl) fun _ => published_handled hp hr hu

theorem run_published (hrun : Run (Guarded AgentStep Unburdened) session events last)
    (hp : Published session) (hr : Ready session) : Published last := by
  induction hrun with
  | nil => exact hp
  | cons hs _ ih =>
    obtain ⟨hu, rfl⟩ := hs
    exact ih (published_handle hp hr hu) (ready_handle hr _)

-- The published queue is the queue machine's, unless the cell in the slot is failing.
theorem queue_mirrored {doc : RuntimeStateDoc} {events : List AgentEvent} {last : Session}
    (hq : doc.queue = ⟨none, []⟩)
    (hrun : Run (Guarded AgentStep Unburdened) (.new doc) events last)
    (he : ¬ (last.state.executing.isSome ∧ last.state.executionHadError = true)) :
    Mirrors last := by
  have hp := run_published hrun (published_of_empty hq rfl) (ready_new doc)
  rcases hp.queue with hm | hf
  · exact hm
  · exact absurd ⟨hf.executing, hf.hadError⟩ he

def FAILS : AgentEvent := .Signal (.CellError "a")

def FINISHES : AgentEvent := .Signal (.ExecutionDone "a" takes)

-- "a" fails and "b" behind it is cancelled. Once "a" is done the queues agree again.
theorem mirrored_after_failed_cell :
    Mirrors (handle (handle (handle (.new (queuedDocument ["a", "b"])) LAUNCH) FAILS)
      FINISHES) :=
  @queue_mirrored (queuedDocument ["a", "b"]) [LAUNCH, FAILS, FINISHES] _ rfl
    (.cons ⟨rfl, rfl⟩ (.cons ⟨trivial, rfl⟩ (.cons ⟨trivial, rfl⟩ (.nil _)))) (by decide)

def RESTART_FAILS : AgentEvent :=
  .Request (.RestartKernel (.Failed .StartupTimeout "timed out"))

-- The error of "a", a restart that fails and a second launch.
theorem queues_disagree :
    (handle (handle (.new (queuedDocument ["a"])) LAUNCH) FAILS).doc.queue = ⟨none, []⟩ ∧
    (handle (handle (.new (queuedDocument ["a"])) LAUNCH) FAILS).state.executing = some "a" ∧
    ¬ Mirrors (handle (handle (.new (queuedDocument ["a"])) LAUNCH) FAILS) ∧
    ¬ Mirrors (handle (handle (.new (queuedDocument ["a"])) LAUNCH) RESTART_FAILS) ∧
    ¬ Mirrors (handle (handle (.new (queuedDocument ["a"])) LAUNCH) LAUNCH) := by
  refine ⟨by decide, by decide, ?_, ?_, ?_⟩ <;> unfold Mirrors <;> decide

end Nteract.Agent
