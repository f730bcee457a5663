import Nteract.Kernel.State
import Nteract.Lib.Ledger

namespace Nteract.Kernel

open RuntimeDoc Lib List

-- Each acceptance has its own entry. `reports`: what the calls said of the ids they took away.
structure History where
  runtime : Runtime
  ledger : Ledger ExecutionId
  reports : List (ExecutionId × Place)

def History.new (doc : RuntimeStateDoc) : History := ⟨.new doc, .empty, []⟩

-- The one execution_done finishes, those the other calls return, all when the state is reset.
def leaving (runtime : Runtime) : KernelEvent → List ExecutionId
  | .ExecutionDone executionId _ =>
    if runtime.state.executing = some executionId then [executionId] else []
  | .Interrupt =>
    let (executing, cleared) := runtime.state.interrupt.1
    executing.toList.map (·.executionId) ++ cleared.map (·.executionId)
  | .ClearQueue => runtime.state.clearQueue.1.map (·.executionId)
  | .KernelDied =>
    let (interrupted, cleared) := runtime.state.kernelDied.1
    interrupted.toList ++ cleared.map (·.executionId)
  | .Shutdown =>
    let (interrupted, cleared) := runtime.state.shutdown.1
    interrupted.toList ++ cleared.map (·.executionId)
  | .Reset => runtime.state.held
  | _ => []

def leavesFor : KernelEvent → Place
  | .ExecutionDone _ _ => .Finished
  | .Reset => .Dropped
  | _ => .Returned

-- queue_cell answers an id it already holds without taking it again.
def accepted (runtime : Runtime) : KernelEvent → List ExecutionId
  | .QueueCell executionId _ _ _ =>
    if executionId ∈ runtime.state.held then [] else [executionId]
  | _ => []

def sent (before after : Runtime) : List ExecutionId :=
  (after.requests.drop before.requests.length).map Prod.fst

def advance (history : History) (event : KernelEvent) : History :=
  let after := perform history.runtime event
  let ids := leaving history.runtime event
  let left := history.ledger.close ids (leavesFor event)
  let grown := (accepted history.runtime event).foldl (fun ledger id => ledger.accept id) left
  { runtime := after
    ledger := (sent history.runtime after).foldl (fun ledger id => ledger.start id) grown
    reports := history.reports ++ ids.map fun id => (id, leavesFor event) }

def History.run (doc : RuntimeStateDoc) (events : List KernelEvent) : History :=
  events.foldl advance (.new doc)

-- The books hold what the state holds, every entry that left was reported once, and the requests
-- are the started entries.
def Conserved (history : History) : Prop :=
  history.ledger.Balanced history.reports history.runtime.state.waiting
    history.runtime.state.executing.toList (history.runtime.requests.map Prod.fst)

variable {runtime middle after : Runtime} {history : History} {event : KernelEvent}

-- A call first takes ids away or accepts one, ...
structure Moves (runtime : Runtime) (event : KernelEvent) (middle : Runtime) : Prop where
  waiting : middle.state.waiting =
    runtime.state.waiting.filter (· ∉ leaving runtime event) ++ accepted runtime event
  executing : middle.state.executing.toList =
    runtime.state.executing.toList.filter (· ∉ leaving runtime event)
  requests : middle.requests = runtime.requests

-- ... and then may start the first waiting cell.
def Starts (middle after : Runtime) : Prop :=
  ∃ cell queue answer, middle.state.queue = cell :: queue ∧ middle.state.executing = none ∧
    after = middle.start cell queue answer

theorem processNext_starts (connection : Connection) (runtime : Runtime) :
    (runtime.processNext connection).2 = runtime ∨
      Starts runtime (runtime.processNext connection).2 := by
  rcases runtime.processNext_cases connection with
    ⟨hn, -⟩ | ⟨cell, queue, hq, he, -, hn⟩
  · left
    rw [hn]
  · right
    exact ⟨cell, queue, connection cell.executionId, hq, he, by rw [hn]⟩

@[simp] theorem map_executionId_queuedEntries (state : KernelState) :
    state.queuedEntries.map (·.executionId) = state.waiting := by
  simp [KernelState.queuedEntries, queueEntry, Function.comp_def]

theorem mem_held_iff {state : KernelState} :
    executionId ∈ state.held ↔ state.executing = some executionId ∨ executionId ∈ state.waiting := by
  simp [KernelState.held]

theorem leaving_interrupt : leaving runtime .Interrupt = runtime.state.held := by
  delta leaving
  simp [KernelState.interrupt, KernelState.held, queueEntry, Option.toList_map, Function.comp_def]

theorem leaving_kernelDied : leaving runtime .KernelDied =
    if runtime.state.status = .Dead || runtime.state.status = .ShuttingDown then []
    else runtime.state.held := by
  delta leaving
  simp only [KernelState.kernelDied]
  split
  · rfl
  · simp [KernelState.held]

theorem leaving_shutdown : leaving runtime .Shutdown = runtime.state.held := by
  delta leaving
  simp [KernelState.shutdown, KernelState.held]

theorem leaving_clearQueue : leaving runtime .ClearQueue = runtime.state.waiting := by
  delta leaving
  simp [KernelState.clearQueue]

theorem leaving_sublist (runtime : Runtime) (event : KernelEvent) :
    (leaving runtime event).Sublist runtime.state.held := by
  cases event with
  | ExecutionDone =>
    delta leaving
    dsimp only
    split
    · rename_i he
      simp [KernelState.held, he]
    · exact nil_sublist _
  | Interrupt => rw [leaving_interrupt]
  | ClearQueue =>
    rw [leaving_clearQueue]
    exact sublist_append_right _ _
  | KernelDied =>
    rw [leaving_kernelDied]
    split
    · exact nil_sublist _
    · exact List.Sublist.refl _
  | Shutdown => rw [leaving_shutdown]
  | Reset => exact List.Sublist.refl _
  | QueueCell | ProcessNext | MarkExecutionError | KernelIdle | SetIdle => exact nil_sublist _

theorem moves_of_same (hl : leaving runtime event = []) (ha : accepted runtime event = [])
    (hw : middle.state.waiting = runtime.state.waiting)
    (he : middle.state.executing = runtime.state.executing)
    (hr : middle.requests = runtime.requests) : Moves runtime event middle where
  waiting := by simp [hl, ha, hw]
  executing := by simp [hl, he]
  requests := hr

theorem moves_of_empty (hl : leaving runtime event = runtime.state.held)
    (ha : accepted runtime event = []) (hw : middle.state.waiting = [])
    (he : middle.state.executing = none) (hr : middle.requests = runtime.requests) :
    Moves runtime event middle where
  waiting := by
    rw [hl, ha, hw, append_nil, eq_comm, filter_eq_nil_iff]
    intro id hm
    simp [KernelState.held, hm]
  executing := by
    rw [hl, he, Option.toList_none, eq_comm, filter_eq_nil_iff]
    intro id hm
    simp [KernelState.held, mem_append.mpr (.inl hm)]
  requests := hr

theorem moves_finish (hd : runtime.state.held.Nodup)
    (he : runtime.state.executing = some executionId) :
    Moves runtime (.ExecutionDone executionId connection) (runtime.finish executionId) := by
  have ho : executionId ∉ runtime.state.waiting := by
    simp only [KernelState.held, he, Option.toList_some, singleton_append, nodup_cons] at hd
    exact hd.1
  have hl : leaving runtime (.ExecutionDone executionId connection) = [executionId] := by
    simp [leaving, he]
  have ha : accepted runtime (.ExecutionDone executionId connection) = [] := rfl
  constructor
  · have hk : ∀ id ∈ runtime.state.waiting, id ≠ executionId := fun id hm heq =>
      ho (heq ▸ hm)
    rw [hl, ha, append_nil, eq_comm]
    refine filter_eq_self.mpr fun id hm => ?_
    simpa using hk id hm
  · simp [hl, he, Runtime.finish]
  · rfl

theorem moves_clearQueue (hd : runtime.state.held.Nodup) :
    Moves runtime .ClearQueue (perform runtime .ClearQueue) := by
  have ha : accepted runtime .ClearQueue = [] := rfl
  constructor
  · rw [leaving_clearQueue, ha, append_nil, eq_comm]
    exact filter_eq_nil_iff.mpr fun id hm => by simpa using hm
  · rw [leaving_clearQueue, eq_comm]
    refine filter_eq_self.mpr fun id hm => ?_
    have ho := (nodup_append.mp hd).2.2 id hm
    simpa using fun hw => ho id hw rfl
  · rfl

theorem perform_moves (hd : runtime.state.held.Nodup) (event : KernelEvent) :
    ∃ middle, Moves runtime event middle ∧
      (perform runtime event = middle ∨ Starts middle (perform runtime event)) := by
  cases event with
  | QueueCell executionId cellId source connection =>
    by_cases hm : executionId ∈ runtime.state.held
    · have hs : perform runtime (.QueueCell executionId cellId source connection) = runtime := by
        rcases mem_held_iff.mp hm with he | hw
        · simp [perform, Runtime.queueCell, he]
        · simp [perform, Runtime.queueCell, hw]
      refine ⟨runtime, moves_of_same rfl (by simp [accepted, hm]) rfl rfl rfl, .inl hs⟩
    · have ho := not_or.mp (mt mem_held_iff.mpr hm)
      refine ⟨runtime.enqueue executionId cellId source, ?_, ?_⟩
      · constructor
        · simp [leaving, accepted, hm, Runtime.enqueue, KernelState.waiting]
        · simp [leaving, Runtime.enqueue]
        · rfl
      · simp only [perform, Runtime.queueCell, if_neg ho.1, if_neg ho.2]
        exact processNext_starts connection _
  | ProcessNext connection =>
    exact ⟨runtime, moves_of_same rfl rfl rfl rfl rfl, processNext_starts connection runtime⟩
  | ExecutionDone executionId connection =>
    by_cases he : runtime.state.executing = some executionId
    · refine ⟨_, moves_finish hd he, ?_⟩
      simp only [perform, Runtime.executionDone, if_pos he]
      exact processNext_starts connection _
    · refine ⟨runtime, moves_of_same (by simp [leaving, he]) rfl rfl rfl rfl, .inl ?_⟩
      simp [perform, Runtime.executionDone, he]
  | MarkExecutionError executionId =>
    refine ⟨perform runtime (.MarkExecutionError executionId), moves_of_same rfl rfl ?_ ?_ rfl, .inl rfl⟩
    · simp only [perform, KernelState.markExecutionError]
      split <;> rfl
    · simp only [perform, KernelState.markExecutionError]
      split <;> rfl
  | Interrupt =>
    exact ⟨perform runtime .Interrupt, moves_of_empty leaving_interrupt rfl rfl rfl rfl, .inl rfl⟩
  | KernelIdle _ connection =>
    simp only [perform, Runtime.kernelIdle]
    split
    · exact ⟨runtime.openGate, moves_of_same rfl rfl rfl rfl rfl, processNext_starts connection _⟩
    · exact ⟨runtime, moves_of_same rfl rfl rfl rfl rfl, .inl rfl⟩
  | ClearQueue => exact ⟨_, moves_clearQueue hd, .inl rfl⟩
  | KernelDied =>
    by_cases hdead : runtime.state.status = .Dead || runtime.state.status = .ShuttingDown
    · have hl : leaving runtime .KernelDied = [] := by rw [leaving_kernelDied, if_pos hdead]
      refine ⟨runtime, moves_of_same hl rfl rfl rfl rfl, .inl ?_⟩
      simp only [perform, KernelState.kernelDied, if_pos hdead]
    · have hl : leaving runtime .KernelDied = runtime.state.held := by
        rw [leaving_kernelDied, if_neg hdead]
      refine ⟨perform runtime .KernelDied, moves_of_empty hl rfl ?_ ?_ rfl, .inl rfl⟩
      · simp only [perform, KernelState.kernelDied, if_neg hdead, KernelState.waiting, map_nil]
      · simp only [perform, KernelState.kernelDied, if_neg hdead]
  | Shutdown => exact ⟨perform runtime .Shutdown, moves_of_empty leaving_shutdown rfl rfl rfl rfl, .inl rfl⟩
  | Reset => exact ⟨perform runtime .Reset, moves_of_empty rfl rfl rfl rfl rfl, .inl rfl⟩
  | SetIdle => exact ⟨perform runtime .SetIdle, moves_of_same rfl rfl rfl rfl rfl, .inl rfl⟩

theorem leavesFor_closed (event : KernelEvent) : (leavesFor event).isOpen = false := by
  cases event <;> rfl

theorem accepted_cases (runtime : Runtime) (event : KernelEvent) : accepted runtime event = [] ∨
      ∃ executionId, accepted runtime event = [executionId] ∧ leaving runtime event = [] ∧
        executionId ∉ runtime.state.held := by
  cases event with
  | QueueCell executionId =>
    by_cases hm : executionId ∈ runtime.state.held
    · exact .inl (if_pos hm)
    · exact .inr ⟨executionId, if_neg hm, rfl, hm⟩
  | _ => exact .inl rfl

theorem sent_of_moves (hm : Moves runtime event middle) : sent runtime middle = [] := by
  simp [sent, hm.requests]

theorem conserved_moves (hc : Conserved history) (hm : Moves history.runtime event middle) :
    ((accepted history.runtime event).foldl (fun ledger id => ledger.accept id)
      (history.ledger.close (leaving history.runtime event) (leavesFor event))).Balanced
      (history.reports ++ (leaving history.runtime event).map fun id => (id, leavesFor event))
      middle.state.waiting middle.state.executing.toList (middle.requests.map Prod.fst) := by
  have hclosed := Ledger.Balanced.close hc (leavesFor_closed event)
    (leaving_sublist history.runtime event)
  rw [hm.waiting, hm.executing, hm.requests]
  rcases accepted_cases history.runtime event with ha | ⟨_, ha, hl, hf⟩
  · rw [ha, append_nil]
    exact hclosed
  · rw [ha]
    refine hclosed.accept ?_
    simpa [hl, KernelState.held] using hf

theorem conserved_advance (hc : Conserved history) (event : KernelEvent) :
    Conserved (advance history event) := by
  obtain ⟨middle, hm, ha | ⟨cell, queue, answer, hq, he, ha⟩⟩ :=
    perform_moves hc.nodup event
  · have hb := conserved_moves hc hm
    simp only [advance, ha, sent_of_moves hm]
    exact hb
  · -- the first waiting cell goes from the queue to the empty slot
    have hb := conserved_moves hc hm
    have hw : middle.state.waiting = cell.executionId :: queue.map (·.executionId) := by
      simp [KernelState.waiting, hq]
    rw [hw, he] at hb
    have hs : sent history.runtime (middle.start cell queue answer) = [cell.executionId] := by
      simp [sent, Runtime.start, hm.requests]
    simp only [Conserved, advance, ha, hs]
    simpa [Runtime.start, KernelState.waiting] using hb.start

-- Every acceptance has one place, the state holds the waiting ones and the executing one, and every
-- id that left was reported once.
theorem queue_conserved (doc : RuntimeStateDoc) (events : List KernelEvent) :
    Conserved (.run doc events) ∧ (History.run doc events).runtime = events.foldl perform (.new doc) ∧
      (History.run doc events).runtime.state.held.Nodup := by
  have hrun : ∀ history : History, Conserved history →
      Conserved (events.foldl advance history) ∧
        (events.foldl advance history).runtime = events.foldl perform history.runtime := by
    induction events with
    | nil => exact fun history hc => ⟨hc, rfl⟩
    | cons event _ ih =>
      intro history hc
      exact ih _ (conserved_advance hc event)
  obtain ⟨hc, hr⟩ := hrun (.new doc) Ledger.balanced_empty
  exact ⟨hc, hr, hc.nodup⟩

end Nteract.Kernel
