import Nteract.Agent.Theorems

namespace Nteract.Agent

open RuntimeDoc Kernel Lib.Transition Relation Option

inductive Advances : ExecutionStatus → ExecutionStatus → Prop
  | Start : Advances .Queued .Running
  | Succeed : Advances .Running .Done
  | Fail : Advances .Running .Error
  | Cancel : Advances .Queued .Cancelled

def flagOf : ExecutionStatus → Option Bool
  | .Queued => none
  | .Running => none
  | .Done => some true
  | .Error => some false
  | .Cancelled => none

def Consistent (entry : ExecutionState) : Prop := entry.success = flagOf entry.status

def Flagged (doc : RuntimeStateDoc) : Prop :=
  ∀ executionId entry, doc.getExecution executionId = some entry → Consistent entry

-- Every execution of the first document is in the second, further along or the same.
def Follows (doc later : RuntimeStateDoc) : Prop :=
  ∀ executionId entry, doc.getExecution executionId = some entry →
    ∃ next, later.getExecution executionId = some next ∧
      ReflTransGen Advances entry.status next.status

-- The agent is the only writer of statuses.
structure OnlyAdds (doc merged : RuntimeStateDoc) : Prop where
  keeps : ∀ executionId entry, doc.getExecution executionId = some entry →
    ∃ same, merged.getExecution executionId = some same ∧ same.status = entry.status ∧
      same.success = entry.success
  adds : ∀ executionId entry, doc.getExecution executionId = none →
    merged.getExecution executionId = some entry → Consistent entry

-- No launch fails for good while a kernel is there and the queue machine holds work.
def Orderly (session : Session) : AgentEvent → Prop
  | .Request (.LaunchKernel (.Failed kind _) _) =>
    coordinatorMayRetry kind = true ∨ session.kernel = none ∨ session.state.held = []
  | .RuntimeStateSync merged _ => OnlyAdds session.doc merged
  | _ => True

def statusOf (doc : RuntimeStateDoc) (executionId : ExecutionId) : Option ExecutionStatus :=
  (doc.getExecution executionId).map (·.status)

-- Without a kernel it is work that a failed restart left behind, resolved already.
def slotStatus (session : Session) : ExecutionStatus :=
  if session.kernel.isSome then .Running else .Error

def queueStatus (session : Session) : ExecutionStatus :=
  if session.kernel.isSome then .Queued else .Cancelled

structure Tracked (session : Session) : Prop where
  flagged : Flagged session.doc
  executing : ∀ executionId, session.state.executing = some executionId →
    statusOf session.doc executionId = some (slotStatus session)
  waiting : ∀ executionId ∈ session.state.waiting,
    statusOf session.doc executionId = some (queueStatus session)

structure Evolves (doc later : RuntimeStateDoc) : Prop where
  follows : Follows doc later
  flagged : Flagged doc → Flagged later

variable {doc last : RuntimeStateDoc} {executionId : ExecutionId} {session : Session}

theorem Evolves.refl (doc : RuntimeStateDoc) : Evolves doc doc :=
  ⟨fun _ entry he => ⟨entry, he, .refl⟩, fun hf => hf⟩

theorem Evolves.trans (h₁ : Evolves doc later) (h₂ : Evolves later last) : Evolves doc last := by
  refine ⟨?_, fun hf => h₂.flagged (h₁.flagged hf)⟩
  intro id entry he
  obtain ⟨next, hn, hs⟩ := h₁.follows id entry he
  obtain ⟨final, hf, ht⟩ := h₂.follows id next hn
  exact ⟨final, hf, hs.trans ht⟩

theorem evolves_of_eq (he : ∀ id, later.getExecution id = doc.getExecution id) :
    Evolves doc later := by
  refine ⟨fun id entry h => ⟨entry, (he id).trans h, .refl⟩, fun hf id entry h => ?_⟩
  exact hf id entry ((he id).symm.trans h)

def EntryMoves (entry next : ExecutionState) : Prop :=
  ReflTransGen Advances entry.status next.status ∧ (Consistent entry → Consistent next)

theorem evolves_of_map (change : ExecutionId → ExecutionState → ExecutionState)
    (hc : ∀ id entry, doc.getExecution id = some entry → EntryMoves entry (change id entry))
    (hd : ∀ id, later.getExecution id = (doc.getExecution id).map (change id)) :
    Evolves doc later := by
  constructor
  · intro id entry he
    exact ⟨change id entry, by rw [hd, he]; rfl, (hc id entry he).1⟩
  · intro hf id next hn
    rw [hd, map_eq_some_iff] at hn
    obtain ⟨entry, he, rfl⟩ := hn
    exact (hc id entry he).2 (hf id entry he)

theorem statusOf_eq (hs : statusOf doc executionId = some status) :
    ∃ entry, doc.getExecution executionId = some entry ∧ entry.status = status :=
  map_eq_some_iff.mp hs

@[simp] theorem statusOf_setQueue (executing : Option ExecutionId) (queued : List ExecutionId) :
    statusOf (doc.setQueue executing queued) executionId = statusOf doc executionId := by
  simp [statusOf]

theorem statusOf_setExecutionRunning : statusOf (doc.setExecutionRunning other) executionId =
      if executionId = other then (statusOf doc executionId).map fun _ => .Running
      else statusOf doc executionId := by
  unfold statusOf
  rw [RuntimeStateDoc.getExecution_setExecutionRunning]
  split
  · rw [Option.map_map, Option.map_map]
    rfl
  · rfl

theorem statusOf_setExecutionDone_ne (success : Bool) (hne : executionId ≠ other) :
    statusOf (doc.setExecutionDone other success) executionId = statusOf doc executionId := by
  unfold statusOf
  rw [RuntimeStateDoc.getExecution_setExecutionDone, if_neg hne]

theorem evolves_setQueue (executing : Option ExecutionId) (queued : List ExecutionId) :
    Evolves doc (doc.setQueue executing queued) :=
  evolves_of_eq fun _ => RuntimeStateDoc.getExecution_setQueue executing queued

theorem evolves_of_adjust (change : ExecutionState → ExecutionState)
    (hs : statusOf doc other = some status)
    (hc : ∀ entry, entry.status = status → EntryMoves entry (change entry))
    (hd : ∀ id, later.getExecution id =
      if id = other then (doc.getExecution id).map change else doc.getExecution id) :
    Evolves doc later := by
  refine evolves_of_map (fun id entry => if id = other then change entry else entry) ?_ ?_
  · intro id entry he
    by_cases ho : id = other
    · rw [if_pos ho]
      exact hc entry (by simpa [statusOf, ← ho, he] using hs)
    · rw [if_neg ho]
      exact ⟨.refl, fun hc => hc⟩
  · intro id
    rw [hd]
    by_cases ho : id = other <;> simp [ho]

theorem evolves_setExecutionRunning (hs : statusOf doc other = some .Queued) :
    Evolves doc (doc.setExecutionRunning other) := by
  refine evolves_of_adjust _ hs (fun entry hq => ?_)
    fun _ => RuntimeStateDoc.getExecution_setExecutionRunning
  refine ⟨.single (by rw [hq]; exact .Start), fun hc => ?_⟩
  simpa [Consistent, flagOf, hq] using hc

theorem evolves_setExecutionDone (success : Bool) (hs : statusOf doc other = some .Running) :
    Evolves doc (doc.setExecutionDone other success) := by
  refine evolves_of_adjust _ hs (fun entry hr => ?_)
    fun _ => RuntimeStateDoc.getExecution_setExecutionDone success
  cases success with
  | true => exact ⟨.single (by rw [hr]; exact .Succeed), fun _ => rfl⟩
  | false => exact ⟨.single (by rw [hr]; exact .Fail), fun _ => rfl⟩

theorem moves_abortEntry (entry : ExecutionState) :
    EntryMoves entry (RuntimeStateDoc.abortEntry entry) := by
  obtain ⟨status, _, _, _, _⟩ := entry
  cases status with
  | Running => exact ⟨.single .Fail, fun _ => rfl⟩
  | Queued => exact ⟨.single .Cancel, fun hc => hc⟩
  | _ => exact ⟨.refl, fun hc => hc⟩

theorem evolves_abortInflightExecutions : Evolves doc doc.abortInflightExecutions :=
  evolves_of_map (fun _ => RuntimeStateDoc.abortEntry) (fun _ entry _ => moves_abortEntry entry)
    fun _ => RuntimeStateDoc.getExecution_abortInflightExecutions

def resolved (executing : Option ExecutionId) (queued : List ExecutionId)
    (executionId : ExecutionId) (entry : ExecutionState) : ExecutionState :=
  if executionId ∈ queued then { entry with status := .Cancelled }
  else if executing = some executionId then { entry with status := .Error, success := some false }
  else entry

theorem getExecution_cancel (queued : List ExecutionId) (doc : RuntimeStateDoc) :
    (queued.foldl (fun doc id => doc.setExecutionCancelled id) doc).getExecution executionId =
      (doc.getExecution executionId).map fun entry =>
        if executionId ∈ queued then { entry with status := .Cancelled } else entry := by
  induction queued generalizing doc with
  | nil => simp
  | cons first queued ih =>
    rw [List.foldl_cons, ih, RuntimeStateDoc.getExecution_setExecutionCancelled]
    cases doc.getExecution executionId with
    | none => simp
    | some =>
      by_cases hf : executionId = first <;> simp [hf]

theorem getExecution_resolveLocal (executing : Option ExecutionId) (queued : List ExecutionId)
    (ho : executing = some executionId → executionId ∉ queued) :
    (resolveLocal executing queued doc).getExecution executionId =
      (doc.getExecution executionId).map (resolved executing queued executionId) := by
  unfold resolveLocal
  cases executing with
  | none =>
    rw [getExecution_cancel]
    cases doc.getExecution executionId with
    | none => rfl
    | some => simp [resolved]
  | some running =>
    rw [getExecution_cancel, RuntimeStateDoc.getExecution_setExecutionDone]
    cases doc.getExecution executionId with
    | none => simp
    | some =>
      by_cases hr : executionId = running
      · have hn : executionId ∉ queued := ho (by rw [hr])
        simp [resolved, hr, hr ▸ hn]
      · have hne : running ≠ executionId := fun he => hr he.symm
        simp [resolved, hr, hne]

section Sessions

theorem executing_not_waiting (hr : Ready session)
    (hx : session.state.executing = some executionId) : executionId ∉ session.state.waiting := by
  have hd := hr.distinct
  simp only [KernelState.held, hx, toList_some, List.singleton_append, List.nodup_cons] at hd
  exact hd.1

theorem statusOf_resolveLocal (hr : Ready session)
    (hx : ∀ id, executing = some id → session.state.executing = some id) :
    statusOf (resolveLocal executing session.state.waiting session.doc) executionId =
      (statusOf session.doc executionId).map fun status =>
        if executionId ∈ session.state.waiting then .Cancelled
        else if executing = some executionId then .Error else status := by
  unfold statusOf
  rw [getExecution_resolveLocal _ _ fun hrun => executing_not_waiting hr (hx _ hrun)]
  cases session.doc.getExecution executionId with
  | none => rfl
  | some =>
    simp only [map_some, resolved]
    split
    · rfl
    · split <;> rfl

theorem statusOf_abortInflightExecutions : statusOf doc.abortInflightExecutions executionId =
      (statusOf doc executionId).map fun status =>
        match status with
        | .Running => .Error
        | .Queued => .Cancelled
        | status => status := by
  unfold statusOf
  rw [RuntimeStateDoc.getExecution_abortInflightExecutions]
  cases doc.getExecution executionId with
  | none => rfl
  | some entry =>
    obtain ⟨status, _, _, _, _⟩ := entry
    cases status <;> rfl

theorem tracked_of_empty (hf : Flagged session.doc) (he : session.state.executing = none)
    (hq : session.state.waiting = []) : Tracked session where
  flagged := hf
  executing := by simp [he]
  waiting := by simp [hq]

theorem statusOf_createExecution (hs : statusOf doc other = some .Queued) :
    statusOf (doc.createExecution other) executionId = statusOf doc executionId := by
  obtain ⟨_, hstored, -⟩ := statusOf_eq hs
  unfold statusOf
  rw [RuntimeStateDoc.getExecution_createExecution_of_some hstored]

theorem evolves_createExecution (hs : statusOf doc other = some .Queued) :
    Evolves doc (doc.createExecution other) := by
  obtain ⟨_, hstored, -⟩ := statusOf_eq hs
  exact evolves_of_eq fun _ => RuntimeStateDoc.getExecution_createExecution_of_some hstored

theorem slotStatus_of_kernel (hk : session.kernel.isSome) : slotStatus session = .Running :=
  if_pos hk

theorem queueStatus_of_kernel (hk : session.kernel.isSome) : queueStatus session = .Queued :=
  if_pos hk

theorem evolves_of_onlyAdds (ha : OnlyAdds doc later) : Evolves doc later := by
  constructor
  · intro id entry he
    obtain ⟨same, hs, hstatus, -⟩ := ha.keeps id entry he
    exact ⟨same, hs, by rw [hstatus]⟩
  · intro hf id entry he
    cases hd : doc.getExecution id with
    | none => exact ha.adds id entry hd he
    | some stored =>
      obtain ⟨_, hs, hstatus, hsuccess⟩ := ha.keeps id stored hd
      rw [he, some.injEq] at hs
      have hc : stored.success = flagOf stored.status := hf id stored hd
      unfold Consistent
      rw [hs, hstatus, hsuccess, hc]

theorem statusOf_of_onlyAdds (ha : OnlyAdds doc later)
    (hs : statusOf doc executionId = some status) : statusOf later executionId = some status := by
  obtain ⟨entry, he, rfl⟩ := statusOf_eq hs
  obtain ⟨_, hsame, hstatus, -⟩ := ha.keeps executionId entry he
  simp [statusOf, hsame, hstatus]

theorem map_executionId_interrupt (state : KernelState) :
    state.interrupt.1.1.map QueueEntry.executionId = state.executing := by
  simp [KernelState.interrupt, queueEntry, Function.comp_def]

theorem doc_interrupted : session.interrupted.2.doc =
    resolveInterruptedExecutions session.state.executing session.state.waiting session.doc := by
  have hd : session.interrupted.2.doc = resolveInterruptedExecutions
      (session.state.interrupt.1.1.map QueueEntry.executionId)
      (session.state.queuedEntries.map QueueEntry.executionId) session.doc := rfl
  rw [hd, map_executionId_interrupt, waiting_of_queuedEntries]

theorem doc_shutdownKernel : session.shutdownKernel.doc =
    resolveInterruptedExecutions session.state.executing session.state.waiting session.doc := by
  have hd : session.shutdownKernel.doc = resolveInterruptedExecutions session.state.executing
      (session.state.queuedEntries.map QueueEntry.executionId) session.doc := rfl
  rw [hd, waiting_of_queuedEntries]

-- The entries to be handed over are distinct and queued in the evolved document.
def Scanning (first : RuntimeStateDoc) (queued : List (ExecutionId × ExecutionState))
    (session : Session) : Prop :=
  Tracked session ∧ Evolves first session.doc ∧ (queued.map Prod.fst).Nodup ∧
    ∀ entry ∈ queued, statusOf session.doc entry.1 = some .Queued

variable (ht : Tracked session) (hr : Ready session)

include ht

theorem moves_resolved (hx : ∀ id, executing = some id → session.state.executing = some id)
    (he : session.doc.getExecution executionId = some entry) :
    EntryMoves entry (resolved executing session.state.waiting executionId entry) := by
  have hs : statusOf session.doc executionId = some entry.status := by simp [statusOf, he]
  unfold resolved
  by_cases hw : executionId ∈ session.state.waiting
  · rw [if_pos hw]
    have hq := ht.waiting executionId hw
    rw [hs, some.injEq] at hq
    unfold queueStatus at hq
    split at hq
    · exact ⟨.single (by rw [hq]; exact .Cancel), fun hc => by
        simpa [Consistent, flagOf, hq] using hc⟩
    · exact ⟨by rw [hq], fun hc => by simpa [Consistent, flagOf, hq] using hc⟩
  · rw [if_neg hw]
    by_cases hr : executing = some executionId
    · rw [if_pos hr]
      have hq := ht.executing executionId (hx executionId hr)
      rw [hs, some.injEq] at hq
      unfold slotStatus at hq
      split at hq
      · exact ⟨.single (by rw [hq]; exact .Fail), fun _ => rfl⟩
      · exact ⟨by rw [hq], fun _ => rfl⟩
    · rw [if_neg hr]
      exact ⟨.refl, fun hc => hc⟩

theorem Tracked.withQueue (executing : Option ExecutionId) (queued : List ExecutionId) :
    Tracked (session.setDoc (session.doc.setQueue executing queued)) where
  flagged := (evolves_setQueue executing queued).flagged ht.flagged
  executing := fun id he => (statusOf_setQueue _ _).trans (ht.executing id he)
  waiting := fun id hm => (statusOf_setQueue _ _).trans (ht.waiting id hm)

theorem tracked_swept (seen : List ExecutionId) :
    Tracked ({ session with kernel := none, seenExecutionIds := seen }.setDoc
      session.doc.abortInflightExecutions) := by
  refine ⟨evolves_abortInflightExecutions.flagged ht.flagged, ?_, ?_⟩
  · intro id he
    refine statusOf_abortInflightExecutions.trans ?_
    rw [ht.executing id he]
    unfold slotStatus
    split <;> rfl
  · intro id hm
    refine statusOf_abortInflightExecutions.trans ?_
    rw [ht.waiting id hm]
    unfold queueStatus
    split <;> rfl

theorem tracked_submitted (hk : session.kernel.isSome)
    (hq : statusOf session.doc queued.1 = some .Queued)
    (hs : Submitted connection session queued after) :
    Tracked after ∧ Evolves session.doc after.doc ∧
      ∀ id, id ≠ queued.1 → statusOf after.doc id = statusOf session.doc id := by
  cases hs with
  | Skipped => exact ⟨ht, .refl _, fun _ _ => rfl⟩
  | Held => exact ⟨⟨ht.flagged, ht.executing, ht.waiting⟩, .refl _, fun _ _ => rfl⟩
  | Behind source =>
    have hev : Evolves session.doc (queuedBehind queued source session).doc :=
      (evolves_createExecution hq).trans (evolves_setQueue _ _)
    have hsame : ∀ id, statusOf (queuedBehind queued source session).doc id =
        statusOf session.doc id := by
      intro id
      exact (statusOf_setQueue _ _).trans (statusOf_createExecution hq)
    refine ⟨⟨hev.flagged ht.flagged, ?_, ?_⟩, hev, fun id _ => hsame id⟩
    · intro id he
      rw [hsame]
      exact ht.executing id he
    · intro id hm
      have hm' : id ∈ session.state.waiting ∨ id = queued.1 := by
        simpa [queuedBehind, Runtime.enqueue, Session.state, KernelState.waiting] using hm
      rw [hsame]
      rcases hm' with hm' | rfl
      · exact ht.waiting id hm'
      · rw [hq]
        exact congrArg some (queueStatus_of_kernel hk).symm
  | Sent source =>
    have hc : statusOf (session.runtime.enqueue queued.1 queued.2.cellId source).doc
        queued.1 = some .Queued :=
      ((statusOf_setQueue _ _).trans (statusOf_createExecution hq)).trans hq
    have hev : Evolves session.doc (sentAtOnce queued source connection session).doc :=
      ((evolves_createExecution hq).trans (evolves_setQueue _ _)).trans
        ((evolves_setExecutionRunning hc).trans (evolves_setQueue _ _))
    have hstatus : ∀ id, statusOf (sentAtOnce queued source connection session).doc id =
        if id = queued.1 then some .Running else statusOf session.doc id := by
      intro id
      refine (statusOf_setQueue _ _).trans ?_
      rw [statusOf_setExecutionRunning]
      by_cases hid : id = queued.1
      · rw [if_pos hid, if_pos hid, hid]
        exact congrArg (Option.map _) hc
      · rw [if_neg hid, if_neg hid]
        exact (statusOf_setQueue _ _).trans (statusOf_createExecution hq)
    refine ⟨⟨hev.flagged ht.flagged, ?_, fun _ h => by cases h⟩, hev, fun id hne => by rw [hstatus, if_neg hne]⟩
    intro id he
    have he' : queued.1 = id := some.inj he
    rw [hstatus, if_pos he'.symm]
    exact congrArg some (slotStatus_of_kernel hk).symm

theorem tracked_merged (ha : OnlyAdds session.doc later) : Tracked (session.setDoc later) where
  flagged := (evolves_of_onlyAdds ha).flagged ht.flagged
  executing := fun id he => statusOf_of_onlyAdds ha (ht.executing id he)
  waiting := fun id hm => statusOf_of_onlyAdds ha (ht.waiting id hm)

include hr

theorem evolves_resolveLocal (hx : ∀ id, executing = some id → session.state.executing = some id) :
    Evolves session.doc (resolveLocal executing session.state.waiting session.doc) :=
  evolves_of_map _ (fun _ _ he => moves_resolved ht hx he)
    fun id => getExecution_resolveLocal _ _ fun hrun => executing_not_waiting hr (hx id hrun)

theorem tracked_resolved (seen : List ExecutionId) :
    Tracked ({ session with kernel := none, seenExecutionIds := seen }.setDoc
      (resolveLocal session.state.executing session.state.waiting session.doc)) := by
  have hs := fun id => @statusOf_resolveLocal id session session.state.executing hr fun _ he => he
  refine ⟨(evolves_resolveLocal ht hr fun _ he => he).flagged ht.flagged, ?_, ?_⟩
  · intro id he
    have hx : session.state.executing = some id := he
    refine (hs id).trans ?_
    rw [ht.executing id hx, map_some, if_neg (executing_not_waiting hr hx), if_pos hx]
    rfl
  · intro id hm
    have hw : id ∈ session.state.waiting := hm
    refine (hs id).trans ?_
    rw [ht.waiting id hw, map_some, if_pos hw]
    rfl

theorem tracked_tearDown : Tracked session.tearDown :=
  (tracked_swept (tracked_resolved ht hr []) []).withQueue none []

theorem evolves_resolveInterruptedExecutions : Evolves session.doc
      (resolveInterruptedExecutions session.state.executing session.state.waiting session.doc) :=
  (evolves_resolveLocal ht hr fun _ he => he).trans
    (evolves_abortInflightExecutions.trans (evolves_setQueue none []))

-- The first waiting cell starts after a change that keeps the waiting ones.
theorem tracked_front {runtime : Runtime}
    (hk : session.kernel.isSome) (hq : session.state.queue = cell :: queue)
    (hev : Evolves session.doc runtime.doc)
    (hsame : ∀ id ∈ session.state.waiting, statusOf runtime.doc id = statusOf session.doc id) :
    Tracked { session with runtime := runtime.start cell queue answer } ∧
      Evolves session.doc (runtime.start cell queue answer).doc := by
  have hw : session.state.waiting = cell.executionId :: queue.map (·.executionId) := by
    simp [KernelState.waiting, hq]
  have hf : cell.executionId ∈ session.state.waiting := by simp [hw]
  have hqueued : ∀ id ∈ session.state.waiting, statusOf runtime.doc id = some .Queued := by
    intro id hm
    rw [hsame id hm, ht.waiting id hm, queueStatus_of_kernel hk]
  have hstart : Evolves session.doc (runtime.start cell queue answer).doc :=
    hev.trans ((evolves_setExecutionRunning (hqueued _ hf)).trans (evolves_setQueue _ _))
  have hs : ∀ id, statusOf (runtime.start cell queue answer).doc id =
      if id = cell.executionId then (statusOf runtime.doc id).map fun _ => .Running
      else statusOf runtime.doc id := by
    intro id
    exact (statusOf_setQueue _ _).trans statusOf_setExecutionRunning
  refine ⟨⟨hstart.flagged ht.flagged, ?_, ?_⟩, hstart⟩
  · intro id he
    have he' : cell.executionId = id := some.inj he
    have hid : id ∈ session.state.waiting := he' ▸ hf
    simp only [Session.doc, hs, if_pos he'.symm, hqueued id hid]
    exact congrArg some (slotStatus_of_kernel hk).symm
  · intro id hm
    have hm' : id ∈ queue.map (·.executionId) := hm
    have hid : id ∈ session.state.waiting := by simp [hw, hm']
    have hn := hr.waiting_nodup
    rw [hw, List.nodup_cons] at hn
    have hne : id ≠ cell.executionId := fun he => hn.1 (he ▸ hm')
    simp only [Session.doc, hs, if_neg hne, hqueued id hid]
    exact congrArg some (queueStatus_of_kernel hk).symm

theorem tracked_progressed {after : Runtime}
    (hk : session.kernel.isSome) (hp : Progressed connection session.runtime after) :
    Tracked { session with runtime := after } ∧ Evolves session.doc after.doc := by
  -- the finished execution was running, and does not wait
  have hf : ∀ id, session.state.executing = some id →
      Evolves session.doc (session.runtime.finish id).doc ∧
      ∀ other ∈ session.state.waiting,
        statusOf (session.runtime.finish id).doc other = statusOf session.doc other := by
    intro id he
    have hrunning : statusOf session.doc id = some .Running := by
      rw [ht.executing id he, slotStatus_of_kernel hk]
    refine ⟨(evolves_setExecutionDone _ hrunning).trans (evolves_setQueue _ _), ?_⟩
    intro other hm
    have hne : other ≠ id := fun hid => executing_not_waiting hr he (hid ▸ hm)
    exact (statusOf_setQueue _ _).trans (statusOf_setExecutionDone_ne _ hne)
  cases hp with
  | Same => exact ⟨ht, .refl _⟩
  | Finished id he =>
    obtain ⟨hev, hs⟩ := hf id he
    refine ⟨⟨hev.flagged ht.flagged, nofun, ?_⟩, hev⟩
    intro other hm
    exact (hs other hm).trans (ht.waiting other hm)
  | FinishedNext id _ _ he hq =>
    obtain ⟨hev, hs⟩ := hf id he
    exact tracked_front ht hr hk hq hev hs
  | Opened => exact ⟨⟨ht.flagged, ht.executing, ht.waiting⟩, .refl _⟩
  | OpenedNext _ _ _ hq =>
    exact tracked_front ht hr hk hq (.refl session.doc) fun _ _ => rfl

omit ht hr in
theorem scanning_submitted (hk : session.kernel.isSome)
    (hp : Scanning first (queued :: rest) session)
    (hs : Submitted connection session queued after) : Scanning first rest after := by
  obtain ⟨ht, hev, hn, hq⟩ := hp
  rw [List.map_cons, List.nodup_cons] at hn
  rw [List.forall_mem_cons] at hq
  obtain ⟨ht', hev', hsame⟩ := tracked_submitted ht hk hq.1 hs
  refine ⟨ht', hev.trans hev', hn.2, ?_⟩
  intro entry hm
  have hne : entry.1 ≠ queued.1 := fun he => hn.1 (he ▸ List.mem_map_of_mem hm)
  rw [hsame entry.1 hne]
  exact hq.2 entry hm

theorem tracked_scan :
    Tracked (session.queueSyncedExecutions session.doc.getQueuedExecutions connection) ∧
      Evolves session.doc
        (session.queueSyncedExecutions session.doc.getQueuedExecutions connection).doc := by
  unfold Session.queueSyncedExecutions
  cases hk : session.kernel with
  | none => exact ⟨ht, .refl _⟩
  | some =>
    have hsome : session.kernel.isSome := by simp [hk]
    have hp : Scanning session.doc session.doc.getQueuedExecutions session := by
      refine ⟨ht, .refl _, RuntimeStateDoc.nodup_getQueuedExecutions _, ?_⟩
      intro entry hm
      obtain ⟨hg, hq⟩ := RuntimeStateDoc.mem_getQueuedExecutions.mp hm
      simp [statusOf, hg, hq]
    obtain ⟨⟨ht', hev, -, -⟩, -⟩ := foldl_submit (Scanning session.doc)
      (fun _ _ _ _ _ hk hp hs => scanning_submitted hk hp hs) hr hsome hp
    exact ⟨ht', hev⟩

-- The sweep comes first here. What the queue machine then names is already resolved.
theorem tracked_kernelDied (hs : session.state.status ≠ .ShuttingDown) :
    Tracked { session.kernelDied with seenExecutionIds := [] } ∧
      Evolves session.doc session.kernelDied.doc := by
  have hswept := tracked_swept ht []
  have hready : Ready ({ session with kernel := none, seenExecutionIds := [] }.setDoc
      session.doc.abortInflightExecutions) := (hr.withoutKernel []).withDoc _
  by_cases hd : session.state.status = .Dead
  · have hdied : session.kernelDied = ({ session with kernel := none }).setDoc
        (session.doc.abortInflightExecutions.setQueue none []) := by
      unfold Session.kernelDied KernelState.kernelDied
      simp only [hd]
      rfl
    rw [hdied]
    exact ⟨hswept.withQueue none [],
      evolves_abortInflightExecutions.trans (evolves_setQueue none [])⟩
  · have hdied : session.kernelDied = (({ session with kernel := none }).setState
          { session.state with queue := [], executing := none, status := .Dead }).setDoc
        ((resolveLocal session.state.executing session.state.waiting
          session.doc.abortInflightExecutions).setQueue none []) := by
      unfold Session.kernelDied KernelState.kernelDied
      rw [← waiting_of_queuedEntries]
      simp [hd, hs]
    have hev : Evolves session.doc session.kernelDied.doc := by
      rw [hdied]
      exact evolves_abortInflightExecutions.trans
        ((evolves_resolveLocal hswept hready fun _ he => he).trans (evolves_setQueue none []))
    refine ⟨tracked_of_empty (hev.flagged ht.flagged) ?_ ?_, hev⟩
    · simp only [hdied]
      rfl
    · simp only [hdied]
      rfl

theorem tracked_cellError :
    Tracked ((session.setState { session.state with executionHadError := true, queue := [] }).setDoc
        ((resolveLocal none session.state.waiting session.doc).setQueue none [])) ∧
      Evolves session.doc
        ((resolveLocal none session.state.waiting session.doc).setQueue none []) := by
  have hn : ∀ id, (none : Option ExecutionId) = some id → session.state.executing = some id := by
    simp
  have hev : Evolves session.doc
      ((resolveLocal none session.state.waiting session.doc).setQueue none []) :=
    (evolves_resolveLocal ht hr hn).trans (evolves_setQueue none [])
  refine ⟨⟨hev.flagged ht.flagged, ?_, nofun⟩, hev⟩
  intro id he
  -- the failing execution keeps the slot, and does not wait
  have hx : session.state.executing = some id := he
  refine (statusOf_setQueue _ _).trans ?_
  rw [statusOf_resolveLocal hr hn, ht.executing id hx]
  simp only [if_neg (executing_not_waiting hr hx)]
  rfl

theorem tracked_handled (ho : Orderly session event)
    (hh : Handled session event after) : Tracked after ∧ Evolves session.doc after.doc := by
  cases hh with
  | Kept => exact ⟨ht, .refl _⟩
  | Launched kernel =>
    have hready : Ready { session.adopt kernel with seenExecutionIds := [] } :=
      ready_of_empty rfl (@ready_adopt session kernel).stopped
    have he : Tracked { session.adopt kernel with seenExecutionIds := [] } :=
      tracked_of_empty ht.flagged rfl rfl
    exact tracked_scan he hready
  | LaunchFailed _ _ _ hk =>
    refine ⟨?_, evolves_abortInflightExecutions⟩
    have hc : session.kernel = none ∨ session.state.held = [] := by
      rcases ho with hretry | hc
      · rw [hk] at hretry
        cases hretry
      · exact hc
    rcases hc with hn | hheld
    · have hsame : ({ session with kernel := none, seenExecutionIds := session.seenExecutionIds } :
          Session) = session := by rw [← hn]
      have hswept := tracked_swept ht session.seenExecutionIds
      rw [hsame] at hswept
      exact hswept
    · have hparts : session.state.executing = none ∧ session.state.waiting = [] := by
        simpa [KernelState.held] using hheld
      exact tracked_of_empty (evolves_abortInflightExecutions.flagged ht.flagged) hparts.1 hparts.2
  | Restarted =>
    have hev := evolves_resolveInterruptedExecutions ht hr
    exact ⟨tracked_of_empty (hev.flagged ht.flagged) rfl rfl, hev⟩
  | RestartFailed =>
    have htorn := tracked_tearDown ht hr
    have hev := evolves_resolveInterruptedExecutions ht hr
    unfold Session.recordFailure
    split
    · exact ⟨htorn, hev⟩
    · exact ⟨tracked_swept htorn [], hev.trans evolves_abortInflightExecutions⟩
  | Interrupted =>
    have hev := evolves_resolveInterruptedExecutions ht hr
    rw [← doc_interrupted] at hev
    exact ⟨tracked_of_empty (hev.flagged ht.flagged) rfl rfl, hev⟩
  | Shutdown =>
    have hev := evolves_resolveInterruptedExecutions ht hr
    rw [← doc_shutdownKernel] at hev
    exact ⟨tracked_of_empty (hev.flagged ht.flagged) rfl rfl, hev⟩
  | Synced merged =>
    have ha : OnlyAdds session.doc merged := ho
    obtain ⟨hscan, hev⟩ := tracked_scan (tracked_merged ht ha) (hr.withDoc merged)
    exact ⟨hscan, (evolves_of_onlyAdds ha).trans hev⟩
  | Progress _ _ _ hk hp => exact tracked_progressed ht hr hk hp
  | Failed => exact tracked_cellError ht hr
  | Expected => exact ⟨⟨ht.flagged, ht.executing, ht.waiting⟩, .refl _⟩
  | Died hs => exact tracked_kernelDied ht hr hs

theorem tracked_handle (ho : Orderly session event) :
    Tracked (handle session event) ∧ Evolves session.doc (handle session event).doc :=
  handle_rule (fun after => Tracked after ∧ Evolves session.doc after.doc)
    (fun _ ⟨ht, hev⟩ => ⟨⟨ht.flagged, ht.executing, ht.waiting⟩, hev⟩)
    fun _ => tracked_handled ht hr ho

end Sessions

theorem run_tracked {last : Session} (hrun : Run (Guarded AgentStep Orderly) session events last)
    (ht : Tracked session) (hr : Ready session) :
    (Tracked last ∧ Ready last) ∧ Evolves session.doc last.doc := by
  induction hrun with
  | nil => exact ⟨⟨ht, hr⟩, .refl _⟩
  | cons hs _ ih =>
    obtain ⟨ho, rfl⟩ := hs
    obtain ⟨ht', hev⟩ := tracked_handle ht hr ho
    obtain ⟨hl, hrest⟩ := ih ht' (ready_handle hr _)
    exact ⟨hl, hev.trans hrest⟩

theorem lifecycle_monotone {doc : RuntimeStateDoc} {earlier events : List AgentEvent}
    {first last : Session} (hd : Flagged doc)
    (hfirst : Run (Guarded AgentStep Orderly) (.new doc) earlier first)
    (hlater : Run (Guarded AgentStep Orderly) first events last) :
    Follows first.doc last.doc ∧ Flagged last.doc := by
  have hn : Tracked (.new doc) := tracked_of_empty hd rfl rfl
  obtain ⟨⟨ht, hr⟩, -⟩ := run_tracked hfirst hn (ready_new doc)
  obtain ⟨⟨ht', -⟩, hev⟩ := run_tracked hlater ht hr
  exact ⟨hev.follows, ht'.flagged⟩

theorem flagged_queuedDocument (executionIds : List ExecutionId) :
    Flagged (queuedDocument executionIds) := by
  have hfold : ∀ doc : RuntimeStateDoc, Flagged doc →
      Flagged (executionIds.foldl (fun doc executionId =>
        { doc with
          executions := doc.executions.add executionId ⟨.Queued, none, some "1", none, some 1⟩ })
        doc) := by
    induction executionIds with
    | nil => exact fun _ hf => hf
    | cons first _ ih =>
      intro doc hf
      refine ih _ fun id entry he => ?_
      unfold RuntimeStateDoc.getExecution at he
      rw [Lib.Table.find_add] at he
      split at he
      · rw [some.injEq] at he
        cases hd : doc.executions.find first with
        | none =>
          rw [hd] at he
          rw [← he]
          rfl
        | some stored =>
          rw [hd] at he
          exact he ▸ hf first stored hd
      · exact hf id entry he
  exact hfold .new fun _ _ h => by cases h

def DONE : AgentEvent := .Signal (.ExecutionDone "a" takes)

theorem done_moves_both :
    Follows (handle (.new (queuedDocument ["a", "b"])) LAUNCH).doc
        (handle (handle (.new (queuedDocument ["a", "b"])) LAUNCH) DONE).doc ∧
      Flagged (handle (handle (.new (queuedDocument ["a", "b"])) LAUNCH) DONE).doc :=
  @lifecycle_monotone (queuedDocument ["a", "b"]) [LAUNCH] [DONE] _ _
    (flagged_queuedDocument ["a", "b"]) (.cons ⟨trivial, rfl⟩ (.nil _))
    (.cons ⟨trivial, rfl⟩ (.nil _))

-- The queues of the agent and the statuses in the document never drift apart.
theorem queues_tracked {last : Session} (hd : Flagged doc)
    (hrun : Run (Guarded AgentStep Orderly) (.new doc) events last) :
    (∀ executionId, last.state.executing = some executionId →
      statusOf last.doc executionId = some (slotStatus last)) ∧
    ∀ executionId ∈ last.state.waiting,
      statusOf last.doc executionId = some (queueStatus last) := by
  have hn : Tracked (.new doc) := tracked_of_empty hd rfl rfl
  obtain ⟨⟨ht, -⟩, -⟩ := run_tracked hrun hn (ready_new doc)
  exact ⟨ht.executing, ht.waiting⟩

theorem launch_tracks_both :
    let last := handle (.new (queuedDocument ["a", "b"])) LAUNCH
    statusOf last.doc "a" = some .Running ∧ statusOf last.doc "b" = some .Queued := by
  intro last
  have hrun : Run (Guarded AgentStep Orderly) _ [LAUNCH] last := .cons ⟨trivial, rfl⟩ (.nil _)
  have ht := queues_tracked (flagged_queuedDocument ["a", "b"]) hrun
  exact ⟨ht.1 "a" (by decide), ht.2 "b" (by decide)⟩

def UNSUPPORTED : AgentEvent :=
  .Request (.LaunchKernel (.Failed .Unsupported "unsupported kernel type: sparql") takes)

-- A second launch fails for good: "a" and "b" are resolved, the queue machine goes on.
def SWEPT : Session := handle (handle (.new (queuedDocument ["a", "b"])) LAUNCH) UNSUPPORTED

-- An execution that failed is done afterwards, and a cancelled one runs.
theorem terminal_launch_failure_revives :
    Run AgentStep (.new (queuedDocument ["a", "b"])) [LAUNCH, UNSUPPORTED] SWEPT ∧
    Run AgentStep SWEPT [DONE] (handle SWEPT DONE) ∧
    statusOf SWEPT.doc "a" = some .Error ∧ statusOf SWEPT.doc "b" = some .Cancelled ∧
    statusOf (handle SWEPT DONE).doc "a" = some .Done ∧
    statusOf (handle SWEPT DONE).doc "b" = some .Running ∧
    ¬ Follows SWEPT.doc (handle SWEPT DONE).doc := by
  have ha : statusOf SWEPT.doc "a" = some .Error := by decide
  have hd : statusOf (handle SWEPT DONE).doc "a" = some .Done := by decide
  refine ⟨.cons rfl (.cons rfl (.nil _)), .cons rfl (.nil _), ha, by decide, hd, by decide, ?_⟩
  intro hf
  obtain ⟨entry, he, hs⟩ := statusOf_eq ha
  obtain ⟨next, hn, hm⟩ := hf "a" entry he
  have hnext : next.status = .Done := by simpa [statusOf, hn] using hd
  rw [hs, hnext] at hm
  -- nothing leaves the failed state
  rcases hm.cases_head with heq | ⟨_, hstep, _⟩
  · cases heq
  · cases hstep

end Nteract.Agent
